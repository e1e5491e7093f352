import VertexApi.Core.Runs
import VertexApi.Posts.PostDto

/-!
# Slugs of names

A name becomes a slug by its letters and digits. What comes out is of the form that the slugs of
posts have, or empty, and the texts of that form are their own slugs.
-/

namespace VertexApi.Common

open JsString Posts

/-- The combining marks of the Latin alphabet. -/
def isDiacritic (c : Char) : Bool := 0x0300 ≤ c.toNat && c.toNat ≤ 0x036F

section Slugify

variable (normalizeNfd toLowerCase : String → String)

/-- The letters and digits that a name has, among other characters. -/
def slugSource (value : String) : String :=
  toLowerCase (String.ofList ((normalizeNfd value).toList.filter fun c => !isDiacritic c))

/-- The slug of a name. -/
def slugify (value : String) : String :=
  let collapsed := collapseRuns isSlugChar '-' false
    (slugSource normalizeNfd toLowerCase value).toList
  String.ofList (trimMarks '-' collapsed)

/-- The characters of slugs by their codes: the digits, and the lower-case letters. -/
theorem isSlugChar_codes {c : Char} (h : isSlugChar c = true) :
    0x30 ≤ c.toNat ∧ c.toNat ≤ 0x39 ∨ 0x61 ≤ c.toNat ∧ c.toNat ≤ 0x7A := by
  have hletter : c.isLower = (decide (0x61 ≤ c.toNat) && decide (c.toNat ≤ 0x7A)) := rfl
  have hdigit : c.isDigit = (decide (0x30 ≤ c.toNat) && decide (c.toNat ≤ 0x39)) := rfl
  rw [isSlugChar, hletter, hdigit] at h
  simp only [Bool.or_eq_true, Bool.and_eq_true, decide_eq_true_eq] at h
  exact h.symm

/-- The characters of slugs are no combining marks. -/
theorem notMem_diacritics {c : Char} (h : isSlugChar c ∨ c = '-') : isDiacritic c = false := by
  have hbound : c.toNat < 0x0300 := by
    rcases h with h | rfl
    · have hcodes := isSlugChar_codes h
      omega
    · decide
  rw [isDiacritic, decide_eq_false (Nat.not_le.mpr hbound), Bool.false_and]

/-- The form of slugs, as words. -/
theorem isSlug_iff (text : String) :
    isSlug text = true ↔ joinsWords isSlugChar '-' false text.toList = true := by
  rw [(joinsWords_iff_splitOn (by decide) text.toList).1]
  simp [isSlug, split]

/-- The result is a slug unless it is empty. -/
theorem slugify_eq_empty_or_isSlug (value : String) :
    slugify normalizeNfd toLowerCase value = "" ∨
      isSlug (slugify normalizeNfd toLowerCase value) := by
  by_cases hempty : slugify normalizeNfd toLowerCase value = ""
  · exact .inl hempty
  · rw [isSlug_iff, slugify, String.toList_ofList]
    refine .inr (joinsWords_trimMarks (by decide) _ fun h => hempty ?_)
    rw [slugify, h, String.ofList_nil]

/-- The result is empty when there is no letter and no digit. -/
theorem slugify_eq_empty_iff (value : String) : slugify normalizeNfd toLowerCase value = "" ↔
    ∀ c ∈ (slugSource normalizeNfd toLowerCase value).toList, isSlugChar c = false := by
  have hmark : isSlugChar '-' = false := by decide
  rw [← trimMarks_eq_nil_iff hmark, slugify, ← String.toList_inj, String.toList_ofList,
    String.toList_empty]

variable {normalizeNfd toLowerCase}

section Ascii

variable (hnormalize : ∀ text : String, (∀ c ∈ text.toList, isSlugChar c ∨ c = '-') →
    normalizeNfd text = text)
  (hlower : ∀ text : String, (∀ c ∈ text.toList, isSlugChar c ∨ c = '-') →
    toLowerCase text = text)
include hnormalize hlower

/-- Lower-case letters, digits and dashes are looked at as they are. -/
theorem slugSource_eq_self {value : String} (h : ∀ c ∈ value.toList, isSlugChar c ∨ c = '-') :
    slugSource normalizeNfd toLowerCase value = value := by
  have hmarks : value.toList.filter (fun c => !isDiacritic c) = value.toList := by
    refine List.filter_eq_self.mpr fun c hc => ?_
    rw [notMem_diacritics (h c hc), Bool.not_false]
  rw [slugSource, hnormalize value h, hmarks, String.ofList_toList, hlower value h]

/-- The empty text and the slugs are their own slugs. -/
theorem slugify_eq_self {value : String} (h : value = "" ∨ isSlug value) :
    slugify normalizeNfd toLowerCase value = value := by
  rcases h with rfl | h
  · rw [slugify, slugSource_eq_self hnormalize hlower (by simp)]
    rfl
  · rw [isSlug_iff] at h
    rw [slugify, slugSource_eq_self hnormalize hlower fun c => mem_of_joinsWords h,
      trimMarks_of_joinsWords (by decide) h, String.ofList_toList]

/-- With normalisation and lower-casing that keep lower-case letters, digits and dashes, a name
becomes a slug, or the empty text when it has no letter and no digit, and the texts that stay are
the empty one and the slugs. -/
theorem slugify_lands_in_grammar :
    (∀ value, slugify normalizeNfd toLowerCase value = "" ∨
      isSlug (slugify normalizeNfd toLowerCase value) = true) ∧
    (∀ value, slugify normalizeNfd toLowerCase value = "" ↔
      ∀ c ∈ (toLowerCase (String.ofList ((normalizeNfd value).toList.filter fun c =>
        !isDiacritic c))).toList, isSlugChar c = false) ∧
    (∀ value, slugify normalizeNfd toLowerCase value = value ↔
      value = "" ∨ isSlug value = true) ∧
    ∀ value, slugify normalizeNfd toLowerCase (slugify normalizeNfd toLowerCase value) =
      slugify normalizeNfd toLowerCase value := by
  have hform := slugify_eq_empty_or_isSlug normalizeNfd toLowerCase
  refine ⟨hform, slugify_eq_empty_iff normalizeNfd toLowerCase, fun value => ⟨?_, ?_⟩,
    fun value => slugify_eq_self hnormalize hlower (hform value)⟩
  · intro hself
    exact hself ▸ hform value
  · exact slugify_eq_self hnormalize hlower

end Ascii

/-- Lower-casing of text without other letters than those of the English alphabet. -/
def asciiLowerCase (text : String) : String := text.map Char.toLower

/-- Lower-casing keeps what is lower-case. -/
theorem asciiLowerCase_eq_self {text : String} (h : ∀ c ∈ text.toList, isSlugChar c ∨ c = '-') :
    asciiLowerCase text = text := by
  refine String.ext ?_
  rw [asciiLowerCase, String.toList_map]
  refine (List.map_congr_left fun c hc => ?_).trans (List.map_id text.toList)
  have hupper : ¬ (0x41 ≤ c.toNat ∧ c.toNat ≤ 0x5A) := by
    rcases h c hc with h | rfl
    · have hcodes := isSlugChar_codes h
      omega
    · decide
  exact dif_neg hupper

/-- A name in English that is a slug already. -/
theorem slugify_lands_in_grammar_english :
    slugify id asciiLowerCase "next-js-16" = "next-js-16" :=
  ((slugify_lands_in_grammar (fun _ _ => rfl) fun _ => asciiLowerCase_eq_self).2.2.1
    "next-js-16").mpr (.inr (by decide +kernel))

example : slugify id asciiLowerCase "  --Next.js & 16--  " = "next-js-16" := by decide +kernel

end Slugify

end VertexApi.Common
