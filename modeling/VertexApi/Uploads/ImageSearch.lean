import Mathlib.Data.List.TakeWhile
import VertexApi.Core.Search
import VertexApi.Uploads.Markdown

/-!
# The search for images

What the pattern of an image takes, and that the images of a text are those of a search from
left to right.
-/

namespace VertexApi.Uploads

/-- `](https://`. -/
def targetStart : List Char := "](https://".toList

section Pattern

variable {chars url after : List Char}

/-- A target is an address without white space and closing parentheses, and not an empty one. -/
theorem matchTarget_eq_some : matchTarget chars = some (url, after) ↔
    ∃ address, chars = targetStart ++ (address ++ ')' :: after) ∧
      url = "https://".toList ++ address ∧ address ≠ [] ∧
      ∀ c ∈ address, isAddressChar c = true := by
  constructor
  · intro h
    simp only [matchTarget] at h
    split at h
    · next hstart =>
      obtain ⟨rest, rfl⟩ := List.isPrefixOf_iff_prefix.mp hstart
      have hdrop : (targetStart ++ rest).drop 10 = rest := List.drop_left' (by decide)
      rw [show "](https://".toList = targetStart from rfl, hdrop] at h
      split at h
      · next rest' hrest =>
        split at h
        · cases h
        · next hne =>
          obtain ⟨rfl, rfl⟩ := Prod.mk.inj (Option.some.inj h)
          refine ⟨rest.takeWhile isAddressChar, ?_, rfl, hne, fun c => List.mem_takeWhile_imp⟩
          rw [← hrest, List.takeWhile_append_dropWhile]
          rfl
      · cases h
    · cases h
  · rintro ⟨address, rfl, rfl, hne, haddress⟩
    have hstart : "](https://".toList.isPrefixOf (targetStart ++ (address ++ ')' :: after)) =
        true := List.isPrefixOf_iff_prefix.mpr (List.prefix_append targetStart _)
    have hdrop : (targetStart ++ (address ++ ')' :: after)).drop 10 = address ++ ')' :: after :=
      List.drop_left' (by decide)
    have hparenthesis : ¬ isAddressChar ')' = true := by decide
    simp only [matchTarget, if_pos hstart, hdrop, List.takeWhile_append_of_pos haddress,
      List.dropWhile_append_of_pos haddress, List.takeWhile_cons_of_neg hparenthesis,
      List.dropWhile_cons_of_neg hparenthesis, List.append_nil]
    exact if_neg hne

/-- A target starts with a bracket. -/
theorem matchTarget_cons_of_ne {c : Char} (h : c ≠ ']') : matchTarget (c :: chars) = none := by
  have hstart : ¬ "](https://".toList.isPrefixOf (c :: chars) = true := by
    intro hprefix
    obtain ⟨rest, hrest⟩ := List.isPrefixOf_iff_prefix.mp hprefix
    exact h (List.cons.inj hrest).1.symm
  rw [matchTarget, if_neg hstart]

/-- The alternative text of an image ends at the first target, and stays on its line. -/
theorem matchAlternative_eq_some : matchAlternative chars = some (url, after) ↔
    ∃ alt target, chars = alt ++ target ∧ matchTarget target = some (url, after) ∧
      (∀ c ∈ alt, isLineTerminator c = false) ∧
      ∀ former c later, alt = former ++ c :: later → matchTarget (c :: later ++ target) = none := by
  constructor
  · intro h
    induction chars with
    | nil => cases h
    | cons c chars ih =>
      rw [matchAlternative] at h
      split at h
      · next found hfound =>
        obtain rfl := Option.some.inj h
        exact ⟨[], c :: chars, rfl, hfound, List.forall_mem_nil _, by simp⟩
      · next hnone =>
        split at h
        · cases h
        · next hterminator =>
          obtain ⟨alt, target, rfl, htarget, halt, hfirst⟩ := ih h
          refine ⟨c :: alt, target, rfl, htarget,
            List.forall_mem_cons.mpr ⟨(Bool.not_eq_true _).mp hterminator, halt⟩, ?_⟩
          intro former d later hsplit
          cases former with
          | nil =>
            obtain ⟨rfl, rfl⟩ := List.cons.inj hsplit
            exact hnone
          | cons e former => exact hfirst former d later (List.cons.inj hsplit).2
  · rintro ⟨alt, target, rfl, htarget, halt, hfirst⟩
    induction alt with
    | nil =>
      cases target with
      | nil => cases htarget
      | cons c target => rw [List.nil_append, matchAlternative, htarget]
    | cons c alt ih =>
      obtain ⟨hterminator, hrest⟩ := List.forall_mem_cons.mp halt
      have hnone : matchTarget (c :: (alt ++ target)) = none := hfirst [] c alt rfl
      rw [List.cons_append, matchAlternative, hnone]
      simp only [hterminator, Bool.false_eq_true, if_false]
      exact ih hrest fun former d later hsplit => hfirst (c :: former) d later (by rw [hsplit]; rfl)

/-- An image begins with an exclamation mark and a bracket. -/
theorem matchImage_eq_some : matchImage chars = some (url, after) ↔
    ∃ rest, chars = '!' :: '[' :: rest ∧ matchAlternative rest = some (url, after) := by
  constructor
  · intro h
    rw [matchImage.eq_def] at h
    split at h
    · next rest => exact ⟨rest, rfl, h⟩
    · cases h
  · rintro ⟨rest, rfl, h⟩
    exact h

/-- An alternative text and an address make an image. -/
theorem matchImage_append {alt address : List Char}
    (halt : ∀ c ∈ alt, c ≠ ']' ∧ isLineTerminator c = false) (hne : address ≠ [])
    (haddress : ∀ c ∈ address, isAddressChar c = true) :
    matchImage ('!' :: '[' :: (alt ++ (']' :: '(' ::
      ("https://".toList ++ address ++ ')' :: after)))) =
      some ("https://".toList ++ address, after) := by
  refine matchImage_eq_some.mpr ⟨_, rfl, matchAlternative_eq_some.mpr ⟨alt, _, rfl,
    matchTarget_eq_some.mpr ⟨address, ?_, rfl, hne, haddress⟩, fun c hc => (halt c hc).2, ?_⟩⟩
  · rw [List.append_assoc]
    rfl
  · rintro former c later rfl
    exact matchTarget_cons_of_ne (halt c (by simp)).1

/-- No image starts with anything else. -/
theorem matchImage_eq_none {c : Char} (h : c = '!' → chars.head? ≠ some '[') :
    matchImage (c :: chars) = none := by
  rw [Option.eq_none_iff_forall_ne_some]
  rintro ⟨url, after⟩ himage
  obtain ⟨rest, heq, -⟩ := matchImage_eq_some.mp himage
  obtain ⟨rfl, rfl⟩ := List.cons.inj heq
  exact h rfl rfl

/-- What follows an image stands behind it. -/
theorem suffix_of_matchImage {c : Char} (h : matchImage (c :: chars) = some (url, after)) :
    after <:+ chars := by
  obtain ⟨rest, heq, halternative⟩ := matchImage_eq_some.mp h
  obtain ⟨alt, target, rfl, htarget, -⟩ := matchAlternative_eq_some.mp halternative
  obtain ⟨address, rfl, -, -⟩ := matchTarget_eq_some.mp htarget
  obtain ⟨-, rfl⟩ := List.cons.inj heq
  refine ⟨'[' :: (alt ++ (targetStart ++ (address ++ [')']))), ?_⟩
  simp only [List.cons_append, List.append_assoc, List.nil_append]

/-- The address of an image has neither white space nor a closing parenthesis. -/
theorem isAddressChar_of_matchImage (h : matchImage chars = some (url, after)) :
    ∀ c ∈ url, isAddressChar c = true := by
  obtain ⟨rest, -, halternative⟩ := matchImage_eq_some.mp h
  obtain ⟨alt, target, -, htarget, -⟩ := matchAlternative_eq_some.mp halternative
  obtain ⟨address, -, rfl, -, haddress⟩ := matchTarget_eq_some.mp htarget
  exact List.forall_mem_append.mpr ⟨List.all_eq_true.mp (by decide), haddress⟩

end Pattern

/-- The search for images moves on by the characters of the last one. -/
theorem matchImages_eq_drop (skipped : Nat) (chars : List Char) :
    matchImages skipped chars = matchImages 0 (chars.drop skipped) := by
  induction skipped generalizing chars with
  | zero => rfl
  | succ skipped ih =>
    cases chars with
    | nil => rfl
    | cons c chars => exact ih chars

/-- The images of a text are those of a search. -/
theorem finds_matchImages (chars : List Char) : Finds matchImage chars (matchImages 0 chars) := by
  induction hlength : chars.length using Nat.strongRecOn generalizing chars with
  | _ length ih =>
    cases chars with
    | nil => exact .nil rfl
    | cons c chars =>
      rw [matchImages]
      split
      · next hnone =>
        exact .skip hnone (ih chars.length (by rw [← hlength]; exact Nat.lt_succ_self _) chars rfl)
      · next url after himage =>
        have hsuffix := suffix_of_matchImage himage
        have hlt : after.length < length := by
          rw [← hlength]
          exact Nat.lt_succ_of_le hsuffix.length_le
        refine .find himage ?_
        rw [matchImages_eq_drop, ← List.suffix_iff_eq_drop.mp hsuffix]
        exact ih after.length hlt after rfl

/-- The images that a text shows. -/
theorem mem_markdownImageUrls {content url : String} : url ∈ markdownImageUrls content ↔
    ∃ place after, ScansTo matchImage content.toList place ∧
      matchImage place = some (url.toList, after) := by
  rw [← (finds_matchImages content.toList).mem_iff, markdownImageUrls, List.mem_map]
  constructor
  · rintro ⟨found, hfound, rfl⟩
    rwa [String.toList_ofList]
  · exact fun hurl => ⟨_, hurl, String.ofList_toList⟩

/-- The address of an image has neither white space nor a closing parenthesis. -/
theorem isAddressChar_of_mem {content url : String} (h : url ∈ markdownImageUrls content) :
    ∀ c ∈ url.toList, isAddressChar c = true := by
  obtain ⟨place, after, -, himage⟩ := mem_markdownImageUrls.mp h
  exact isAddressChar_of_matchImage himage

end VertexApi.Uploads
