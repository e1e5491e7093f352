import Mathlib.Algebra.Order.Ring.Rat
import Mathlib.Data.Nat.Cast.Order.Basic
import VertexApi.Common.JsString
import VertexApi.Core.Fill

/-!
# Wrapped text

The text part of an e-mail has its paragraphs broken into lines between words. The lines give
the paragraph back, only a word that is too long on its own goes over the width, and no other
lines are fewer.
-/

namespace VertexApi.Email

open JsString

/-- The lines with one more word. -/
def addWord (width : ℚ) (lines : List String) (word : String) : List String :=
  match lines.getLast? with
  | some last =>
    if (length last + 1 + length word : ℚ) ≤ width then
      lines.dropLast ++ [last ++ " " ++ word]
    else lines ++ [word]
  | none => lines ++ [word]

/-- The lines of a paragraph. -/
def wrapText (paragraph : String) (width : ℚ) : List String :=
  (split paragraph ' ').foldl (addWord width) []

/-- The line of some words. -/
def lineOf (words : List String) : String := " ".intercalate words

/-- The words are cut into lines of which only single words are longer than the width. -/
def Wraps (width : ℚ) (words : List String) (lines : List (List String)) : Prop :=
  lines.flatten = words ∧
    ∀ line ∈ lines, width < length (lineOf line) → ∃ word, line = [word]

/-- Words make a line within the width. -/
def fitsIn (width : ℚ) (words : List String) : Bool := (length (lineOf words) : ℚ) ≤ width

@[simp] theorem lineOf_singleton (word : String) : lineOf [word] = word :=
  String.intercalate_singleton

/-- Words behind words, with a space in between. -/
theorem lineOf_append {former latter : List String} (hformer : former ≠ [])
    (hlatter : latter ≠ []) :
    lineOf (former ++ latter) = lineOf former ++ " " ++ lineOf latter :=
  String.intercalate_append_of_ne_nil hformer hlatter

/-- The lines of blocks of words make the line of all of them. -/
theorem lineOf_map_lineOf {lines : List (List String)} (h : ∀ line ∈ lines, line ≠ []) :
    lineOf (lines.map lineOf) = lineOf lines.flatten := by
  induction lines with
  | nil => rfl
  | cons line lines ih =>
    have hlines := ih fun l hl => h l (List.mem_cons_of_mem line hl)
    cases lines with
    | nil => simp
    | cons next lines =>
      have hnext : (next :: lines).flatten ≠ [] := by
        have hne := h next (List.mem_cons_of_mem line (List.mem_cons_self ..))
        simp [hne]
      rw [List.map_cons, ← List.singleton_append,
        lineOf_append (List.cons_ne_nil _ _) (by simp), hlines, lineOf_singleton,
        ← lineOf_append (h line (List.mem_cons_self ..)) hnext, ← List.flatten_cons]

/-- The words of a paragraph make the paragraph. -/
theorem lineOf_split (paragraph : String) : lineOf (split paragraph ' ') = paragraph := by
  refine String.ext ?_
  rw [lineOf, String.toList_intercalate, split, List.map_map]
  have hwords : (paragraph.toList.splitOn ' ').map (String.toList ∘ String.ofList) =
      paragraph.toList.splitOn ' ' := by simp [Function.comp_def]
  rw [hwords]
  exact List.intercalate_splitOn ' '

/-- The length of a text in two parts. -/
theorem length_append (former latter : String) :
    length (former ++ latter) = length former + length latter := by
  have hstart : ∀ (chars : List Char) (units : Nat),
      chars.foldl (fun units c => units + if c.toNat < 0x10000 then 1 else 2) units =
        units + chars.foldl (fun units c => units + if c.toNat < 0x10000 then 1 else 2) 0 := by
    intro chars
    induction chars with
    | nil => exact fun units => rfl
    | cons c chars ih =>
      intro units
      rw [List.foldl_cons, List.foldl_cons, ih, ih (0 + _)]
      omega
  rw [length, String.toList_append, List.foldl_append, hstart]
  rfl

/-- A line is at least as long as the ones it goes on from and ends with. -/
theorem length_lineOf_append (former latter : List String) :
    length (lineOf former) ≤ length (lineOf (former ++ latter)) ∧
      length (lineOf latter) ≤ length (lineOf (former ++ latter)) := by
  by_cases hformer : former = []
  · subst hformer
    exact ⟨Nat.zero_le _, Nat.le_refl _⟩
  · by_cases hlatter : latter = []
    · subst hlatter
      rw [List.append_nil]
      exact ⟨Nat.le_refl _, Nat.zero_le _⟩
    · rw [lineOf_append hformer hlatter, length_append, length_append]
      omega

/-- Words within the width are so in parts. -/
theorem fitsInParts_fitsIn (width : ℚ) : FitsInParts (fitsIn width) := by
  rintro part words ⟨former, latter, rfl⟩ hwords
  have hpart : length (lineOf part) ≤ length (lineOf (former ++ part ++ latter)) :=
    ((length_lineOf_append former part).2).trans (length_lineOf_append (former ++ part) latter).1
  rw [fitsIn, decide_eq_true_eq] at hwords ⊢
  exact (Nat.cast_le.mpr hpart).trans hwords

/-- Joined lines get one more word as their blocks do. -/
theorem addWord_map_lineOf (width : ℚ) {lines : List (List String)}
    (h : ∀ line ∈ lines, line ≠ []) (word : String) :
    addWord width (lines.map lineOf) word = (extendLast (fitsIn width) lines word).map lineOf := by
  rcases List.eq_nil_or_concat lines with rfl | ⟨former, last, rfl⟩
  · simp [addWord]
  · rw [List.concat_eq_append] at h ⊢
    have hlast : last ≠ [] := h last (List.mem_append_right former (List.mem_singleton_self last))
    have hjoined : lineOf (last ++ [word]) = lineOf last ++ " " ++ word := by
      rw [lineOf_append hlast (List.cons_ne_nil word []), lineOf_singleton]
    have hfits : fitsIn width (last ++ [word]) = true ↔
        (length (lineOf last) + 1 + length word : ℚ) ≤ width := by
      rw [fitsIn, decide_eq_true_eq, hjoined, length_append, length_append,
        show length " " = 1 from rfl]
      norm_cast
    simp only [addWord, List.map_append, List.map_cons, List.map_nil, List.getLast?_concat,
      List.dropLast_concat, extendLast_concat]
    by_cases hwidth : (length (lineOf last) + 1 + length word : ℚ) ≤ width
    · rw [if_pos hwidth, if_pos (hfits.mpr hwidth), List.map_singleton, hjoined]
    · rw [if_neg hwidth, if_neg (mt hfits.mp hwidth)]
      simp

/-- No block of the filling is empty. -/
theorem ne_nil_of_mem_fill {width : ℚ} {words line : List String}
    (h : line ∈ fill (fitsIn width) words) : line ≠ [] := by
  rcases mem_fill h with ⟨word, rfl⟩ | ⟨hne, -⟩
  · exact List.cons_ne_nil word []
  · exact hne

/-- The lines are those of the greedy filling. -/
theorem wrapText_eq_fill (paragraph : String) (width : ℚ) :
    wrapText paragraph width = (fill (fitsIn width) (split paragraph ' ')).map lineOf := by
  rw [wrapText]
  induction split paragraph ' ' using List.reverseRecOn with
  | nil => rfl
  | append_singleton words word ih =>
    rw [List.foldl_concat, ih, fill_concat,
      addWord_map_lineOf width fun line => ne_nil_of_mem_fill]

/-- The filling only lets single words be longer than the width. -/
theorem wraps_fill (width : ℚ) (words : List String) :
    Wraps width words (fill (fitsIn width) words) := by
  refine ⟨flatten_fill words, fun line hline hlong => ?_⟩
  rcases mem_fill hline with hword | ⟨-, hfits⟩
  · exact hword
  · exact absurd (of_decide_eq_true hfits) (not_le.mpr hlong)

/-- The filling has the fewest lines. -/
theorem length_fill_le_of_wraps {width : ℚ} {words : List String} {lines : List (List String)}
    (h : Wraps width words lines) : (fill (fitsIn width) words).length ≤ lines.length := by
  obtain ⟨rfl, hlong⟩ := h
  refine length_fill_le (fitsInParts_fitsIn width) fun line hline => ?_
  by_cases hwidth : (length (lineOf line) : ℚ) ≤ width
  · exact .inr (decide_eq_true hwidth)
  · obtain ⟨word, rfl⟩ := hlong line hline (not_le.mp hwidth)
    exact .inl (Nat.le_refl 1)

/-- Wrapping a paragraph loses nothing, goes over the width with single words only, and no other
lines with these words, in this order, and only single words over the width are fewer. -/
theorem wrapText_optimal (paragraph : String) (width : ℚ) :
    lineOf (wrapText paragraph width) = paragraph ∧
      (∀ line ∈ wrapText paragraph width, width < length line → line ∈ split paragraph ' ') ∧
      ∃ lines, wrapText paragraph width = lines.map lineOf ∧
        Wraps width (split paragraph ' ') lines ∧
        ∀ others, Wraps width (split paragraph ' ') others →
          (wrapText paragraph width).length ≤ others.length := by
  have hwraps := wraps_fill width (split paragraph ' ')
  rw [wrapText_eq_fill]
  refine ⟨?_, fun line hline hlong => ?_, _, rfl, hwraps, fun others hothers => ?_⟩
  · rw [lineOf_map_lineOf fun line => ne_nil_of_mem_fill, hwraps.1, lineOf_split]
  · obtain ⟨words, hwords, rfl⟩ := List.mem_map.mp hline
    obtain ⟨word, rfl⟩ := hwraps.2 words hwords hlong
    rw [lineOf_singleton, ← hwraps.1]
    exact List.mem_flatten_of_mem hwords (List.mem_singleton_self word)
  · rw [List.length_map]
    exact length_fill_le_of_wraps hothers

example : wrapText "a supercalifragilistic  b" 8 = ["a", "supercalifragilistic", " b"] := by
  decide +kernel

end VertexApi.Email
