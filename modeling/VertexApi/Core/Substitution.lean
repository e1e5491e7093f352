import Mathlib.Data.List.Basic

/-!
# Replacement of a pattern

A replacement scans a text from left to right and puts another text in the place of every
occurrence of the pattern that it meets. On a text that is spelled word by word it respells one
of the words, as long as no occurrence starts within another word.
-/

namespace VertexApi

universe u v

section Substitution

variable {α : Type u} {β : Type v}

/-- No occurrence of the pattern starts within the word, whatever follows it. -/
def StartsOutside (pattern word : List α) : Prop :=
  ∀ former a latter rest, word = former ++ a :: latter → ¬ pattern <+: a :: latter ++ rest

section Words

variable {word : List α} {mark : α} {later : List α}

/-- A word without the first symbol of the pattern holds no start of it. -/
theorem startsOutside_of_notMem (h : mark ∉ word) :
    StartsOutside (mark :: later) word := by
  rintro former a latter rest rfl hprefix
  have ha : mark = a := (List.cons_prefix_cons.mp hprefix).1
  exact h (ha ▸ List.mem_append_right former (List.mem_cons_self ..))

/-- Of two words with the same mark in front, neither of which goes on from the other, none
starts within the other. -/
theorem startsOutside_of_incomparable (hmark : mark ∉ word)
    (hshort : ¬ later <+: word) (hlong : ¬ word <+: later) :
    StartsOutside (mark :: later) (mark :: word) := by
  intro former a latter rest hsplit hprefix
  cases former with
  | nil =>
    obtain ⟨rfl, rfl⟩ := List.cons.inj hsplit
    have hlater : later <+: word ++ rest := (List.cons_prefix_cons.mp hprefix).2
    rcases List.prefix_or_prefix_of_prefix hlater (List.prefix_append word rest) with h | h
    · exact hshort h
    · exact hlong h
  | cons b former =>
    exact startsOutside_of_notMem hmark former a latter rest (List.cons.inj hsplit).2 hprefix

end Words

variable [DecidableEq α]

/-- The scan, with so many symbols left of the occurrence that it is in. -/
def substituteFrom (pattern replacement : List α) : Nat → List α → List α
  | _, [] => []
  | left + 1, _ :: text => substituteFrom pattern replacement left text
  | 0, a :: text =>
    if pattern.isPrefixOf (a :: text) then
      replacement ++ substituteFrom pattern replacement (pattern.length - 1) text
    else a :: substituteFrom pattern replacement 0 text

/-- The text with every occurrence of a pattern that is not empty replaced. -/
def substitute (pattern replacement text : List α) : List α :=
  substituteFrom pattern replacement 0 text

variable {pattern replacement word : List α}

@[simp] theorem substitute_nil : substitute pattern replacement [] = [] := rfl

/-- Within an occurrence the scan passes over the text. -/
theorem substituteFrom_eq (left : Nat) (text : List α) :
    substituteFrom pattern replacement left text =
      substitute pattern replacement (text.drop left) := by
  induction left generalizing text with
  | zero => rfl
  | succ left ih =>
    cases text with
    | nil => rfl
    | cons a text => exact ih text

/-- An occurrence at the front is replaced. -/
theorem substitute_append_self (hpattern : pattern ≠ []) (text : List α) :
    substitute pattern replacement (pattern ++ text) =
      replacement ++ substitute pattern replacement text := by
  obtain ⟨a, later, rfl⟩ := List.exists_cons_of_ne_nil hpattern
  have hprefix : (a :: later).isPrefixOf (a :: (later ++ text)) = true :=
    List.isPrefixOf_iff_prefix.mpr (List.prefix_append (a :: later) text)
  rw [substitute, List.cons_append, substituteFrom, if_pos hprefix, substituteFrom_eq,
    List.length_cons, Nat.add_sub_cancel, List.drop_left]

/-- Where no occurrence starts the scan moves on. -/
theorem substitute_cons {a : α} {text : List α} (h : ¬ pattern <+: a :: text) :
    substitute pattern replacement (a :: text) =
      a :: substitute pattern replacement text := by
  rw [substitute, substituteFrom, if_neg (fun hprefix => h (List.isPrefixOf_iff_prefix.mp hprefix))]
  rfl

/-- A word in which no occurrence starts is kept. -/
theorem substitute_append (h : StartsOutside pattern word) (text : List α) :
    substitute pattern replacement (word ++ text) =
      word ++ substitute pattern replacement text := by
  induction word with
  | nil => rfl
  | cons a word ih =>
    have hword : StartsOutside pattern word := fun former b latter rest hsplit =>
      h (a :: former) b latter rest (congrArg (a :: ·) hsplit)
    calc substitute pattern replacement (a :: (word ++ text))
        = a :: substitute pattern replacement (word ++ text) :=
          substitute_cons (h [] a word text rfl)
      _ = a :: (word ++ substitute pattern replacement text) := by rw [ih hword]

/-- A text spelled word by word has one of its words respelled. -/
theorem substitute_flatMap [DecidableEq β] {spelling : β → List α} {b : β}
    (hpattern : spelling b ≠ []) {text : List β}
    (h : ∀ c ∈ text, c ≠ b → StartsOutside (spelling b) (spelling c)) :
    substitute (spelling b) replacement (text.flatMap spelling) =
      text.flatMap fun c => if c = b then replacement else spelling c := by
  induction text with
  | nil => rfl
  | cons c text ih =>
    have htext := ih fun d hd => h d (List.mem_cons_of_mem c hd)
    rw [List.flatMap_cons, List.flatMap_cons]
    by_cases hc : c = b
    · rw [if_pos hc, hc, substitute_append_self hpattern, htext]
    · rw [if_neg hc, substitute_append (h c (List.mem_cons_self ..) hc), htext]

/-- A single symbol is replaced wherever it occurs. -/
theorem substitute_singleton (a : α) (text : List α) :
    substitute [a] replacement text =
      text.flatMap fun c => if c = a then replacement else [c] := by
  have hsymbols : text.flatMap (fun c => [c]) = text := List.flatMap_singleton' text
  have houtside : ∀ c ∈ text, c ≠ a → StartsOutside [a] [c] := by
    intro c _ hc former b latter rest hsplit hprefix
    obtain ⟨-, hb⟩ : former = [] ∧ b = c := by
      cases former with
      | nil => exact ⟨rfl, (List.cons.inj hsplit).1.symm⟩
      | cons d former => simp at hsplit
    exact hc (hb.symm.trans (List.cons_prefix_cons.mp hprefix).1.symm)
  calc substitute [a] replacement text
      = substitute [a] replacement (text.flatMap fun c => [c]) := by rw [hsymbols]
    _ = text.flatMap fun c => if c = a then replacement else [c] :=
        @substitute_flatMap α α _ replacement _ (fun c => [c]) a (List.cons_ne_nil a []) _ houtside

end Substitution

end VertexApi
