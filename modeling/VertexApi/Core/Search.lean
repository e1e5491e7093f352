import Mathlib.Data.List.Basic

/-!
# Search by a pattern

A pattern tells what a text starts with, and what follows it. The search goes through a text
from left to right: where the text does not start with a find it moves on by one symbol, and
otherwise behind the find. It finds what the pattern makes of the places that it gets to.
-/

namespace VertexApi

universe u v

section Search

variable {α : Type u} {β : Type v} (pattern : List α → Option (β × List α))

/-- What the search finds, from left to right. -/
inductive Finds : List α → List β → Prop where
  | nil (h : pattern [] = none) : Finds [] []
  | skip {a : α} {text : List α} {found : List β} (h : pattern (a :: text) = none)
    (hrest : Finds text found) : Finds (a :: text) found
  | find {text rest : List α} {b : β} {found : List β} (h : pattern text = some (b, rest))
    (hrest : Finds rest found) : Finds text (b :: found)

/-- The places that the search gets to, each given by the text from there on. -/
inductive ScansTo : List α → List α → Prop where
  | here (text : List α) : ScansTo text text
  | skip {a : α} {text place : List α} (h : pattern (a :: text) = none)
    (hrest : ScansTo text place) : ScansTo (a :: text) place
  | find {text after place : List α} {b : β} (h : pattern text = some (b, after))
    (hrest : ScansTo after place) : ScansTo text place

namespace Finds

variable {pattern}

/-- There is one search. -/
theorem unique {text : List α} {found found' : List β} (h : Finds pattern text found)
    (h' : Finds pattern text found') : found = found' := by
  induction h generalizing found' with
  | nil h =>
    cases h' with
    | nil => rfl
    | find h' => cases h.symm.trans h'
  | skip h _ ih =>
    cases h' with
    | skip _ hrest => exact ih hrest
    | find h' => cases h.symm.trans h'
  | find h _ ih =>
    cases h' with
    | nil h' => cases h'.symm.trans h
    | skip h' => cases h'.symm.trans h
    | find h' hrest =>
      obtain ⟨rfl, rfl⟩ := Prod.mk.inj (Option.some.inj (h.symm.trans h'))
      rw [ih hrest]

/-- The search passes a text in which no find starts. -/
theorem append {before text : List α} {found : List β}
    (hbefore : ∀ a former later, before = former ++ a :: later →
      pattern (a :: later ++ text) = none) (h : Finds pattern text found) :
    Finds pattern (before ++ text) found := by
  induction before with
  | nil => exact h
  | cons a before ih =>
    refine .skip (hbefore a [] before rfl) (ih fun b former later hsplit => ?_)
    exact hbefore b (a :: former) later (by rw [hsplit, List.cons_append])

/-- What the search finds is what the pattern makes of where it gets to. -/
theorem mem_iff {text : List α} {found : List β} (h : Finds pattern text found) {b : β} :
    b ∈ found ↔ ∃ place after, ScansTo pattern text place ∧ pattern place = some (b, after) := by
  constructor
  · intro hb
    induction h with
    | nil => cases hb
    | skip h _ ih =>
      obtain ⟨place, after, hscans, hplace⟩ := ih hb
      exact ⟨place, after, .skip h hscans, hplace⟩
    | find h _ ih =>
      rcases List.mem_cons.mp hb with rfl | hb
      · exact ⟨_, _, .here _, h⟩
      · obtain ⟨place, after, hscans, hplace⟩ := ih hb
        exact ⟨place, after, .find h hscans, hplace⟩
  · rintro ⟨place, after, hscans, hplace⟩
    induction hscans generalizing found with
    | here =>
      cases h with
      | nil h | skip h => cases h.symm.trans hplace
      | find h =>
        obtain ⟨rfl, -⟩ := Prod.mk.inj (Option.some.inj (h.symm.trans hplace))
        exact List.mem_cons_self ..
    | skip hskip _ ih =>
      cases h with
      | skip _ hrest => exact ih hrest hplace
      | find h => cases hskip.symm.trans h
    | find hfind _ ih =>
      cases h with
      | nil h | skip h => cases h.symm.trans hfind
      | find h hrest =>
        obtain ⟨-, rfl⟩ := Prod.mk.inj (Option.some.inj (h.symm.trans hfind))
        exact List.mem_cons_of_mem _ (ih hrest hplace)

end Finds

end Search

end VertexApi
