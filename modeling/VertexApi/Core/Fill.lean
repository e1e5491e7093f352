import Mathlib.Data.List.Infix
import Mathlib.Data.List.Induction

/-!
# Greedy filling

A text is cut into blocks from left to right: a word joins the last block while that fits, and
opens a block of its own otherwise. When every part of a block that fits does fit as well, no
other way to cut the text gets by with fewer blocks.
-/

namespace VertexApi

universe u

section Fill

variable {α : Type u} (fits : List α → Bool)

/-- The blocks with one more word. -/
def extendLast (blocks : List (List α)) (a : α) : List (List α) :=
  match blocks.getLast? with
  | some last =>
    if fits (last ++ [a]) then blocks.dropLast ++ [last ++ [a]] else blocks ++ [[a]]
  | none => blocks ++ [[a]]

/-- The blocks of a text. -/
def fill (text : List α) : List (List α) := text.foldl (extendLast fits) []

/-- How many blocks are opened behind the last one. -/
def opened : List α → List α → Nat
  | _, [] => 0
  | last, a :: text =>
    if fits (last ++ [a]) then opened (last ++ [a]) text else opened [a] text + 1

/-- What fits, fits in parts. -/
def FitsInParts : Prop := ∀ ⦃part block : List α⦄, part <:+: block → fits block → fits part

@[simp] theorem extendLast_nil (a : α) : extendLast fits [] a = [[a]] := rfl

@[simp] theorem extendLast_concat (blocks : List (List α)) (last : List α) (a : α) :
    extendLast fits (blocks ++ [last]) a =
      blocks ++ if fits (last ++ [a]) then [last ++ [a]] else [last, [a]] := by
  simp only [extendLast, List.getLast?_concat, List.dropLast_concat]
  split <;> simp

@[simp] theorem fill_concat (text : List α) (a : α) :
    fill fits (text ++ [a]) = extendLast fits (fill fits text) a := List.foldl_concat ..

variable {fits}

/-- One more word is added behind the others. -/
theorem flatten_extendLast (blocks : List (List α)) (a : α) :
    (extendLast fits blocks a).flatten = blocks.flatten ++ [a] := by
  rcases List.eq_nil_or_concat blocks with rfl | ⟨former, last, rfl⟩
  · rfl
  · rw [List.concat_eq_append, extendLast_concat]
    split <;> simp

/-- The blocks hold the text. -/
theorem flatten_fill (text : List α) : (fill fits text).flatten = text := by
  induction text using List.reverseRecOn with
  | nil => rfl
  | append_singleton text a ih => rw [fill_concat, flatten_extendLast, ih]

/-- A block is a single word or fits. -/
theorem mem_fill {text block : List α} (h : block ∈ fill fits text) :
    (∃ a, block = [a]) ∨ block ≠ [] ∧ fits block := by
  induction text using List.reverseRecOn with
  | nil => cases h
  | append_singleton text a ih =>
    rw [fill_concat] at h
    rcases List.eq_nil_or_concat (fill fits text) with hnil | ⟨former, last, hblocks⟩
    · rw [hnil, extendLast_nil, List.mem_singleton] at h
      exact .inl ⟨a, h⟩
    · rw [hblocks, List.concat_eq_append, extendLast_concat, List.mem_append] at h
      rw [hblocks, List.concat_eq_append, List.mem_append] at ih
      rcases h with h | h
      · exact ih (.inl h)
      · split at h
        · next hfits =>
          obtain rfl := List.mem_singleton.mp h
          exact .inr ⟨List.append_ne_nil_of_right_ne_nil last (List.cons_ne_nil a []), hfits⟩
        · rcases List.mem_pair.mp h with rfl | rfl
          · exact ih (.inr (List.mem_singleton_self block))
          · exact .inl ⟨a, rfl⟩

/-- The number of blocks, from the last one on. -/
theorem length_foldl_extendLast (blocks : List (List α)) (last text : List α) :
    (text.foldl (extendLast fits) (blocks ++ [last])).length =
      blocks.length + 1 + opened fits last text := by
  induction text generalizing blocks last with
  | nil => simp [opened]
  | cons a text ih =>
    rw [List.foldl_cons, extendLast_concat, opened]
    split
    · exact ih blocks (last ++ [a])
    · rw [show blocks ++ [last, [a]] = (blocks ++ [last]) ++ [[a]] by simp, ih, List.length_append]
      simp only [List.length_cons, List.length_nil]
      omega

/-- Behind an end of the last block no more blocks are opened than behind the whole of it, and at
most one less. -/
theorem opened_suffix (hparts : FitsInParts fits) {part last : List α} (hpart : part <:+ last)
    (text : List α) : opened fits part text ≤ opened fits last text ∧
      opened fits last text ≤ opened fits part text + 1 := by
  induction text generalizing part last with
  | nil => simp [opened]
  | cons a text ih =>
    have hlonger : part ++ [a] <:+ last ++ [a] := (List.suffix_append_inj_of_length_eq rfl).mpr
      ⟨hpart, rfl⟩
    have hword : [a] <:+ part ++ [a] := List.suffix_append part [a]
    simp only [opened]
    by_cases hlast : fits (last ++ [a])
    · have hfits : fits (part ++ [a]) := hparts hlonger.isInfix hlast
      simpa only [hlast, hfits, if_true] using ih hlonger
    · by_cases hfits : fits (part ++ [a])
      -- The shorter one still goes on, and is caught up with at the word.
      · have hcatch := ih hword
        simp only [hlast, hfits, if_true, Bool.false_eq_true, if_false]
        omega
      · simp only [hlast, hfits, Bool.false_eq_true, if_false]
        omega

/-- The last block takes in what fits. -/
theorem opened_append (hparts : FitsInParts fits) {last block : List α}
    (hblock : block = [] ∨ fits (last ++ block)) (text : List α) :
    opened fits last (block ++ text) = opened fits (last ++ block) text := by
  induction block generalizing last with
  | nil => rw [List.nil_append, List.append_nil]
  | cons a block ih =>
    have hfits : fits (last ++ a :: block) := hblock.resolve_left (List.cons_ne_nil a block)
    have hsplit : last ++ a :: block = last ++ [a] ++ block := by simp
    have hlast : fits (last ++ [a]) :=
      hparts (hsplit ▸ (List.prefix_append (last ++ [a]) block).isInfix) hfits
    rw [List.cons_append, opened, if_pos hlast, ih (.inr (hsplit ▸ hfits)), hsplit]

/-- What a block holds behind its first word fits with it. -/
theorem block_nil_or_fits {a : α} {block : List α}
    (h : (a :: block).length ≤ 1 ∨ fits (a :: block)) : block = [] ∨ fits ([a] ++ block) :=
  h.imp_left fun hlength =>
    List.length_eq_zero_iff.mp (Nat.le_zero.mp (Nat.le_of_succ_le_succ hlength))

/-- Behind any block, other blocks are at least as many as the ones opened for their words. -/
theorem opened_flatten_le (hparts : FitsInParts fits) (last : List α) {blocks : List (List α)}
    (hblocks : ∀ block ∈ blocks, block.length ≤ 1 ∨ fits block) :
    opened fits last blocks.flatten ≤ blocks.length := by
  induction blocks generalizing last with
  | nil => exact Nat.le_refl 0
  | cons block blocks ih =>
    have hrest := fun last => ih last fun b hb => hblocks b (List.mem_cons_of_mem block hb)
    rw [List.flatten_cons, List.length_cons]
    cases block with
    | nil => exact Nat.le_succ_of_le (hrest last)
    | cons a block =>
      have hblock := block_nil_or_fits (hblocks (a :: block) (List.mem_cons_self ..))
      have hopen : opened fits [a] (block ++ blocks.flatten) ≤ blocks.length := by
        rw [opened_append hparts hblock]
        exact hrest ([a] ++ block)
      rw [List.cons_append, opened]
      split
      · have hjoined := opened_suffix hparts (List.suffix_append last [a]) (block ++ blocks.flatten)
        omega
      · exact Nat.succ_le_succ hopen

/-- No other blocks of the same text are fewer, when each is a single word or fits. -/
theorem length_fill_le (hparts : FitsInParts fits) {blocks : List (List α)}
    (hblocks : ∀ block ∈ blocks, block.length ≤ 1 ∨ fits block) :
    (fill fits blocks.flatten).length ≤ blocks.length := by
  induction blocks with
  | nil => exact Nat.le_refl 0
  | cons block blocks ih =>
    have hrest := fun b hb => hblocks b (List.mem_cons_of_mem block hb)
    rw [List.flatten_cons, List.length_cons]
    cases block with
    | nil => exact Nat.le_succ_of_le (ih hrest)
    | cons a block =>
      have hblock := block_nil_or_fits (hblocks (a :: block) (List.mem_cons_self ..))
      rw [List.cons_append, fill, List.foldl_cons, extendLast_nil]
      have hcount : ((block ++ blocks.flatten).foldl (extendLast fits) ([] ++ [[a]])).length =
          [].length + 1 + opened fits [a] (block ++ blocks.flatten) :=
        length_foldl_extendLast [] [a] _
      rw [opened_append hparts hblock] at hcount
      have hopen := opened_flatten_le hparts ([a] ++ block) hrest
      rw [List.nil_append, List.length_nil] at hcount
      omega

end Fill

end VertexApi
