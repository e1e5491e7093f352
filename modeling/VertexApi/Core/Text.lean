/-!
# Separated text

Keys are built from two parts with a separator in between. When one of the parts is free
of the separator the key determines both, however often it occurs in the other one.
-/

namespace VertexApi

universe u

/-- The last separator of a list determines what stands before and after it. -/
theorem append_cons_inj_of_notMem_right {α : Type u} {as as' bs bs' : List α} {c : α}
    (hb : c ∉ bs) (hb' : c ∉ bs') : as ++ c :: bs = as' ++ c :: bs' ↔ as = as' ∧ bs = bs' := by
  -- A longer first part would put the separator into the other last part.
  have hnil : ∀ {m xs ys : List α}, c ∉ xs → c :: xs = m ++ c :: ys → m = [] := by
    intro m xs ys hxs he
    cases m with
    | nil => rfl
    | cons a m =>
      rw [List.cons_append, List.cons.injEq] at he
      exact absurd (he.2 ▸ List.mem_append_right m (List.mem_cons_self ..)) hxs
  constructor
  · intro he
    rcases List.append_eq_append_iff.mp he with ⟨m, rfl, hm⟩ | ⟨m, rfl, hm⟩
    · obtain rfl := hnil hb hm
      exact ⟨(List.append_nil as).symm, (List.cons.inj hm).2⟩
    · obtain rfl := hnil hb' hm
      exact ⟨List.append_nil as', (List.cons.inj hm).2.symm⟩
  · rintro ⟨rfl, rfl⟩
    rfl

/-- The first separator of a list determines what stands before and after it. -/
theorem append_cons_inj_of_notMem_left {α : Type u} {as as' bs bs' : List α} {c : α}
    (ha : c ∉ as) (ha' : c ∉ as') : as ++ c :: bs = as' ++ c :: bs' ↔ as = as' ∧ bs = bs' := by
  have hreversed : bs.reverse ++ c :: as.reverse = bs'.reverse ++ c :: as'.reverse ↔
      bs.reverse = bs'.reverse ∧ as.reverse = as'.reverse :=
    append_cons_inj_of_notMem_right (mt List.mem_reverse.mp ha) (mt List.mem_reverse.mp ha')
  rw [← List.reverse_inj, List.reverse_append, List.reverse_append, List.reverse_cons,
    List.reverse_cons, List.append_assoc, List.append_assoc, List.singleton_append,
    List.singleton_append, hreversed, List.reverse_inj, List.reverse_inj, and_comm]

/-- A key of two parts, the last one free of colons, determines both parts. -/
theorem colon_append_inj {a b c d : String} (hb : ':' ∉ b.toList) (hd : ':' ∉ d.toList) :
    a ++ ":" ++ b = c ++ ":" ++ d ↔ a = c ∧ b = d := by
  have hcolon : ":".toList = [':'] := by decide
  constructor
  · intro he
    have hlist := congrArg String.toList he
    simp only [String.toList_append, hcolon, List.append_assoc, List.singleton_append] at hlist
    obtain ⟨hac, hbd⟩ := (append_cons_inj_of_notMem_right hb hd).mp hlist
    exact ⟨String.ext hac, String.ext hbd⟩
  · rintro ⟨rfl, rfl⟩
    rfl

end VertexApi
