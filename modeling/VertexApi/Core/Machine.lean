import Mathlib.Data.List.Induction
import Mathlib.Logic.Function.Basic

/-!
# Labelled machines and their runs

A machine is a partial step function on states. A run is a list of labels, so an
interleaving of several programs is one list that merges their steps. The rules
below are snoc inductions: each step sees the state that its own prefix reached.
A guarded run moreover meets a condition on the state in front of every step, and
a simulation answers each label of one machine by a list of labels of another, or, in
lockstep, by the label itself. A trace collects what the steps of a run yield. The calls of
a program are kept in a table, which a step sets at one entry.
-/

namespace VertexApi

universe u v w x

/-- A table that was set at one entry holds that entry there, and its old ones elsewhere. -/
theorem update_eq_some_iff {κ : Type u} {α : Type v} [DecidableEq κ] {f : κ → Option α}
    {key other : κ} {a b : α} : Function.update f key (some a) other = some b ↔
      other = key ∧ b = a ∨ other ≠ key ∧ f other = some b := by
  by_cases he : other = key
  · subst he
    simp only [Function.update_self, Option.some.injEq, eq_comm (a := a), true_and, ne_eq,
      not_true, false_and, or_false]
  · simp only [Function.update_of_ne he, he, false_and, ne_eq, not_false_eq_true, true_and,
      false_or]

/-- A deterministic labelled machine: a label that is not enabled has no successor. -/
structure Machine (σ : Type u) (ι : Type v) where
  /-- The successor under one label, when the label is enabled. -/
  step : σ → ι → Option σ

namespace Machine

variable {σ : Type u} {ι : Type v}

/-- Execute labels from left to right, failing at the first one that is not enabled. -/
def exec (M : Machine σ ι) : σ → List ι → Option σ
  | s, [] => some s
  | s, a :: as => (M.step s a).bind fun t => M.exec t as

/-- What the steps of a run yield, in order; a step yields by its label and the state that it
leads to. -/
def trace {ε : Type w} (M : Machine σ ι) (yield : ι → σ → List ε) : σ → List ι → List ε
  | _, [] => []
  | s, a :: as => match M.step s a with
    | none => []
    | some t => yield a t ++ M.trace yield t as

/-- Every label of the run is taken in a state that meets the condition. -/
def Meets (M : Machine σ ι) (C : σ → ι → Prop) : σ → List ι → Prop
  | _, [] => True
  | s, a :: as => C s a ∧ match M.step s a with
    | none => True
    | some t => M.Meets C t as

variable (M : Machine σ ι)

@[simp] theorem exec_nil (s : σ) : M.exec s [] = some s := rfl

@[simp] theorem exec_cons (s : σ) (a : ι) (as : List ι) :
    M.exec s (a :: as) = (M.step s a).bind fun t => M.exec t as := rfl

/-- A run of one label is a step. -/
theorem exec_singleton (s : σ) (a : ι) : M.exec s [a] = M.step s a := Option.bind_fun_some _

/-- The last state of a run whose labels are all enabled. -/
def run (s : σ) (as : List ι) (h : (M.exec s as).isSome = true) : σ := (M.exec s as).get h

theorem exec_run (s : σ) (as : List ι) (h : (M.exec s as).isSome = true) :
    M.exec s as = some (M.run s as h) := (Option.some_get h).symm

/-- A run of a concatenation passes through the state reached by its first part. -/
theorem exec_append (s : σ) (as bs : List ι) :
    M.exec s (as ++ bs) = (M.exec s as).bind fun t => M.exec t bs := by
  induction as generalizing s with
  | nil => rfl
  | cons a as ih =>
    cases h : M.step s a with
    | none => simp only [List.cons_append, exec_cons, h, Option.bind_none]
    | some t => simp only [List.cons_append, exec_cons, h, Option.bind_some, ih]

/-- The last label of a run is taken in the state its prefix reached. -/
theorem exec_snoc {s t : σ} {as : List ι} {a : ι} :
    M.exec s (as ++ [a]) = some t ↔ ∃ m, M.exec s as = some m ∧ M.step m a = some t := by
  simp only [exec_append, exec_cons, exec_nil, Option.bind_eq_some_iff, Option.some.injEq,
    exists_eq_right]

/-- The last step of a run leads from where its first part ends to where it ends itself. -/
theorem step_run {s : σ} {as : List ι} {a : ι} (h : (M.exec s as).isSome = true)
    (hsnoc : (M.exec s (as ++ [a])).isSome = true) :
    M.step (M.run s as h) a = some (M.run s (as ++ [a]) hsnoc) := by
  obtain ⟨m, hm, hstep⟩ := M.exec_snoc.mp (M.exec_run s (as ++ [a]) hsnoc)
  obtain rfl := Option.some.inj ((M.exec_run s as h).symm.trans hm)
  exact hstep

/-- A run splits at every position of its label list. -/
theorem exec_append_some {s t : σ} {as bs : List ι} :
    M.exec s (as ++ bs) = some t ↔ ∃ m, M.exec s as = some m ∧ M.exec m bs = some t := by
  simp only [exec_append, Option.bind_eq_some_iff]

/-- The last step of a run adds what it yields to the trace. -/
theorem trace_snoc {ε : Type w} (yield : ι → σ → List ε) {s m t : σ} {as : List ι} {a : ι}
    (hm : M.exec s as = some m) (hstep : M.step m a = some t) :
    M.trace yield s (as ++ [a]) = M.trace yield s as ++ yield a t := by
  induction as generalizing s with
  | nil =>
    obtain rfl : s = m := Option.some.inj hm
    simp only [List.nil_append, trace, hstep, List.append_nil]
  | cons b as ih =>
    obtain ⟨n, hn, hrest⟩ := Option.bind_eq_some_iff.mp hm
    simp only [List.cons_append, trace, hn, ih hrest, List.append_assoc]

/-- Conditions on a guarded run restrict to its first part. -/
theorem Meets.of_append {M : Machine σ ι} {C : σ → ι → Prop} {s : σ} {as bs : List ι}
    (h : M.Meets C s (as ++ bs)) : M.Meets C s as := by
  induction as generalizing s with
  | nil => trivial
  | cons a as ih =>
    rw [List.cons_append] at h
    refine ⟨h.1, ?_⟩
    have hrest := h.2
    cases hstep : M.step s a with
    | none => trivial
    | some t => exact ih (by simpa only [hstep] using hrest)

/-- A guarded run continues with a guarded run from the state it reached. -/
theorem Meets.append {M : Machine σ ι} {C : σ → ι → Prop} {s m : σ} {as bs : List ι}
    (h : M.Meets C s as) (hm : M.exec s as = some m) (hbs : M.Meets C m bs) :
    M.Meets C s (as ++ bs) := by
  induction as generalizing s with
  | nil =>
    obtain rfl : s = m := Option.some.inj hm
    exact hbs
  | cons a as ih =>
    obtain ⟨t, hstep, ht⟩ := Option.bind_eq_some_iff.mp hm
    refine ⟨h.1, ?_⟩
    have hrest := h.2
    simp only [hstep] at hrest ⊢
    exact ih hrest ht

/-- What follows a prefix of a guarded run is a guarded run from the state it reached. -/
theorem Meets.after {M : Machine σ ι} {C : σ → ι → Prop} {s m : σ} {as bs : List ι}
    (h : M.Meets C s (as ++ bs)) (hm : M.exec s as = some m) : M.Meets C m bs := by
  induction as generalizing s with
  | nil =>
    obtain rfl : s = m := Option.some.inj hm
    exact h
  | cons a as ih =>
    obtain ⟨t, hstep, ht⟩ := Option.bind_eq_some_iff.mp hm
    rw [List.cons_append] at h
    have hrest := h.2
    simp only [hstep] at hrest
    exact ih hrest ht

/-- A guarded run meets its condition at the label that follows any prefix. -/
theorem Meets.at {M : Machine σ ι} {C : σ → ι → Prop} {s m : σ} {as bs : List ι} {a : ι}
    (h : M.Meets C s (as ++ a :: bs)) (hm : M.exec s as = some m) : C m a := (h.after hm).1

/-- A run that meets two conditions meets both at once. -/
theorem Meets.and {M : Machine σ ι} {C D : σ → ι → Prop} {s : σ} {as : List ι}
    (hC : M.Meets C s as) (hD : M.Meets D s as) : M.Meets (fun s a => C s a ∧ D s a) s as := by
  induction as generalizing s with
  | nil => trivial
  | cons a as ih =>
    refine ⟨⟨hC.1, hD.1⟩, ?_⟩
    have hrestC := hC.2
    have hrestD := hD.2
    cases hstep : M.step s a with
    | none => trivial
    | some t =>
      simp only [hstep] at hrestC hrestD
      exact ih hrestC hrestD

/-- Weakening the condition of a guarded run. -/
theorem Meets.imp {M : Machine σ ι} {C D : σ → ι → Prop} (himp : ∀ s a, C s a → D s a)
    {s : σ} {as : List ι} (h : M.Meets C s as) : M.Meets D s as := by
  induction as generalizing s with
  | nil => trivial
  | cons a as ih =>
    refine ⟨himp s a h.1, ?_⟩
    have hrest := h.2
    cases hstep : M.step s a with
    | none => trivial
    | some t => exact ih (by simpa only [hstep] using hrest)

/-- A condition on the label alone holds along a run as soon as its labels satisfy it. -/
theorem meets_of_forall {p : ι → Prop} {s : σ} {as : List ι} (h : ∀ a ∈ as, p a) :
    M.Meets (fun _ a => p a) s as := by
  induction as generalizing s with
  | nil => trivial
  | cons a as ih =>
    refine ⟨h a (List.mem_cons_self ..), ?_⟩
    cases M.step s a with
    | none => trivial
    | some t => exact ih fun b hb => h b (List.mem_cons_of_mem a hb)

/-- A guarded condition is decidable whenever each of its instances is. -/
instance decidableMeets (C : σ → ι → Prop) [∀ s a, Decidable (C s a)] :
    (s : σ) → (as : List ι) → Decidable (M.Meets C s as)
  | _, [] => isTrue trivial
  | s, a :: as =>
    have : Decidable (match M.step s a with
        | none => True
        | some t => M.Meets C t as) :=
      match M.step s a with
      | none => isTrue trivial
      | some t => decidableMeets C t as
    inferInstanceAs (Decidable (_ ∧ _))

/-- The run rule: a property of a run and its last state holds along every guarded
run once it holds at the start and each enabled label that meets the guard keeps it. -/
theorem exec_induction {C : σ → ι → Prop} {s : σ} {P : List ι → σ → Prop} (hnil : P [] s)
    (hsnoc : ∀ as m a t, M.exec s as = some m → P as m → C m a → M.step m a = some t →
      P (as ++ [a]) t) {as : List ι} {t : σ} (hC : M.Meets C s as)
    (h : M.exec s as = some t) : P as t := by
  induction as using List.reverseRecOn generalizing t with
  | nil =>
    obtain rfl : s = t := Option.some.inj h
    exact hnil
  | append_singleton as a ih =>
    obtain ⟨m, hm, hstep⟩ := M.exec_snoc.mp h
    exact hsnoc as m a t hm (ih hC.of_append hm) (hC.at hm) hstep

/-- The invariant rule for guarded runs. -/
theorem exec_invariant_of_meets {C : σ → ι → Prop} {P : σ → Prop} {s : σ} (hs : P s)
    (hstep : ∀ m a t, P m → C m a → M.step m a = some t → P t) {as : List ι} {t : σ}
    (hC : M.Meets C s as) (h : M.exec s as = some t) : P t :=
  M.exec_induction (P := fun _ t => P t) hs
    (fun _ m a t _ hm ha hst => hstep m a t hm ha hst) hC h

/-- Two conditions that an invariant makes equivalent guard the same runs. -/
theorem meets_iff_of_invariant {C D : σ → ι → Prop} {P : σ → Prop}
    (hstep : ∀ m a t, P m → C m a → M.step m a = some t → P t)
    (hiff : ∀ m a, P m → (C m a ↔ D m a)) {s : σ} (hs : P s) (as : List ι) :
    M.Meets C s as ↔ M.Meets D s as := by
  induction as generalizing s with
  | nil => exact Iff.rfl
  | cons a as ih =>
    refine Iff.trans (and_congr_right fun hC => ?_) (and_congr_left' (hiff s a hs))
    cases h : M.step s a with
    | none => exact Iff.rfl
    | some t => exact ih (hstep s a t hs hC h)

/-- The exact guard rule: a condition that says, wherever two properties hold, whether the step
keeps the second one guards exactly the runs all whose steps keep it. -/
theorem meets_iff_keeps {C : σ → ι → Prop} {P Q : σ → Prop}
    (hstep : ∀ m a t, P m → M.step m a = some t → P t)
    (hexact : ∀ m a, P m → Q m → (C m a ↔ ∀ t, M.step m a = some t → Q t)) {s : σ} (hP : P s)
    (hQ : Q s) (as : List ι) :
    M.Meets C s as ↔ M.Meets (fun m a => ∀ t, M.step m a = some t → Q t) s as :=
  M.meets_iff_of_invariant (P := fun m => P m ∧ Q m)
    (fun m a t hm hC ht => ⟨hstep m a t hm.1 ht, (hexact m a hm.1 hm.2).mp hC t ht⟩)
    (fun m a hm => hexact m a hm.1 hm.2) ⟨hP, hQ⟩ as

/-- The exact guard rule for the runs over some of the labels. -/
theorem meets_iff_keeps_of_forall {L : ι → Prop} {C : σ → ι → Prop} {P Q : σ → Prop}
    (hstep : ∀ m a t, P m → L a → M.step m a = some t → P t)
    (hexact : ∀ m a, P m → Q m → L a → (C m a ↔ ∀ t, M.step m a = some t → Q t)) {s : σ}
    (hP : P s) (hQ : Q s) {as : List ι} (hL : ∀ a ∈ as, L a) :
    M.Meets C s as ↔ M.Meets (fun m a => ∀ t, M.step m a = some t → Q t) s as := by
  have hboth := M.meets_iff_of_invariant (P := fun m => P m ∧ Q m) (C := fun m a => L a ∧ C m a)
    (D := fun m a => L a ∧ ∀ t, M.step m a = some t → Q t)
    (fun m a t hm hC ht => ⟨hstep m a t hm.1 hC.1 ht,
      (hexact m a hm.1 hm.2 hC.1).mp hC.2 t ht⟩)
    (fun m a hm => and_congr_right (hexact m a hm.1 hm.2)) ⟨hP, hQ⟩ as
  have hlabels : M.Meets (fun _ a => L a) s as := M.meets_of_forall hL
  constructor
  · exact fun hC => (hboth.mp (hlabels.and hC)).imp fun _ _ h => h.2
  · exact fun hD => (hboth.mpr (hlabels.and hD)).imp fun _ _ h => h.2

/-- A condition that an invariant of the guarded runs implies guards them as well. -/
theorem Meets.of_invariant {M : Machine σ ι} {C D : σ → ι → Prop} {P : σ → Prop} {s : σ}
    {as : List ι} (h : M.Meets C s as)
    (hstep : ∀ m a t, P m → C m a → M.step m a = some t → P t) (hD : ∀ m a, P m → D m a)
    (hs : P s) : M.Meets D s as := by
  have hiff := M.meets_iff_of_invariant (D := fun m a => C m a ∧ D m a) hstep
    (fun m a hm => (and_iff_left (hD m a hm)).symm) hs as
  exact (hiff.mp h).imp fun _ _ hboth => hboth.2

/-- A condition that an invariant implies guards every run. -/
theorem meets_of_invariant {C : σ → ι → Prop} {P : σ → Prop}
    (hstep : ∀ m a t, P m → M.step m a = some t → P t) (hC : ∀ m a, P m → C m a)
    {s : σ} (hs : P s) (as : List ι) : M.Meets C s as :=
  Meets.of_invariant (C := fun _ _ => True) (M.meets_of_forall fun _ _ => trivial)
    (fun m a t hm _ => hstep m a t hm) hC hs

/-- The invariant rule for arbitrary runs. -/
theorem exec_invariant {P : σ → Prop} {s : σ} (hs : P s)
    (hstep : ∀ m a t, P m → M.step m a = some t → P t) {as : List ι} {t : σ}
    (h : M.exec s as = some t) : P t :=
  M.exec_invariant_of_meets (C := fun _ _ => True) hs (fun m a t hm _ => hstep m a t hm)
    (M.meets_of_forall fun _ _ => trivial) h

/-- The refinement rule: a relation that matches each guarded label by some labels of a second
machine matches whole guarded runs by some run of it. -/
theorem exec_refines {τ : Type w} {κ : Type x} (N : Machine τ κ) {C : σ → ι → Prop}
    (R : σ → τ → Prop)
    (hstep : ∀ s t a s', R s t → C s a → M.step s a = some s' →
      ∃ bs t', N.exec t bs = some t' ∧ R s' t')
    {s s' : σ} {t : τ} {as : List ι} (hR : R s t) (hC : M.Meets C s as)
    (h : M.exec s as = some s') : ∃ bs t', N.exec t bs = some t' ∧ R s' t' := by
  refine M.exec_invariant_of_meets (P := fun m => ∃ bs n, N.exec t bs = some n ∧ R m n)
    ⟨[], t, rfl, hR⟩ ?_ hC h
  rintro m a m' ⟨bs, n, hn, hmn⟩ ha hm'
  obtain ⟨cs, n', hn', hR'⟩ := hstep m n a m' hmn ha hm'
  exact ⟨bs ++ cs, n', N.exec_append_some.mpr ⟨n, hn, hn'⟩, hR'⟩

/-- The lockstep rule: a relation under which two machines take or refuse each label alike
relates their runs over the same labels. -/
theorem exec_lockstep {τ : Type w} (N : Machine τ ι) (R : σ → τ → Prop)
    (hstep : ∀ s t a, R s t → Option.Rel R (M.step s a) (N.step t a)) {s : σ} {t : τ}
    (h : R s t) (as : List ι) : Option.Rel R (M.exec s as) (N.exec t as) := by
  induction as generalizing s t with
  | nil => exact .some h
  | cons a as ih =>
    have hnext := hstep s t a h
    simp only [exec_cons]
    generalize M.step s a = next, N.step t a = next' at hnext ⊢
    cases hnext with
    | none => exact .none
    | some hnext => exact ih hnext

/-- The simulation rule: a relation that matches each guarded label by a list of labels
of a second machine matches whole guarded runs. -/
theorem exec_simulates {τ : Type w} {κ : Type x} (N : Machine τ κ) {C : σ → ι → Prop}
    (R : σ → τ → Prop) (f : ι → List κ)
    (hstep : ∀ s t a s', R s t → C s a → M.step s a = some s' →
      ∃ t', N.exec t (f a) = some t' ∧ R s' t')
    {s s' : σ} {t : τ} {as : List ι} (hR : R s t) (hC : M.Meets C s as)
    (h : M.exec s as = some s') : ∃ t', N.exec t (as.flatMap f) = some t' ∧ R s' t' := by
  induction as using List.reverseRecOn generalizing s' with
  | nil =>
    obtain rfl : s = s' := Option.some.inj h
    exact ⟨t, rfl, hR⟩
  | append_singleton as a ih =>
    obtain ⟨m, hm, hlast⟩ := M.exec_snoc.mp h
    obtain ⟨n, hn, hmn⟩ := ih hC.of_append hm
    obtain ⟨t', ht', hR'⟩ := hstep m n a s' hmn (hC.at hm) hlast
    refine ⟨t', ?_, hR'⟩
    rw [List.flatMap_append, N.exec_append, hn, Option.bind_some]
    simpa only [List.flatMap_cons, List.flatMap_nil, List.append_nil] using ht'

/-- The erasure rule: when the labels outside a filter change nothing that is related,
the rest of a guarded run is a run of its own. -/
theorem exec_filter_simulates {τ : Type w} (N : Machine τ ι) {C : σ → ι → Prop}
    (R : σ → τ → Prop) (p : ι → Bool)
    (hkeep : ∀ s t a s', R s t → C s a → p a = true → M.step s a = some s' →
      ∃ t', N.step t a = some t' ∧ R s' t')
    (hdrop : ∀ s t a s', R s t → C s a → p a = false → M.step s a = some s' → R s' t)
    {s s' : σ} {t : τ} {as : List ι} (hR : R s t) (hC : M.Meets C s as)
    (h : M.exec s as = some s') : ∃ t', N.exec t (as.filter p) = some t' ∧ R s' t' := by
  have hfilter : as.flatMap (fun a => if p a then [a] else []) = as.filter p := by
    clear hC h
    induction as with
    | nil => rfl
    | cons a as ih =>
      rw [List.flatMap_cons, ih, List.filter_cons]
      split <;> rfl
  rw [← hfilter]
  refine M.exec_simulates N R _ (fun s t a s' hR ha hstep => ?_) hR hC h
  cases hp : p a with
  | false => exact ⟨t, rfl, hdrop s t a s' hR ha hp hstep⟩
  | true =>
    obtain ⟨t', ht', hR'⟩ := hkeep s t a s' hR ha hp hstep
    exact ⟨t', by simp only [if_true, exec_cons, exec_nil, ht', Option.bind_some], hR'⟩

end Machine

end VertexApi
