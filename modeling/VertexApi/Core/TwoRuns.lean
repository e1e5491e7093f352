import VertexApi.Core.Conduct

/-!
# What the calls of two runs share

In two runs of the same labels each call is related to its counterpart by what the call is for:
the results of one kind of call may be equal, and those of another kind have nothing in common.
As long as every call that is started agrees with its counterpart up to its own relation, the
two runs take the same labels, stay in related states, and give related answers. For programs
that are oblivious of an erasure, each call has its own view of its result.
-/

namespace VertexApi

universe u v w x y z

namespace Program

section Zoom

variable {σ : Type u} {σ' : Type v} {τ : Type w} {τ' : Type x} {ε : Type y} {α β : Type z}
  {get : τ → σ} {set : τ → σ → τ} {get' : τ' → σ'} {set' : τ' → σ' → τ'}

/-- Programs over parts of two states agree as they do on the parts. -/
theorem Agree.zoom {R : σ → σ' → Prop} {Q : τ → τ' → Prop} {V : α → β → Prop}
    {p : Program σ ε α} {q : Program σ' ε β} (h : Agree R V p q)
    (hget : ∀ t t', Q t t' → R (get t) (get' t'))
    (hset : ∀ t t' s s', Q t t' → R s s' → Q (set t s) (set' t' s')) :
    Agree Q V (p.zoom get set) (q.zoom get' set') := by
  induction h with
  | done h => exact .done h
  | thrown error => exact .thrown error
  | sample _ ih => exact .sample fun t t' ht => ih (get t) (get' t') (hget t t' ht)
  | statement heffect _ _ ihNext ihFail =>
    refine .statement (fun t t' ht => ?_) (fun t t' ht => ?_) ihFail
    · exact hset t t' _ _ ht (heffect (get t) (get' t') (hget t t' ht))
    · exact ihNext (get t) (get' t') (hget t t' ht)

variable {γ : Type u} {erase : σ → σ} {eraseAll : τ → τ} {view : α → γ}
  {p : Program σ ε α}

/-- A program over a part of the state is oblivious of what is erased in that part. -/
theorem Oblivious.zoom (h : Oblivious erase view p) (hget : ∀ t, get (eraseAll t) = erase (get t))
    (hset : ∀ t s, eraseAll (set t s) = set (eraseAll t) (erase s)) :
    Oblivious eraseAll view (p.zoom get set) := by
  refine Agree.zoom h (fun t t' ht => ?_) fun t t' s s' ht hs => ?_
  · rw [← hget, ht, hget]
  · rw [hset, hset, ht, hs]

end Zoom

end Program

section Runs

variable {σ : Type u} {τ : Type v} {ε : Type w} {α β : Type x} {κ : Type y} {ω : Type z}

/-- Answers of two calls: the same error, or related results. -/
inductive SameAnswer (V : α → β → Prop) : Except ε α → Except ε β → Prop where
  | ok {a : α} {b : β} (h : V a b) : SameAnswer V (.ok a) (.ok b)
  | error (error : ε) : SameAnswer V (.error error) (.error error)

/-- Related states, in which each call agrees with its counterpart up to the relation of a call
that was started under its id. -/
structure RelatedCalls (R : σ → τ → Prop) (V : κ → α → β → Prop) (labels : List (CallLabel κ ε ω))
    (s : CallState σ ε α) (t : CallState τ ε β) : Prop where
  state : R s.state t.state
  calls : ∀ id, Option.Rel
    (fun p q => ∃ call, .start id call ∈ labels ∧ Program.Agree R (V call) p q)
    (s.calls id) (t.calls id)

namespace RelatedCalls

variable {R : σ → τ → Prop} {V : κ → α → β → Prop} {labels : List (CallLabel κ ε ω)}
  {s : CallState σ ε α} {t : CallState τ ε β}

/-- The replacement of one call by agreeing ones. -/
theorem setCall (h : RelatedCalls R V labels s t) {id : Nat} {call : κ}
    (hmem : .start id call ∈ labels) {state : σ} {state' : τ} (hstate : R state state')
    {p : Program σ ε α} {q : Program τ ε β} (hcall : Program.Agree R (V call) p q) :
    RelatedCalls R V labels (s.setCall id state p) (t.setCall id state' q) where
  state := hstate
  calls other := by
    by_cases he : other = id
    · subst he
      simp only [CallState.setCall, Function.update_self]
      exact .some ⟨call, hmem, hcall⟩
    · simp only [CallState.setCall, Function.update_of_ne he]
      exact h.calls other

/-- Calls that agree have ended alike. -/
theorem answers (h : RelatedCalls R V labels s t) (id : Nat) : Option.Rel
    (fun x y => ∃ call, .start id call ∈ labels ∧ SameAnswer (V call) x y)
    (s.answers id) (t.answers id) := by
  have hcalls := h.calls id
  simp only [CallState.answers]
  generalize s.calls id = p, t.calls id = q at hcalls ⊢
  cases hcalls with
  | none => exact .none
  | some hcall =>
    obtain ⟨call, hmem, hagree⟩ := hcall
    cases hagree with
    | done hresult => exact .some ⟨call, hmem, .ok hresult⟩
    | thrown error => exact .some ⟨call, hmem, .error error⟩
    | sample | statement => exact .none

variable {program : κ → Program σ ε α} {program' : κ → Program τ ε β} {outside : ω → σ → σ}
  {outside' : ω → τ → τ}

/-- A label is enabled in both runs or in none, and keeps the calls related. -/
theorem step
    (hprogram : ∀ id call, .start id call ∈ labels →
      Program.Agree R (V call) (program call) (program' call))
    (houtside : ∀ change s t, R s t → R (outside change s) (outside' change t))
    (h : RelatedCalls R V labels s t) {label : CallLabel κ ε ω} (hlabel : label ∈ labels) :
    Option.Rel (RelatedCalls R V labels) ((callMachine program outside).step s label)
      ((callMachine program' outside').step t label) := by
  cases label with
  | outside change => exact .some ⟨houtside change _ _ h.state, h.calls⟩
  | start id call =>
    have hcalls := h.calls id
    simp only [callMachine]
    generalize s.calls id = old, t.calls id = old' at hcalls ⊢
    cases hcalls with
    | none => exact .some (h.setCall hlabel h.state (hprogram id call hlabel))
    | some _ => exact .none
  | step id =>
    have hcalls := h.calls id
    simp only [callMachine]
    generalize s.calls id = p, t.calls id = q at hcalls ⊢
    cases hcalls with
    | none => exact .none
    | some hcall =>
      obtain ⟨call, hmem, hagree⟩ := hcall
      cases hagree with
      | done | thrown => exact .none
      | sample hnext => exact .some (h.setCall hmem h.state (hnext _ _ h.state))
      | statement heffect hnext _ =>
        exact .some (h.setCall hmem (heffect _ _ h.state) (hnext _ _ h.state))
  | fail id error =>
    have hcalls := h.calls id
    simp only [callMachine]
    generalize s.calls id = p, t.calls id = q at hcalls ⊢
    cases hcalls with
    | none => exact .none
    | some hcall =>
      obtain ⟨call, hmem, hagree⟩ := hcall
      cases hagree with
      | done | thrown | sample => exact .none
      | statement _ _ hfail => exact .some (h.setCall hmem h.state (hfail error))

/-- So does a run. -/
theorem exec
    (hprogram : ∀ id call, .start id call ∈ labels →
      Program.Agree R (V call) (program call) (program' call))
    (houtside : ∀ change s t, R s t → R (outside change s) (outside' change t))
    (h : RelatedCalls R V labels s t) {steps : List (CallLabel κ ε ω)}
    (hsteps : ∀ label ∈ steps, label ∈ labels) :
    Option.Rel (RelatedCalls R V labels) ((callMachine program outside).exec s steps)
      ((callMachine program' outside').exec t steps) := by
  induction steps generalizing s t with
  | nil => exact .some h
  | cons label steps ih =>
    have hnext := h.step hprogram houtside (hsteps label (List.mem_cons_self ..))
    simp only [Machine.exec_cons]
    generalize (callMachine program outside).step s label = next,
      (callMachine program' outside').step t label = next' at hnext ⊢
    cases hnext with
    | none => exact .none
    | some hnext => exact ih hnext fun other hother => hsteps other (List.mem_cons_of_mem _ hother)

end RelatedCalls

variable {γ : Type v} {erase : σ → σ} {view : κ → α → γ} {program : κ → Program σ ε α}
  {outside : ω → σ → σ} {labels : List (CallLabel κ ε ω)} {s t : σ} {after : CallState σ ε α}

/-- A call that a run has started is the only one under its id. -/
theorem start_unique (hrun : (callMachine program outside).exec (.initial s) labels = some after)
    {id : Nat} {call other : κ} (h : .start id call ∈ labels) (hother : .start id other ∈ labels) :
    call = other := by
  have hstarted {call : κ} (h : .start id call ∈ labels) :
      ∃ started, Started (callMachine program outside) s labels id call started := by
    obtain ⟨before, later, rfl⟩ := List.append_of_mem h
    obtain ⟨m, hm, -⟩ := (callMachine program outside).exec_append_some.mp hrun
    exact ⟨m.state, before, later, m, rfl, hm, rfl⟩
  obtain ⟨started, hcall⟩ := hstarted h
  obtain ⟨started', hcall'⟩ := hstarted hother
  exact (hcall.unique hrun hcall').1

/-- The two-run rule for calls with views of their own: a run from one of two states that are
equal once erased is a run from the other one as well. It leads to such states again, and each
call has ended alike up to its view. -/
theorem views_eq_of_oblivious
    (hprogram : ∀ id call, .start id call ∈ labels → (program call).Oblivious erase (view call))
    (houtside : ∀ change s, erase (outside change s) = outside change (erase s))
    (h : erase s = erase t)
    (hrun : (callMachine program outside).exec (.initial s) labels = some after) :
    ∃ after', (callMachine program outside).exec (.initial t) labels = some after' ∧
      erase after.state = erase after'.state ∧ ∀ id call, .start id call ∈ labels →
        (after.answers id).map (Except.map (view call)) =
          (after'.answers id).map (Except.map (view call)) := by
  have hinitial : RelatedCalls (fun s t => erase s = erase t)
      (fun call a b => view call a = view call b) labels (.initial s : CallState σ ε α)
      (.initial t) := ⟨h, fun _ => .none⟩
  have hpassing (change : ω) (s t : σ) (hst : erase s = erase t) :
      erase (outside change s) = erase (outside change t) := by
    rw [houtside, houtside, hst]
  have hruns := hinitial.exec hprogram hpassing (fun _ hlabel => hlabel)
  rw [hrun] at hruns
  generalize (callMachine program outside).exec (.initial t) labels = last at hruns ⊢
  cases hruns with
  | @some _ after' hafter =>
    refine ⟨after', rfl, hafter.state, fun id call hmem => ?_⟩
    have hanswers := hafter.answers id
    generalize after.answers id = x, after'.answers id = y at hanswers ⊢
    cases hanswers with
    | none => rfl
    | some hanswer =>
      obtain ⟨other, hother, hsame⟩ := hanswer
      obtain rfl := start_unique hrun hmem hother
      cases hsame with
      | ok hview => exact congrArg (fun seen => some (Except.ok seen)) hview
      | error error => rfl

end Runs

end VertexApi
