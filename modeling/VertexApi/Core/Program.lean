import Mathlib.Data.Option.Basic
import VertexApi.Core.Machine

/-!
# Interleaved programs

A program over a shared state is a result, an error, or a statement with what follows it. A
statement runs at once, and other programs run between two statements of one program; it
may also fail with any error, which the program can catch. A sample looks at the state and
cannot fail. The calls of a machine are programs that run in any order.

Two programs agree when their statements keep a relation between their states, and when
they end alike. Agreement follows the structure of the programs, so it is proved statement
by statement; calls that agree end alike in every interleaving. A program that agrees with
itself on all states that look alike is oblivious of their differences.
-/

namespace VertexApi

universe u v w x y z

/-- A program over the states `σ`, with the errors `ε` and the results `α`. -/
inductive Program (σ : Type u) (ε : Type v) (α : Type w) where
  | done (result : α)
  | thrown (error : ε)
  /-- What follows depends on the state, which stays. -/
  | sample (next : σ → Program σ ε α)
  /-- What follows depends on the state in front of the statement, or on its error. -/
  | statement (effect : σ → σ) (next : Except ε σ → Program σ ε α)

namespace Program

section Operations

variable {σ : Type u} {ε : Type v} {α : Type w} {β : Type x}

/-- Go on with the result of a program. -/
def bind : Program σ ε α → (α → Program σ ε β) → Program σ ε β
  | .done result, rest => rest result
  | .thrown error, _ => .thrown error
  | .sample next, rest => .sample fun s => (next s).bind rest
  | .statement effect next, rest => .statement effect fun s => (next s).bind rest

/-- Go on with the error of a program. -/
def catching : Program σ ε α → (ε → Program σ ε α) → Program σ ε α
  | .done result, _ => .done result
  | .thrown error, handler => handler error
  | .sample next, handler => .sample fun s => (next s).catching handler
  | .statement effect next, handler => .statement effect fun s => (next s).catching handler

/-- What a program returned or threw, once it ended. -/
def answer : Program σ ε α → Option (Except ε α)
  | .done result => some (.ok result)
  | .thrown error => some (.error error)
  | _ => none

/-- The state after a statement; one that throws changes nothing. -/
def stateAfter (s : σ) : Except ε (σ × α) → σ
  | .ok (t, _) => t
  | .error _ => s

/-- What follows a statement that is all of its program. -/
def ofOutcome : Except ε (σ × α) → Program σ ε α
  | .ok (_, result) => .done result
  | .error error => .thrown error

/-- The program of one statement, which may throw in its own right. -/
def query (run : σ → Except ε (σ × α)) : Program σ ε α :=
  .statement (fun s => stateAfter s (run s)) fun s => ofOutcome (s.bind run)

/-- The program of one look at the state. -/
def look (f : σ → α) : Program σ ε α := .sample fun s => .done (f s)

/-- One step of a program, with the state after it. -/
def step : Program σ ε α → σ → Option (σ × Program σ ε α)
  | .sample next, s => some (s, next s)
  | .statement effect next, s => some (effect s, next (.ok s))
  | _, _ => none

/-- The failure of the next statement. -/
def fail : Program σ ε α → ε → Option (Program σ ε α)
  | .statement _ next, error => some (next (.error error))
  | _, _ => none

end Operations

instance {σ : Type u} {ε : Type v} : Monad (Program σ ε) where
  pure := .done
  bind := Program.bind

instance {σ : Type u} {ε : Type v} : MonadExceptOf ε (Program σ ε) where
  throw := .thrown
  tryCatch := Program.catching

/-- Outcomes of statements: the same error, or related states and results. -/
inductive SameOutcome {σ : Type u} {τ : Type v} {ε : Type w} {α : Type x} {β : Type y}
    (R : σ → τ → Prop) (V : α → β → Prop) : Except ε (σ × α) → Except ε (τ × β) → Prop where
  | ok {s : σ} {t : τ} {a : α} {b : β} (hstate : R s t) (hresult : V a b) :
    SameOutcome R V (.ok (s, a)) (.ok (t, b))
  | error (error : ε) : SameOutcome R V (.error error) (.error error)

/-- In related states, the programs take the same steps, which lead to related states, fail
alike, and end with the same error or with related results. -/
inductive Agree {σ : Type u} {τ : Type v} {ε : Type w} {α : Type x} {β : Type y}
    (R : σ → τ → Prop) (V : α → β → Prop) : Program σ ε α → Program τ ε β → Prop where
  | done {a : α} {b : β} (h : V a b) : Agree R V (.done a) (.done b)
  | thrown (error : ε) : Agree R V (.thrown error) (.thrown error)
  | sample {next : σ → Program σ ε α} {next' : τ → Program τ ε β}
    (h : ∀ s t, R s t → Agree R V (next s) (next' t)) : Agree R V (.sample next) (.sample next')
  | statement {effect : σ → σ} {effect' : τ → τ} {next : Except ε σ → Program σ ε α}
    {next' : Except ε τ → Program τ ε β} (heffect : ∀ s t, R s t → R (effect s) (effect' t))
    (hnext : ∀ s t, R s t → Agree R V (next (.ok s)) (next' (.ok t)))
    (hfail : ∀ error, Agree R V (next (.error error)) (next' (.error error))) :
    Agree R V (.statement effect next) (.statement effect' next')

namespace Agree

section Rules

variable {σ : Type u} {τ : Type v} {ε : Type w} {R : σ → τ → Prop}

/-- Agreement of results. -/
theorem pure {α : Type x} {β : Type y} {V : α → β → Prop} {a : α} {b : β} (h : V a b) :
    Agree R V (Pure.pure a : Program σ ε α) (Pure.pure b) := .done h

/-- Agreement of errors. -/
theorem throw {α : Type x} {β : Type y} {V : α → β → Prop} (error : ε) :
    Agree R V (throwThe ε error : Program σ ε α) (throwThe ε error : Program τ ε β) :=
  .thrown error

/-- Programs agree when their first parts do, and what follows does on related results. -/
theorem bind {α γ : Type x} {β δ : Type y} {V : α → β → Prop} {W : γ → δ → Prop}
    {p : Program σ ε α} {q : Program τ ε β} {f : α → Program σ ε γ} {g : β → Program τ ε δ}
    (h : Agree R V p q) (hrest : ∀ a b, V a b → Agree R W (f a) (g b)) :
    Agree R W (p >>= f) (q >>= g) := by
  induction h with
  | done h => exact hrest _ _ h
  | thrown error => exact .thrown error
  | sample _ ih => exact .sample ih
  | statement heffect _ _ ihNext ihFail => exact .statement heffect ihNext ihFail

/-- Programs agree when they do up to an error, and what handles it does. -/
theorem tryCatch {α : Type x} {β : Type y} {V : α → β → Prop} {p : Program σ ε α}
    {q : Program τ ε β} {f : ε → Program σ ε α} {g : ε → Program τ ε β} (h : Agree R V p q)
    (hhandler : ∀ error, Agree R V (f error) (g error)) :
    Agree R V (tryCatchThe ε p f) (tryCatchThe ε q g) := by
  induction h with
  | done h => exact .done h
  | thrown error => exact hhandler error
  | sample _ ih => exact .sample ih
  | statement heffect _ _ ihNext ihFail => exact .statement heffect ihNext ihFail

/-- Statements agree when their outcomes do. -/
theorem query {α : Type x} {β : Type y} {V : α → β → Prop} {run : σ → Except ε (σ × α)}
    {run' : τ → Except ε (τ × β)} (h : ∀ s t, R s t → SameOutcome R V (run s) (run' t)) :
    Agree R V (.query run) (.query run') := by
  refine .statement (fun s t hst => ?effect) (fun s t hst => ?next) fun error => .thrown error
  case effect =>
    have houtcome := h s t hst
    generalize run s = left, run' t = right at houtcome ⊢
    cases houtcome with
    | ok hstate _ => exact hstate
    | error error => exact hst
  case next =>
    change Agree R V (ofOutcome (run s)) (ofOutcome (run' t))
    have houtcome := h s t hst
    generalize run s = left, run' t = right at houtcome ⊢
    cases houtcome with
    | ok _ hresult => exact .done hresult
    | error error => exact .thrown error

/-- Looks at related states agree on related views. -/
theorem look {α : Type x} {β : Type y} {V : α → β → Prop} {f : σ → α} {g : τ → β}
    (h : ∀ s t, R s t → V (f s) (g t)) :
    Agree R V (.look f : Program σ ε α) (.look g) := .sample fun s t hst => .done (h s t hst)

end Rules

end Agree

/-- What is left of an outcome when the state is erased and the result is viewed. -/
def seen {σ : Type u} {ε : Type v} {α : Type w} {γ : Type x} (erase : σ → σ) (view : α → γ) :
    Except ε (σ × α) → Except ε (σ × γ)
  | .ok (s, a) => .ok (erase s, view a)
  | .error error => .error error

/-- A program is oblivious of what an erasure takes from the state: on states that are equal
without it, the program takes the same steps and ends alike up to a view of its result. -/
def Oblivious {σ : Type u} {ε : Type v} {α : Type w} {γ : Type x} (erase : σ → σ) (view : α → γ)
    (p : Program σ ε α) : Prop :=
  p.Agree (fun s t => erase s = erase t) (fun a b => view a = view b) p

namespace Oblivious

variable {σ : Type u} {ε : Type v} {α β : Type w} {γ : Type x} {δ : Type y} {erase : σ → σ}
  {view : α → γ} {p : Program σ ε α}

/-- A result that the program was given. -/
theorem pure (a : α) : Oblivious erase view (Pure.pure a : Program σ ε α) := Agree.pure rfl

/-- An error that the program was given. -/
theorem throw (error : ε) : Oblivious erase view (throwThe ε error : Program σ ε α) :=
  Agree.throw error

/-- What follows a program may use what a view keeps of its result. -/
theorem bind {view : α → α} (h : Oblivious erase view p) {f : α → Program σ ε β} {view' : β → δ}
    (hview : ∀ a, f (view a) = f a) (hrest : ∀ a, Oblivious erase view' (f a)) :
    Oblivious erase view' (p >>= f) := by
  refine Agree.bind h fun a b hab => ?_
  have hsame : f a = f b := by rw [← hview a, hab, hview b]
  exact hsame ▸ hrest a

/-- What follows a program may use all of a result that is not viewed. -/
theorem bindId (h : Oblivious erase id p) {f : α → Program σ ε β} {view' : β → δ}
    (hrest : ∀ a, Oblivious erase view' (f a)) : Oblivious erase view' (p >>= f) :=
  h.bind (fun _ => rfl) hrest

/-- A function of what a view keeps of the result. -/
theorem map {view : α → α} (h : Oblivious erase view p) {f : α → β} {view' : β → δ}
    (hview : ∀ a, view' (f (view a)) = view' (f a)) : Oblivious erase view' (f <$> p) := by
  refine Agree.bind h fun a b hab => Agree.pure ?_
  rw [← hview a, hab, hview b]

/-- The handler of an error. -/
theorem tryCatch (h : Oblivious erase view p) {f : ε → Program σ ε α}
    (hhandler : ∀ error, Oblivious erase view (f error)) :
    Oblivious erase view (tryCatchThe ε p f) := Agree.tryCatch h hhandler

/-- A statement is oblivious when its outcome looks the same in the erased state. -/
theorem query {run : σ → Except ε (σ × α)}
    (h : ∀ s, seen erase view (run (erase s)) = seen erase view (run s)) :
    Oblivious erase view (.query run) := by
  refine Agree.query fun s t hst => ?_
  have hseen : seen erase view (run s) = seen erase view (run t) := by
    rw [← h s, hst, h t]
  generalize run s = left, run t = right at hseen ⊢
  cases left with
  | ok left => cases right with
    | ok right =>
      obtain ⟨hstate, hresult⟩ := Prod.mk.inj (Except.ok.inj hseen)
      exact .ok hstate hresult
    | error error => cases hseen
  | error error => cases right with
    | ok right => cases hseen
    | error error' =>
      obtain rfl := Except.error.inj hseen
      exact .error error

/-- A statement that commutes with the erasure is oblivious. -/
theorem query_of_commutes {view : α → α} (herase : ∀ s, erase (erase s) = erase s)
    (hview : ∀ a, view (view a) = view a) {run : σ → Except ε (σ × α)}
    (h : ∀ s, run (erase s) = seen erase view (run s)) : Oblivious erase view (.query run) := by
  refine query fun s => ?_
  rw [h s]
  cases run s with
  | ok outcome => simp only [seen, herase, hview]
  | error error => rfl

/-- A look is oblivious when it shows the same in the erased state. -/
theorem look {f : σ → α} (h : ∀ s, view (f (erase s)) = view (f s)) :
    Oblivious erase view (.look f : Program σ ε α) :=
  Agree.look fun s t hst => by rw [← h s, hst, h t]

end Oblivious

end Program

/-- A shared state, and the calls that were started. -/
structure CallState (σ : Type u) (ε : Type v) (α : Type w) where
  state : σ
  calls : Nat → Option (Program σ ε α)

/-- The steps of a run: what happens outside of the calls, and the start, a step, or the failure
of the next statement of one call. -/
inductive CallLabel (κ : Type u) (ε : Type v) (ω : Type w) where
  | outside (change : ω)
  | start (id : Nat) (call : κ)
  | step (id : Nat)
  | fail (id : Nat) (error : ε)

namespace CallState

variable {σ : Type u} {ε : Type v} {α : Type w}

/-- A state before any call. -/
def initial (state : σ) : CallState σ ε α where
  state := state
  calls _ := none

/-- Replace the state and one call. -/
def setCall (s : CallState σ ε α) (id : Nat) (state : σ) (call : Program σ ε α) :
    CallState σ ε α where
  state := state
  calls := Function.update s.calls id (some call)

/-- What each call that ended has returned or thrown. -/
def answers (s : CallState σ ε α) (id : Nat) : Option (Except ε α) :=
  (s.calls id).bind Program.answer

end CallState

/-- The calls of programs as a machine. -/
def callMachine {σ : Type u} {ε : Type v} {α : Type w} {κ : Type x} {ω : Type y}
    (program : κ → Program σ ε α) (outside : ω → σ → σ) :
    Machine (CallState σ ε α) (CallLabel κ ε ω) where
  step s
    | .outside change => some { s with state := outside change s.state }
    | .start id call =>
      if (s.calls id).isSome then none else some (s.setCall id s.state (program call))
    | .step id => (s.calls id).bind fun call =>
      (call.step s.state).map fun after => s.setCall id after.1 after.2
    | .fail id error => (s.calls id).bind fun call =>
      (call.fail error).map fun after => s.setCall id s.state after

section TwoRuns

variable {σ : Type u} {τ : Type v} {ε : Type w} {α : Type x} {κ : Type y} {ω : Type z}
  {R : σ → τ → Prop}

/-- Related states, with the same calls up to agreement. -/
structure SameCalls (R : σ → τ → Prop) (s : CallState σ ε α) (t : CallState τ ε α) : Prop where
  state : R s.state t.state
  calls : ∀ id, Option.Rel (Program.Agree R Eq) (s.calls id) (t.calls id)

namespace SameCalls

variable {s : CallState σ ε α} {t : CallState τ ε α}

/-- The replacement of one call by agreeing ones. -/
theorem setCall (h : SameCalls R s t) (id : Nat) {state : σ} {state' : τ} {call : Program σ ε α}
    {call' : Program τ ε α} (hstate : R state state') (hcall : call.Agree R Eq call') :
    SameCalls R (s.setCall id state call) (t.setCall id state' call') where
  state := hstate
  calls other := by
    by_cases he : other = id
    · subst he
      simp only [CallState.setCall, Function.update_self]
      exact .some hcall
    · simp only [CallState.setCall, Function.update_of_ne he]
      exact h.calls other

/-- Agreeing calls have ended alike. -/
theorem answers_eq (h : SameCalls R s t) : s.answers = t.answers := by
  funext id
  have hcalls := h.calls id
  simp only [CallState.answers]
  generalize s.calls id = call, t.calls id = call' at hcalls ⊢
  cases hcalls with
  | none => rfl
  | some hcall => cases hcall with
    | done h => exact h ▸ rfl
    | thrown | sample | statement => rfl

end SameCalls

variable {program : κ → Program σ ε α} {program' : κ → Program τ ε α} {outside : ω → σ → σ}
  {outside' : ω → τ → τ}

/-- A label is enabled in both runs or in none, and keeps the calls alike. -/
theorem sameCalls_step (hprogram : ∀ call, (program call).Agree R Eq (program' call))
    (houtside : ∀ change s t, R s t → R (outside change s) (outside' change t))
    {s : CallState σ ε α} {t : CallState τ ε α} (h : SameCalls R s t) (label : CallLabel κ ε ω) :
    Option.Rel (SameCalls R) ((callMachine program outside).step s label)
      ((callMachine program' outside').step t label) := by
  cases label with
  | outside change => exact .some ⟨houtside change _ _ h.state, h.calls⟩
  | start id call =>
    have hcalls := h.calls id
    simp only [callMachine]
    generalize s.calls id = old, t.calls id = old' at hcalls ⊢
    cases hcalls with
    | none => exact .some (h.setCall id h.state (hprogram call))
    | some _ => exact .none
  | step id =>
    have hcalls := h.calls id
    simp only [callMachine]
    generalize s.calls id = call, t.calls id = call' at hcalls ⊢
    cases hcalls with
    | none => exact .none
    | some hcall => cases hcall with
      | done | thrown => exact .none
      | sample hnext => exact .some (h.setCall id h.state (hnext _ _ h.state))
      | statement heffect hnext _ =>
        exact .some (h.setCall id (heffect _ _ h.state) (hnext _ _ h.state))
  | fail id error =>
    have hcalls := h.calls id
    simp only [callMachine]
    generalize s.calls id = call, t.calls id = call' at hcalls ⊢
    cases hcalls with
    | none => exact .none
    | some hcall => cases hcall with
      | done | thrown | sample => exact .none
      | statement _ _ hfail => exact .some (h.setCall id h.state (hfail error))

/-- The two-run rule: calls of agreeing programs end alike in every interleaving, and whatever
related states have in common is the same after it. -/
theorem answers_eq_of_agree (hprogram : ∀ call, (program call).Agree R Eq (program' call))
    (houtside : ∀ change s t, R s t → R (outside change s) (outside' change t))
    {γ : Type z} {view : σ → γ} {view' : τ → γ} (hview : ∀ s t, R s t → view s = view' t)
    {s : σ} {t : τ} (h : R s t) (labels : List (CallLabel κ ε ω)) :
    ((callMachine program outside).exec (.initial s) labels).map
        (fun after => (after.answers, view after.state)) =
      ((callMachine program' outside').exec (.initial t) labels).map
        (fun after => (after.answers, view' after.state)) := by
  have hinitial : SameCalls R (.initial s : CallState σ ε α) (.initial t) := ⟨h, fun _ => .none⟩
  have hrun := (callMachine program outside).exec_lockstep (callMachine program' outside')
    (SameCalls R) (fun _ _ label hst => sameCalls_step hprogram houtside hst label) hinitial labels
  generalize (callMachine program outside).exec (.initial s) labels = after,
    (callMachine program' outside').exec (.initial t) labels = after' at hrun ⊢
  cases hrun with
  | none => rfl
  | some hafter => exact congrArg some (Prod.ext hafter.answers_eq (hview _ _ hafter.state))

end TwoRuns

/-- The two-run rule for oblivious programs: their calls return and throw the same in two runs
from states that are equal once erased, and so does whatever the erasure keeps. -/
theorem answers_eq_of_oblivious {σ : Type u} {ε : Type v} {α : Type w} {κ : Type x} {ω : Type y}
    {γ : Type y} {erase : σ → σ} {program : κ → Program σ ε α} {outside : ω → σ → σ}
    {view : σ → γ} (hprogram : ∀ call, (program call).Oblivious erase id)
    (houtside : ∀ change s, erase (outside change s) = outside change (erase s))
    (hview : ∀ s, view (erase s) = view s) {s t : σ} (h : erase s = erase t)
    (labels : List (CallLabel κ ε ω)) :
    ((callMachine program outside).exec (.initial s) labels).map
        (fun after => (after.answers, view after.state)) =
      ((callMachine program outside).exec (.initial t) labels).map
        (fun after => (after.answers, view after.state)) := by
  refine answers_eq_of_agree (R := fun s t => erase s = erase t) hprogram ?outside ?view h labels
  case outside =>
    intro change s t hst
    rw [houtside, houtside, hst]
  case view =>
    intro s t hst
    rw [← hview s, hst, hview t]

end VertexApi
