import Mathlib.Data.List.Forall2
import VertexApi.Core.Program

/-!
# Runs of one program

Between two statements of a program other programs run, and each statement may fail. One
turn for each sample and each statement lays down both in advance, and a program then runs
to its end; where the turns have run out, the program runs alone and nothing fails. Each
call of an interleaving runs so, with the steps of the other calls as changes in its turns.

What a program may throw, when its statements fail in certain ways only, follows from its
parts, and so does what its statements may do to the state. Programs that agree end alike over turns
that are alike.
-/

namespace VertexApi

universe u v w x y

/-- What happens at a sample or a statement: the state changes in front of it, and the statement
may fail. -/
structure Turn (σ : Type u) (ε : Type v) where
  change : σ → σ
  fault : Option ε

namespace Turn

variable {σ : Type u} {ε : Type v}

/-- The state that the next sample or statement meets. -/
def met : List (Turn σ ε) → σ → σ
  | [], s => s
  | turn :: _, s => turn.change s

/-- The state after the changes in front of some samples and statements, which themselves leave it
alone. -/
def changed : Nat → List (Turn σ ε) → σ → σ
  | 0, _, s => s
  | n + 1, turns, s => changed n turns.tail (met turns s)

/-- How the next statement fails. -/
def nextFault : List (Turn σ ε) → Option ε
  | [] => none
  | turn :: _ => turn.fault

/-- Faults are no changes. -/
theorem changed_congr {turns turns' : List (Turn σ ε)} (h : turns.map change = turns'.map change)
    (n : Nat) (s : σ) : changed n turns s = changed n turns' s := by
  induction n generalizing turns turns' s with
  | zero => rfl
  | succ n ih =>
    have htail : turns.tail.map change = turns'.tail.map change := by
      rw [List.map_tail, List.map_tail, h]
    have hmet : met turns s = met turns' s := by
      cases turns with
      | nil =>
        cases turns' with
        | nil => rfl
        | cons turn' turns' => cases h
      | cons turn turns =>
        cases turns' with
        | nil => cases h
        | cons turn' turns' => exact congrFun (List.cons.inj h).1 s
    rw [changed, changed, ih htail, hmet]

@[simp] theorem met_nil (s : σ) : met ([] : List (Turn σ ε)) s = s := rfl

@[simp] theorem met_cons (turn : Turn σ ε) (turns : List (Turn σ ε)) (s : σ) :
    met (turn :: turns) s = turn.change s := rfl

@[simp] theorem nextFault_nil : nextFault ([] : List (Turn σ ε)) = none := rfl

@[simp] theorem nextFault_cons (turn : Turn σ ε) (turns : List (Turn σ ε)) :
    nextFault (turn :: turns) = turn.fault := rfl

/-- The outcome of a statement, unless it fails. -/
def outcome {α : Type w} (turns : List (Turn σ ε)) (computed : Except ε α) : Except ε α :=
  match nextFault turns with
  | none => computed
  | some error => .error error

@[simp] theorem outcome_nil {α : Type w} (computed : Except ε α) :
    outcome ([] : List (Turn σ ε)) computed = computed := rfl

/-- A statement that does not fail has the outcome that it computes. -/
theorem outcome_of_no_fault {α : Type w} {turns : List (Turn σ ε)} (h : nextFault turns = none)
    (computed : Except ε α) : outcome turns computed = computed := by
  rw [outcome, h]

/-- A statement that fails has that outcome. -/
theorem outcome_of_fault {α : Type w} {turns : List (Turn σ ε)} {error : ε}
    (h : nextFault turns = some error) (computed : Except ε α) :
    outcome turns computed = .error error := by
  rw [outcome, h]

/-- A turn whose faults are named otherwise. -/
def mapFault {ε' : Type w} (f : ε → ε') (turn : Turn σ ε) : Turn σ ε' where
  change := turn.change
  fault := turn.fault.map f

section Faults

variable {ε' : Type w} (f : ε → ε') (turns : List (Turn σ ε)) (s : σ)

@[simp] theorem met_map_mapFault : met (turns.map (mapFault f)) s = met turns s := by
  cases turns <;> rfl

@[simp] theorem nextFault_map_mapFault :
    nextFault (turns.map (mapFault f)) = (nextFault turns).map f := by
  cases turns <;> rfl

end Faults

end Turn

/-- The end of a run: the state, the turns that are left, and the result or the error. -/
structure Ending (σ : Type u) (ε : Type v) (α : Type w) where
  state : σ
  turns : List (Turn σ ε)
  result : Except ε α

namespace Program

section Runs

variable {σ : Type u} {ε : Type v} {α : Type w} {β : Type w}

/-- The run of a program over its turns. -/
def run : Program σ ε α → List (Turn σ ε) → σ → Ending σ ε α
  | .done result, turns, s => ⟨s, turns, .ok result⟩
  | .thrown error, turns, s => ⟨s, turns, .error error⟩
  | .sample next, turns, s => (next (Turn.met turns s)).run turns.tail (Turn.met turns s)
  | .statement effect next, turns, s =>
    match Turn.nextFault turns with
    | none => (next (.ok (Turn.met turns s))).run turns.tail (effect (Turn.met turns s))
    | some error => (next (.error error)).run turns.tail (Turn.met turns s)

/-- The statements that a run comes to, whether or not they fail: the state that each meets, and
the state that it makes of it. -/
def attempts : Program σ ε α → List (Turn σ ε) → σ → List (σ × σ)
  | .done _, _, _ => []
  | .thrown _, _, _ => []
  | .sample next, turns, s => (next (Turn.met turns s)).attempts turns.tail (Turn.met turns s)
  | .statement effect next, turns, s =>
    (Turn.met turns s, effect (Turn.met turns s)) ::
      match Turn.nextFault turns with
      | none => (next (.ok (Turn.met turns s))).attempts turns.tail (effect (Turn.met turns s))
      | some error => (next (.error error)).attempts turns.tail (Turn.met turns s)

end Runs

end Program

namespace Ending

variable {σ : Type u} {ε : Type v} {α : Type w} {β : Type x}

/-- The end of a statement that is all of its program. -/
def ofOutcome (turns : List (Turn σ ε)) (s : σ) : Except ε (σ × α) → Ending σ ε α
  | .ok (t, result) => ⟨t, turns, .ok result⟩
  | .error error => ⟨s, turns, .error error⟩

/-- What follows a run that returned. -/
def andThen (ending : Ending σ ε α) (rest : α → Program σ ε β) : Ending σ ε β :=
  match ending.result with
  | .ok result => (rest result).run ending.turns ending.state
  | .error error => ⟨ending.state, ending.turns, .error error⟩

/-- What follows a run that threw. -/
def orElse (ending : Ending σ ε α) (handler : ε → Program σ ε α) : Ending σ ε α :=
  match ending.result with
  | .ok _ => ending
  | .error error => (handler error).run ending.turns ending.state

/-- The statements of what follows a run that returned. -/
def attemptsThen (ending : Ending σ ε α) (rest : α → Program σ ε β) : List (σ × σ) :=
  match ending.result with
  | .ok result => (rest result).attempts ending.turns ending.state
  | .error _ => []

/-- The statements of what follows a run that threw. -/
def attemptsElse (ending : Ending σ ε α) (handler : ε → Program σ ε α) : List (σ × σ) :=
  match ending.result with
  | .ok _ => []
  | .error error => (handler error).attempts ending.turns ending.state

variable {s : σ} {turns : List (Turn σ ε)}

@[simp] theorem ofOutcome_ok (t : σ) (result : α) :
    ofOutcome turns s (.ok (t, result) : Except ε (σ × α)) = ⟨t, turns, .ok result⟩ := rfl

@[simp] theorem ofOutcome_error (error : ε) :
    ofOutcome turns s (.error error : Except ε (σ × α)) = ⟨s, turns, .error error⟩ := rfl

@[simp] theorem andThen_ok (result : α) (rest : α → Program σ ε β) :
    (⟨s, turns, .ok result⟩ : Ending σ ε α).andThen rest = (rest result).run turns s := rfl

@[simp] theorem andThen_error (error : ε) (rest : α → Program σ ε β) :
    (⟨s, turns, .error error⟩ : Ending σ ε α).andThen rest = ⟨s, turns, .error error⟩ := rfl

@[simp] theorem orElse_ok (result : α) (handler : ε → Program σ ε α) :
    (⟨s, turns, .ok result⟩ : Ending σ ε α).orElse handler = ⟨s, turns, .ok result⟩ := rfl

@[simp] theorem orElse_error (error : ε) (handler : ε → Program σ ε α) :
    (⟨s, turns, .error error⟩ : Ending σ ε α).orElse handler = (handler error).run turns s := rfl

@[simp] theorem attemptsThen_ok (result : α) (rest : α → Program σ ε β) :
    (⟨s, turns, .ok result⟩ : Ending σ ε α).attemptsThen rest = (rest result).attempts turns s :=
  rfl

@[simp] theorem attemptsThen_error (error : ε) (rest : α → Program σ ε β) :
    (⟨s, turns, .error error⟩ : Ending σ ε α).attemptsThen rest = [] := rfl

@[simp] theorem attemptsElse_ok (result : α) (handler : ε → Program σ ε α) :
    (⟨s, turns, .ok result⟩ : Ending σ ε α).attemptsElse handler = [] := rfl

@[simp] theorem attemptsElse_error (error : ε) (handler : ε → Program σ ε α) :
    (⟨s, turns, .error error⟩ : Ending σ ε α).attemptsElse handler =
      (handler error).attempts turns s := rfl

end Ending

namespace Program

section Rules

variable {σ : Type u} {ε : Type v} {α β : Type w} (turns : List (Turn σ ε)) (s : σ)

@[simp] theorem run_pure (a : α) : (Pure.pure a : Program σ ε α).run turns s = ⟨s, turns, .ok a⟩ :=
  rfl

@[simp] theorem run_throw (error : ε) :
    (throw error : Program σ ε α).run turns s = ⟨s, turns, .error error⟩ := rfl

/-- A sequence runs its first part, and what follows its result. -/
@[simp] theorem run_bind (p : Program σ ε α) (rest : α → Program σ ε β) :
    (p >>= rest).run turns s = (p.run turns s).andThen rest := by
  induction p generalizing turns s with
  | done | thrown => rfl
  | sample next ih => exact ih _ _ _
  | statement effect next ih =>
    change (statement effect fun s => (next s).bind rest).run turns s = _
    simp only [run]
    cases Turn.nextFault turns with
    | none => exact ih _ _ _
    | some error => exact ih _ _ _

@[simp] theorem run_map (f : α → β) (p : Program σ ε α) :
    (f <$> p).run turns s = (p.run turns s).andThen fun a => Pure.pure (f a) :=
  run_bind turns s p _

/-- A handler runs after what threw. -/
@[simp] theorem run_tryCatch (p : Program σ ε α) (handler : ε → Program σ ε α) :
    (tryCatch p handler).run turns s = (p.run turns s).orElse handler := by
  induction p generalizing turns s with
  | done | thrown => rfl
  | sample next ih => exact ih _ _ _
  | statement effect next ih =>
    change (statement effect fun s => (next s).catching handler).run turns s = _
    simp only [run]
    cases Turn.nextFault turns with
    | none => exact ih _ _ _
    | some error => exact ih _ _ _

/-- A statement has the outcome that it computes, unless it fails. -/
@[simp] theorem run_query (run : σ → Except ε (σ × α)) : (query run).run turns s =
    Ending.ofOutcome turns.tail (Turn.met turns s)
      (Turn.outcome turns (run (Turn.met turns s))) := by
  simp only [query, Program.run, Turn.outcome]
  cases Turn.nextFault turns with
  | some error => rfl
  | none =>
    change (ofOutcome (run (Turn.met turns s))).run _ _ = _
    cases run (Turn.met turns s) with
    | ok outcome => rfl
    | error error => rfl

/-- The run of a statement when its program runs alone. -/
theorem run_query_nil (run : σ → Except ε (σ × α)) :
    (query run).run [] s = Ending.ofOutcome [] s (run s) := run_query [] s run

@[simp] theorem run_look (f : σ → α) : (look f : Program σ ε α).run turns s =
    ⟨Turn.met turns s, turns.tail, .ok (f (Turn.met turns s))⟩ := rfl

/-- A run takes its turns from the front. -/
theorem run_turns_suffix (p : Program σ ε α) : (p.run turns s).turns <:+ turns := by
  induction p generalizing turns s with
  | done | thrown => exact List.suffix_rfl
  | sample next ih => exact (ih _ _ _).trans (List.tail_suffix _)
  | statement effect next ih =>
    simp only [run]
    cases Turn.nextFault turns with
    | none => exact (ih _ _ _).trans (List.tail_suffix _)
    | some error => exact (ih _ _ _).trans (List.tail_suffix _)

end Rules

section Attempts

variable {σ : Type u} {ε : Type v} {α β : Type w} (turns : List (Turn σ ε)) (s : σ)

@[simp] theorem attempts_pure (a : α) : (Pure.pure a : Program σ ε α).attempts turns s = [] := rfl

@[simp] theorem attempts_throw (error : ε) :
    (throw error : Program σ ε α).attempts turns s = [] := rfl

/-- A sequence comes to the statements of its first part, and to those of what follows its
result. -/
@[simp] theorem attempts_bind (p : Program σ ε α) (rest : α → Program σ ε β) :
    (p >>= rest).attempts turns s =
      p.attempts turns s ++ (p.run turns s).attemptsThen rest := by
  induction p generalizing turns s with
  | done | thrown => rfl
  | sample next ih => exact ih _ _ _
  | statement effect next ih =>
    change (statement effect fun s => (next s).bind rest).attempts turns s = _
    simp only [attempts, run, List.cons_append]
    refine congrArg (List.cons _) ?_
    cases Turn.nextFault turns with
    | none => exact ih _ _ _
    | some error => exact ih _ _ _

/-- A handler comes after the statements of what threw. -/
@[simp] theorem attempts_tryCatch (p : Program σ ε α) (handler : ε → Program σ ε α) :
    (tryCatch p handler).attempts turns s =
      p.attempts turns s ++ (p.run turns s).attemptsElse handler := by
  induction p generalizing turns s with
  | done | thrown => rfl
  | sample next ih => exact ih _ _ _
  | statement effect next ih =>
    change (statement effect fun s => (next s).catching handler).attempts turns s = _
    simp only [attempts, run, List.cons_append]
    refine congrArg (List.cons _) ?_
    cases Turn.nextFault turns with
    | none => exact ih _ _ _
    | some error => exact ih _ _ _

/-- A statement that is all of its program. -/
@[simp] theorem attempts_query (run : σ → Except ε (σ × α)) : (query run).attempts turns s =
    [(Turn.met turns s, stateAfter (Turn.met turns s) (run (Turn.met turns s)))] := by
  have hrest : ∀ (outcome : Except ε (σ × α)) (later : List (Turn σ ε)) (t : σ),
      (ofOutcome outcome).attempts later t = [] := by
    intro outcome later t
    cases outcome <;> rfl
  simp only [query, attempts]
  cases Turn.nextFault turns with
  | none => exact congrArg (List.cons _) (hrest _ _ _)
  | some error => exact congrArg (List.cons _) (hrest _ _ _)

@[simp] theorem attempts_look (f : σ → α) : (look f : Program σ ε α).attempts turns s = [] := rfl

end Attempts

/-- A program throws errors of one kind only, when its statements fail with errors of another. -/
def ThrowsOnly {σ : Type u} {ε : Type v} {α : Type w} (F E : ε → Prop) : Program σ ε α → Prop
  | .done _ => True
  | .thrown error => E error
  | .sample next => ∀ s, (next s).ThrowsOnly F E
  | .statement _ next =>
    (∀ s, (next (.ok s)).ThrowsOnly F E) ∧ ∀ error, F error → (next (.error error)).ThrowsOnly F E

namespace ThrowsOnly

variable {σ : Type u} {ε : Type v} {α β : Type w} {F E E' : ε → Prop}

/-- What the run of such a program throws. -/
theorem of_run {p : Program σ ε α} (h : p.ThrowsOnly F E) {turns : List (Turn σ ε)}
    (hturns : ∀ turn ∈ turns, ∀ error, turn.fault = some error → F error) {s : σ} {error : ε}
    (hrun : (p.run turns s).result = .error error) : E error := by
  induction p generalizing turns s with
  | done result => cases hrun
  | thrown thrown =>
    obtain rfl := Except.error.inj hrun
    exact h
  | sample next ih =>
    exact ih _ (h _) (fun turn hturn => hturns turn (List.mem_of_mem_tail hturn)) hrun
  | statement effect next ih =>
    have htail : ∀ turn ∈ turns.tail, ∀ error, turn.fault = some error → F error :=
      fun turn hturn => hturns turn (List.mem_of_mem_tail hturn)
    simp only [run] at hrun
    cases hfault : Turn.nextFault turns with
    | none =>
      rw [hfault] at hrun
      exact ih _ (h.1 _) htail hrun
    | some fault =>
      rw [hfault] at hrun
      cases turns with
      | nil => cases hfault
      | cons turn turns =>
        exact ih _ (h.2 _ (hturns turn (List.mem_cons_self ..) _ hfault)) htail hrun

/-- More errors may be allowed. -/
theorem mono {p : Program σ ε α} (h : p.ThrowsOnly F E) (hmono : ∀ error, E error → E' error) :
    p.ThrowsOnly F E' := by
  induction p with
  | done result => trivial
  | thrown error => exact hmono error h
  | sample next ih => exact fun s => ih s (h s)
  | statement effect next ih =>
    exact ⟨fun s => ih _ (h.1 s), fun error herror => ih _ (h.2 error herror)⟩

theorem pure (a : α) : (Pure.pure a : Program σ ε α).ThrowsOnly F E := trivial

theorem throw {error : ε} (h : E error) : (throwThe ε error : Program σ ε α).ThrowsOnly F E := h

/-- A sequence throws what its parts do. -/
theorem bind {p : Program σ ε α} {rest : α → Program σ ε β} (h : p.ThrowsOnly F E)
    (hrest : ∀ a, (rest a).ThrowsOnly F E) : (p >>= rest).ThrowsOnly F E := by
  induction p with
  | done result => exact hrest result
  | thrown error => exact h
  | sample next ih => exact fun s => ih s (h s)
  | statement effect next ih =>
    exact ⟨fun s => ih _ (h.1 s), fun error herror => ih _ (h.2 error herror)⟩

theorem map {p : Program σ ε α} (h : p.ThrowsOnly F E) (f : α → β) : (f <$> p).ThrowsOnly F E :=
  bind h fun _ => trivial

/-- A handler throws what it makes of what has been thrown. -/
theorem tryCatch {p : Program σ ε α} {handler : ε → Program σ ε α} (h : p.ThrowsOnly F E)
    (hhandler : ∀ error, E error → (handler error).ThrowsOnly F E') :
    (tryCatchThe ε p handler).ThrowsOnly F E' := by
  induction p with
  | done result => trivial
  | thrown error => exact hhandler error h
  | sample next ih => exact fun s => ih s (h s)
  | statement effect next ih =>
    exact ⟨fun s => ih _ (h.1 s), fun error herror => ih _ (h.2 error herror)⟩

/-- A statement throws its own errors, and those with which it fails. -/
theorem query {run : σ → Except ε (σ × α)} (h : ∀ s error, run s = .error error → E error)
    (hfail : ∀ error, F error → E error) : (query run).ThrowsOnly F E := by
  refine ⟨fun s => ?_, hfail⟩
  change (ofOutcome (run s)).ThrowsOnly F E
  cases hrun : run s with
  | ok outcome => trivial
  | error error => exact h s error hrun

theorem look (f : σ → α) : (look f : Program σ ε α).ThrowsOnly F E := fun _ => trivial

end ThrowsOnly

/-- Every statement of a program makes of each state what it may. -/
def AttemptsOnly {σ : Type u} {ε : Type v} {α : Type w} (A : σ → σ → Prop) :
    Program σ ε α → Prop
  | .done _ => True
  | .thrown _ => True
  | .sample next => ∀ s, (next s).AttemptsOnly A
  | .statement effect next => (∀ s, A s (effect s)) ∧ ∀ outcome, (next outcome).AttemptsOnly A

namespace AttemptsOnly

variable {σ : Type u} {ε : Type v} {α β : Type w} {A : σ → σ → Prop}

/-- What the run of such a program comes to. -/
theorem of_attempts {p : Program σ ε α} (h : p.AttemptsOnly A) (turns : List (Turn σ ε)) (s : σ) :
    ∀ attempt ∈ p.attempts turns s, A attempt.1 attempt.2 := by
  induction p generalizing turns s with
  | done | thrown => exact fun _ hattempt => absurd hattempt List.not_mem_nil
  | sample next ih => exact ih _ (h _) _ _
  | statement effect next ih =>
    intro attempt hattempt
    rw [attempts, List.mem_cons] at hattempt
    rcases hattempt with rfl | hlater
    · exact h.1 _
    · cases hfault : Turn.nextFault turns with
      | none =>
        rw [hfault] at hlater
        exact ih _ (h.2 _) _ _ attempt hlater
      | some error =>
        rw [hfault] at hlater
        exact ih _ (h.2 _) _ _ attempt hlater

theorem pure (a : α) : (Pure.pure a : Program σ ε α).AttemptsOnly A := trivial

theorem throw (error : ε) : (throwThe ε error : Program σ ε α).AttemptsOnly A := trivial

/-- A sequence has the statements of its parts. -/
theorem bind {p : Program σ ε α} {rest : α → Program σ ε β} (h : p.AttemptsOnly A)
    (hrest : ∀ a, (rest a).AttemptsOnly A) : (p >>= rest).AttemptsOnly A := by
  induction p with
  | done result => exact hrest result
  | thrown error => trivial
  | sample next ih => exact fun s => ih s (h s)
  | statement effect next ih => exact ⟨h.1, fun outcome => ih outcome (h.2 outcome)⟩

/-- A handler adds its own statements. -/
theorem tryCatch {p : Program σ ε α} {handler : ε → Program σ ε α} (h : p.AttemptsOnly A)
    (hhandler : ∀ error, (handler error).AttemptsOnly A) :
    (tryCatchThe ε p handler).AttemptsOnly A := by
  induction p with
  | done result => trivial
  | thrown error => exact hhandler error
  | sample next ih => exact fun s => ih s (h s)
  | statement effect next ih => exact ⟨h.1, fun outcome => ih outcome (h.2 outcome)⟩

/-- One statement. -/
theorem query {run : σ → Except ε (σ × α)} (h : ∀ s, A s (stateAfter s (run s))) :
    (query run).AttemptsOnly A := by
  refine ⟨h, fun outcome => ?_⟩
  change (ofOutcome (outcome.bind run)).AttemptsOnly A
  cases outcome.bind run with
  | ok outcome => trivial
  | error error => trivial

theorem look (f : σ → α) : (look f : Program σ ε α).AttemptsOnly A := fun _ => trivial

end AttemptsOnly

end Program

section TwoRuns

variable {σ : Type u} {τ : Type v} {ε : Type w} {R : σ → τ → Prop}

/-- Turns with the same fault, whose changes keep related states related. -/
structure Turn.Alike (R : σ → τ → Prop) (turn : Turn σ ε) (turn' : Turn τ ε) : Prop where
  change : ∀ s t, R s t → R (turn.change s) (turn'.change t)
  fault : turn.fault = turn'.fault

/-- Two runs over such turns, turn by turn. -/
abbrev Turn.AllAlike (R : σ → τ → Prop) : List (Turn σ ε) → List (Turn τ ε) → Prop :=
  List.Forall₂ (Turn.Alike R)

namespace Turn.AllAlike

variable {turns : List (Turn σ ε)} {turns' : List (Turn τ ε)} (h : AllAlike R turns turns')
include h

/-- The next sample or statement meets related states, -/
theorem met {s : σ} {t : τ} (hst : R s t) : R (Turn.met turns s) (Turn.met turns' t) := by
  cases h with
  | nil => exact hst
  | cons halike _ => exact halike.change s t hst

/-- and fails in both or in none; -/
theorem nextFault : Turn.nextFault turns = Turn.nextFault turns' := by
  cases h with
  | nil => rfl
  | cons halike _ => exact halike.fault

/-- what is left is alike. -/
theorem tail : AllAlike R turns.tail turns'.tail := by
  cases h with
  | nil => exact .nil
  | cons _ htail => exact htail

/-- Faults may be named otherwise. -/
theorem mapFault {ε' : Type x} (f : ε → ε') :
    AllAlike R (turns.map (Turn.mapFault f)) (turns'.map (Turn.mapFault f)) := by
  refine List.forall₂_map_left_iff.mpr (List.forall₂_map_right_iff.mpr (h.imp ?_))
  exact fun _ _ halike => ⟨halike.change, congrArg (Option.map f) halike.fault⟩

end Turn.AllAlike

/-- Ends with the same error or with related results, in related states. -/
inductive Ending.Alike {α : Type x} {β : Type y} (R : σ → τ → Prop) (V : α → β → Prop) :
    Ending σ ε α → Ending τ ε β → Prop where
  | ok {s : σ} {t : τ} {turns : List (Turn σ ε)} {turns' : List (Turn τ ε)} {a : α} {b : β}
    (hstate : R s t) (hturns : Turn.AllAlike R turns turns') (hresult : V a b) :
    Alike R V ⟨s, turns, .ok a⟩ ⟨t, turns', .ok b⟩
  | error {s : σ} {t : τ} {turns : List (Turn σ ε)} {turns' : List (Turn τ ε)} (error : ε)
    (hstate : R s t) (hturns : Turn.AllAlike R turns turns') :
    Alike R V ⟨s, turns, .error error⟩ ⟨t, turns', .error error⟩

/-- Such ends return or throw the same, when results are related by equality. -/
theorem Ending.Alike.result_eq {α : Type x} {ending : Ending σ ε α} {other : Ending τ ε α}
    (h : ending.Alike R Eq other) : ending.result = other.result := by
  cases h with
  | ok _ _ hresult => exact congrArg Except.ok hresult
  | error => rfl

/-- The two-run rule for one program: programs that agree end alike. -/
theorem Program.Agree.run {α : Type x} {β : Type y} {V : α → β → Prop} {p : Program σ ε α}
    {q : Program τ ε β} (h : p.Agree R V q) {turns : List (Turn σ ε)} {turns' : List (Turn τ ε)}
    (hturns : Turn.AllAlike R turns turns') {s : σ} {t : τ} (hst : R s t) :
    (p.run turns s).Alike R V (q.run turns' t) := by
  induction h generalizing turns turns' s t with
  | done hresult => exact .ok hst hturns hresult
  | thrown error => exact .error error hst hturns
  | sample _ ih => exact ih _ _ (hturns.met hst) hturns.tail (hturns.met hst)
  | statement heffect _ _ ihNext ihFail =>
    have hmet := hturns.met hst
    simp only [Program.run, hturns.nextFault]
    cases Turn.nextFault turns' with
    | none => exact ihNext _ _ hmet hturns.tail (heffect _ _ hmet)
    | some error => exact ihFail error hturns.tail hmet

/-- What follows such ends must agree on the results that they can have. -/
theorem Ending.Alike.andThen {α γ : Type x} {β δ : Type y} {V : α → β → Prop} {W : γ → δ → Prop}
    {ending : Ending σ ε α} {other : Ending τ ε β} (h : ending.Alike R V other)
    {f : α → Program σ ε γ} {g : β → Program τ ε δ}
    (hrest : ∀ a b, ending.result = .ok a → V a b → (f a).Agree R W (g b)) :
    (ending.andThen f).Alike R W (other.andThen g) := by
  cases h with
  | ok hstate hturns hresult => exact (hrest _ _ rfl hresult).run hturns hstate
  | error error hstate hturns => exact .error error hstate hturns

end TwoRuns

end VertexApi
