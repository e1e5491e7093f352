import VertexApi.Core.Turns

/-!
# Transactions

A transaction runs a program on a working copy of the database. It commits the copy when
the program returns, and drops it when the program throws; each statement may fail, and so
may the begin and the commit. Where a program catches nothing, a failed statement ends it,
so that a transaction does what it does without failures, or nothing.
-/

namespace VertexApi

universe u v w

section Transactions

variable {σ : Type u} {ε : Type v} {α : Type w}

/-- The turns of a program that runs alone, with the faults of its statements. -/
def Turn.alone (faults : List (Option ε)) : List (Turn σ ε) := faults.map fun fault => ⟨id, fault⟩

/-- The commit of a working copy, or its rollback. -/
def Ending.committed (ending : Ending σ ε α) (s : σ) : σ × Except ε α :=
  match ending.result with
  | .error error => (s, .error error)
  | .ok result =>
    match Turn.nextFault ending.turns with
    | some error => (s, .error error)
    | none => (ending.state, .ok result)

/-- The transaction of a program: the first of the faults is that of the begin. -/
def Program.transaction (body : Program σ ε α) (faults : List (Option ε)) (s : σ) :
    σ × Except ε α :=
  match Turn.nextFault (Turn.alone faults : List (Turn σ ε)) with
  | some error => (s, .error error)
  | none => (body.run (Turn.alone faults.tail) s).committed s

/-- A program whose failed statements end it. -/
def Program.Uncaught : Program σ ε α → Prop
  | .done _ | .thrown _ => True
  | .sample next => ∀ s, (next s).Uncaught
  | .statement _ next =>
    (∀ s, (next (.ok s)).Uncaught) ∧ ∀ error, next (.error error) = .thrown error

end Transactions

namespace Turn

variable {σ : Type u} {ε : Type v} (faults : List (Option ε)) (s : σ)

@[simp] theorem alone_nil : (alone [] : List (Turn σ ε)) = [] := rfl

@[simp] theorem alone_tail : (alone faults : List (Turn σ ε)).tail = alone faults.tail :=
  List.map_tail.symm

/-- Nothing changes in between. -/
@[simp] theorem met_alone : met (alone faults) s = s := by
  cases faults <;> rfl

/-- A statement fails with one of the faults. -/
theorem mem_of_nextFault_alone {faults : List (Option ε)} {error : ε}
    (h : nextFault (alone faults : List (Turn σ ε)) = some error) : some error ∈ faults := by
  cases faults with
  | nil => cases h
  | cons fault faults => exact List.mem_cons.mpr (.inl h.symm)

end Turn

namespace Program

variable {σ : Type u} {ε : Type v} {α β : Type w}

namespace Uncaught

theorem pure (a : α) : (Pure.pure a : Program σ ε α).Uncaught := trivial

theorem throw (error : ε) : (throwThe ε error : Program σ ε α).Uncaught := trivial

/-- A sequence of such programs. -/
theorem bind {p : Program σ ε α} {rest : α → Program σ ε β} (h : p.Uncaught)
    (hrest : ∀ a, (rest a).Uncaught) : (p >>= rest).Uncaught := by
  induction p with
  | done result => exact hrest result
  | thrown error => trivial
  | sample next ih => exact fun s => ih s (h s)
  | statement effect next ih =>
    refine ⟨fun s => ih _ (h.1 s), fun error => ?_⟩
    change (next (.error error)).bind rest = .thrown error
    rw [h.2 error]
    rfl

theorem query (run : σ → Except ε (σ × α)) : (Program.query run).Uncaught := by
  refine ⟨fun s => ?_, fun error => rfl⟩
  change (ofOutcome (run s)).Uncaught
  cases run s <;> trivial

end Uncaught

/-- Such a program throws one of the faults, or none of its statements has failed. -/
theorem Uncaught.run {p : Program σ ε α} (h : p.Uncaught) (faults : List (Option ε)) (s : σ) :
    (∃ error, some error ∈ faults ∧ (p.run (Turn.alone faults) s).result = .error error) ∨
      ∃ rest, rest <:+ faults ∧ p.run (Turn.alone faults) s =
        ⟨(p.run [] s).state, Turn.alone rest, (p.run [] s).result⟩ := by
  induction p generalizing faults s with
  | done | thrown => exact .inr ⟨faults, List.suffix_rfl, rfl⟩
  | sample next ih =>
    simp only [Program.run, Turn.met_alone, Turn.alone_tail, Turn.met_nil, List.tail_nil]
    rcases ih s (h s) faults.tail s with ⟨error, hmem, hresult⟩ | ⟨rest, hrest, hrun⟩
    · exact .inl ⟨error, List.mem_of_mem_tail hmem, hresult⟩
    · exact .inr ⟨rest, hrest.trans (List.tail_suffix _), hrun⟩
  | statement effect next ih =>
    simp only [Program.run, Turn.met_alone, Turn.alone_tail, Turn.met_nil, List.tail_nil,
      Turn.nextFault_nil]
    cases hfault : Turn.nextFault (Turn.alone faults : List (Turn σ ε)) with
    | some error =>
      simp only [h.2 error]
      exact .inl ⟨error, Turn.mem_of_nextFault_alone hfault, rfl⟩
    | none =>
      rcases ih _ (h.1 s) faults.tail (effect s) with ⟨error, hmem, hresult⟩ | ⟨rest, hrest, hrun⟩
      · exact .inl ⟨error, List.mem_of_mem_tail hmem, hresult⟩
      · exact .inr ⟨rest, hrest.trans (List.tail_suffix _), hrun⟩

/-- A transaction that catches nothing throws one of the faults, and leaves the database
unchanged, or does what it does without failures. -/
theorem Uncaught.transaction {body : Program σ ε α} (h : body.Uncaught) (faults : List (Option ε))
    (s : σ) : (∃ error, some error ∈ faults ∧ body.transaction faults s = (s, .error error)) ∨
      body.transaction faults s = (body.run [] s).committed s := by
  simp only [Program.transaction]
  cases hbegin : Turn.nextFault (Turn.alone faults : List (Turn σ ε)) with
  | some error => exact .inl ⟨error, Turn.mem_of_nextFault_alone hbegin, rfl⟩
  | none =>
    rcases h.run faults.tail s with ⟨error, hmem, hresult⟩ | ⟨rest, hrest, hrun⟩
    · refine .inl ⟨error, List.mem_of_mem_tail hmem, ?_⟩
      simp only [Ending.committed, hresult]
    · have hnone : (body.run [] s).turns = [] := List.suffix_nil.mp (body.run_turns_suffix [] s)
      simp only [hrun, Ending.committed, hnone]
      cases (body.run [] s).result with
      | error thrown => exact .inr rfl
      | ok result =>
        cases hcommit : Turn.nextFault (Turn.alone rest : List (Turn σ ε)) with
        | none => exact .inr rfl
        | some error =>
          have hmem := hrest.subset (Turn.mem_of_nextFault_alone hcommit)
          exact .inl ⟨error, List.mem_of_mem_tail hmem, rfl⟩

end Program

end VertexApi
