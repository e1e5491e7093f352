import Mathlib.Logic.Function.Basic
import VertexApi.Core.Machine
import VertexApi.Core.Table

/-!
# The content of the about page

A read takes any row of the table, and creates an empty one if there is none. An edit writes
over the row that it read, or creates one. Each statement is one step, so a run interleaves
any number of reads and edits. The record of the writes of edits is kept for statements only.
-/

namespace VertexApi.About

/-- A row of `about_content`. -/
structure AboutContent where
  id : String
  content : String
  contentEn : Option String
  contentEs : Option String
  updatedAt : Nat
  deriving DecidableEq, Repr

/-- A request body. -/
structure UpdateAboutDto where
  content : String
  contentEn : Option String
  contentEs : Option String
  deriving DecidableEq, Repr

/-- The validation of a body. -/
def updateAboutSchema (input : UpdateAboutDto) : Option UpdateAboutDto :=
  if input.content = "" then none else some input

/-- A call. -/
inductive AboutOperation where
  | get
  | update (updateAboutDto : UpdateAboutDto)
  deriving DecidableEq, Repr

/-- The row that a call inserts. -/
def AboutOperation.newRow (id : String) (now : Nat) : AboutOperation → AboutContent
  | .get => ⟨id, "", none, none, now⟩
  | .update dto => ⟨id, dto.content, dto.contentEn, dto.contentEs, now⟩

/-- The write of an edit to a row; texts that the body leaves out stay. -/
def written (dto : UpdateAboutDto) (now : Nat) (row : AboutContent) : AboutContent :=
  { row with
    content := dto.content
    contentEn := dto.contentEn.or row.contentEn
    contentEs := dto.contentEs.or row.contentEs
    updatedAt := now }

/-- Where a call stands. -/
inductive AboutPhase where
  /-- Before the read. -/
  | find
  /-- Before the insert, as the read found no row. -/
  | insert
  /-- Before the update of the row that was read. -/
  | update (existing : AboutContent)
  /-- With the returned row, or `undefined` when the update met none. -/
  | done (answer : Option AboutContent)
  deriving DecidableEq, Repr

/-- One call. -/
structure AboutCall where
  operation : AboutOperation
  phase : AboutPhase
  deriving DecidableEq, Repr

/-- The table, the calls, and the rows that edits have written, each with its call. -/
structure AboutState where
  clock : Nat
  rows : List AboutContent
  calls : Nat → Option AboutCall
  writes : List (Nat × AboutContent)

namespace AboutState

/-- A table and no calls. -/
def initial (clock : Nat) (rows : List AboutContent) : AboutState where
  clock := clock
  rows := rows
  calls _ := none
  writes := []

/-- Replace one call. -/
def setCall (s : AboutState) (id : Nat) (call : AboutCall) : AboutState :=
  { s with calls := Function.update s.calls id (some call) }

/-- What a call adds to the record when it writes a row. -/
def recorded (id : Nat) (operation : AboutOperation) (row : AboutContent) :
    List (Nat × AboutContent) :=
  match operation with
  | .get => []
  | .update _ => [(id, row)]

/-- The insert of a call. -/
def inserted (s : AboutState) (id : Nat) (operation : AboutOperation) (rowId : String) :
    AboutState :=
  let row := operation.newRow rowId s.clock
  { s with rows := s.rows ++ [row], writes := s.writes ++ recorded id operation row }.setCall id
    ⟨operation, .done (some row)⟩

/-- The update of an edit, which returns the row. -/
def updated (s : AboutState) (id : Nat) (dto : UpdateAboutDto) (existing : AboutContent) :
    AboutState :=
  let rows := updateWhere AboutContent.id existing.id (written dto s.clock) s.rows
  let answer := rows.find? fun row => row.id == existing.id
  { s with
    rows := rows
    writes := s.writes ++ answer.toList.map fun row => (id, row) }.setCall id
    ⟨.update dto, .done answer⟩

end AboutState

/-- The steps of a run. -/
inductive AboutLabel where
  | tick (ms : Nat)
  /-- The start of a read, or of an edit with a validated body. -/
  | call (id : Nat) (operation : AboutOperation)
  /-- The read of any row. -/
  | find (id : Nat) (pick : Option AboutContent)
  /-- The insert of a row, under an id that is drawn for it. -/
  | insert (id : Nat) (rowId : String)
  | update (id : Nat)
  deriving DecidableEq, Repr

/-- The operation is a read, or an edit whose body is valid. -/
def AboutOperation.valid : AboutOperation → Bool
  | .get => true
  | .update dto => (updateAboutSchema dto).isSome

/-- What follows the read of a call. -/
def afterFind : AboutOperation → Option AboutContent → AboutPhase
  | _, none => .insert
  | .get, some existing => .done (some existing)
  | .update _, some existing => .update existing

/-- Reads and edits as one machine. -/
def aboutPage : Machine AboutState AboutLabel where
  step s
    | .tick ms => some { s with clock := s.clock + ms }
    | .call id operation =>
      if (s.calls id).isSome ∨ operation.valid = false then none
      else some (s.setCall id ⟨operation, .find⟩)
    | .find id pick =>
      match s.calls id with
      | some ⟨operation, .find⟩ =>
        if Picks s.rows (fun _ => true) pick then
          some (s.setCall id ⟨operation, afterFind operation pick⟩)
        else none
      | _ => none
    | .insert id rowId =>
      match s.calls id with
      | some ⟨operation, .insert⟩ =>
        if s.rows.any fun row => row.id == rowId then none else some (s.inserted id operation rowId)
      | _ => none
    | .update id =>
      match s.calls id with
      | some ⟨.update dto, .update existing⟩ => some (s.updated id dto existing)
      | _ => none

section Steps

variable {s t : AboutState} {label : AboutLabel}

/-- A step passes time, starts a call, or makes the next statement of one. -/
theorem aboutPage_step_cases (h : aboutPage.step s label = some t) :
    (∃ ms, label = .tick ms ∧ t = { s with clock := s.clock + ms }) ∨
    (∃ id operation, label = .call id operation ∧ s.calls id = none ∧
      t = s.setCall id ⟨operation, .find⟩) ∨
    (∃ id operation pick, label = .find id pick ∧ s.calls id = some ⟨operation, .find⟩ ∧
      Picks s.rows (fun _ => true) pick ∧
      t = s.setCall id ⟨operation, afterFind operation pick⟩) ∨
    (∃ id operation rowId, label = .insert id rowId ∧ s.calls id = some ⟨operation, .insert⟩ ∧
      t = s.inserted id operation rowId) ∨
    ∃ id dto existing, label = .update id ∧ s.calls id = some ⟨.update dto, .update existing⟩ ∧
      t = s.updated id dto existing := by
  cases label with
  | tick ms => exact Or.inl ⟨ms, rfl, (Option.some.inj h).symm⟩
  | call id operation =>
    obtain ⟨hnew, ht⟩ := Option.ite_none_left_eq_some.mp h
    rw [not_or, Option.not_isSome_iff_eq_none] at hnew
    exact Or.inr (Or.inl ⟨id, operation, rfl, hnew.1, (Option.some.inj ht).symm⟩)
  | find id pick =>
    simp only [aboutPage] at h
    split at h
    · next operation hcall =>
      obtain ⟨hpick, ht⟩ := Option.ite_none_right_eq_some.mp h
      exact Or.inr (Or.inr (Or.inl ⟨id, operation, pick, rfl, hcall, hpick,
        (Option.some.inj ht).symm⟩))
    · cases h
  | insert id rowId =>
    simp only [aboutPage] at h
    split at h
    · next operation hcall =>
      obtain ⟨-, ht⟩ := Option.ite_none_left_eq_some.mp h
      exact Or.inr (Or.inr (Or.inr (Or.inl ⟨id, operation, rowId, rfl, hcall,
        (Option.some.inj ht).symm⟩)))
    · cases h
  | update id =>
    simp only [aboutPage] at h
    split at h
    · next dto existing hcall =>
      exact Or.inr (Or.inr (Or.inr (Or.inr ⟨id, dto, existing, rfl, hcall,
        (Option.some.inj h).symm⟩)))
    · cases h

end Steps

end VertexApi.About
