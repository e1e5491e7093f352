import Mathlib.Data.List.Induction

/-!
# Versioned snapshots of an append-only log

A value that is only ever replaced by applying an entry to its current version is a
fold over the entries applied so far, and its version is their number. A reader holds
the snapshot of a prefix of the log. Comparing versions at the moment of a write then
decides whether anything was appended since the read, so a conditional write succeeds
exactly when its entry is applied to the whole log.
-/

namespace VertexApi

universe u v

/-- A stored value with the number of writes that led to it. -/
structure Versioned (σ : Type u) where
  value : σ
  version : Nat
  deriving DecidableEq, Repr

section VersionedLog

variable {σ : Type u} {ε : Type v} (apply : Option σ → ε → σ)

/-- The value after all entries of a log, oldest first; an empty log stores nothing. -/
def foldLog (log : List ε) : Option σ :=
  log.foldl (fun current entry => some (apply current entry)) none

/-- What a reader of the log sees: nothing, or the folded value with the log's length. -/
def snapshot (log : List ε) : Option (Versioned σ) :=
  (foldLog apply log).map fun value => ⟨value, log.length⟩

/-- The condition of a write: the value read is still the current one, judged by version. -/
def Versioned.unchanged (expected actual : Option (Versioned σ)) : Bool :=
  match expected with
  | none => actual.isNone
  | some read => actual.any fun stored => stored.version == read.version

@[simp] theorem foldLog_nil : foldLog apply [] = none := rfl

@[simp] theorem foldLog_snoc (log : List ε) (entry : ε) :
    foldLog apply (log ++ [entry]) = some (apply (foldLog apply log) entry) := by
  simp only [foldLog, List.foldl_append, List.foldl_cons, List.foldl_nil]

/-- A nonempty log may be cut at an entry that applies alike to both sides of the cut. -/
theorem foldLog_append_cons (old rest : List ε) {entry : ε}
    (h : apply (foldLog apply old) entry = apply none entry) :
    foldLog apply (old ++ entry :: rest) = foldLog apply (entry :: rest) := by
  simp only [foldLog, List.foldl_append, List.foldl_cons] at h ⊢
  rw [h]

@[simp] theorem snapshot_nil : snapshot apply [] = none := rfl

/-- Appending an entry applies it to the value and counts one more version. -/
theorem snapshot_snoc (log : List ε) (entry : ε) :
    snapshot apply (log ++ [entry]) = some ⟨apply (foldLog apply log) entry, log.length + 1⟩ := by
  simp only [snapshot, foldLog_snoc, Option.map_some, List.length_append, List.length_singleton]

/-- The value of a snapshot is the fold of its log. -/
theorem snapshot_value (log : List ε) :
    (snapshot apply log).map Versioned.value = foldLog apply log := by
  unfold snapshot
  cases foldLog apply log with
  | none => rfl
  | some value => rfl

/-- A reader's version, zero when it saw nothing, is the length of the log it saw. -/
theorem snapshot_version (log : List ε) :
    (snapshot apply log).elim 0 Versioned.version = log.length := by
  induction log using List.reverseRecOn with
  | nil => rfl
  | append_singleton log entry _ =>
    simp only [snapshot_snoc, Option.elim, List.length_append, List.length_singleton]

/-- The version check compares lengths of the log at the read and at the write. -/
theorem unchanged_snapshot (before now : List ε) :
    Versioned.unchanged (snapshot apply before) (snapshot apply now) =
      decide (before.length = now.length) := by
  induction before using List.reverseRecOn with
  | nil =>
    induction now using List.reverseRecOn with
    | nil => rfl
    | append_singleton now entry _ =>
      simp [Versioned.unchanged, snapshot_snoc]
  | append_singleton before entry _ =>
    induction now using List.reverseRecOn with
    | nil => simp [Versioned.unchanged, snapshot_snoc]
    | append_singleton now entry' _ =>
      simp [Versioned.unchanged, snapshot_snoc, eq_comm, beq_eq_decide]

end VersionedLog

end VertexApi
