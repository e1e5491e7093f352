import Mathlib.Logic.Function.Basic
import VertexApi.Core.Machine
import VertexApi.Core.VersionedLog
import VertexApi.Throttler.Window

/-!
# The DynamoDB throttler storage

Every `increment` call reads its item, samples the clock, and writes the advanced
window back under a condition on the version it read; a rejected condition starts the
next of `maxAttempts` attempts. Each command and each clock sample is one step of the
machine, so a run interleaves any number of calls on any keys. The history of applied
writes and the count each read found are kept for statements only.
-/

namespace VertexApi.Throttler

/-- How often a call reads, decides and writes before it gives up counting. -/
def maxAttempts : Nat := 3

/-- How long items outlive their window before they may be collected. -/
def garbageCollectionGraceSeconds : Nat := 3600

/-- The stored attributes of one throttler key; DynamoDB lets each of them be absent. -/
structure Item where
  totalHits : Option Nat
  windowEndsAt : Option Nat
  blockedUntil : Option Nat
  version : Option Nat
  /-- The time-to-live attribute, in epoch seconds. -/
  expiresAt : Option Nat
  deriving DecidableEq, Repr

/-- The table, by partition key. -/
abbrev Table := String → Option Item

/-- The arguments of one `increment` call. -/
structure Increment where
  key : String
  ttl : Nat
  limit : Nat
  blockDuration : Nat
  throttlerName : String
  deriving DecidableEq, Repr

/-- The partition key a call reads and writes. -/
def Increment.itemKey (args : Increment) : String := args.throttlerName ++ ":" ++ args.key

/-- The decision of a call on the window it read. -/
def Increment.advance (args : Increment) (current : Option ThrottleWindow) (now : Nat) : Advance :=
  advanceThrottleWindow current now args.ttl args.limit args.blockDuration

/-- The window and version of an item; an absent attribute counts as zero. -/
def Item.parse (item : Item) : Versioned ThrottleWindow where
  value := {
    totalHits := item.totalHits.getD 0
    windowEndsAt := item.windowEndsAt.getD 0
    blockedUntil := item.blockedUntil.getD 0 }
  version := item.version.getD 0

/-- The consistent read of one key. -/
def read (table : Table) (itemKey : String) : Option (Versioned ThrottleWindow) :=
  (table itemKey).map Item.parse

/-- The condition expression of a write. -/
inductive Condition where
  /-- `attribute_not_exists(pk)` -/
  | attributeNotExists
  /-- `version = :version` -/
  | versionIs (version : Nat)
  deriving DecidableEq, Repr

/-- Whether a condition holds of the item stored under its key. -/
def Condition.holds (stored : Option Item) : Condition → Bool
  | .attributeNotExists => stored.isNone
  | .versionIs version => stored.any fun item => item.version == some version

/-- A conditional write of one item. -/
structure PutItem where
  itemKey : String
  item : Item
  condition : Condition
  deriving DecidableEq, Repr

/-- The write of an advanced window over the version that was read. -/
def write (itemKey : String) (window : ThrottleWindow) (currentVersion : Option Nat) : PutItem where
  itemKey := itemKey
  item := {
    totalHits := some window.totalHits
    windowEndsAt := some window.windowEndsAt
    blockedUntil := some window.blockedUntil
    version := some (currentVersion.getD 0 + 1)
    expiresAt := some (ceilSeconds window.windowEndsAt + garbageCollectionGraceSeconds) }
  condition := match currentVersion with
    | none => .attributeNotExists
    | some version => .versionIs version

/-- The table after a write, or nothing when its condition check fails. -/
def PutItem.send (put : PutItem) (table : Table) : Option Table :=
  if put.condition.holds (table put.itemKey) then
    some (Function.update table put.itemKey (some put.item))
  else none

/-- The item has passed its expiry second, so DynamoDB may delete it. -/
def Item.collectable (item : Item) (clock : Nat) : Bool :=
  item.expiresAt.any fun seconds => decide (seconds * 1000 ≤ clock)

/-- How a call ends: with the record of its own write, after `maxAttempts` lost writes,
or with an error of the store. -/
inductive Answer where
  | counted (record : ThrottleDecision)
  | gaveUp
  | unavailable
  deriving DecidableEq, Repr

/-- The record of both paths that let a request pass uncounted. -/
def allowingRecord (ttl : Nat) : ThrottleDecision where
  totalHits := 1
  timeToExpire := ceilSeconds ttl
  isBlocked := false
  timeToBlockExpire := 0

/-- The record a call returns. -/
def Answer.record (ttl : Nat) : Answer → ThrottleDecision
  | .counted record => record
  | .gaveUp => allowingRecord ttl
  | .unavailable => allowingRecord ttl

/-- Where a call stands in its loop. -/
inductive Phase where
  /-- Before the read of an attempt. -/
  | get (attempt : Nat)
  /-- After the read, before the clock is sampled. -/
  | sample (attempt : Nat) (current : Option (Versioned ThrottleWindow))
  /-- Before the conditional write of what was decided at `now`. -/
  | put (attempt : Nat) (current : Option (Versioned ThrottleWindow)) (now : Nat)
  | done (answer : Answer)
  deriving DecidableEq, Repr

/-- The head of the loop: the next attempt, or the end of the attempts. -/
def loop (attempt : Nat) : Phase :=
  if attempt < maxAttempts then .get attempt else .done .gaveUp

/-- One call in flight or finished. -/
structure Call where
  args : Increment
  phase : Phase
  /-- How many writes had been applied to the item at the last read; for statements only. -/
  seen : Nat
  deriving DecidableEq, Repr

/-- One applied write: the call it belongs to and the clock sample it was decided at. -/
structure Commit where
  call : Nat
  args : Increment
  now : Nat
  deriving DecidableEq, Repr

/-- The shared clock and table, the calls, and the applied writes in order. -/
structure State where
  clock : Nat
  table : Table
  calls : Nat → Option Call
  /-- Applied writes on all keys, oldest first; for statements only. -/
  history : List Commit

/-- An empty table and no calls. -/
def State.initial (clock : Nat) : State := ⟨clock, fun _ => none, fun _ => none, []⟩

/-- The applied writes of one key, oldest first. -/
def State.commitsOn (s : State) (itemKey : String) : List Commit :=
  s.history.filter fun commit => commit.args.itemKey == itemKey

/-- The decision of an applied write on the window it replaced. -/
def Commit.advance (current : Option ThrottleWindow) (commit : Commit) : Advance :=
  commit.args.advance current commit.now

/-- The window an applied write stores. -/
def Commit.apply (current : Option ThrottleWindow) (commit : Commit) : ThrottleWindow :=
  (commit.advance current).next

/-- Replace one call. -/
def State.setCall (s : State) (id : Nat) (call : Call) : State :=
  { s with calls := Function.update s.calls id (some call) }

/-- The state in which one more write has been applied. -/
def State.commit (s : State) (table : Table) (commit : Commit) : State :=
  { s with table, history := s.history ++ [commit] }

/-- The steps of a run. -/
inductive Label where
  | tick (ms : Nat)
  | call (id : Nat) (args : Increment)
  | get (id : Nat)
  | sample (id : Nat)
  | put (id : Nat)
  /-- A command fails with another error than a condition check, and is not applied. -/
  | error (id : Nat)
  /-- DynamoDB deletes an item that has passed its expiry second. -/
  | expire (itemKey : String)
  deriving DecidableEq, Repr

/-- The write a call sends for what it read and decided. -/
def Increment.put (args : Increment) (current : Option (Versioned ThrottleWindow))
    (now : Nat) : PutItem :=
  write args.itemKey (args.advance (current.map Versioned.value) now).next
    (current.map Versioned.version)

/-- The record a call decided on. -/
def Increment.record (args : Increment) (current : Option (Versioned ThrottleWindow))
    (now : Nat) : ThrottleDecision :=
  (args.advance (current.map Versioned.value) now).record

/-- The read of an attempt. -/
def State.sendGet (s : State) (id : Nat) (call : Call) : Option State :=
  match call.phase with
  | .get attempt => some (s.setCall id { call with
      phase := .sample attempt (read s.table call.args.itemKey)
      seen := (s.commitsOn call.args.itemKey).length })
  | _ => none

/-- `Date.now()` after the read. -/
def State.sampleClock (s : State) (id : Nat) (call : Call) : Option State :=
  match call.phase with
  | .sample attempt current =>
    some (s.setCall id { call with phase := .put attempt current s.clock })
  | _ => none

/-- The conditional write of an attempt: applied and returned from, or lost and retried. -/
def State.sendPut (s : State) (id : Nat) (call : Call) : Option State :=
  match call.phase with
  | .put attempt current now =>
    match (call.args.put current now).send s.table with
    | some table =>
      some ((s.commit table ⟨id, call.args, now⟩).setCall id { call with
        phase := .done (.counted (call.args.record current now)) })
    | none => some (s.setCall id { call with phase := loop (attempt + 1) })
  | _ => none

/-- A read or write that fails with another error ends the call. -/
def State.fail (s : State) (id : Nat) (call : Call) : Option State :=
  match call.phase with
  | .get _ => some (s.setCall id { call with phase := .done .unavailable })
  | .put .. => some (s.setCall id { call with phase := .done .unavailable })
  | _ => none

/-- The start of a call under an unused number. -/
def State.start (s : State) (id : Nat) (args : Increment) : Option State :=
  match s.calls id with
  | none => some (s.setCall id { args, phase := loop 0, seen := 0 })
  | some _ => none

/-- The deletion of an item that has passed its expiry second. -/
def State.collect (s : State) (itemKey : String) : Option State :=
  match s.table itemKey with
  | some item =>
    if item.collectable s.clock then
      some { s with table := Function.update s.table itemKey none }
    else none
  | none => none

/-- The storage as a machine: each label is a step of the clock, a call or the table. -/
def storage : Machine State Label where
  step s
    | .tick ms => some { s with clock := s.clock + ms }
    | .call id args => s.start id args
    | .get id => (s.calls id).bind (s.sendGet id)
    | .sample id => (s.calls id).bind (s.sampleClock id)
    | .put id => (s.calls id).bind (s.sendPut id)
    | .error id => (s.calls id).bind (s.fail id)
    | .expire itemKey => s.collect itemKey

section SetCall

variable (s : State) (id : Nat) (call : Call)

@[simp] theorem State.setCall_clock : (s.setCall id call).clock = s.clock := rfl

@[simp] theorem State.setCall_table : (s.setCall id call).table = s.table := rfl

@[simp] theorem State.setCall_history : (s.setCall id call).history = s.history := rfl

@[simp] theorem State.setCall_commitsOn (itemKey : String) :
    (s.setCall id call).commitsOn itemKey = s.commitsOn itemKey := rfl

@[simp] theorem State.setCall_calls_self : (s.setCall id call).calls id = some call :=
  Function.update_self ..

theorem State.setCall_calls_of_ne {other : Nat} (h : other ≠ id) :
    (s.setCall id call).calls other = s.calls other := Function.update_of_ne h ..

/-- A call after one was set is that one, or was there before. -/
theorem State.of_setCall {other : Nat} {found : Call}
    (h : (s.setCall id call).calls other = some found) :
    other = id ∧ found = call ∨ other ≠ id ∧ s.calls other = some found :=
  update_eq_some_iff.mp h

end SetCall

section Inversion

variable {s t : State} {id : Nat}

/-- What the read of an attempt does. -/
theorem step_get : storage.step s (.get id) = some t ↔ ∃ args attempt seen,
    s.calls id = some ⟨args, .get attempt, seen⟩ ∧
    t = s.setCall id ⟨args, .sample attempt (read s.table args.itemKey),
      (s.commitsOn args.itemKey).length⟩ := by
  simp only [storage, Option.bind_eq_some_iff, State.sendGet]
  constructor
  · rintro ⟨⟨args, phase, seen⟩, hcall, hstep⟩
    cases phase with
    | get attempt => exact ⟨args, attempt, seen, hcall, (Option.some.inj hstep).symm⟩
    | sample | put | done => cases hstep
  · rintro ⟨args, attempt, seen, hcall, rfl⟩
    exact ⟨_, hcall, rfl⟩

/-- What the clock sample of an attempt does. -/
theorem step_sample : storage.step s (.sample id) = some t ↔ ∃ args attempt current seen,
    s.calls id = some ⟨args, .sample attempt current, seen⟩ ∧
    t = s.setCall id ⟨args, .put attempt current s.clock, seen⟩ := by
  simp only [storage, Option.bind_eq_some_iff, State.sampleClock]
  constructor
  · rintro ⟨⟨args, phase, seen⟩, hcall, hstep⟩
    cases phase with
    | sample attempt current =>
      exact ⟨args, attempt, current, seen, hcall, (Option.some.inj hstep).symm⟩
    | get | put | done => cases hstep
  · rintro ⟨args, attempt, current, seen, hcall, rfl⟩
    exact ⟨_, hcall, rfl⟩

/-- What the write of an attempt does: it is applied and answered, or it is lost. -/
theorem step_put : storage.step s (.put id) = some t ↔ ∃ args attempt current now seen,
    s.calls id = some ⟨args, .put attempt current now, seen⟩ ∧
    ((∃ table, (args.put current now).send s.table = some table ∧
      t = (s.commit table ⟨id, args, now⟩).setCall id
        ⟨args, .done (.counted (args.record current now)), seen⟩) ∨
    ((args.put current now).send s.table = none ∧
      t = s.setCall id ⟨args, loop (attempt + 1), seen⟩)) := by
  simp only [storage, Option.bind_eq_some_iff, State.sendPut]
  constructor
  · rintro ⟨⟨args, phase, seen⟩, hcall, hstep⟩
    cases phase with
    | put attempt current now =>
      refine ⟨args, attempt, current, now, seen, hcall, ?_⟩
      cases hsend : (args.put current now).send s.table with
      | none =>
        simp only [hsend, Option.some.injEq] at hstep
        exact Or.inr ⟨rfl, hstep.symm⟩
      | some table =>
        simp only [hsend, Option.some.injEq] at hstep
        exact Or.inl ⟨table, rfl, hstep.symm⟩
    | get | sample | done => cases hstep
  · rintro ⟨args, attempt, current, now, seen, hcall, ⟨table, hsend, rfl⟩ | ⟨hsend, rfl⟩⟩
    · exact ⟨_, hcall, by simp only [hsend]⟩
    · exact ⟨_, hcall, by simp only [hsend]⟩

/-- What an error does: it ends a call that has a command under way. -/
theorem step_error : storage.step s (.error id) = some t ↔ ∃ args phase seen,
    s.calls id = some ⟨args, phase, seen⟩ ∧
    ((∃ attempt, phase = .get attempt) ∨ ∃ attempt current now, phase = .put attempt current now) ∧
    t = s.setCall id ⟨args, .done .unavailable, seen⟩ := by
  simp only [storage, Option.bind_eq_some_iff, State.fail]
  constructor
  · rintro ⟨⟨args, phase, seen⟩, hcall, hstep⟩
    refine ⟨args, phase, seen, hcall, ?_⟩
    cases phase with
    | get attempt => exact ⟨Or.inl ⟨attempt, rfl⟩, (Option.some.inj hstep).symm⟩
    | put attempt current now =>
      exact ⟨Or.inr ⟨attempt, current, now, rfl⟩, (Option.some.inj hstep).symm⟩
    | sample | done => cases hstep
  · rintro ⟨args, phase, seen, hcall, ⟨attempt, rfl⟩ | ⟨attempt, current, now, rfl⟩, rfl⟩
    · exact ⟨_, hcall, rfl⟩
    · exact ⟨_, hcall, rfl⟩

/-- What the start of a call does. -/
theorem step_call {args : Increment} : storage.step s (.call id args) = some t ↔
    s.calls id = none ∧ t = s.setCall id ⟨args, .get 0, 0⟩ := by
  simp only [storage, State.start]
  cases h : s.calls id with
  | none => simp [eq_comm, loop, maxAttempts]
  | some call => simp

/-- What a deletion does. -/
theorem step_expire {itemKey : String} : storage.step s (.expire itemKey) = some t ↔
    ∃ item, s.table itemKey = some item ∧ item.collectable s.clock = true ∧
      t = { s with table := Function.update s.table itemKey none } := by
  simp only [storage, State.collect]
  cases s.table itemKey with
  | none => simp only [reduceCtorEq, false_and, exists_false]
  | some item =>
    simp only [Option.ite_none_right_eq_some, Option.some.injEq, exists_eq_left', eq_comm (b := t)]

end Inversion

/-- Applied writes are never taken back. -/
theorem history_prefix_step {s t : State} {label : Label} (hstep : storage.step s label = some t) :
    s.history <+: t.history := by
  cases label with
  | tick ms =>
    obtain rfl : _ = t := Option.some.inj hstep
    exact List.prefix_rfl
  | call id args =>
    obtain ⟨_, rfl⟩ := step_call.mp hstep
    exact List.prefix_rfl
  | get id =>
    obtain ⟨_, _, _, _, rfl⟩ := step_get.mp hstep
    exact List.prefix_rfl
  | sample id =>
    obtain ⟨_, _, _, _, _, rfl⟩ := step_sample.mp hstep
    exact List.prefix_rfl
  | put id =>
    obtain ⟨_, _, _, _, _, _, ⟨_, _, rfl⟩ | ⟨_, rfl⟩⟩ := step_put.mp hstep
    · exact List.prefix_append ..
    · exact List.prefix_rfl
  | error id =>
    obtain ⟨_, _, _, _, _, rfl⟩ := step_error.mp hstep
    exact List.prefix_rfl
  | expire itemKey =>
    obtain ⟨_, _, _, rfl⟩ := step_expire.mp hstep
    exact List.prefix_rfl

/-- Along a run, the writes of a key only grow. -/
theorem commitsOn_prefix_of_exec {s t : State} {labels : List Label}
    (hrun : storage.exec s labels = some t) (itemKey : String) :
    s.commitsOn itemKey <+: t.commitsOn itemKey :=
  List.IsPrefix.filter _ (storage.exec_invariant (P := fun m => s.history <+: m.history)
    List.prefix_rfl (fun _ _ _ h hstep => h.trans (history_prefix_step hstep)) hrun)

/-- A step only changes the call that takes it. -/
theorem calls_step {s t : State} {label : Label} (id : Nat)
    (hstep : storage.step s label = some t) :
    t.calls id = s.calls id ∨ (∃ args, label = .call id args) ∨ label = .get id ∨
      label = .sample id ∨ label = .put id ∨ label = .error id := by
  have hkeep : ∀ {m : State} {other : Nat} (call : Call), m.calls = s.calls → id ≠ other →
      (m.setCall other call).calls id = s.calls id := by
    intro m other call hm hne
    rw [State.setCall_calls_of_ne _ _ _ hne, hm]
  cases label with
  | tick ms =>
    obtain rfl : _ = t := Option.some.inj hstep
    exact Or.inl rfl
  | call other args =>
    obtain ⟨_, rfl⟩ := step_call.mp hstep
    by_cases he : id = other
    · exact Or.inr (Or.inl ⟨args, he ▸ rfl⟩)
    · exact Or.inl (hkeep _ rfl he)
  | get other =>
    obtain ⟨_, _, _, _, rfl⟩ := step_get.mp hstep
    by_cases he : id = other
    · exact Or.inr (Or.inr (Or.inl (he ▸ rfl)))
    · exact Or.inl (hkeep _ rfl he)
  | sample other =>
    obtain ⟨_, _, _, _, _, rfl⟩ := step_sample.mp hstep
    by_cases he : id = other
    · exact Or.inr (Or.inr (Or.inr (Or.inl (he ▸ rfl))))
    · exact Or.inl (hkeep _ rfl he)
  | put other =>
    obtain ⟨_, _, _, _, _, _, hput⟩ := step_put.mp hstep
    by_cases he : id = other
    · exact Or.inr (Or.inr (Or.inr (Or.inr (Or.inl (he ▸ rfl)))))
    · rcases hput with ⟨_, _, rfl⟩ | ⟨_, rfl⟩
      · exact Or.inl (hkeep _ rfl he)
      · exact Or.inl (hkeep _ rfl he)
  | error other =>
    obtain ⟨_, _, _, _, _, rfl⟩ := step_error.mp hstep
    by_cases he : id = other
    · exact Or.inr (Or.inr (Or.inr (Or.inr (Or.inr (he ▸ rfl)))))
    · exact Or.inl (hkeep _ rfl he)
  | expire itemKey =>
    obtain ⟨_, _, _, rfl⟩ := step_expire.mp hstep
    exact Or.inl rfl

/-- A started call is only changed by its own reads, samples, writes and errors. -/
theorem calls_step_of_some {s t : State} {label : Label} {id : Nat} {call : Call}
    (hcall : s.calls id = some call) (hstep : storage.step s label = some t) :
    t.calls id = some call ∨ label = .get id ∨ label = .sample id ∨ label = .put id ∨
      label = .error id := by
  rcases calls_step id hstep with hsame | ⟨args, rfl⟩ | hown
  · exact Or.inl (hsame.trans hcall)
  · rw [(step_call.mp hstep).1] at hcall
    cases hcall
  · exact Or.inr hown

/-- A call keeps its arguments. -/
theorem calls_args_step {s t : State} {label : Label} {id : Nat} {args : Increment}
    (h : ∃ phase seen, s.calls id = some ⟨args, phase, seen⟩)
    (hstep : storage.step s label = some t) :
    ∃ phase seen, t.calls id = some ⟨args, phase, seen⟩ := by
  obtain ⟨phase, seen, hcall⟩ := h
  -- The call that steps is the one with these arguments.
  have hset : ∀ {m : State} {args' phase₀ seen₀ phase' seen'},
      s.calls id = some ⟨args', phase₀, seen₀⟩ → ∃ phase seen,
      (m.setCall id ⟨args', phase', seen'⟩).calls id = some ⟨args, phase, seen⟩ := by
    intro m args' phase₀ seen₀ phase' seen' hown
    rw [hcall, Option.some.injEq, Call.mk.injEq] at hown
    exact ⟨phase', seen', by rw [State.setCall_calls_self, hown.1]⟩
  rcases calls_step_of_some hcall hstep with hsame | rfl | rfl | rfl | rfl
  · exact ⟨phase, seen, hsame⟩
  · obtain ⟨_, _, _, hown, rfl⟩ := step_get.mp hstep
    exact hset hown
  · obtain ⟨_, _, _, _, hown, rfl⟩ := step_sample.mp hstep
    exact hset hown
  · obtain ⟨_, _, _, _, _, hown, ⟨_, _, rfl⟩ | ⟨_, rfl⟩⟩ := step_put.mp hstep
    · exact hset hown
    · exact hset hown
  · obtain ⟨_, _, _, hown, _, rfl⟩ := step_error.mp hstep
    exact hset hown

/-- An answered call keeps its answer. -/
theorem calls_done_step {s t : State} {label : Label} {id : Nat} {args : Increment}
    {answer : Answer} {seen : Nat} (hcall : s.calls id = some ⟨args, .done answer, seen⟩)
    (hstep : storage.step s label = some t) :
    t.calls id = some ⟨args, .done answer, seen⟩ := by
  have hphase : ∀ {args' phase' seen'}, s.calls id = some ⟨args', phase', seen'⟩ →
      phase' = .done answer :=
    fun he => (Call.mk.inj (Option.some.inj (he.symm.trans hcall))).2.1
  rcases calls_step_of_some hcall hstep with hsame | rfl | rfl | rfl | rfl
  · exact hsame
  · obtain ⟨_, _, _, hown, _⟩ := step_get.mp hstep
    cases hphase hown
  · obtain ⟨_, _, _, _, hown, _⟩ := step_sample.mp hstep
    cases hphase hown
  · obtain ⟨_, _, _, _, _, hown, _⟩ := step_put.mp hstep
    cases hphase hown
  · obtain ⟨_, _, _, hown, ⟨_, rfl⟩ | ⟨_, _, _, rfl⟩, _⟩ := step_error.mp hstep
    · cases hphase hown
    · cases hphase hown

end VertexApi.Throttler
