import VertexApi.Throttler.Storage

/-!
# The chain of applied writes

For each key, the item is the snapshot of the writes applied since the item was last
deleted, and every read in flight is the snapshot of a prefix of them. A conditional
write is therefore applied exactly when nothing was applied since its read. A deleted
part of the log only held a window that has ended, so cutting it off changes no decision.
-/

namespace VertexApi.Throttler

/-- The item that stores a window at a version. -/
def Item.ofVersioned (stored : Versioned ThrottleWindow) : Item where
  totalHits := some stored.value.totalHits
  windowEndsAt := some stored.value.windowEndsAt
  blockedUntil := some stored.value.blockedUntil
  version := some stored.version
  expiresAt := some (ceilSeconds stored.value.windowEndsAt + garbageCollectionGraceSeconds)

/-- A stored item reads back as what was stored. -/
@[simp] theorem Item.parse_ofVersioned (stored : Versioned ThrottleWindow) :
    (Item.ofVersioned stored).parse = stored := rfl

/-- Reading a table that stores a snapshot returns it. -/
theorem read_of_snapshot {table : Table} {itemKey : String}
    {stored : Option (Versioned ThrottleWindow)}
    (h : table itemKey = stored.map Item.ofVersioned) : read table itemKey = stored := by
  rw [read, h]
  cases stored with
  | none => rfl
  | some stored => rfl

@[simp] theorem write_itemKey (itemKey : String) (window : ThrottleWindow)
    (currentVersion : Option Nat) : (write itemKey window currentVersion).itemKey = itemKey := rfl

/-- A write stores its window under the next version. -/
@[simp] theorem write_item (itemKey : String) (window : ThrottleWindow)
    (currentVersion : Option Nat) : (write itemKey window currentVersion).item =
      Item.ofVersioned ⟨window, currentVersion.getD 0 + 1⟩ := rfl

/-- The condition of a write holds exactly when the version it read is still stored. -/
theorem write_holds (itemKey : String) (window : ThrottleWindow)
    (current stored : Option (Versioned ThrottleWindow)) :
    (write itemKey window (current.map Versioned.version)).condition.holds
      (stored.map Item.ofVersioned) = Versioned.unchanged current stored := by
  cases current with
  | none =>
    cases stored with
    | none => rfl
    | some stored => rfl
  | some current =>
    cases stored with
    | none => rfl
    | some stored => rfl

/-- A write over a snapshot of the log is applied exactly when its read was up to date. -/
theorem send_put {args : Increment} {before log : List Commit} {table : Table} {now : Nat}
    (htable : table args.itemKey = (snapshot Commit.apply log).map Item.ofVersioned) :
    (args.put (snapshot Commit.apply before) now).send table =
      if before.length = log.length then
        some (Function.update table args.itemKey (some (Item.ofVersioned
          ⟨(args.advance (foldLog Commit.apply before) now).next, before.length + 1⟩)))
      else none := by
  have hholds := write_holds args.itemKey (args.advance (foldLog Commit.apply before) now).next
    (snapshot Commit.apply before) (snapshot Commit.apply log)
  rw [unchanged_snapshot, ← htable] at hholds
  have hversion : ((snapshot Commit.apply before).map Versioned.version).getD 0 =
      before.length := by
    rw [← snapshot_version Commit.apply before]
    cases snapshot Commit.apply before with
    | none => rfl
    | some stored => rfl
  simp only [Increment.put, PutItem.send, snapshot_value, write_itemKey, write_item]
  by_cases h : before.length = log.length
  · rw [if_pos h, if_pos (hholds.trans (decide_eq_true h)), hversion]
  · rw [if_neg h, if_neg (by rw [hholds, decide_eq_false h]; exact Bool.false_ne_true)]

section Cut

/-- The window stored by a log has ended by `now`. -/
def Ended (log : List Commit) (now : Nat) : Prop :=
  ∀ window, foldLog Commit.apply log = some window → window.windowEndsAt ≤ now

theorem Ended.nil (now : Nat) : Ended [] now := fun _ h => nomatch h

theorem Ended.mono {log : List Commit} {now later : Nat} (h : Ended log now) (hle : now ≤ later) :
    Ended log later := fun window hw => Nat.le_trans (h window hw) hle

/-- An ended window decides like an absent one. -/
theorem advance_of_ended {log : List Commit} {now : Nat} (h : Ended log now) (args : Increment) :
    args.advance (foldLog Commit.apply log) now = args.advance none now := by
  unfold Increment.advance
  refine advance_congr _ _ ?_
  cases hlog : foldLog Commit.apply log with
  | none => rfl
  | some window => exact carryWindow_ended args.ttl (h window hlog)

/-- Nonempty logs store the same window with and without an ended part before them. -/
theorem foldLog_append_ended {old recent : List Commit} (hne : recent ≠ [])
    (h : ∀ commit ∈ recent, Ended old commit.now) :
    foldLog Commit.apply (old ++ recent) = foldLog Commit.apply recent := by
  cases recent with
  | nil => exact absurd rfl hne
  | cons commit rest =>
    refine foldLog_append_cons Commit.apply old rest ?_
    exact congrArg Advance.next
      (advance_of_ended (h commit (List.mem_cons_self ..)) commit.args)

/-- A decision does not depend on whether an ended part of the log was cut off. -/
theorem advance_append_ended {old recent : List Commit} {now : Nat}
    (h : ∀ commit ∈ recent, Ended old commit.now) (hnow : Ended old now) (args : Increment) :
    args.advance (foldLog Commit.apply (old ++ recent)) now =
      args.advance (foldLog Commit.apply recent) now := by
  by_cases hne : recent = []
  · rw [hne, List.append_nil, foldLog_nil, advance_of_ended hnow]
  · rw [foldLog_append_ended hne h]

end Cut

/-- What a read in flight has seen: the writes applied before it, less the deleted ones. -/
structure ReadAt (collected : String → Nat) (s : State) (call : Call)
    (current : Option (Versioned ThrottleWindow)) : Prop where
  collected_le : collected call.args.itemKey ≤ call.seen
  seen_le : call.seen ≤ (s.commitsOn call.args.itemKey).length
  current_eq : current = snapshot Commit.apply
    (((s.commitsOn call.args.itemKey).take call.seen).drop (collected call.args.itemKey))

/-- What holds of a call in each of its phases. -/
def Placed (collected : String → Nat) (s : State) (id : Nat) (call : Call) : Prop :=
  match call.phase with
  | .get _ => True
  | .sample _ current => ReadAt collected s call current
  | .put _ current now => ReadAt collected s call current ∧ now ≤ s.clock ∧
      (∀ commit ∈ (s.commitsOn call.args.itemKey).take call.seen, commit.now ≤ now) ∧
      Ended ((s.commitsOn call.args.itemKey).take (collected call.args.itemKey)) now
  | .done (.counted record) => ∃ pre now post,
      s.commitsOn call.args.itemKey = pre ++ ⟨id, call.args, now⟩ :: post ∧
      record = (call.args.advance (foldLog Commit.apply pre) now).record
  | .done _ => True

/-- The invariant of the storage, with the number of writes that deletions cut off. -/
structure Chained (collected : String → Nat) (s : State) : Prop where
  collected_le : ∀ itemKey, collected itemKey ≤ (s.commitsOn itemKey).length
  /-- The item is the snapshot of the writes since the last deletion. -/
  table_eq : ∀ itemKey, s.table itemKey = (snapshot Commit.apply
    ((s.commitsOn itemKey).drop (collected itemKey))).map Item.ofVersioned
  sorted : ∀ itemKey, (s.commitsOn itemKey).Pairwise fun a b => a.now ≤ b.now
  sampled : ∀ commit ∈ s.history, commit.now ≤ s.clock
  once : (s.history.map Commit.call).Nodup
  /-- Every applied write belongs to a call that was answered with it. -/
  owned : ∀ commit ∈ s.history, ∃ record seen,
    s.calls commit.call = some ⟨commit.args, .done (.counted record), seen⟩
  /-- The window that a deletion removed had ended, also for every later write. -/
  ended : ∀ itemKey, Ended ((s.commitsOn itemKey).take (collected itemKey)) s.clock ∧
    ∀ commit ∈ (s.commitsOn itemKey).drop (collected itemKey),
      Ended ((s.commitsOn itemKey).take (collected itemKey)) commit.now
  placed : ∀ id call, s.calls id = some call → Placed collected s id call

/-- The empty storage is chained. -/
theorem chained_initial (clock : Nat) : Chained (fun _ => 0) (State.initial clock) where
  collected_le _ := Nat.zero_le _
  table_eq _ := rfl
  sorted _ := List.Pairwise.nil
  sampled _ h := nomatch h
  once := List.nodup_nil
  owned _ h := nomatch h
  ended _ := ⟨Ended.nil _, fun _ h => nomatch h⟩
  placed _ _ h := nomatch h

section Frame

theorem State.mem_commitsOn {s : State} {itemKey : String} {commit : Commit} :
    commit ∈ s.commitsOn itemKey ↔ commit ∈ s.history ∧ commit.args.itemKey = itemKey := by
  simp only [State.commitsOn, List.mem_filter, beq_iff_eq]

/-- The writes applied to one key after one more write. -/
theorem State.commitsOn_commit (s : State) (table : Table) (commit : Commit) (itemKey : String) :
    (s.commit table commit).commitsOn itemKey =
      s.commitsOn itemKey ++ if commit.args.itemKey = itemKey then [commit] else [] := by
  simp only [State.commitsOn, State.commit, List.filter_append]
  congr 1
  by_cases h : commit.args.itemKey = itemKey
  · rw [if_pos h]
    exact List.filter_cons_of_pos (beq_iff_eq.mpr h)
  · rw [if_neg h]
    exact List.filter_cons_of_neg fun he => h (beq_iff_eq.mp he)

/-- Reads in flight keep what they saw while more writes are applied. -/
theorem ReadAt.mono {collected : String → Nat} {s t : State} {call : Call}
    {current : Option (Versioned ThrottleWindow)} (h : ReadAt collected s call current)
    (hlog : s.commitsOn call.args.itemKey <+: t.commitsOn call.args.itemKey) :
    ReadAt collected t call current := by
  obtain ⟨rest, hrest⟩ := hlog
  refine ⟨h.collected_le, ?_, ?_⟩
  · rw [← hrest, List.length_append]
    exact Nat.le_trans h.seen_le (Nat.le_add_right ..)
  · rw [← hrest, List.take_append_of_le_length h.seen_le]
    exact h.current_eq

/-- Calls stay placed while time passes and writes are applied by others. -/
theorem Placed.mono {collected : String → Nat} {s t : State} {id : Nat} {call : Call}
    (h : Placed collected s id call)
    (hcollected : collected call.args.itemKey ≤ (s.commitsOn call.args.itemKey).length)
    (hclock : s.clock ≤ t.clock)
    (hlog : s.commitsOn call.args.itemKey <+: t.commitsOn call.args.itemKey) :
    Placed collected t id call := by
  obtain ⟨args, phase, seen⟩ := call
  cases phase with
  | get attempt => trivial
  | sample attempt current => exact ReadAt.mono h hlog
  | put attempt current now =>
    obtain ⟨hread, hnow, hlast, hended⟩ := h
    obtain ⟨rest, hrest⟩ := hlog
    refine ⟨hread.mono ⟨rest, hrest⟩, Nat.le_trans hnow hclock, ?_, ?_⟩
    · rw [← hrest, List.take_append_of_le_length hread.seen_le]
      exact hlast
    · rw [← hrest, List.take_append_of_le_length hcollected]
      exact hended
  | done answer =>
    cases answer with
    | counted record =>
      obtain ⟨pre, now, post, hsplit, hrecord⟩ := h
      obtain ⟨rest, hrest⟩ := hlog
      refine ⟨pre, now, post ++ rest, ?_, hrecord⟩
      rw [← hrest, hsplit, List.append_assoc, List.cons_append]
    | gaveUp => trivial
    | unavailable => trivial

end Frame

namespace Chained

variable {collected : String → Nat} {s : State}

/-- The passage of time keeps the chain. -/
theorem tick (h : Chained collected s) (ms : Nat) :
    Chained collected { s with clock := s.clock + ms } where
  collected_le := h.collected_le
  table_eq := h.table_eq
  sorted := h.sorted
  sampled commit hc := Nat.le_trans (h.sampled commit hc) (Nat.le_add_right ..)
  once := h.once
  owned := h.owned
  ended itemKey := ⟨(h.ended itemKey).1.mono (Nat.le_add_right ..), (h.ended itemKey).2⟩
  placed id call hcall := (h.placed id call hcall).mono (h.collected_le _)
    (Nat.le_add_right ..) (List.prefix_rfl)

/-- A step of a call that has not been counted keeps the chain when it leaves it placed. -/
theorem setCall (h : Chained collected s) {id : Nat} {call : Call}
    (hfree : ∀ args record seen, s.calls id ≠ some ⟨args, .done (.counted record), seen⟩)
    (hplaced : Placed collected s id call) : Chained collected (s.setCall id call) where
  collected_le := h.collected_le
  table_eq := h.table_eq
  sorted := h.sorted
  sampled := h.sampled
  once := h.once
  owned commit hc := by
    obtain ⟨record, seen, howner⟩ := h.owned commit hc
    have hne : commit.call ≠ id := fun he => hfree _ _ _ (he ▸ howner)
    exact ⟨record, seen, by rw [State.setCall_calls_of_ne _ _ _ hne, howner]⟩
  ended := h.ended
  placed other found hfound := by
    rcases State.of_setCall _ _ _ hfound with ⟨rfl, rfl⟩ | ⟨-, hold⟩
    · exact hplaced.mono (h.collected_le _) (Nat.le_refl _) List.prefix_rfl
    · exact (h.placed other found hold).mono (h.collected_le _) (Nat.le_refl _) List.prefix_rfl

/-- A read sees the snapshot of the writes since the last deletion. -/
theorem readAt_get (h : Chained collected s) (args : Increment) (attempt : Nat) :
    ReadAt collected s ⟨args, .sample attempt (read s.table args.itemKey),
      (s.commitsOn args.itemKey).length⟩ (read s.table args.itemKey) where
  collected_le := h.collected_le _
  seen_le := Nat.le_refl _
  current_eq := by
    rw [read_of_snapshot (h.table_eq args.itemKey)]
    simp only [List.take_length]

/-- The decision of a read in flight is the decision on the whole log it has seen. -/
theorem advance_read (h : Chained collected s) {call : Call}
    {current : Option (Versioned ThrottleWindow)} (hread : ReadAt collected s call current)
    {now : Nat} (hended : Ended ((s.commitsOn call.args.itemKey).take
      (collected call.args.itemKey)) now) (args : Increment) :
    args.advance (current.map Versioned.value) now =
      args.advance (foldLog Commit.apply ((s.commitsOn call.args.itemKey).take call.seen)) now := by
  have hsplit := List.take_append_drop (collected call.args.itemKey)
    ((s.commitsOn call.args.itemKey).take call.seen)
  rw [List.take_take, Nat.min_eq_left hread.collected_le] at hsplit
  rw [hread.current_eq, snapshot_value, ← advance_append_ended _ hended, hsplit]
  intro commit hcommit
  rw [List.drop_take] at hcommit
  exact (h.ended _).2 commit (List.mem_of_mem_take hcommit)

/-- A write in flight is applied exactly when nothing was applied since its read. -/
theorem send_iff (h : Chained collected s) {call : Call}
    {current : Option (Versioned ThrottleWindow)} (hread : ReadAt collected s call current)
    (now : Nat) :
    (call.args.put current now).send s.table =
      if call.seen = (s.commitsOn call.args.itemKey).length then
        some (Function.update s.table call.args.itemKey (some (Item.ofVersioned
          ⟨(call.args.advance (current.map Versioned.value) now).next,
            (s.commitsOn call.args.itemKey).length - collected call.args.itemKey + 1⟩)))
      else none := by
  have hle := hread.collected_le
  have hseen := hread.seen_le
  rw [hread.current_eq, send_put (h.table_eq call.args.itemKey), snapshot_value]
  simp only [List.length_drop, List.length_take, Nat.min_eq_left hseen]
  by_cases heq : call.seen = (s.commitsOn call.args.itemKey).length
  · rw [if_pos heq, if_pos (by omega), heq]
  · rw [if_neg heq, if_neg (by omega)]

/-- What an applied write found: its read was up to date, and it decided on the whole log. -/
theorem commit_facts (h : Chained collected s) {id attempt now seen : Nat} {args : Increment}
    {current : Option (Versioned ThrottleWindow)} {table : Table}
    (hcall : s.calls id = some ⟨args, .put attempt current now, seen⟩)
    (hsend : (args.put current now).send s.table = some table) :
    (∀ commit ∈ s.commitsOn args.itemKey, commit.now ≤ now) ∧ now ≤ s.clock ∧
    Ended ((s.commitsOn args.itemKey).take (collected args.itemKey)) now ∧
    seen = (s.commitsOn args.itemKey).length ∧
    args.record current now =
      (args.advance (foldLog Commit.apply (s.commitsOn args.itemKey)) now).record ∧
    table = Function.update s.table args.itemKey ((snapshot Commit.apply
      (((s.commitsOn args.itemKey).drop (collected args.itemKey)) ++
        [⟨id, args, now⟩])).map Item.ofVersioned) := by
  obtain ⟨hread, hnow, hlast, hended⟩ := h.placed id _ hcall
  have hsend' := h.send_iff hread now
  rw [hsend] at hsend'
  have hseen : seen = (s.commitsOn args.itemKey).length := by
    by_contra hne
    rw [if_neg hne] at hsend'
    cases hsend'
  rw [if_pos hseen, Option.some.injEq] at hsend'
  have hdecide := h.advance_read hread hended args
  have hcurrent := hread.current_eq
  simp only [hseen, List.take_length] at hlast hdecide hcurrent
  refine ⟨hlast, hnow, hended, hseen, congrArg Advance.record hdecide, ?_⟩
  rw [hsend', hcurrent, snapshot_value, snapshot_snoc, List.length_drop]
  rfl

/-- An applied write extends the chain by one link. -/
theorem commit (h : Chained collected s) {id attempt now seen : Nat} {args : Increment}
    {current : Option (Versioned ThrottleWindow)} {table : Table}
    (hcall : s.calls id = some ⟨args, .put attempt current now, seen⟩)
    (hsend : (args.put current now).send s.table = some table) :
    Chained collected ((s.commit table ⟨id, args, now⟩).setCall id
      ⟨args, .done (.counted (args.record current now)), seen⟩) := by
  obtain ⟨hlast, hnow, hended, hseen, hrecord, htable⟩ := h.commit_facts hcall hsend
  have hfree : ∀ commit ∈ s.history, commit.call ≠ id := by
    intro commit hcommit he
    obtain ⟨record, seen', howner⟩ := h.owned commit hcommit
    rw [he, hcall] at howner
    cases howner
  have hlog := s.commitsOn_commit table ⟨id, args, now⟩
  have hle := h.collected_le
  constructor
  case collected_le =>
    intro itemKey
    simp only [State.setCall_commitsOn, hlog, List.length_append]
    exact Nat.le_trans (hle itemKey) (Nat.le_add_right ..)
  case table_eq =>
    intro itemKey
    simp only [State.setCall_commitsOn, State.setCall_table, hlog,
      List.drop_append_of_le_length (hle itemKey)]
    simp only [State.commit, htable]
    by_cases hk : args.itemKey = itemKey
    · subst hk
      rw [Function.update_self, if_pos rfl]
    · rw [Function.update_of_ne (Ne.symm hk), if_neg hk, List.append_nil]
      exact h.table_eq itemKey
  case sorted =>
    intro itemKey
    simp only [State.setCall_commitsOn, hlog]
    by_cases hk : args.itemKey = itemKey
    · subst hk
      rw [if_pos rfl]
      refine List.pairwise_append.mpr ⟨h.sorted _, List.pairwise_singleton .., ?_⟩
      intro commit hcommit last hmem
      rw [List.mem_singleton.mp hmem]
      exact hlast commit hcommit
    · rw [if_neg hk, List.append_nil]
      exact h.sorted itemKey
  case sampled =>
    simp only [State.setCall_history, State.setCall_clock, State.commit]
    intro commit hcommit
    rcases List.mem_append.mp hcommit with hmem | hmem
    · exact h.sampled commit hmem
    · rw [List.mem_singleton.mp hmem]
      exact hnow
  case once =>
    simp only [State.setCall_history, State.commit, List.map_append, List.map_cons, List.map_nil]
    refine List.nodup_append.mpr ⟨h.once, List.pairwise_singleton .., ?_⟩
    intro a ha b hb he
    obtain ⟨commit, hcommit, rfl⟩ := List.mem_map.mp ha
    exact hfree commit hcommit (he.trans (List.mem_singleton.mp hb))
  case owned =>
    simp only [State.setCall_history, State.commit]
    intro commit hcommit
    rcases List.mem_append.mp hcommit with hmem | hmem
    · obtain ⟨record, seen', howner⟩ := h.owned commit hmem
      exact ⟨record, seen', by
        rw [State.setCall_calls_of_ne _ _ _ (hfree commit hmem)]
        exact howner⟩
    · rw [List.mem_singleton.mp hmem]
      exact ⟨_, _, State.setCall_calls_self ..⟩
  case ended =>
    intro itemKey
    simp only [State.setCall_commitsOn, hlog, List.take_append_of_le_length (hle itemKey),
      List.drop_append_of_le_length (hle itemKey)]
    refine ⟨(h.ended itemKey).1, ?_⟩
    intro commit hcommit
    rcases List.mem_append.mp hcommit with hmem | hmem
    · exact (h.ended itemKey).2 commit hmem
    · split at hmem
      · next hk =>
        subst hk
        rw [List.mem_singleton.mp hmem]
        exact hended
      · exact absurd hmem List.not_mem_nil
  case placed =>
    intro other found hfound
    rcases State.of_setCall _ _ _ hfound with ⟨rfl, rfl⟩ | ⟨-, hold⟩
    · refine ⟨s.commitsOn args.itemKey, now, [], ?_, hrecord⟩
      simp only [State.setCall_commitsOn, hlog, if_true]
    · refine (h.placed other found hold).mono (hle _) (Nat.le_refl _) ?_
      simp only [State.setCall_commitsOn, hlog]
      exact List.prefix_append ..

/-- A call between two phases has not been counted. -/
theorem free_of_phase {id : Nat} {args : Increment} {phase : Phase} {seen : Nat}
    (hcall : s.calls id = some ⟨args, phase, seen⟩)
    (hphase : ∀ record, phase ≠ .done (.counted record)) :
    ∀ args' record seen', s.calls id ≠ some ⟨args', .done (.counted record), seen'⟩ := by
  intro args' record seen' he
  rw [hcall, Option.some.injEq, Call.mk.injEq] at he
  exact hphase record he.2.1

/-- Every step other than a deletion keeps the chain. -/
theorem step (h : Chained collected s) {label : Label} {t : State}
    (hkeep : ∀ itemKey, label ≠ .expire itemKey) (hstep : storage.step s label = some t) :
    Chained collected t := by
  cases label with
  | tick ms =>
    obtain rfl : _ = t := Option.some.inj hstep
    exact h.tick ms
  | call id args =>
    obtain ⟨hnone, rfl⟩ := step_call.mp hstep
    exact h.setCall (fun _ _ _ he => nomatch hnone.symm.trans he) trivial
  | get id =>
    obtain ⟨args, attempt, seen, hcall, rfl⟩ := step_get.mp hstep
    exact h.setCall (free_of_phase hcall fun _ he => nomatch he) (h.readAt_get args attempt)
  | sample id =>
    obtain ⟨args, attempt, current, seen, hcall, rfl⟩ := step_sample.mp hstep
    have hread : ReadAt collected s _ current := h.placed id _ hcall
    refine h.setCall (free_of_phase hcall fun _ he => nomatch he)
      ⟨⟨hread.collected_le, hread.seen_le, hread.current_eq⟩, Nat.le_refl _, ?_, (h.ended _).1⟩
    intro commit hcommit
    exact h.sampled commit (State.mem_commitsOn.mp (List.mem_of_mem_take hcommit)).1
  | put id =>
    obtain ⟨args, attempt, current, now, seen, hcall, ⟨table, hsend, rfl⟩ | ⟨_, rfl⟩⟩ :=
      step_put.mp hstep
    · exact h.commit hcall hsend
    · refine h.setCall (free_of_phase hcall fun _ he => nomatch he) ?_
      unfold loop
      split <;> trivial
  | error id =>
    obtain ⟨args, phase, seen, hcall, hphase, rfl⟩ := step_error.mp hstep
    refine h.setCall (free_of_phase hcall ?_) trivial
    rcases hphase with ⟨_, rfl⟩ | ⟨_, _, _, rfl⟩
    · exact fun _ he => nomatch he
    · exact fun _ he => nomatch he
  | expire itemKey => exact absurd rfl (hkeep itemKey)

end Chained

/-- Without deletions, every reachable state is chained from the beginning of its log. -/
theorem chained_of_exec {clock : Nat} {labels : List Label} {s : State}
    (hrun : storage.exec (State.initial clock) labels = some s)
    (hkeep : ∀ itemKey, .expire itemKey ∉ labels) : Chained (fun _ => 0) s :=
  storage.exec_invariant_of_meets (C := fun _ label => ∀ itemKey, label ≠ .expire itemKey)
    (chained_initial clock) (fun _ _ _ h hl hstep => h.step hl hstep)
    (storage.meets_of_forall fun _ hmem itemKey he => hkeep itemKey (he ▸ hmem)) hrun

end VertexApi.Throttler
