import VertexApi.Throttler.Linearization

/-!
# Collection of expired items

A deletion resets the version of its key, so a write that was decided on the deleted item
can meet the same version again and overwrite hits it never read. As long as items are
deleted only while no call on them stands between its read and its write, deletions are
invisible: the run without them gives the same answers and applies the same writes.
-/

namespace VertexApi.Throttler

/-- The call has read its item and has not sent its write yet. -/
def Phase.pending : Phase → Bool
  | .sample .. => true
  | .put .. => true
  | _ => false

/-- An item is deleted only while no call on its key is between its read and its write. -/
def CollectsIdle (s : State) (label : Label) : Prop :=
  ∀ itemKey, label = .expire itemKey → ∀ id call, s.calls id = some call →
    call.args.itemKey = itemKey → call.phase.pending = false

/-- The label is not a deletion. -/
def Label.keeps : Label → Bool
  | .expire _ => false
  | _ => true

/-- The write in flight is let through although writes it did not read were applied. -/
def OverwritesUnread (s : State) (id : Nat) : Prop :=
  ∃ args attempt current now seen, s.calls id = some ⟨args, .put attempt current now, seen⟩ ∧
    seen < (s.commitsOn args.itemKey).length ∧
    ((args.put current now).send s.table).isSome = true

/-- A call without what it read, which differs by versions when items are deleted. -/
def Call.erase (call : Call) : Call :=
  { call with phase := match call.phase with
    | .sample attempt _ => .sample attempt none
    | .put attempt _ now => .put attempt none now
    | phase => phase }

/-- Rounding up to seconds loses no millisecond. -/
theorem le_ceilSeconds_mul (ms : Nat) : ms ≤ ceilSeconds ms * 1000 := by
  unfold ceilSeconds
  omega

theorem Item.collectable_iff {item : Item} {seconds clock : Nat}
    (h : item.expiresAt = some seconds) :
    item.collectable clock = true ↔ seconds * 1000 ≤ clock := by
  rw [Item.collectable, h, Option.any_some, decide_eq_true_eq]

/-- An item that may be collected holds a window that ended the grace period before. -/
theorem windowEndsAt_le_of_collectable {stored : Versioned ThrottleWindow} {clock : Nat}
    (h : (Item.ofVersioned stored).collectable clock = true) :
    stored.value.windowEndsAt + garbageCollectionGraceSeconds * 1000 ≤ clock := by
  have hdue := (Item.collectable_iff rfl).mp h
  have hround := le_ceilSeconds_mul stored.value.windowEndsAt
  rw [Nat.add_mul] at hdue
  exact Nat.le_trans (Nat.add_le_add_right hround _) hdue

/-- The item of a chained key is the window that its whole log stores. -/
theorem Chained.stored {collected : String → Nat} {s : State} (h : Chained collected s)
    {itemKey : String} {item : Item} (hitem : s.table itemKey = some item) :
    ∃ window version, item = Item.ofVersioned ⟨window, version⟩ ∧
      foldLog Commit.apply (s.commitsOn itemKey) = some window := by
  rw [h.table_eq itemKey, Option.map_eq_some_iff] at hitem
  obtain ⟨stored, hsnapshot, rfl⟩ := hitem
  have hvalue := snapshot_value Commit.apply ((s.commitsOn itemKey).drop (collected itemKey))
  rw [hsnapshot, Option.map_some] at hvalue
  refine ⟨stored.value, stored.version, rfl, ?_⟩
  have hne : (s.commitsOn itemKey).drop (collected itemKey) ≠ [] := by
    intro hnil
    rw [hnil, snapshot_nil] at hsnapshot
    cases hsnapshot
  rw [hvalue, ← foldLog_append_ended hne (h.ended itemKey).2, List.take_append_drop]

/-- A deletion between reads and writes cuts the whole log of its key off. -/
theorem Chained.collect {collected : String → Nat} {s : State} (h : Chained collected s)
    {itemKey : String} (hidle : CollectsIdle s (.expire itemKey)) {item : Item}
    (hitem : s.table itemKey = some item) (hdue : item.collectable s.clock = true) :
    Chained (Function.update collected itemKey (s.commitsOn itemKey).length)
      { s with table := Function.update s.table itemKey none } where
  collected_le other := by
    by_cases he : other = itemKey
    · subst he
      rw [Function.update_self]
      exact Nat.le_refl _
    · rw [Function.update_of_ne he]
      exact h.collected_le other
  table_eq other := by
    by_cases he : other = itemKey
    · subst he
      simp only [Function.update_self]
      exact (congrArg (fun log => (snapshot Commit.apply log).map Item.ofVersioned)
        List.drop_length).symm
    · simp only [Function.update_of_ne he]
      exact h.table_eq other
  sorted := h.sorted
  sampled := h.sampled
  once := h.once
  owned := h.owned
  ended other := by
    by_cases he : other = itemKey
    · subst he
      obtain ⟨window, version, rfl, hfold⟩ := h.stored hitem
      have hended := windowEndsAt_le_of_collectable hdue
      simp only [Function.update_self]
      refine ⟨fun found hfound => ?_, fun commit hcommit => ?_⟩
      · have hfound' : foldLog Commit.apply (s.commitsOn other) = some found :=
          (congrArg (foldLog Commit.apply) List.take_length).symm.trans hfound
        rw [hfold, Option.some.injEq] at hfound'
        rw [← hfound']
        exact Nat.le_of_add_right_le hended
      · have hnil : commit ∈ ([] : List Commit) := List.drop_length ▸ hcommit
        cases hnil
    · simp only [Function.update_of_ne he]
      exact h.ended other
  placed id call hcall := by
    have hplaced := h.placed id call hcall
    obtain ⟨args, phase, seen⟩ := call
    by_cases he : args.itemKey = itemKey
    · have hpending := hidle itemKey rfl id _ hcall he
      cases phase with
      | get attempt => trivial
      | sample attempt current => cases hpending
      | put attempt current now => cases hpending
      | done answer =>
        cases answer with
        | counted record => exact hplaced
        | gaveUp => trivial
        | unavailable => trivial
    · have hsame : Function.update collected itemKey (s.commitsOn itemKey).length args.itemKey =
        collected args.itemKey := Function.update_of_ne he ..
      cases phase with
      | get attempt => trivial
      | sample attempt current =>
        exact ⟨hsame ▸ hplaced.collected_le, hplaced.seen_le, hsame ▸ hplaced.current_eq⟩
      | put attempt current now =>
        obtain ⟨hread, hnow, hlast, hended⟩ := hplaced
        exact ⟨⟨hsame ▸ hread.collected_le, hread.seen_le, hsame ▸ hread.current_eq⟩, hnow, hlast,
          hsame ▸ hended⟩
      | done answer =>
        cases answer with
        | counted record => exact hplaced
        | gaveUp => trivial
        | unavailable => trivial

/-- Every guarded step keeps some chain. -/
theorem chained_step_idle {s t : State} {label : Label} (h : ∃ collected, Chained collected s)
    (hidle : CollectsIdle s label) (hstep : storage.step s label = some t) :
    ∃ collected, Chained collected t := by
  obtain ⟨collected, hchain⟩ := h
  by_cases hexpire : ∃ itemKey, label = .expire itemKey
  · obtain ⟨itemKey, rfl⟩ := hexpire
    obtain ⟨item, hitem, hdue, rfl⟩ := step_expire.mp hstep
    exact ⟨_, hchain.collect hidle hitem hdue⟩
  · exact ⟨collected, hchain.step (fun itemKey he => hexpire ⟨itemKey, he⟩) hstep⟩

/-- An answered call reads no version, so nothing of it is left out. -/
theorem map_erase_eq_done {found : Option Call} {args : Increment} {answer : Answer} {seen : Nat} :
    found.map Call.erase = some ⟨args, .done answer, seen⟩ ↔
      found = some ⟨args, .done answer, seen⟩ := by
  constructor
  · intro h
    obtain ⟨⟨args', phase, seen'⟩, rfl, herase⟩ := Option.map_eq_some_iff.mp h
    obtain ⟨rfl, hphase, rfl⟩ := Call.mk.inj herase
    cases phase with
    | done answer' => rw [Phase.done.inj hphase]
    | get | sample | put => cases hphase
  · rintro rfl
    rfl

/-- A run and the run without its deletions: the same clock and writes, and the same calls
up to the versions of what they read. -/
structure SameRun (s t : State) : Prop where
  chained : ∃ collected, Chained collected s
  kept : Chained (fun _ => 0) t
  clock : t.clock = s.clock
  history : t.history = s.history
  calls : ∀ id, (t.calls id).map Call.erase = (s.calls id).map Call.erase

namespace SameRun

variable {s t : State}

/-- The writes of a key are the same in both runs. -/
theorem commitsOn (h : SameRun s t) (itemKey : String) :
    t.commitsOn itemKey = s.commitsOn itemKey := by
  rw [State.commitsOn, State.commitsOn, h.history]

/-- The same call, up to versions, put into both states. -/
theorem erase_setCall (h : ∀ id, (t.calls id).map Call.erase = (s.calls id).map Call.erase)
    {id : Nat} {call call' : Call} (hcall : call'.erase = call.erase) (other : Nat) :
    ((t.setCall id call').calls other).map Call.erase =
      ((s.setCall id call).calls other).map Call.erase := by
  by_cases he : other = id
  · rw [he, State.setCall_calls_self, State.setCall_calls_self, Option.map_some, Option.map_some,
      hcall]
  · rw [State.setCall_calls_of_ne _ _ _ he, State.setCall_calls_of_ne _ _ _ he]
    exact h other

/-- A call of one run is found in the other one, in the same phase. -/
theorem find (h : SameRun s t) {id : Nat} {args : Increment} {phase : Phase} {seen : Nat}
    (hcall : s.calls id = some ⟨args, phase, seen⟩) :
    ∃ phase', t.calls id = some ⟨args, phase', seen⟩ ∧
      Call.erase ⟨args, phase', seen⟩ = Call.erase ⟨args, phase, seen⟩ := by
  have hsame := h.calls id
  rw [hcall, Option.map_some, Option.map_eq_some_iff] at hsame
  obtain ⟨⟨args', phase', seen'⟩, hfound, herase⟩ := hsame
  obtain ⟨rfl, _, rfl⟩ := Call.mk.inj herase
  exact ⟨phase', hfound, herase⟩

/-- Both writes are applied, or both are lost, and they decide alike. -/
theorem sameDecision (h : SameRun s t) {id attempt now seen : Nat} {args : Increment}
    {current current' : Option (Versioned ThrottleWindow)}
    (hs : s.calls id = some ⟨args, .put attempt current now, seen⟩)
    (ht : t.calls id = some ⟨args, .put attempt current' now, seen⟩) :
    ((args.put current' now).send t.table).isSome = ((args.put current now).send s.table).isSome ∧
      args.record current' now = args.record current now := by
  obtain ⟨collected, hchain⟩ := h.chained
  obtain ⟨hread, _, _, hended⟩ := hchain.placed id _ hs
  obtain ⟨hread', _, _, hended'⟩ := h.kept.placed id _ ht
  constructor
  · rw [hchain.send_iff hread, h.kept.send_iff hread', h.commitsOn]
    split <;> rfl
  · have hdecide := hchain.advance_read hread hended args
    have hdecide' := h.kept.advance_read hread' hended' args
    rw [h.commitsOn] at hdecide'
    exact congrArg Advance.record (hdecide'.trans hdecide.symm)

/-- Every step other than a deletion is the same step in the run without deletions. -/
theorem step_keep (h : SameRun s t) {label : Label} {s' : State} (hkeeps : label.keeps = true)
    (hstep : storage.step s label = some s') :
    ∃ t', storage.step t label = some t' ∧ SameRun s' t' := by
  have hne : ∀ itemKey, label ≠ .expire itemKey := by
    rintro itemKey rfl
    cases hkeeps
  obtain ⟨collected, hchain⟩ := h.chained
  -- Both chains go on, so only the clock, the writes and the calls have to be compared.
  have hsame : ∀ t', storage.step t label = some t' → t'.clock = s'.clock →
      t'.history = s'.history →
      (∀ id, (t'.calls id).map Call.erase = (s'.calls id).map Call.erase) →
      ∃ t', storage.step t label = some t' ∧ SameRun s' t' := fun t' ht' hclock hhistory hcalls =>
    ⟨t', ht', ⟨collected, hchain.step hne hstep⟩, h.kept.step hne ht', hclock, hhistory, hcalls⟩
  cases label with
  | tick ms =>
    obtain rfl : _ = s' := Option.some.inj hstep
    exact hsame _ rfl (congrArg (· + ms) h.clock) h.history h.calls
  | call id args =>
    obtain ⟨hnone, rfl⟩ := step_call.mp hstep
    have hnone' := h.calls id
    rw [hnone, Option.map_none, Option.map_eq_none_iff] at hnone'
    exact hsame _ (step_call.mpr ⟨hnone', rfl⟩) h.clock h.history (erase_setCall h.calls rfl)
  | get id =>
    obtain ⟨args, attempt, seen, hcall, rfl⟩ := step_get.mp hstep
    obtain ⟨phase', hcall', herase⟩ := h.find hcall
    cases phase' with
    | get attempt' =>
      obtain rfl : attempt' = attempt := Phase.get.inj (Call.mk.inj herase).2.1
      refine hsame _ (step_get.mpr ⟨args, _, seen, hcall', rfl⟩) h.clock h.history
        (erase_setCall h.calls ?_)
      rw [h.commitsOn]
      rfl
    | sample | put | done => cases (Call.mk.inj herase).2.1
  | sample id =>
    obtain ⟨args, attempt, current, seen, hcall, rfl⟩ := step_sample.mp hstep
    obtain ⟨phase', hcall', herase⟩ := h.find hcall
    cases phase' with
    | sample attempt' current' =>
      obtain rfl : attempt' = attempt := (Phase.sample.inj (Call.mk.inj herase).2.1).1
      refine hsame _ (step_sample.mpr ⟨args, _, current', seen, hcall', rfl⟩) h.clock h.history
        (erase_setCall h.calls ?_)
      rw [h.clock]
      rfl
    | get | put | done => cases (Call.mk.inj herase).2.1
  | put id =>
    obtain ⟨args, attempt, current, now, seen, hcall, hput⟩ := step_put.mp hstep
    obtain ⟨phase', hcall', herase⟩ := h.find hcall
    cases phase' with
    | put attempt' current' now' =>
      obtain ⟨rfl, _, rfl⟩ := Phase.put.inj (Call.mk.inj herase).2.1
      obtain ⟨hsend, hrecord⟩ := h.sameDecision hcall hcall'
      rcases hput with ⟨table, happlied, rfl⟩ | ⟨hlost, rfl⟩
      · rw [happlied, Option.isSome_some] at hsend
        obtain ⟨table', happlied'⟩ := Option.isSome_iff_exists.mp hsend
        refine hsame _ (step_put.mpr ⟨args, _, current', _, seen, hcall',
          Or.inl ⟨table', happlied', rfl⟩⟩) h.clock ?_ (erase_setCall h.calls ?_)
        · exact congrArg (· ++ _) h.history
        · rw [hrecord]
      · rw [hlost, Option.isSome_none, Option.isSome_eq_false_iff,
          Option.isNone_iff_eq_none] at hsend
        exact hsame _ (step_put.mpr ⟨args, _, current', _, seen, hcall', Or.inr ⟨hsend, rfl⟩⟩)
          h.clock h.history (erase_setCall h.calls rfl)
    | get | sample | done => cases (Call.mk.inj herase).2.1
  | error id =>
    obtain ⟨args, phase, seen, hcall, hphase, rfl⟩ := step_error.mp hstep
    obtain ⟨phase', hcall', herase⟩ := h.find hcall
    have hphase' : (∃ attempt, phase' = .get attempt) ∨
        ∃ attempt current now, phase' = .put attempt current now := by
      rcases hphase with ⟨attempt, rfl⟩ | ⟨attempt, current, now, rfl⟩
      · cases phase' with
        | get attempt' => exact Or.inl ⟨attempt', rfl⟩
        | sample | put | done => cases (Call.mk.inj herase).2.1
      · cases phase' with
        | put attempt' current' now' => exact Or.inr ⟨attempt', current', now', rfl⟩
        | get | sample | done => cases (Call.mk.inj herase).2.1
    exact hsame _ (step_error.mpr ⟨args, phase', seen, hcall', hphase', rfl⟩) h.clock h.history
      (erase_setCall h.calls rfl)
  | expire itemKey => cases hkeeps

/-- A deletion between reads and writes is no step of the run without deletions. -/
theorem step_drop (h : SameRun s t) {label : Label} {s' : State} (hidle : CollectsIdle s label)
    (hkeeps : label.keeps = false) (hstep : storage.step s label = some s') : SameRun s' t := by
  cases label with
  | expire itemKey =>
    have hchained := chained_step_idle h.chained hidle hstep
    obtain ⟨_, _, _, rfl⟩ := step_expire.mp hstep
    exact ⟨hchained, h.kept, h.clock, h.history, h.calls⟩
  | tick | call | get | sample | put | error => cases hkeeps

end SameRun

/-- A block ends at most one block duration after the window it was started in. -/
theorem blockedUntil_le {bound : Nat} {log : List Commit}
    (h : ∀ commit ∈ log, commit.args.blockDuration ≤ bound) :
    ∀ window, foldLog Commit.apply log = some window →
      window.blockedUntil ≤ window.windowEndsAt + bound := by
  induction log using List.reverseRecOn with
  | nil => exact fun _ he => nomatch he
  | append_singleton log commit ih =>
    intro window hwindow
    rw [foldLog_snoc, Option.some.injEq] at hwindow
    have hbound := h commit (List.mem_append_right _ (List.mem_singleton_self commit))
    have hcarry : commit.now ≤ (carryWindow (foldLog Commit.apply log) commit.now
          commit.args.ttl).windowEndsAt ∧
        (carryWindow (foldLog Commit.apply log) commit.now commit.args.ttl).blockedUntil ≤
          (carryWindow (foldLog Commit.apply log) commit.now commit.args.ttl).windowEndsAt +
            bound := by
      rcases carryWindow_cases (foldLog Commit.apply log) commit.now commit.args.ttl with
        he | ⟨stored, hstored, hlive, _, he⟩
      · rw [he]
        exact ⟨Nat.le_add_right .., Nat.zero_le _⟩
      · rw [he]
        exact ⟨Nat.le_of_lt hlive, ih (fun other hother =>
          h other (List.mem_append_left _ hother)) stored hstored⟩
    rw [← hwindow]
    simp only [Commit.apply, Commit.advance, Increment.advance]
    rcases advance_cases (foldLog Commit.apply log) commit.now commit.args.ttl commit.args.limit
      commit.args.blockDuration with ⟨_, _, he⟩ | ⟨_, _, he⟩ | ⟨_, he⟩
    · rw [he]
      exact hcarry.2
    · rw [he]
      exact Nat.add_le_add hcarry.1 hbound
    · rw [he]
      exact hcarry.2

/-- What a deletion removes had ended: its window, and with blocks of an hour at most, its
block as well. -/
theorem ended_of_collect {s t : State} {itemKey : String} (h : ∃ collected, Chained collected s)
    (hoptions : ∀ id call, s.calls id = some call → call.args.blockDuration ≤ 3600000)
    (hstep : storage.step s (.expire itemKey) = some t) :
    ∃ stored, read s.table itemKey = some stored ∧ stored.value.windowEndsAt ≤ s.clock ∧
      stored.value.blockedUntil ≤ s.clock := by
  obtain ⟨collected, hchain⟩ := h
  obtain ⟨item, hitem, hdue, rfl⟩ := step_expire.mp hstep
  obtain ⟨window, version, rfl, hfold⟩ := hchain.stored hitem
  have hended := windowEndsAt_le_of_collectable hdue
  have hblock := blockedUntil_le (fun commit hcommit => by
    obtain ⟨record, seen, howner⟩ := hchain.owned commit (State.mem_commitsOn.mp hcommit).1
    exact hoptions _ _ howner) window hfold
  refine ⟨⟨window, version⟩, by rw [read, hitem]; rfl, Nat.le_of_add_right_le hended, ?_⟩
  exact Nat.le_trans hblock hended

/-- Deletions between reads and writes are invisible: the run without them gives the same
answers and applies the same writes, no write overwrites hits it did not read, and every
deleted item holds an ended window and an ended block. -/
theorem collection_invisible {clock : Nat} {labels : List Label} {s : State}
    (hrun : storage.exec (State.initial clock) labels = some s)
    (hoptions : ∀ id args, .call id args ∈ labels →
      args.blockDuration = args.ttl ∧ args.ttl ≤ 3600000)
    (hidle : storage.Meets CollectsIdle (State.initial clock) labels) :
    (∃ t, storage.exec (State.initial clock) (labels.filter Label.keeps) = some t ∧
      t.history = s.history ∧ ∀ id args answer seen,
        s.calls id = some ⟨args, .done answer, seen⟩ ↔
          t.calls id = some ⟨args, .done answer, seen⟩) ∧
    (∀ before id after m, labels = before ++ .put id :: after →
      storage.exec (State.initial clock) before = some m → ¬OverwritesUnread m id) ∧
    ∀ before itemKey after m, labels = before ++ .expire itemKey :: after →
      storage.exec (State.initial clock) before = some m →
      ∃ stored, read m.table itemKey = some stored ∧ stored.value.windowEndsAt ≤ m.clock ∧
        stored.value.blockedUntil ≤ m.clock := by
  have hchain : ∀ {before m}, storage.Meets CollectsIdle (State.initial clock) before →
      storage.exec (State.initial clock) before = some m → ∃ collected, Chained collected m :=
    fun hmeets hm => storage.exec_invariant_of_meets
      (P := fun m => ∃ collected, Chained collected m) ⟨_, chained_initial clock⟩
      (fun _ _ _ h hl hstep => chained_step_idle h hl hstep) hmeets hm
  refine ⟨?_, ?_, ?_⟩
  · obtain ⟨t, ht, hsame⟩ := storage.exec_filter_simulates storage SameRun Label.keeps
      (fun _ _ _ _ h _ hk hstep => h.step_keep hk hstep)
      (fun _ _ _ _ h hl hk hstep => h.step_drop hl hk hstep)
      ⟨⟨_, chained_initial clock⟩, chained_initial clock, rfl, rfl, fun _ => rfl⟩ hidle hrun
    refine ⟨t, ht, hsame.history, fun id args answer seen => ?_⟩
    rw [← map_erase_eq_done, ← hsame.calls id, map_erase_eq_done]
  · rintro before id after m rfl hm ⟨args, attempt, current, now, seen, hcall, hlt, hsend⟩
    obtain ⟨collected, h⟩ := hchain hidle.of_append hm
    rw [h.send_iff (h.placed id _ hcall).1, if_neg (Nat.ne_of_lt hlt)] at hsend
    cases hsend
  · rintro before itemKey after m rfl hm
    obtain ⟨m', hm', hrest⟩ := storage.exec_append_some.mp hrun
    obtain rfl : m' = m := Option.some.inj (hm'.symm.trans hm)
    obtain ⟨t, hstep, _⟩ := Option.bind_eq_some_iff.mp hrest
    refine ended_of_collect (hchain hidle.of_append hm) (fun id call hcall => ?_) hstep
    obtain ⟨hblock, httl⟩ := hoptions id call.args
      (List.mem_append_left _ (mem_labels_of_call hm hcall))
    exact hblock ▸ httl

/-- A counted call, an hour of silence, and the deletion of its item. -/
def collectedLater : List Label :=
  [.call 0 ⟨"a", 60000, 5, 60000, "default"⟩, .get 0, .sample 0, .put 0, .tick 3662000]

/-- A call after the deletion is counted as the first hit, with and without the deletion. -/
theorem collection_invisible_collectedLater :
    ∃ s t, storage.exec (State.initial 1000) (collectedLater ++ [.expire "default:a"]) = some s ∧
      storage.exec (State.initial 1000)
        ((collectedLater ++ [Label.expire "default:a"]).filter Label.keeps) = some t ∧
      t.history = s.history := by
  have hbefore := storage.exec_run (State.initial 1000) collectedLater (by decide +kernel)
  have hrun := storage.exec_run (State.initial 1000) (collectedLater ++ [.expire "default:a"])
    (by decide +kernel)
  have hcall : ∀ id args, Label.call id args ∈ collectedLater →
      id = 0 ∧ args = ⟨"a", 60000, 5, 60000, "default"⟩ := by
    simp only [collectedLater, List.mem_cons, Label.call.injEq, reduceCtorEq, List.not_mem_nil,
      or_false, imp_self, implies_true]
  have hidle : storage.Meets CollectsIdle (State.initial 1000)
      (collectedLater ++ [.expire "default:a"]) := by
    have hquiet : ∀ label ∈ collectedLater, ∀ itemKey, label ≠ Label.expire itemKey := by
      simp only [collectedLater, List.mem_cons, List.not_mem_nil, or_false, ne_eq,
        forall_eq_or_imp, forall_eq, reduceCtorEq, not_false_eq_true, implies_true, and_self]
    refine Machine.Meets.append ((storage.meets_of_forall hquiet).imp
      fun _ _ hne itemKey he => absurd he (hne itemKey)) hbefore ⟨?_, ?_⟩
    · rintro itemKey - id ⟨args, phase, seen⟩ hfound -
      obtain ⟨rfl, rfl⟩ := hcall id args (mem_labels_of_call hbefore hfound)
      have hdone : ((storage.run (State.initial 1000) collectedLater (by decide +kernel)).calls
        0).map (fun call => call.phase.pending) = some false := by decide +kernel
      rw [hfound] at hdone
      exact Option.some.inj hdone
    · split <;> trivial
  obtain ⟨t, ht, hhistory, _⟩ := (collection_invisible hrun (fun id args hmem => by
    rw [(hcall id args ((List.mem_append.mp hmem).resolve_right (by simp))).2]
    decide) hidle).1
  exact ⟨_, t, hrun, ht, hhistory⟩

/-- A call reads an expired item, the item is deleted, and another call starts it anew. -/
def recreatedBetween : List Label :=
  let args : Increment := ⟨"a", 60000, 5, 60000, "default"⟩
  [.call 0 args, .get 0, .sample 0, .put 0, .tick 3662000, .call 1 args, .get 1, .sample 1,
    .expire "default:a", .call 2 args, .get 2, .sample 2, .put 2]

/-- The write of the first reader meets the version it read on the new item, and takes the
hit of the other call back: two calls in one window both report the first hit. -/
theorem recreated_overwritten :
    ∃ m s, storage.exec (State.initial 1000) recreatedBetween = some m ∧
      OverwritesUnread m 1 ∧ storage.exec m [.put 1] = some s ∧
      (s.calls 1).map Call.phase = some (.done (.counted ⟨1, 60, false, 0⟩)) ∧
      (s.calls 2).map Call.phase = some (.done (.counted ⟨1, 60, false, 0⟩)) ∧
      read s.table "default:a" = some ⟨⟨1, 3723000, 0⟩, 2⟩ := by
  refine ⟨storage.run (State.initial 1000) recreatedBetween (by decide +kernel),
    storage.run _ [.put 1] (by decide +kernel), storage.exec_run .., ?_, storage.exec_run ..,
    by decide +kernel, by decide +kernel, by decide +kernel⟩
  refine ⟨⟨"a", 60000, 5, 60000, "default"⟩, 0, some ⟨⟨1, 61000, 0⟩, 1⟩, 3663000, 1, ?_⟩
  decide +kernel

end VertexApi.Throttler
