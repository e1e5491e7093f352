import VertexApi.Throttler.Linearization

/-!
# Giving up under contention

A lost write means that the log of the key grew since the read of the attempt, and the
reads of later attempts see at least that growth. A call that loses its last attempt has
therefore been overtaken by as many writes as it had attempts, each by another call.
-/

namespace VertexApi.Throttler

/-- The label is neither a deletion nor an error of the store. -/
def Label.calm : Label → Bool
  | .error _ => false
  | .expire _ => false
  | _ => true

/-- A call on the key that is under way at some time between two states of a run. -/
def Overlaps (s t : State) (itemKey : String) (id other : Nat) : Prop :=
  other ≠ id ∧ (∃ call, t.calls other = some call ∧ call.args.itemKey = itemKey) ∧
    ∀ args answer seen, s.calls other ≠ some ⟨args, .done answer, seen⟩

/-- How far the log of a key has grown past `first` by the attempts a call has lost. -/
def Overtaken (first : Nat) (s : State) (call : Call) : Prop :=
  match call.phase with
  | .get attempt => first + attempt ≤ (s.commitsOn call.args.itemKey).length
  | .sample attempt _ => first + attempt ≤ call.seen
  | .put attempt _ _ => first + attempt ≤ call.seen
  | .done .gaveUp => first + maxAttempts ≤ (s.commitsOn call.args.itemKey).length
  | .done _ => True

/-- Growth of the log keeps a call overtaken. -/
theorem Overtaken.mono {first : Nat} {s t : State} {call : Call} (h : Overtaken first s call)
    (hlog : s.commitsOn call.args.itemKey <+: t.commitsOn call.args.itemKey) :
    Overtaken first t call := by
  have hle := hlog.length_le
  obtain ⟨args, phase, seen⟩ := call
  cases phase with
  | get attempt => exact Nat.le_trans h hle
  | sample attempt current => exact h
  | put attempt current now => exact h
  | done answer =>
    cases answer with
    | gaveUp => exact Nat.le_trans h hle
    | counted record => trivial
    | unavailable => trivial

/-- A lost write was overtaken since its read, so the next attempt is overtaken once more. -/
theorem overtaken_loop {collected : String → Nat} {first : Nat} {s : State} {args : Increment}
    {id attempt now seen : Nat} {current : Option (Versioned ThrottleWindow)}
    (hchain : Chained collected s)
    (hcall : s.calls id = some ⟨args, .put attempt current now, seen⟩)
    (h : Overtaken first s ⟨args, .put attempt current now, seen⟩)
    (hlost : (args.put current now).send s.table = none) :
    Overtaken first s ⟨args, loop (attempt + 1), seen⟩ := by
  have hread := (hchain.placed id _ hcall).1
  have hseen : seen < (s.commitsOn args.itemKey).length := by
    refine Nat.lt_of_le_of_ne hread.seen_le fun he => ?_
    have hsend := hchain.send_iff hread now
    rw [hlost, if_pos he] at hsend
    cases hsend
  have hle : first + attempt ≤ seen := h
  unfold loop
  split
  · exact Nat.le_trans (Nat.succ_le_succ hle) hseen
  · next hdone =>
    have : first + maxAttempts ≤ (s.commitsOn args.itemKey).length := by omega
    exact this

/-- Every step keeps a call overtaken by the attempts it has lost. -/
theorem overtaken_step {collected : String → Nat} {first : Nat} {s t : State} {label : Label}
    {id : Nat} {args : Increment} (hchain : Chained collected s)
    (h : ∃ phase seen, s.calls id = some ⟨args, phase, seen⟩ ∧
      Overtaken first s ⟨args, phase, seen⟩)
    (hstep : storage.step s label = some t) :
    ∃ phase seen, t.calls id = some ⟨args, phase, seen⟩ ∧
      Overtaken first t ⟨args, phase, seen⟩ := by
  obtain ⟨phase, seen, hcall, hover⟩ := h
  have hlog : s.commitsOn args.itemKey <+: t.commitsOn args.itemKey :=
    List.IsPrefix.filter _ (history_prefix_step hstep)
  rcases calls_step_of_some hcall hstep with hsame | rfl | rfl | rfl | rfl
  · exact ⟨phase, seen, hsame, hover.mono hlog⟩
  · obtain ⟨args', attempt, seen', hown, rfl⟩ := step_get.mp hstep
    obtain ⟨rfl, rfl, rfl⟩ := Call.mk.inj (Option.some.inj (hcall.symm.trans hown))
    exact ⟨_, _, State.setCall_calls_self .., hover⟩
  · obtain ⟨args', attempt, current, seen', hown, rfl⟩ := step_sample.mp hstep
    obtain ⟨rfl, rfl, rfl⟩ := Call.mk.inj (Option.some.inj (hcall.symm.trans hown))
    exact ⟨_, _, State.setCall_calls_self .., hover⟩
  · obtain ⟨args', attempt, current, now, seen', hown, hput⟩ := step_put.mp hstep
    obtain ⟨rfl, rfl, rfl⟩ := Call.mk.inj (Option.some.inj (hcall.symm.trans hown))
    rcases hput with ⟨table, _, rfl⟩ | ⟨hlost, rfl⟩
    · exact ⟨_, _, State.setCall_calls_self .., trivial⟩
    · have hnext := overtaken_loop hchain hcall hover hlost
      exact ⟨_, _, State.setCall_calls_self .., hnext⟩
  · obtain ⟨args', phase', seen', hown, _, rfl⟩ := step_error.mp hstep
    obtain ⟨rfl, rfl, rfl⟩ := Call.mk.inj (Option.some.inj (hcall.symm.trans hown))
    exact ⟨_, _, State.setCall_calls_self .., trivial⟩

/-- Deletions are not calm. -/
theorem ne_expire_of_calm {label : Label} (h : label.calm = true) (itemKey : String) :
    label ≠ .expire itemKey := by
  rintro rfl
  cases h

/-- A calm run that starts chained stays chained. -/
theorem chained_of_calm {collected : String → Nat} {s t : State} {labels : List Label}
    (hchain : Chained collected s) (hcalm : ∀ label ∈ labels, label.calm = true)
    (hrun : storage.exec s labels = some t) : Chained collected t :=
  storage.exec_invariant_of_meets (C := fun _ label => label.calm = true) hchain
    (fun _ _ _ h hl hstep => h.step (ne_expire_of_calm hl) hstep)
    (storage.meets_of_forall hcalm) hrun

/-- A calm run leaves no call unavailable. -/
theorem available_of_calm {clock : Nat} {s : State} {labels : List Label}
    (hcalm : ∀ label ∈ labels, label.calm = true)
    (hrun : storage.exec (State.initial clock) labels = some s) {id : Nat} {args : Increment}
    {seen : Nat} : s.calls id ≠ some ⟨args, .done .unavailable, seen⟩ := by
  refine storage.exec_invariant_of_meets (C := fun _ label => label.calm = true)
    (P := fun s => ∀ id args seen, s.calls id ≠ some ⟨args, .done .unavailable, seen⟩)
    (fun _ _ _ h => by cases h) ?_ (storage.meets_of_forall hcalm) hrun id args seen
  intro m label t ih hl hstep id args seen hcall
  have hnew : ∀ {m : State} {args' phase' seen'},
      (m.setCall id ⟨args', phase', seen'⟩).calls id = some ⟨args, .done .unavailable, seen⟩ →
      phase' = .done .unavailable := by
    intro m args' phase' seen' he
    rw [State.setCall_calls_self, Option.some.injEq, Call.mk.injEq] at he
    exact he.2.1
  rcases calls_step id hstep with hsame | ⟨args', rfl⟩ | rfl | rfl | rfl | rfl
  · exact ih id args seen (hsame ▸ hcall)
  · obtain ⟨_, rfl⟩ := step_call.mp hstep
    cases hnew hcall
  · obtain ⟨_, _, _, _, rfl⟩ := step_get.mp hstep
    cases hnew hcall
  · obtain ⟨_, _, _, _, _, rfl⟩ := step_sample.mp hstep
    cases hnew hcall
  · obtain ⟨_, attempt, _, _, _, _, ⟨_, _, rfl⟩ | ⟨_, rfl⟩⟩ := step_put.mp hstep
    · cases hnew hcall
    · have he := hnew hcall
      unfold loop at he
      split at he <;> cases he
  · cases hl

/-- The calls of the writes that a run adds to a key are distinct and overlap the run. -/
theorem rivals_overlap {s t : State} {labels : List Label} (hs : Chained (fun _ => 0) s)
    (ht : Chained (fun _ => 0) t) (hrun : storage.exec s labels = some t)
    {id seen : Nat} {args : Increment} (hgave : t.calls id = some ⟨args, .done .gaveUp, seen⟩)
    {rivals : List Commit}
    (hsplit : t.commitsOn args.itemKey = s.commitsOn args.itemKey ++ rivals) :
    (rivals.map Commit.call).Nodup ∧
      ∀ other ∈ rivals.map Commit.call, Overlaps s t args.itemKey id other := by
  have honce : ((t.commitsOn args.itemKey).map Commit.call).Nodup :=
    ht.once.sublist (List.filter_sublist.map _)
  rw [hsplit, List.map_append] at honce
  obtain ⟨_, hrivals, hdisjoint⟩ := List.nodup_append.mp honce
  refine ⟨hrivals, fun other hother => ?_⟩
  obtain ⟨rival, hrival, rfl⟩ := List.mem_map.mp hother
  have hmem : rival ∈ t.commitsOn args.itemKey := hsplit ▸ List.mem_append_right _ hrival
  obtain ⟨hhistory, hkey⟩ := State.mem_commitsOn.mp hmem
  obtain ⟨record, seen', howner⟩ := ht.owned rival hhistory
  refine ⟨fun he => ?_, ⟨_, howner, hkey⟩, fun args' answer seen'' hdone => ?_⟩
  · rw [he, hgave] at howner
    cases howner
  · -- A call that was answered before the run keeps its answer, so its write is an old one.
    have hkept : t.calls rival.call = some ⟨args', .done answer, seen''⟩ :=
      storage.exec_invariant (P := fun m => m.calls rival.call = some ⟨args', .done answer, seen''⟩)
        hdone (fun _ _ _ h hstep => calls_done_step h hstep) hrun
    rw [howner, Option.some.injEq, Call.mk.injEq] at hkept
    obtain ⟨rfl, hphase, _⟩ := hkept
    obtain rfl := Phase.done.inj hphase
    obtain ⟨pre, now, post, hold, _⟩ := hs.placed _ _ hdone
    refine hdisjoint rival.call ?_ rival.call hother rfl
    rw [← hkey, hold]
    exact List.mem_map.mpr ⟨_, List.mem_append_right _ (List.mem_cons_self ..), rfl⟩

/-- A call that gives up was overtaken since before its first read by at least as many
writes as it has attempts, by distinct calls that overlap it. -/
theorem rivals_of_gaveUp {s t : State} {labels : List Label} (hs : Chained (fun _ => 0) s)
    (hcalm : ∀ label ∈ labels, label.calm = true) (hrun : storage.exec s labels = some t)
    {id seen last : Nat} {args : Increment} (hfirst : s.calls id = some ⟨args, .get 0, seen⟩)
    (hgave : t.calls id = some ⟨args, .done .gaveUp, last⟩) :
    ∃ rivals, t.commitsOn args.itemKey = s.commitsOn args.itemKey ++ rivals ∧
      maxAttempts ≤ rivals.length ∧ (rivals.map Commit.call).Nodup ∧
      ∀ other ∈ rivals.map Commit.call, Overlaps s t args.itemKey id other := by
  obtain ⟨ht, phase, last', hcall, hlost⟩ :=
    storage.exec_invariant_of_meets (C := fun _ label => label.calm = true)
      (P := fun m => Chained (fun _ => 0) m ∧ ∃ phase last, m.calls id = some ⟨args, phase, last⟩ ∧
        Overtaken (s.commitsOn args.itemKey).length m ⟨args, phase, last⟩)
      ⟨hs, _, _, hfirst, Nat.le_refl _⟩
      (fun _ _ _ h hl hstep =>
        ⟨h.1.step (ne_expire_of_calm hl) hstep, overtaken_step h.1 h.2 hstep⟩)
      (storage.meets_of_forall hcalm) hrun
  rw [hgave, Option.some.injEq, Call.mk.injEq] at hcall
  obtain ⟨_, rfl, rfl⟩ := hcall
  obtain ⟨rivals, hsplit⟩ := commitsOn_prefix_of_exec hrun args.itemKey
  have hlen : (s.commitsOn args.itemKey).length + maxAttempts ≤
      (t.commitsOn args.itemKey).length := hlost
  rw [← hsplit, List.length_append] at hlen
  exact ⟨rivals, hsplit.symm, by omega, rivals_overlap hs ht hrun hgave hsplit.symm⟩

/-- A call that gives up was overtaken by at least three writes of distinct other calls on
its key between its first read and its last lost write, so a call with at most two
overlapping calls on its key is counted. -/
theorem gaveUp_contended {clock : Nat} {before mid : List Label} {s t : State} {id seen : Nat}
    {args : Increment} (hbefore : storage.exec (State.initial clock) before = some s)
    (hfirst : s.calls id = some ⟨args, .get 0, seen⟩)
    (hrun : storage.exec s (.get id :: mid ++ [.put id]) = some t)
    (hcalm : ∀ label ∈ before ++ mid, label.calm = true) :
    (∀ last, t.calls id = some ⟨args, .done .gaveUp, last⟩ →
      ∃ rivals, t.commitsOn args.itemKey = s.commitsOn args.itemKey ++ rivals ∧
        3 ≤ rivals.length ∧ (rivals.map Commit.call).Nodup ∧ id ∉ rivals.map Commit.call) ∧
    ((∀ others : List Nat, others.Nodup →
        (∀ other ∈ others, Overlaps s t args.itemKey id other) → others.length ≤ 2) →
      ∀ answer last, t.calls id = some ⟨args, .done answer, last⟩ →
        ∃ record, answer = .counted record) := by
  have hcalm' : ∀ label ∈ .get id :: mid ++ [.put id], label.calm = true := by
    intro label hmem
    rcases List.mem_append.mp hmem with hmem | hmem
    · rcases List.mem_cons.mp hmem with rfl | hmem
      · rfl
      · exact hcalm label (List.mem_append_right _ hmem)
    · rw [List.mem_singleton.mp hmem]
      rfl
  have hcalm₀ : ∀ label ∈ before, label.calm = true := fun label hmem =>
    hcalm label (List.mem_append_left _ hmem)
  have hs := chained_of_calm (chained_initial clock) hcalm₀ hbefore
  refine ⟨fun last hgave => ?_, fun hfew answer last hdone => ?_⟩
  · obtain ⟨rivals, hsplit, hlen, hnodup, hoverlap⟩ :=
      rivals_of_gaveUp hs hcalm' hrun hfirst hgave
    exact ⟨rivals, hsplit, hlen, hnodup, fun hmem => (hoverlap id hmem).1 rfl⟩
  · cases answer with
    | counted record => exact ⟨record, rfl⟩
    | gaveUp =>
      obtain ⟨rivals, _, hlen, hnodup, hoverlap⟩ := rivals_of_gaveUp hs hcalm' hrun hfirst hdone
      have := hfew _ hnodup hoverlap
      rw [List.length_map] at this
      exact absurd (Nat.le_trans hlen this) (by decide)
    | unavailable =>
      refine absurd hdone (available_of_calm ?_ (storage.exec_append_some.mpr ⟨s, hbefore, hrun⟩))
      intro label hmem
      rcases List.mem_append.mp hmem with hmem | hmem
      · exact hcalm₀ label hmem
      · exact hcalm' label hmem

/-- Four calls on one key of five hits per minute. -/
def fourCalls : List Label :=
  let args : Increment := ⟨"a", 60000, 5, 60000, "default"⟩
  [.call 0 args, .call 1 args, .call 2 args, .call 3 args]

/-- One whole attempt of each of three calls, between the reads and writes of a fourth. -/
def threeOvertake : List Label :=
  [.sample 3, .get 0, .sample 0, .put 0, .put 3,
    .get 3, .sample 3, .get 1, .sample 1, .put 1, .put 3,
    .get 3, .sample 3, .get 2, .sample 2, .put 2]

/-- The fourth call is overtaken three times and gives up. -/
theorem gaveUp_contended_fourCalls :
    ∃ s t, storage.exec (State.initial 1000) fourCalls = some s ∧
      storage.exec s (.get 3 :: threeOvertake ++ [.put 3]) = some t ∧
      ∃ rivals, t.commitsOn "default:a" = s.commitsOn "default:a" ++ rivals ∧
        3 ≤ rivals.length ∧ (rivals.map Commit.call).Nodup ∧ 3 ∉ rivals.map Commit.call := by
  refine ⟨storage.run (State.initial 1000) fourCalls (by decide +kernel),
    storage.run _ (.get 3 :: threeOvertake ++ [.put 3]) (by decide +kernel),
    storage.exec_run .., storage.exec_run .., ?_⟩
  have hfirst : (storage.run (State.initial 1000) fourCalls (by decide +kernel)).calls 3 =
      some ⟨⟨"a", 60000, 5, 60000, "default"⟩, .get 0, 0⟩ := by decide +kernel
  exact (gaveUp_contended (storage.exec_run ..) hfirst (storage.exec_run ..) (by decide)).1 2
    (by decide +kernel)

end VertexApi.Throttler
