import VertexApi.Throttler.Admission
import VertexApi.Throttler.Contention

/-!
# The limit for simultaneous requests

The counted calls of a key obey its limit in every window, however they overlap. A call
that lost all its attempts is let through without being counted, so simultaneous calls
can exceed the limit together. Each call that does was overtaken by three counted ones.
-/

namespace VertexApi.Throttler

/-- The applied writes whose calls were let through. -/
def admittedCommits : Option ThrottleWindow → List Commit → List Commit
  | _, [] => []
  | current, commit :: rest =>
    (if (commit.advance current).record.isBlocked then [] else [commit]) ++
      admittedCommits (some (commit.apply current)) rest

/-- The call ended with a write of its own. -/
def State.counted (s : State) (id : Nat) : Bool :=
  match s.calls id with
  | some ⟨_, .done (.counted _), _⟩ => true
  | _ => false

/-- The call has been answered on this key, and the answer lets its request through. -/
def State.letThrough (s : State) (itemKey : String) (id : Nat) : Bool :=
  match s.calls id with
  | some ⟨args, .done answer, _⟩ =>
    args.itemKey == itemKey && !(answer.record args.ttl).isBlocked
  | _ => false

/-- An applied write whose call was let through is among the admitted ones. -/
theorem mem_admittedCommits {current : Option ThrottleWindow} {pre post : List Commit}
    {commit : Commit}
    (h : (commit.advance (pre.foldl (fun current entry => some (entry.apply current))
      current)).record.isBlocked = false) :
    commit ∈ admittedCommits current (pre ++ commit :: post) := by
  induction pre generalizing current with
  | nil =>
    refine List.mem_append_left _ ?_
    rw [List.foldl_nil] at h
    rw [h]
    exact List.mem_singleton_self commit
  | cons entry pre ih => exact List.mem_append_right _ (ih h)

/-- Only applied writes are admitted. -/
theorem mem_of_mem_admittedCommits {current : Option ThrottleWindow} {log : List Commit}
    {commit : Commit} (h : commit ∈ admittedCommits current log) : commit ∈ log := by
  induction log generalizing current with
  | nil => exact absurd h List.not_mem_nil
  | cons entry log ih =>
    rcases List.mem_append.mp h with h | h
    · split at h
      · exact absurd h List.not_mem_nil
      · exact List.mem_cons.mpr (Or.inl (List.mem_singleton.mp h))
    · exact List.mem_cons_of_mem entry (ih h)

section Uniform

variable {ttl limit blockDuration : Nat}

/-- Applied writes under the same options fold like the requests at their samples. -/
theorem foldl_apply_eq {current : Option ThrottleWindow} {log : List Commit}
    (h : ∀ commit ∈ log, commit.args.ttl = ttl ∧ commit.args.limit = limit ∧
      commit.args.blockDuration = blockDuration) :
    log.foldl (fun current entry => some (Commit.apply current entry)) current =
      windowAfter ttl limit blockDuration current (log.map Commit.now) := by
  induction log generalizing current with
  | nil => rfl
  | cons commit log ih =>
    obtain ⟨rfl, rfl, rfl⟩ := h commit (List.mem_cons_self ..)
    exact ih fun other hother => h other (List.mem_cons_of_mem _ hother)

/-- Applied writes under the same options are admitted like the requests at their samples. -/
theorem map_admittedCommits {current : Option ThrottleWindow} {log : List Commit}
    (h : ∀ commit ∈ log, commit.args.ttl = ttl ∧ commit.args.limit = limit ∧
      commit.args.blockDuration = blockDuration) :
    (admittedCommits current log).map Commit.now =
      admittedTimes ttl limit blockDuration current (log.map Commit.now) := by
  induction log generalizing current with
  | nil => rfl
  | cons commit log ih =>
    have hrest := fun current => @ih current fun other hother =>
      h other (List.mem_cons_of_mem _ hother)
    obtain ⟨rfl, rfl, rfl⟩ := h commit (List.mem_cons_self ..)
    simp only [admittedCommits, List.map_append, hrest, List.map_cons, admittedTimes]
    congr 1
    cases hb : (commit.advance current).record.isBlocked with
    | true =>
      have hb' : (advanceThrottleWindow current commit.now commit.args.ttl commit.args.limit
        commit.args.blockDuration).record.isBlocked = true := hb
      rw [if_pos rfl, if_pos hb', List.map_nil]
    | false =>
      have hb' : (advanceThrottleWindow current commit.now commit.args.ttl commit.args.limit
        commit.args.blockDuration).record.isBlocked = false := hb
      rw [hb', if_neg Bool.false_ne_true, if_neg Bool.false_ne_true, List.map_singleton]

/-- No request before the one that opens a window carries the same time. -/
theorem lt_of_opensWindow (hblock : ttl ≤ blockDuration) (httl : 0 < ttl) {times : List Nat}
    {now : Nat} (hpos : ∀ a ∈ times, 0 < a) (hmono : (times ++ [now]).Pairwise (· ≤ ·))
    (hopen : OpensWindow (windowAfter ttl limit blockDuration none times) now) :
    ∀ a ∈ times, a < now := by
  obtain ⟨htimes, _, hle⟩ := List.pairwise_append.mp hmono
  induction times using List.reverseRecOn with
  | nil => exact fun a ha => absurd ha List.not_mem_nil
  | append_singleton pre last _ =>
    have hlast := hle last (List.mem_append_right _ (List.mem_singleton_self last)) now
      (List.mem_singleton_self now)
    obtain ⟨_, _, hpre⟩ := List.pairwise_append.mp htimes
    -- The window of the last request is live at its own time.
    have hlive := lt_carryWindow_windowEndsAt
      (windowAfter ttl limit blockDuration none pre) last httl
    rw [← advance_windowEndsAt _ last ttl limit blockDuration] at hlive
    have hc : ∀ window, windowAfter ttl limit blockDuration none (pre ++ [last]) = some window →
        window.Consistent ttl limit now := windowAfter_consistent hblock hpos htimes
      (fun a ha => hle a ha now (List.mem_singleton_self now))
    rw [windowAfter_snoc] at hopen hc
    have hnext := hc _ rfl
    have hlt : last < now := by
      refine Nat.lt_of_le_of_ne hlast fun he => ?_
      rcases hopen with hended | ⟨hb, hlapsed⟩
      · omega
      · have := hnext.ends_le_block (Nat.ne_of_gt hb)
        omega
    intro a ha
    rcases List.mem_append.mp ha with hmem | hmem
    · exact Nat.lt_of_le_of_lt (hpre a hmem last (List.mem_singleton_self last)) hlt
    · rw [List.mem_singleton.mp hmem]
      exact hlt

/-- Within one window of the log, at most the limit is admitted. -/
theorem countP_admittedTimes_window (hblock : ttl ≤ blockDuration) (httl : 0 < ttl)
    {pre post : List Nat} {now : Nat} (hpos : ∀ a ∈ pre ++ now :: post, 0 < a)
    (hmono : (pre ++ now :: post).Pairwise (· ≤ ·))
    (hopen : OpensWindow (windowAfter ttl limit blockDuration none pre) now) :
    (admittedTimes ttl limit blockDuration none (pre ++ now :: post)).countP
      (fun a => decide (now ≤ a ∧ a < now + ttl)) ≤ limit := by
  obtain ⟨hpre, hpost, hle⟩ := List.pairwise_append.mp hmono
  have hbefore := lt_of_opensWindow hblock httl (fun a ha => hpos a (List.mem_append_left _ ha))
    (List.pairwise_append.mpr ⟨hpre, List.pairwise_singleton .., fun a ha b hb => by
      rw [List.mem_singleton.mp hb]
      exact hle a ha now (List.mem_cons_self ..)⟩) hopen
  have hzero : (admittedTimes ttl limit blockDuration none pre).countP
      (fun a => decide (now ≤ a ∧ a < now + ttl)) = 0 := by
    refine List.countP_eq_zero.mpr fun a ha => ?_
    have := hbefore a (mem_of_mem_admittedTimes ttl limit blockDuration ha)
    simp only [decide_eq_true_eq]
    omega
  rw [admittedTimes_append, List.countP_append, hzero, Nat.zero_add]
  refine Nat.le_trans (List.countP_mono_left fun a _ ha => ?_)
    (Nat.le_trans (Nat.le_of_eq (admitted_of_window hblock httl
      (hpos now (List.mem_append_right _ (List.mem_cons_self ..))) hopen hpost))
      (Nat.min_le_left ..))
  exact decide_eq_true (decide_eq_true_eq.mp ha).2

end Uniform

/-- Everything sampled along a run is at least as late as its start. -/
def SampledSince (clock : Nat) (s : State) : Prop :=
  clock ≤ s.clock ∧ (∀ commit ∈ s.history, clock ≤ commit.now) ∧
    ∀ id args attempt current now seen,
      s.calls id = some ⟨args, .put attempt current now, seen⟩ → clock ≤ now

/-- A step of a call keeps the samples late when it puts no earlier sample in flight. -/
theorem SampledSince.setCall {clock : Nat} {s : State} (h : SampledSince clock s) {id : Nat}
    {call : Call} (hcall : ∀ attempt current now, call.phase = .put attempt current now →
      clock ≤ now) : SampledSince clock (s.setCall id call) := by
  refine ⟨h.1, h.2.1, fun other args attempt current now seen hfound => ?_⟩
  rcases State.of_setCall _ _ _ hfound with ⟨-, rfl⟩ | ⟨-, hold⟩
  · exact hcall attempt current now rfl
  · exact h.2.2 other args attempt current now seen hold

/-- Every step keeps the samples late. -/
theorem SampledSince.step {clock : Nat} {s t : State} {label : Label} (h : SampledSince clock s)
    (hstep : storage.step s label = some t) : SampledSince clock t := by
  cases label with
  | tick ms =>
    obtain rfl : _ = t := Option.some.inj hstep
    exact ⟨Nat.le_trans h.1 (Nat.le_add_right ..), h.2⟩
  | call id args =>
    obtain ⟨_, rfl⟩ := step_call.mp hstep
    exact h.setCall (by simp only [reduceCtorEq, false_implies, implies_true])
  | get id =>
    obtain ⟨_, _, _, _, rfl⟩ := step_get.mp hstep
    exact h.setCall (by simp only [reduceCtorEq, false_implies, implies_true])
  | sample id =>
    obtain ⟨_, _, _, _, _, rfl⟩ := step_sample.mp hstep
    exact h.setCall fun _ _ _ he => (Phase.put.inj he).2.2 ▸ h.1
  | put id =>
    obtain ⟨args, _, _, now, _, hcall, ⟨table, _, rfl⟩ | ⟨_, rfl⟩⟩ := step_put.mp hstep
    · have hcommit : SampledSince clock (s.commit table ⟨id, args, now⟩) := by
        refine ⟨h.1, fun commit hmem => ?_, h.2.2⟩
        rcases List.mem_append.mp hmem with hmem | hmem
        · exact h.2.1 commit hmem
        · rw [List.mem_singleton.mp hmem]
          exact h.2.2 id _ _ _ _ _ hcall
      exact hcommit.setCall (by simp only [reduceCtorEq, false_implies, implies_true])
    · refine h.setCall fun _ _ _ he => ?_
      simp only [loop] at he
      split at he <;> cases he
  | error id =>
    obtain ⟨_, _, _, _, _, rfl⟩ := step_error.mp hstep
    exact h.setCall (by simp only [reduceCtorEq, false_implies, implies_true])
  | expire itemKey =>
    obtain ⟨_, _, _, rfl⟩ := step_expire.mp hstep
    exact h

/-- A call that gave up was overtaken since its start by three writes of other calls. -/
theorem gaveUp_since_start {clock : Nat} {labels : List Label} {s : State}
    (hcalm : ∀ label ∈ labels, label.calm = true)
    (hrun : storage.exec (State.initial clock) labels = some s) {id seen : Nat}
    {args : Increment} (hgave : s.calls id = some ⟨args, .done .gaveUp, seen⟩) :
    ∃ before after m rivals, labels = before ++ .call id args :: after ∧
      storage.exec (State.initial clock) before = some m ∧
      s.commitsOn args.itemKey = m.commitsOn args.itemKey ++ rivals ∧ 3 ≤ rivals.length ∧
      (rivals.map Commit.call).Nodup ∧ id ∉ rivals.map Commit.call := by
  obtain ⟨before, after, rfl⟩ := List.append_of_mem (mem_labels_of_call hrun hgave)
  obtain ⟨m, hm, hafter⟩ := storage.exec_append_some.mp hrun
  obtain ⟨m', hstart, hrest⟩ := Option.bind_eq_some_iff.mp hafter
  obtain ⟨_, rfl⟩ := step_call.mp hstart
  have hm' := chained_of_calm (chained_initial clock) (fun label hmem =>
    hcalm label (List.mem_append_left _ hmem)) hm
  have hstarted := hm'.step (ne_expire_of_calm rfl) hstart
  obtain ⟨rivals, hsplit, hlen, hnodup, hoverlap⟩ := rivals_of_gaveUp hstarted
    (fun label hmem => hcalm label (List.mem_append_right _ (List.mem_cons_of_mem _ hmem)))
    hrest (State.setCall_calls_self ..) hgave
  exact ⟨before, after, m, rivals, rfl, hm, hsplit, hlen, hnodup,
    fun hmem => (hoverlap id hmem).1 rfl⟩

/-- The samples of a run that starts at a positive time are positive. -/
theorem pos_of_mem_commitsOn {clock : Nat} {labels : List Label} {s : State} (hclock : 0 < clock)
    (hrun : storage.exec (State.initial clock) labels = some s) {itemKey : String} :
    ∀ a ∈ (s.commitsOn itemKey).map Commit.now, 0 < a := by
  have hstart : SampledSince clock (State.initial clock) := by
    refine ⟨Nat.le_refl _, ?_, ?_⟩
    · intro commit h
      cases h
    · intro id args attempt current now seen h
      cases h
  have hsince := storage.exec_invariant hstart (fun _ _ _ h hstep => h.step hstep) hrun
  intro a ha
  obtain ⟨commit, hcommit, rfl⟩ := List.mem_map.mp ha
  exact Nat.lt_of_lt_of_le hclock (hsince.2.1 commit (State.mem_commitsOn.mp hcommit).1)

/-- The counted calls that were let through are calls of admitted writes. -/
theorem mem_admitted_of_counted {s : State} (h : Chained (fun _ => 0) s) {itemKey : String}
    {id : Nat} (hthrough : s.letThrough itemKey id = true) (hcounted : s.counted id = true) :
    id ∈ (admittedCommits none (s.commitsOn itemKey)).map Commit.call := by
  unfold State.letThrough at hthrough
  unfold State.counted at hcounted
  split at hcounted
  · next args record seen hcall =>
    rw [hcall] at hthrough
    simp only [Answer.record, Bool.and_eq_true, beq_iff_eq, Bool.not_eq_true'] at hthrough
    obtain ⟨rfl, hfree⟩ := hthrough
    obtain ⟨pre, now, post, hsplit, hrecord⟩ := h.placed id _ hcall
    rw [hrecord] at hfree
    rw [hsplit]
    exact List.mem_map.mpr ⟨⟨id, args, now⟩, mem_admittedCommits hfree, rfl⟩
  · cases hcounted

/-- Of the calls on one key that are let through within one window, at most the limit are
counted, and each other one gave up after three counted calls overtook it. -/
theorem counted_within_limit {clock ttl limit : Nat} {labels : List Label} {s : State}
    {itemKey : String} {pre post : List Commit} {opener : Commit} {ids : List Nat}
    (hclock : 0 < clock) (httl : 0 < ttl)
    (hcalm : ∀ label ∈ labels, label.calm = true)
    (hrun : storage.exec (State.initial clock) labels = some s)
    (hoptions : ∀ id call, s.calls id = some call → call.args.itemKey = itemKey →
      call.args.ttl = ttl ∧ call.args.limit = limit ∧ call.args.blockDuration = ttl)
    (hsplit : s.commitsOn itemKey = pre ++ opener :: post)
    (hopens : OpensWindow (foldLog Commit.apply pre) opener.now)
    (hnodup : ids.Nodup) (hids : ∀ id ∈ ids, s.letThrough itemKey id = true)
    (hwindow : ∀ commit ∈ s.commitsOn itemKey, commit.call ∈ ids →
      opener.now ≤ commit.now ∧ commit.now < opener.now + ttl) :
    (ids.filter s.counted).length ≤ limit ∧
    ∀ id ∈ ids, s.counted id = false → ∃ args before after m rivals,
      labels = before ++ .call id args :: after ∧
      storage.exec (State.initial clock) before = some m ∧ args.itemKey = itemKey ∧
      s.commitsOn itemKey = m.commitsOn itemKey ++ rivals ∧ 3 ≤ rivals.length ∧
      (rivals.map Commit.call).Nodup ∧ id ∉ rivals.map Commit.call := by
  have h := chained_of_calm (chained_initial clock) hcalm hrun
  have hlog : ∀ commit ∈ s.commitsOn itemKey, commit.args.ttl = ttl ∧
      commit.args.limit = limit ∧ commit.args.blockDuration = ttl := by
    intro commit hcommit
    obtain ⟨hmem, hkey⟩ := State.mem_commitsOn.mp hcommit
    obtain ⟨record, seen, hcall⟩ := h.owned commit hmem
    exact hoptions commit.call _ hcall hkey
  have hpos : ∀ a ∈ (s.commitsOn itemKey).map Commit.now, 0 < a :=
    pos_of_mem_commitsOn hclock hrun
  have hsorted : ((s.commitsOn itemKey).map Commit.now).Pairwise (· ≤ ·) :=
    List.pairwise_map.mpr (h.sorted itemKey)
  refine ⟨?_, fun id hid hcounted => ?_⟩
  · let inWindow : Commit → Bool := fun commit =>
      decide (opener.now ≤ commit.now ∧ commit.now < opener.now + ttl)
    have hsub : ids.filter s.counted ⊆
        ((admittedCommits none (s.commitsOn itemKey)).filter inWindow).map Commit.call := by
      intro id hid
      obtain ⟨hid, hcounted⟩ := List.mem_filter.mp hid
      obtain ⟨commit, hcommit, rfl⟩ := List.mem_map.mp
        (mem_admitted_of_counted h (hids id hid) hcounted)
      have hin := hwindow commit (mem_of_mem_admittedCommits hcommit) hid
      exact List.mem_map.mpr ⟨commit, List.mem_filter.mpr ⟨hcommit, decide_eq_true hin⟩, rfl⟩
    have hcount : (((admittedCommits none (s.commitsOn itemKey)).filter inWindow).map
        Commit.call).length = (admittedTimes ttl limit ttl none ((s.commitsOn itemKey).map
          Commit.now)).countP (fun a => decide (opener.now ≤ a ∧ a < opener.now + ttl)) := by
      rw [List.length_map, ← map_admittedCommits hlog, List.countP_map,
        List.countP_eq_length_filter]
      rfl
    refine Nat.le_trans (List.Nodup.length_le_of_subset (hnodup.filter _) hsub) ?_
    rw [hcount]
    rw [hsplit, List.map_append, List.map_cons] at hpos hsorted ⊢
    refine countP_admittedTimes_window (Nat.le_refl ttl) httl hpos hsorted ?_
    rw [← foldl_apply_eq fun commit hcommit =>
      hlog commit (hsplit ▸ List.mem_append_left _ hcommit)]
    exact hopens
  · have hthrough := hids id hid
    unfold State.letThrough at hthrough
    split at hthrough
    · next args answer seen hcall =>
      simp only [Bool.and_eq_true, beq_iff_eq] at hthrough
      obtain ⟨rfl, _⟩ := hthrough
      cases answer with
      | counted record => simp only [State.counted, hcall, Bool.true_eq_false] at hcounted
      | gaveUp =>
        obtain ⟨before, after, m, rivals, hlabels, hm, hrest⟩ :=
          gaveUp_since_start hcalm hrun hcall
        exact ⟨args, before, after, m, rivals, hlabels, hm, rfl, hrest⟩
      | unavailable => exact absurd hcall (available_of_calm hcalm hrun)
    · cases hthrough

/-- One attempt of each of several calls: all read, all decide, all write. -/
def attemptAll (ids : List Nat) : List Label := ids.map .get ++ ids.map .sample ++ ids.map .put

/-- Ten simultaneous calls on a key of five hits per minute, in three rounds. -/
def tenCalls : List Label :=
  (List.range 10).map (.call · ⟨"a", 60000, 5, 60000, "default"⟩) ++
    attemptAll (List.range 10) ++ attemptAll (List.range' 1 9) ++ attemptAll (List.range' 2 8)

/-- Ten calls at one instant on a key of five hits per minute: three are counted, and the
other seven give up, so all ten are let through. -/
theorem ten_let_through :
    ∃ s, storage.exec (State.initial 1000) tenCalls = some s ∧
      (∀ label ∈ tenCalls, label.calm = true) ∧ s.clock = 1000 ∧
      (∀ id < 10, s.letThrough "default:a" id = true) ∧ (s.commitsOn "default:a").length = 3 :=
  ⟨storage.run (State.initial 1000) tenCalls (by decide +kernel), storage.exec_run ..,
    by decide +kernel, by decide +kernel, by decide +kernel, by decide +kernel⟩

/-- Of the same ten calls, at most five are counted, and the others were overtaken. -/
theorem counted_within_limit_tenCalls :
    ∃ s, storage.exec (State.initial 1000) tenCalls = some s ∧
      ((List.range 10).filter s.counted).length ≤ 5 ∧
      ∀ id ∈ List.range 10, s.counted id = false → ∃ args before after m rivals,
        tenCalls = before ++ .call id args :: after ∧
        storage.exec (State.initial 1000) before = some m ∧ args.itemKey = "default:a" ∧
        s.commitsOn "default:a" = m.commitsOn "default:a" ++ rivals ∧ 3 ≤ rivals.length ∧
        (rivals.map Commit.call).Nodup ∧ id ∉ rivals.map Commit.call := by
  have hrun := storage.exec_run (State.initial 1000) tenCalls (by decide +kernel)
  have hargs : ∀ label ∈ tenCalls, (match label with
      | .call _ args => decide (args = ⟨"a", 60000, 5, 60000, "default"⟩)
      | _ => true) = true := by decide +kernel
  have hsplit : (storage.run (State.initial 1000) tenCalls (by decide +kernel)).commitsOn
      "default:a" = [] ++ ⟨0, ⟨"a", 60000, 5, 60000, "default"⟩, 1000⟩ ::
        [⟨1, ⟨"a", 60000, 5, 60000, "default"⟩, 1000⟩,
          ⟨2, ⟨"a", 60000, 5, 60000, "default"⟩, 1000⟩] := by decide +kernel
  refine ⟨_, hrun, counted_within_limit (by decide) (by decide : 0 < 60000) (by decide +kernel)
    hrun (fun id call hcall _ => ?_) hsplit trivial (by decide) (by decide +kernel)
    (by decide +kernel)⟩
  rw [of_decide_eq_true (hargs _ (mem_labels_of_call hrun hcall))]
  exact ⟨rfl, rfl, rfl⟩

end VertexApi.Throttler
