import VertexApi.Throttler.Course

/-!
# How many requests are admitted, and why one is refused

Within one window the decision admits the first `limit` requests and refuses the rest.
An interval of one window length meets at most two windows, which bounds the admissions
in it by twice the limit. A refusal is always covered by the request that started the
block, and that request came after `limit` admissions in its own window.
-/

namespace VertexApi.Throttler

/-- The request finds no stored window, an ended one, or a lapsed block. -/
def OpensWindow (current : Option ThrottleWindow) (now : Nat) : Prop :=
  match current with
  | none => True
  | some window => window.windowEndsAt ≤ now ∨
      (0 < window.blockedUntil ∧ window.blockedUntil ≤ now)

/-- A request that opens a window is counted into a fresh one. -/
theorem OpensWindow.carry {current : Option ThrottleWindow} {now : Nat}
    (h : OpensWindow current now) (ttl : Nat) :
    carryWindow current now ttl = freshWindow now ttl := by
  cases current with
  | none => rfl
  | some window =>
    rcases h with h | h
    · exact carryWindow_ended ttl h
    · simp only [carryWindow, h, and_self, if_true, ite_self]

/-- A sorted list splits at any bound into the elements below it and the others. -/
theorem sorted_split (xs : List Nat) (bound : Nat) (h : xs.Pairwise (· ≤ ·)) :
    ∃ as bs, xs = as ++ bs ∧ (∀ a ∈ as, a < bound) ∧ ∀ b ∈ bs, bound ≤ b := by
  induction xs with
  | nil => exact ⟨[], [], rfl, fun _ h => absurd h List.not_mem_nil, fun _ h =>
      absurd h List.not_mem_nil⟩
  | cons x xs ih =>
    obtain ⟨hx, hxs⟩ := List.pairwise_cons.mp h
    by_cases hlt : x < bound
    · obtain ⟨as, bs, rfl, has, hbs⟩ := ih hxs
      exact ⟨x :: as, bs, rfl, List.forall_mem_cons.mpr ⟨hlt, has⟩, hbs⟩
    · refine ⟨[], x :: xs, rfl, fun _ h => absurd h List.not_mem_nil, ?_⟩
      exact List.forall_mem_cons.mpr ⟨Nat.le_of_not_lt hlt, fun b hb =>
        Nat.le_trans (Nat.le_of_not_lt hlt) (hx b hb)⟩

/-- The request opens a window, or it falls into a consistent live one. -/
def Settled (ttl limit : Nat) (current : Option ThrottleWindow) (now : Nat) : Prop :=
  carryWindow current now ttl = freshWindow now ttl ∨
    ∃ window last, current = some window ∧ now < window.windowEndsAt ∧
      window.Consistent ttl limit last

section Counting

variable {ttl limit blockDuration : Nat}

/-- A request counted into a free window below the limit is admitted and uses up one of
the remaining admissions; any other request is refused and finds none left. -/
theorem advance_quota {current : Option ThrottleWindow} {now : Nat}
    (hblock : 0 < blockDuration) (hc : Settled ttl limit current now) :
    let hits := (carryWindow current now ttl).totalHits
    let step := advanceThrottleWindow current now ttl limit blockDuration
    step.record.isBlocked = decide (limit ≤ hits) ∧
      limit - step.next.totalHits = limit - hits - 1 := by
  have hfull : (carryWindow current now ttl).blockedUntil ≠ 0 →
      limit ≤ (carryWindow current now ttl).totalHits ∧
        now < (carryWindow current now ttl).blockedUntil := by
    intro hne
    rcases hc with hc | ⟨window, last, rfl, hlive, hw⟩
    · rw [hc] at hne
      exact absurd rfl hne
    · rw [hw.carry hlive] at hne ⊢
      have := hw.hits_blocked hne
      have := hw.ends_le_block hne
      omega
  simp only [advance_record, decision]
  rcases advance_cases current now ttl limit blockDuration with
    ⟨hb, hl, he⟩ | ⟨hb, hl, he⟩ | ⟨hne, he⟩
  · rw [he]
    simp only [hb, Nat.not_lt_zero, Nat.not_le_of_lt hl, true_and]
    omega
  · rw [he]
    simp only [hl, decide_true, decide_eq_true_eq]
    omega
  · rw [he]
    simp only [hfull hne, decide_true, true_and]
    have := (hfull hne).1
    omega

/-- The number of admissions of a sequence, split at its first request. -/
theorem length_admittedTimes_cons {current : Option ThrottleWindow} {now : Nat}
    (rest : List Nat) (hblock : 0 < blockDuration) (hc : Settled ttl limit current now) :
    (admittedTimes ttl limit blockDuration current (now :: rest)).length =
      (if limit ≤ (carryWindow current now ttl).totalHits then 0 else 1) +
        (admittedTimes ttl limit blockDuration (some (advanceThrottleWindow current now ttl limit
          blockDuration).next) rest).length := by
  simp only [admittedTimes, List.length_append, (advance_quota hblock hc).1, decide_eq_true_eq]
  split <;> rfl

/-- In a live window, exactly the remaining part of the limit is admitted. -/
theorem length_admittedTimes_live (hblock : ttl ≤ blockDuration) (httl : 0 < ttl)
    {window : ThrottleWindow} {last bound : Nat} {times : List Nat}
    (hw : window.Consistent ttl limit last) (hbound : bound ≤ window.windowEndsAt)
    (htimes : ∀ a ∈ times, last ≤ a ∧ 0 < a ∧ a < bound) (hmono : times.Pairwise (· ≤ ·)) :
    (admittedTimes ttl limit blockDuration (some window) times).length =
      min (limit - window.totalHits) times.length := by
  induction times generalizing window last with
  | nil => simp only [admittedTimes, List.length_nil, Nat.min_zero]
  | cons now rest ih =>
    obtain ⟨hlast, hpos, hlt⟩ := htimes now (List.mem_cons_self ..)
    obtain ⟨hle, hrest⟩ := List.pairwise_cons.mp hmono
    have hlive : now < window.windowEndsAt := Nat.lt_of_lt_of_le hlt hbound
    have hcarry := hw.carry hlive
    have hnext := hw.advance hblock hlast hpos
    have hends : bound ≤ (advanceThrottleWindow (some window) now ttl limit
        blockDuration).next.windowEndsAt := by
      rw [advance_windowEndsAt, hcarry]
      exact hbound
    have hcount := ih hnext hends (fun a ha => ⟨hle a ha,
      (htimes a (List.mem_cons_of_mem now ha)).2⟩) hrest
    have hblock' := Nat.lt_of_lt_of_le httl hblock
    have hset : Settled ttl limit (some window) now := Or.inr ⟨window, last, rfl, hlive, hw⟩
    have hquota := (advance_quota hblock' hset).2
    rw [length_admittedTimes_cons rest hblock' hset, hcount, List.length_cons]
    simp only [hcarry] at hquota ⊢
    split <;> omega

/-- The requests of a live window leave its end where it is. -/
theorem windowAfter_live (hblock : ttl ≤ blockDuration) {window : ThrottleWindow} {last : Nat}
    {times : List Nat} (hw : window.Consistent ttl limit last)
    (htimes : ∀ a ∈ times, last ≤ a ∧ 0 < a ∧ a < window.windowEndsAt)
    (hmono : times.Pairwise (· ≤ ·)) :
    ∃ after, windowAfter ttl limit blockDuration (some window) times = some after ∧
      after.windowEndsAt = window.windowEndsAt := by
  induction times generalizing window last with
  | nil => exact ⟨window, rfl, rfl⟩
  | cons now rest ih =>
    obtain ⟨hlast, hpos, hlive⟩ := htimes now (List.mem_cons_self ..)
    obtain ⟨hle, hrest⟩ := List.pairwise_cons.mp hmono
    have hnext := hw.advance hblock hlast hpos
    have hends := advance_windowEndsAt (some window) now ttl limit blockDuration
    rw [hw.carry hlive] at hends
    obtain ⟨after, hafter, he⟩ := ih hnext (fun a ha => by
      have := htimes a (List.mem_cons_of_mem now ha)
      exact ⟨hle a ha, this.2.1, hends ▸ this.2.2⟩) hrest
    exact ⟨after, hafter, he.trans hends⟩

/-- From the request that opens a window, exactly the limit is admitted in it. -/
theorem length_admittedTimes_opens (hblock : ttl ≤ blockDuration) (httl : 0 < ttl)
    {current : Option ThrottleWindow} {now : Nat} {rest : List Nat} (hpos : 0 < now)
    (hopen : OpensWindow current now) (hrest : ∀ a ∈ rest, a < now + ttl)
    (hmono : (now :: rest).Pairwise (· ≤ ·)) :
    (admittedTimes ttl limit blockDuration current (now :: rest)).length =
      min limit (rest.length + 1) := by
  obtain ⟨hle, hsorted⟩ := List.pairwise_cons.mp hmono
  have hcarry := hopen.carry ttl
  have hnext : (advanceThrottleWindow current now ttl limit blockDuration).next.Consistent
      ttl limit now := by
    rw [advance_congr limit blockDuration (hcarry.trans (carryWindow_none now ttl).symm)]
    exact advance_consistent hblock (fun _ h => nomatch h) (Nat.le_refl now) hpos
  have hends : now + ttl ≤ (advanceThrottleWindow current now ttl limit
      blockDuration).next.windowEndsAt := by
    rw [advance_windowEndsAt, hcarry]
    exact Nat.le_refl _
  have hcount := length_admittedTimes_live hblock httl hnext hends
    (fun a ha => ⟨hle a ha, Nat.lt_of_lt_of_le hpos (hle a ha), hrest a ha⟩) hsorted
  have hblock' := Nat.lt_of_lt_of_le httl hblock
  have hset : Settled ttl limit current now := Or.inl hcarry
  have hquota := (advance_quota hblock' hset).2
  rw [length_admittedTimes_cons rest hblock' hset, hcount]
  simp only [hcarry, freshWindow] at hquota ⊢
  split <;> omega

/-- Admissions below a bound are those of the requests below it. -/
theorem countP_admittedTimes_split {current : Option ThrottleWindow} {as bs : List Nat}
    {p : Nat → Bool} (has : ∀ a ∈ as, p a = true) (hbs : ∀ b ∈ bs, p b = false) :
    (admittedTimes ttl limit blockDuration current (as ++ bs)).countP p =
      (admittedTimes ttl limit blockDuration current as).length := by
  rw [admittedTimes_append, List.countP_append, List.countP_eq_length.mpr, List.countP_eq_zero.mpr]
  · rfl
  · intro b hb
    simp only [hbs b (mem_of_mem_admittedTimes ttl limit blockDuration hb), Bool.false_eq_true,
      not_false_eq_true]
  · exact fun a ha => has a (mem_of_mem_admittedTimes ttl limit blockDuration ha)

/-- Later requests take back no admission. -/
theorem countP_admittedTimes_mono (current : Option ThrottleWindow) (as bs : List Nat)
    (p : Nat → Bool) :
    (admittedTimes ttl limit blockDuration current as).countP p ≤
      (admittedTimes ttl limit blockDuration current (as ++ bs)).countP p := by
  rw [admittedTimes_append, List.countP_append]
  exact Nat.le_add_right ..

end Counting

/-- Within one window, exactly the limit or all of its requests are admitted. -/
theorem admitted_of_window {ttl limit blockDuration : Nat} (hblock : ttl ≤ blockDuration)
    (httl : 0 < ttl) {current : Option ThrottleWindow} {now : Nat} {post : List Nat}
    (hpos : 0 < now) (hopen : OpensWindow current now) (hmono : (now :: post).Pairwise (· ≤ ·)) :
    (admittedTimes ttl limit blockDuration current (now :: post)).countP
        (fun a => decide (a < now + ttl)) =
      min limit ((now :: post).countP fun a => decide (a < now + ttl)) := by
  obtain ⟨as, bs, rfl, has, hbs⟩ := sorted_split post (now + ttl) (List.pairwise_cons.mp hmono).2
  have hin : ∀ a ∈ now :: as, decide (a < now + ttl) = true := by
    refine List.forall_mem_cons.mpr ⟨decide_eq_true (by omega), fun a ha => ?_⟩
    exact decide_eq_true (has a ha)
  have hout : ∀ b ∈ bs, decide (b < now + ttl) = false := fun b hb =>
    decide_eq_false (Nat.not_lt.mpr (hbs b hb))
  rw [← List.cons_append, countP_admittedTimes_split hin hout, List.countP_append,
    List.countP_eq_length.mpr hin, List.countP_eq_zero.mpr fun b hb => by
      simp only [hout b hb, Bool.false_eq_true, not_false_eq_true],
    length_admittedTimes_opens hblock httl hpos hopen has
      (hmono.sublist (List.cons_sublist_cons.mpr (List.sublist_append_left as bs)))]
  rfl

/-- Requests within one window length of each other meet at most two windows. -/
theorem length_admittedTimes_interval {ttl limit blockDuration : Nat}
    (hblock : ttl ≤ blockDuration) (httl : 0 < ttl) {current : Option ThrottleWindow}
    {last : Nat} (x : Nat) {times : List Nat}
    (hc : ∀ window, current = some window → window.Consistent ttl limit last)
    (htimes : ∀ a ∈ times, last ≤ a ∧ 0 < a ∧ x ≤ a ∧ a < x + ttl)
    (hmono : times.Pairwise (· ≤ ·)) :
    (admittedTimes ttl limit blockDuration current times).length ≤ 2 * limit := by
  -- A window opened inside the interval outlasts it, so it is the last one.
  have hopens : ∀ (current : Option ThrottleWindow) {now : Nat} {rest : List Nat},
      OpensWindow current now → (∀ a ∈ now :: rest, 0 < a ∧ x ≤ a ∧ a < x + ttl) →
      (now :: rest).Pairwise (· ≤ ·) →
      (admittedTimes ttl limit blockDuration current (now :: rest)).length ≤ limit := by
    intro current now rest hopen ht hm
    obtain ⟨hnow, hx, _⟩ := ht now (List.mem_cons_self ..)
    rw [length_admittedTimes_opens hblock httl hnow hopen (fun a ha => ?_) hm]
    · exact Nat.min_le_left ..
    · have := ht a (List.mem_cons_of_mem now ha)
      omega
  cases times with
  | nil => exact Nat.zero_le _
  | cons now rest =>
    obtain ⟨hlast, hpos, hx, _⟩ := htimes now (List.mem_cons_self ..)
    cases current with
    | none =>
      have := hopens none trivial (fun a ha => (htimes a ha).2) hmono
      omega
    | some window =>
      by_cases hlive : now < window.windowEndsAt
      · -- The requests of the live window come first, then those of the next one.
        obtain ⟨as, bs, he, has, hbs⟩ := sorted_split (now :: rest) window.windowEndsAt hmono
        rw [he] at htimes hmono ⊢
        obtain ⟨hma, hmb, _⟩ := List.pairwise_append.mp hmono
        have hlive' : ∀ a ∈ as, last ≤ a ∧ 0 < a ∧ a < window.windowEndsAt := fun a ha =>
          have := htimes a (List.mem_append_left _ ha)
          ⟨this.1, this.2.1, has a ha⟩
        have hfirst := length_admittedTimes_live hblock httl (hc window rfl) (Nat.le_refl _)
          hlive' hma
        obtain ⟨after, hafter, hends⟩ := windowAfter_live hblock (hc window rfl) hlive' hma
        rw [admittedTimes_append, List.length_append, hfirst, hafter]
        cases bs with
        | nil =>
          simp only [admittedTimes, List.length_nil]
          omega
        | cons b bs =>
          have hopen : OpensWindow (some after) b :=
            Or.inl (hends ▸ hbs b (List.mem_cons_self ..))
          have := hopens (some after) hopen
            (fun a ha => (htimes a (List.mem_append_right as ha)).2) hmb
          omega
      · have := hopens (some window) (Or.inl (Nat.le_of_not_lt hlive))
          (fun a ha => (htimes a ha).2) hmono
        omega

/-- The requests of a run that fall into an interval are one contiguous part of it. -/
theorem countP_admittedTimes_le {ttl limit blockDuration : Nat} {times : List Nat}
    (hblock : ttl ≤ blockDuration) (httl : 0 < ttl) (hpos : ∀ a ∈ times, 0 < a)
    (hmono : times.Pairwise (· ≤ ·)) (x : Nat) :
    (admittedTimes ttl limit blockDuration none times).countP
      (fun a => decide (x ≤ a ∧ a < x + ttl)) ≤ 2 * limit := by
  obtain ⟨before, rest, rfl, hbefore, hrest⟩ := sorted_split times x hmono
  obtain ⟨hmb, hmr, hle⟩ := List.pairwise_append.mp hmono
  obtain ⟨inside, after, rfl, hinside, hafter⟩ := sorted_split rest (x + ttl) hmr
  have hout : (admittedTimes ttl limit blockDuration none before).countP
      (fun a => decide (x ≤ a ∧ a < x + ttl)) = 0 := by
    refine List.countP_eq_zero.mpr fun a ha => ?_
    have := hbefore a (mem_of_mem_admittedTimes ttl limit blockDuration ha)
    simp only [decide_eq_true_eq]
    omega
  have hin : ∀ a ∈ inside, decide (x ≤ a ∧ a < x + ttl) = true := fun a ha =>
    decide_eq_true ⟨hrest a (List.mem_append_left _ ha), hinside a ha⟩
  have hnot : ∀ b ∈ after, decide (x ≤ b ∧ b < x + ttl) = false := fun b hb =>
    decide_eq_false fun h => absurd h.2 (Nat.not_lt.mpr (hafter b hb))
  rw [admittedTimes_append, List.countP_append, hout, Nat.zero_add,
    countP_admittedTimes_split hin hnot]
  have hc : ∀ window, windowAfter ttl limit blockDuration none before = some window →
      window.Consistent ttl limit x :=
    windowAfter_consistent hblock (fun a ha => hpos a (List.mem_append_left _ ha)) hmb
      fun a ha => Nat.le_of_lt (hbefore a ha)
  refine length_admittedTimes_interval hblock httl x hc (fun a ha => ?_)
    (List.pairwise_append.mp hmr).1
  have hx := hrest a (List.mem_append_left _ ha)
  exact ⟨hx, hpos a (List.mem_append_right _ (List.mem_append_left _ ha)), hx, hinside a ha⟩

/-- How the admissions of a run account for its stored window: the hits of a free window
are admissions in it, and a block was started by a request after a full window of them. -/
structure Accounted (ttl limit blockDuration : Nat) (times : List Nat)
    (window : ThrottleWindow) : Prop where
  free : window.blockedUntil = 0 → window.totalHits ≤
    (admittedTimes ttl limit blockDuration none times).countP
      fun a => decide (window.windowEndsAt ≤ a + ttl)
  blocked : window.blockedUntil ≠ 0 → ∃ before onset after, times = before ++ onset :: after ∧
    TurnsBlocked ttl limit blockDuration (windowAfter ttl limit blockDuration none before) onset ∧
    window.blockedUntil = onset + blockDuration ∧
    limit ≤ (admittedTimes ttl limit blockDuration none times).countP
      fun a => decide (onset < a + ttl ∧ a ≤ onset)

/-- The window carried into the next request is still accounted for. -/
theorem accounted_carry {ttl limit blockDuration : Nat} (now : Nat) {times : List Nat}
    (h : ∀ window, windowAfter ttl limit blockDuration none times = some window →
      Accounted ttl limit blockDuration times window) :
    Accounted ttl limit blockDuration times
      (carryWindow (windowAfter ttl limit blockDuration none times) now ttl) := by
  rcases carryWindow_cases (windowAfter ttl limit blockDuration none times) now ttl with
    he | ⟨window, hw, _, _, he⟩
  · rw [he]
    exact ⟨fun _ => Nat.zero_le _, fun hne => absurd rfl hne⟩
  · rw [he]
    exact h window hw

/-- One request keeps the stored window accounted for. -/
theorem accounted_step {ttl limit blockDuration now : Nat} {times : List Nat} (httl : 0 < ttl)
    (hblock : ttl ≤ blockDuration) (hle : ∀ a ∈ times, a ≤ now) (hpos : 0 < now)
    (h : ∀ window, windowAfter ttl limit blockDuration none times = some window →
      Accounted ttl limit blockDuration times window)
    (hends : (carryWindow (windowAfter ttl limit blockDuration none times) now ttl).windowEndsAt
      ≤ now + ttl) :
    Accounted ttl limit blockDuration (times ++ [now])
      (advanceThrottleWindow (windowAfter ttl limit blockDuration none times) now
        ttl limit blockDuration).next := by
  have hcarry := accounted_carry now h
  have hlive := lt_carryWindow_windowEndsAt
    (windowAfter ttl limit blockDuration none times) now httl
  rcases advance_cases (windowAfter ttl limit blockDuration none times) now ttl limit
    blockDuration with ⟨hb, hl, he⟩ | ⟨hb, hl, he⟩ | ⟨hne, he⟩
  · -- An admitted request is itself the new hit.
    have hadmit : (advanceThrottleWindow (windowAfter ttl limit blockDuration none times) now
        ttl limit blockDuration).record.isBlocked = false := by
      simp only [advance_record, decision, he, hb, Nat.not_lt_zero, decide_false]
    have hfree := hcarry.free hb
    refine ⟨fun _ => ?_, fun hne => absurd hb (by rw [he] at hne; exact hne)⟩
    rw [admittedTimes_append, List.countP_append]
    simp only [admittedTimes, hadmit, he, Bool.false_eq_true, if_false, List.append_nil,
      List.countP_singleton, hends, decide_true, if_true]
    omega
  · -- The request that goes over finds a full window of admissions before it.
    refine ⟨fun h0 => ?_, fun _ => ⟨times, now, [], rfl, ⟨hb, ?_⟩, ?_, ?_⟩⟩
    · rw [he] at h0
      simp only at h0
      omega
    · simp only [advance_record, decision, he, decide_eq_true_eq]
      omega
    · rw [he]
    · refine Nat.le_trans hl (Nat.le_trans (hcarry.free hb)
      (Nat.le_trans ?_ (countP_admittedTimes_mono ..)))
      refine List.countP_mono_left fun a ha => ?_
      simp only [decide_eq_true_eq]
      exact fun hwin => ⟨Nat.lt_of_lt_of_le hlive hwin,
        hle a (mem_of_mem_admittedTimes ttl limit blockDuration ha)⟩
  · obtain ⟨before, onset, after, rfl, hturns, hb, hcount⟩ := hcarry.blocked hne
    rw [he]
    refine ⟨fun h0 => absurd h0 hne, fun _ => ⟨before, onset, after ++ [now], ?_, hturns, hb, ?_⟩⟩
    · simp only [List.append_assoc, List.cons_append]
    · exact Nat.le_trans hcount (countP_admittedTimes_mono ..)

/-- Every window that a run stores is accounted for by its admissions. -/
theorem windowAfter_accounted {ttl limit blockDuration : Nat} {times : List Nat}
    (httl : 0 < ttl) (hblock : ttl ≤ blockDuration) (hpos : ∀ a ∈ times, 0 < a)
    (hmono : times.Pairwise (· ≤ ·)) :
    ∀ window, windowAfter ttl limit blockDuration none times = some window →
      Accounted ttl limit blockDuration times window := by
  induction times using List.reverseRecOn with
  | nil =>
    intro window h
    cases h
  | append_singleton pre now ih =>
    obtain ⟨hpre, _, hle⟩ := List.pairwise_append.mp hmono
    have hle' : ∀ a ∈ pre, a ≤ now := fun a ha => hle a ha now (List.mem_singleton_self now)
    have hpos' : ∀ a ∈ pre, 0 < a := fun a ha => hpos a (List.mem_append_left _ ha)
    intro window hw
    rw [windowAfter_snoc] at hw
    obtain rfl := Option.some.inj hw
    have hc : ∀ window, windowAfter ttl limit blockDuration none pre = some window →
        window.Consistent ttl limit now := windowAfter_consistent hblock hpos' hpre hle'
    exact accounted_step httl hblock hle'
      (hpos now (List.mem_append_right _ (List.mem_singleton_self now))) (ih hpos' hpre)
      (carryWindow_consistent hc (Nat.le_refl now)).ends_le

/-- The admission bound, the exact count of each window, and the justification of every
refusal, over every sequence of request times. -/
theorem admission_bound {ttl limit blockDuration : Nat} {times : List Nat} (httl : 0 < ttl)
    (hblock : ttl ≤ blockDuration) (hpos : ∀ a ∈ times, 0 < a)
    (hmono : times.Pairwise (· ≤ ·)) :
    (∀ x, (admittedTimes ttl limit blockDuration none times).countP
      (fun a => decide (x ≤ a ∧ a < x + ttl)) ≤ 2 * limit) ∧
    (∀ pre now post, times = pre ++ now :: post →
      OpensWindow (windowAfter ttl limit blockDuration none pre) now →
      (admittedTimes ttl limit blockDuration (windowAfter ttl limit blockDuration none pre)
          (now :: post)).countP (fun a => decide (a < now + ttl)) =
        min limit ((now :: post).countP fun a => decide (a < now + ttl))) ∧
    ∀ pre now post, times = pre ++ now :: post →
      (advanceThrottleWindow (windowAfter ttl limit blockDuration none pre) now ttl limit
        blockDuration).record.isBlocked = true →
      ∃ before onset after, pre ++ [now] = before ++ onset :: after ∧
        TurnsBlocked ttl limit blockDuration
          (windowAfter ttl limit blockDuration none before) onset ∧
        onset ≤ now ∧ now < onset + blockDuration ∧
        limit ≤ (admittedTimes ttl limit blockDuration none times).countP
          fun a => decide (onset < a + ttl ∧ a ≤ onset) := by
  refine ⟨countP_admittedTimes_le hblock httl hpos hmono, ?_, ?_⟩
  · rintro pre now post rfl hopen
    exact admitted_of_window hblock httl
      (hpos now (List.mem_append_right _ (List.mem_cons_self ..))) hopen
      (List.pairwise_append.mp hmono).2.1
  · intro pre now post he hblocked
    rw [List.append_cons] at he
    subst he
    obtain ⟨hpre, _, _⟩ := List.pairwise_append.mp hmono
    obtain ⟨_, _, hle⟩ := List.pairwise_append.mp hpre
    have hacc := windowAfter_accounted httl hblock
      (fun a ha => hpos a (List.mem_append_left _ ha)) hpre _
      (windowAfter_snoc ttl limit blockDuration none pre now)
    simp only [advance_record, decision, decide_eq_true_eq] at hblocked
    obtain ⟨before, onset, after, hsplit, hturns, hb, hcount⟩ := hacc.blocked (by omega)
    refine ⟨before, onset, after, hsplit, hturns, ?_, hb ▸ hblocked, Nat.le_trans hcount ?_⟩
    · have hmem : onset ∈ pre ++ [now] := hsplit ▸ List.mem_append_right _ (List.mem_cons_self ..)
      rcases List.mem_append.mp hmem with hmem | hmem
      · exact hle onset hmem now (List.mem_singleton_self now)
      · exact Nat.le_of_eq (List.mem_singleton.mp hmem)
    · exact countP_admittedTimes_mono ..

/-- The bound, the count and the justification at a limit of two per second: the third
request of the first window is refused. -/
theorem admission_bound_of_three :
    (∀ x, (admittedTimes 1000 2 1000 none [1, 500, 900, 1001]).countP
      (fun a => decide (x ≤ a ∧ a < x + 1000)) ≤ 2 * 2) ∧
    ∃ before onset after, [1, 500, 900] = before ++ onset :: after ∧
      TurnsBlocked 1000 2 1000 (windowAfter 1000 2 1000 none before) onset ∧
      onset ≤ 900 ∧ 900 < onset + 1000 ∧
      2 ≤ (admittedTimes 1000 2 1000 none [1, 500, 900, 1001]).countP
        fun a => decide (onset < a + 1000 ∧ a ≤ onset) :=
  have h := @admission_bound 1000 2 1000 [1, 500, 900, 1001] (by decide) (by decide)
    (by decide) (by decide)
  ⟨h.1, h.2.2 [1, 500] 900 [1001] rfl (by decide)⟩

end VertexApi.Throttler
