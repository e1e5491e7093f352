import VertexApi.Throttler.Requests

/-!
# The course of a block

With a block as long as the window, a block that starts late in its window outlasts it.
The window's end is tested first, so a request that arrives between the two deadlines
opens a new window and ends the block early. A block runs its full course exactly when
no request arrives in that gap.
-/

namespace VertexApi.Throttler

/-- The request is counted into a window that is not blocked, and is answered blocked. -/
def TurnsBlocked (ttl limit blockDuration : Nat) (current : Option ThrottleWindow)
    (now : Nat) : Prop :=
  (carryWindow current now ttl).blockedUntil = 0 ∧
    (advanceThrottleWindow current now ttl limit blockDuration).record.isBlocked = true

instance (ttl limit blockDuration : Nat) (current : Option ThrottleWindow) (now : Nat) :
    Decidable (TurnsBlocked ttl limit blockDuration current now) :=
  inferInstanceAs (Decidable (_ ∧ _))

/-- What a request has to be answered while a block set by `onset` is waited out, and
what the first request after it has to be answered. -/
def OnCourse (ttl limit : Nat) (onset : ThrottleWindow) (mid : List Nat) (now : Nat) : Prop :=
  let step := advanceThrottleWindow (windowAfter ttl limit ttl (some onset) mid) now ttl limit ttl
  (now < onset.blockedUntil → step.record.isBlocked = true ∧
    step.record.totalHits = onset.totalHits ∧ step.next.totalHits = onset.totalHits ∧
    step.next.blockedUntil = onset.blockedUntil ∧
    step.record.timeToBlockExpire = ceilSeconds (onset.blockedUntil - now)) ∧
  (onset.blockedUntil ≤ now → (∀ a ∈ mid, a < onset.blockedUntil) →
    step.record.isBlocked = false ∧ step.record.totalHits = 1)

/-- Every block set along the request times lasts until its own end, and not longer. -/
def BlocksRunTheirCourse (ttl limit : Nat) (times : List Nat) : Prop :=
  ∀ pre now post, times = pre ++ now :: post →
    TurnsBlocked ttl limit ttl (windowAfter ttl limit ttl none pre) now →
    ∀ mid x rest, post = mid ++ x :: rest →
      OnCourse ttl limit
        (advanceThrottleWindow (windowAfter ttl limit ttl none pre) now ttl limit ttl).next mid x

/-- After a request that found the limit of its open window used up, no request arrives
between the end of that window and one block duration after the request. -/
def NoRequestAfterWindow (ttl limit : Nat) (times : List Nat) : Prop :=
  ∀ pre now post window, times = pre ++ now :: post →
    windowAfter ttl limit ttl none pre = some window → now < window.windowEndsAt →
    window.blockedUntil = 0 → window.totalHits = limit →
    ∀ x ∈ post, x < window.windowEndsAt ∨ now + ttl ≤ x

/-- A block starts exactly on a live free window whose limit is used up. -/
theorem turnsBlocked_iff {ttl limit last now : Nat} {current : Option ThrottleWindow}
    (hlimit : 1 ≤ limit)
    (hc : ∀ window, current = some window → window.Consistent ttl limit last) :
    TurnsBlocked ttl limit ttl current now ↔
      0 < ttl ∧ ∃ window, current = some window ∧ now < window.windowEndsAt ∧
        window.blockedUntil = 0 ∧ window.totalHits = limit := by
  constructor
  · rintro ⟨hfree, hblocked⟩
    simp only [advance_record, decision, decide_eq_true_eq] at hblocked
    rcases carryWindow_cases current now ttl with hf | ⟨window, hcur, hlive, _, hcarry⟩
    · rw [advance_fresh ttl hlimit hf] at hblocked
      exact absurd hblocked (Nat.not_lt_zero now)
    · rw [hcarry] at hfree
      rcases advance_cases current now ttl limit ttl with ⟨_, _, he⟩ | ⟨_, hl, he⟩ | ⟨hne, _⟩
      · rw [he, hcarry] at hblocked
        simp only [hfree, Nat.not_lt_zero] at hblocked
      · rw [hcarry] at hl
        have hle := (hc window hcur).hits_free hfree
        rw [he] at hblocked
        simp only at hblocked
        exact ⟨by omega, window, hcur, hlive, hfree, by omega⟩
      · rw [hcarry] at hne
        exact absurd hfree hne
  · rintro ⟨httl, window, rfl, hlive, hb, hhits⟩
    have hcarry := carryWindow_live ttl hlive (Or.inl hb)
    refine ⟨by rw [hcarry, hb], ?_⟩
    simp only [advance_record, decision, decide_eq_true_eq]
    rcases advance_cases (some window) now ttl limit ttl with ⟨_, hl, _⟩ | ⟨_, _, he⟩ | ⟨hne, _⟩
    · rw [hcarry] at hl
      omega
    · rw [he]
      simp only
      omega
    · rw [hcarry] at hne
      exact absurd hb hne

/-- The state a block starts with. -/
theorem onset_next {ttl limit now : Nat} {window : ThrottleWindow}
    (hlive : now < window.windowEndsAt) (hb : window.blockedUntil = 0)
    (hhits : window.totalHits = limit) :
    (advanceThrottleWindow (some window) now ttl limit ttl).next =
      { window with totalHits := limit + 1, blockedUntil := now + ttl } := by
  have hcarry := carryWindow_live ttl hlive (Or.inl hb)
  rcases advance_cases (some window) now ttl limit ttl with ⟨_, hl, _⟩ | ⟨_, _, he⟩ | ⟨hne, _⟩
  · rw [hcarry] at hl
    omega
  · rw [he, hcarry, hhits]
  · rw [hcarry] at hne
    exact absurd hb hne

/-- Requests inside both deadlines leave a blocked state as it is. -/
theorem windowAfter_blocked {ttl limit : Nat} {window : ThrottleWindow} {times : List Nat}
    (h : ∀ a ∈ times, a < window.windowEndsAt ∧ a < window.blockedUntil) :
    windowAfter ttl limit ttl (some window) times = some window := by
  induction times with
  | nil => rfl
  | cons a as ih =>
    obtain ⟨hlive, hb⟩ := h a (List.mem_cons_self ..)
    rw [windowAfter, advance_blocked ttl limit ttl hlive hb]
    exact ih fun b hb' => h b (List.mem_cons_of_mem a hb')

/-- While both deadlines lie ahead, requests are answered on course. -/
theorem onCourse_of_before {ttl limit now : Nat} {onset : ThrottleWindow} {mid : List Nat}
    (hmid : ∀ a ∈ mid, a < onset.windowEndsAt ∧ a < onset.blockedUntil)
    (hlive : now < onset.windowEndsAt) (hb : now < onset.blockedUntil) :
    OnCourse ttl limit onset mid now := by
  unfold OnCourse
  rw [windowAfter_blocked hmid]
  refine ⟨fun _ => ?_, fun hge => ?_⟩
  · simp only [advance_record, decision, advance_blocked ttl limit ttl hlive hb, hb,
      decide_true, if_true, and_self]
  · omega

/-- The first request after both deadlines opens a new window. -/
theorem onCourse_of_after {ttl limit now : Nat} {onset : ThrottleWindow} {mid : List Nat}
    (hlimit : 1 ≤ limit) (hends : onset.windowEndsAt ≤ onset.blockedUntil)
    (hmid : (∀ a ∈ mid, a < onset.blockedUntil) →
      ∀ a ∈ mid, a < onset.windowEndsAt ∧ a < onset.blockedUntil)
    (hb : onset.blockedUntil ≤ now) : OnCourse ttl limit onset mid now := by
  refine ⟨fun hlt => by omega, fun _ hfirst => ?_⟩
  have hfresh := advance_fresh ttl hlimit
    (carryWindow_ended ttl (Nat.le_trans hends hb) : carryWindow (some onset) now ttl = _)
  rw [windowAfter_blocked (hmid hfirst)]
  simp only [advance_record, decision, hfresh, freshWindow, Nat.not_lt_zero, decide_false,
    and_self]

/-- A request in the gap between the two deadlines is let through. -/
theorem not_onCourse_of_between {ttl limit now : Nat} {onset : ThrottleWindow} {mid : List Nat}
    (hlimit : 1 ≤ limit) (hmid : ∀ a ∈ mid, a < onset.windowEndsAt ∧ a < onset.blockedUntil)
    (hended : onset.windowEndsAt ≤ now) (hb : now < onset.blockedUntil) :
    ¬OnCourse ttl limit onset mid now := by
  intro h
  have hblocked := (h.1 hb).1
  rw [windowAfter_blocked hmid] at hblocked
  simp only [advance_record, decision, advance_fresh ttl hlimit (carryWindow_ended ttl hended),
    freshWindow, Nat.not_lt_zero, decide_false, Bool.false_eq_true] at hblocked

/-- The first element of a list that fails a decidable test, with the elements before it. -/
theorem exists_first_not {p : Nat → Prop} [DecidablePred p] {xs : List Nat} {x : Nat}
    (hx : x ∈ xs) (hp : ¬p x) :
    ∃ mid y rest, xs = mid ++ y :: rest ∧ (∀ a ∈ mid, p a) ∧ ¬p y := by
  induction xs with
  | nil => exact absurd hx (List.not_mem_nil)
  | cons a as ih =>
    by_cases ha : p a
    · have hmem : x ∈ as := (List.mem_cons.mp hx).resolve_left fun he => hp (he ▸ ha)
      obtain ⟨mid, y, rest, rfl, hmid, hy⟩ := ih hmem
      exact ⟨a :: mid, y, rest, rfl, List.forall_mem_cons.mpr ⟨ha, hmid⟩, hy⟩
    · exact ⟨[], a, as, rfl, fun _ h => absurd h (List.not_mem_nil), ha⟩

/-- The requests after one onset are on course exactly when none falls into its gap. -/
theorem onset_onCourse_iff {ttl limit : Nat} {onset : ThrottleWindow} {post : List Nat}
    (hlimit : 1 ≤ limit) (hends : onset.windowEndsAt ≤ onset.blockedUntil)
    (hmono : post.Pairwise (· ≤ ·)) :
    (∀ mid x rest, post = mid ++ x :: rest → OnCourse ttl limit onset mid x) ↔
      ∀ x ∈ post, x < onset.windowEndsAt ∨ onset.blockedUntil ≤ x := by
  constructor
  · intro h x hx
    by_contra hgap
    have hout : ¬x < onset.windowEndsAt := fun hlt => hgap (Or.inl hlt)
    -- The first request outside the window meets the onset's own state.
    obtain ⟨mid, y, rest, rfl, hmid, hy⟩ :=
      exists_first_not (p := fun a => a < onset.windowEndsAt) hx hout
    have hyx : y ≤ x := by
      rcases List.mem_append.mp hx with hx | hx
      · exact absurd (hmid x hx) hout
      · rcases List.mem_cons.mp hx with rfl | hx
        · exact Nat.le_refl _
        · exact (List.pairwise_cons.mp (List.pairwise_append.mp hmono).2.1).1 x hx
    have hxb : x < onset.blockedUntil := Nat.lt_of_not_le fun hle => hgap (Or.inr hle)
    exact not_onCourse_of_between hlimit
      (fun a ha => ⟨hmid a ha, Nat.lt_of_lt_of_le (hmid a ha) hends⟩) (Nat.le_of_not_lt hy)
      (Nat.lt_of_le_of_lt hyx hxb) (h mid y rest rfl)
  · rintro h mid x rest rfl
    have hmid : ∀ a ∈ mid, a < onset.windowEndsAt ∨ onset.blockedUntil ≤ a :=
      fun a ha => h a (List.mem_append_left _ ha)
    by_cases hx : x < onset.blockedUntil
    · have hle : ∀ a ∈ mid, a ≤ x := fun a ha =>
        (List.pairwise_append.mp hmono).2.2 a ha x (List.mem_cons_self ..)
      have hxw := h x (List.mem_append_right mid (List.mem_cons_self ..))
      refine onCourse_of_before (fun a ha => ?_) (by omega) hx
      have := hmid a ha
      have := hle a ha
      omega
    · refine onCourse_of_after hlimit hends (fun hfirst a ha => ?_) (Nat.le_of_not_lt hx)
      have := hmid a ha
      have := hfirst a ha
      omega

/-- Blocks run their full course exactly when no request arrives after the end of the
window a block was started in and before the end of the block. -/
theorem blocksRunTheirCourse_iff {ttl limit : Nat} {times : List Nat} (httl : 0 < ttl)
    (hlimit : 1 ≤ limit) (hpos : ∀ a ∈ times, 0 < a) (hmono : times.Pairwise (· ≤ ·)) :
    BlocksRunTheirCourse ttl limit times ↔ NoRequestAfterWindow ttl limit times := by
  have hsplit : ∀ {pre now post}, times = pre ++ now :: post →
      (∀ window, windowAfter ttl limit ttl none pre = some window →
        window.Consistent ttl limit now) ∧ post.Pairwise (· ≤ ·) := by
    rintro pre now post rfl
    obtain ⟨hpre, hpost, hle⟩ := List.pairwise_append.mp hmono
    exact ⟨windowAfter_consistent (Nat.le_refl ttl)
      (fun a ha => hpos a (List.mem_append_left _ ha)) hpre
      (fun a ha => hle a ha now (List.mem_cons_self ..)), (List.pairwise_cons.mp hpost).2⟩
  constructor
  · intro h pre now post window he hw hlive hb hhits
    obtain ⟨hc, hpost⟩ := hsplit he
    have hturns := (turnsBlocked_iff hlimit hc).mpr ⟨httl, window, hw, hlive, hb, hhits⟩
    have hcourse := h pre now post he hturns
    rw [hw, onset_next hlive hb hhits] at hcourse
    exact (onset_onCourse_iff hlimit (hc window hw).ends_le hpost).mp hcourse
  · intro h pre now post he hturns
    obtain ⟨hc, hpost⟩ := hsplit he
    obtain ⟨_, window, hw, hlive, hb, hhits⟩ := (turnsBlocked_iff hlimit hc).mp hturns
    rw [hw, onset_next hlive hb hhits]
    exact (onset_onCourse_iff hlimit (hc window hw).ends_le hpost).mpr
      (h pre now post window he hw hlive hb hhits)

/-- The equivalence at requests that exceed a limit of one halfway through a window
and come back once the block is over. -/
theorem blocksRunTheirCourse_iff_after_block :
    BlocksRunTheirCourse 60000 1 [1000, 31000, 91000] ↔
      NoRequestAfterWindow 60000 1 [1000, 31000, 91000] :=
  blocksRunTheirCourse_iff (by decide) (by decide) (by decide) (by decide)

/-- Five hits per minute: the sixth one at 31 s starts a block until 91 s, and the
request at 61 s is let through although the caller was told to wait a minute. -/
theorem block_ended_by_window :
    ¬BlocksRunTheirCourse 60000 5 [1000, 31000, 31000, 31000, 31000, 31000, 61000] := by
  intro h
  have hcourse := h [1000, 31000, 31000, 31000, 31000] 31000 [61000] rfl (by decide)
    [] 61000 [] rfl
  exact absurd (hcourse.1 (by decide)).1 (by decide)

end VertexApi.Throttler
