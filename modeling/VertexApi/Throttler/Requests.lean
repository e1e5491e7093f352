import Mathlib.Data.List.Induction
import VertexApi.Throttler.Window

/-!
# Sequences of requests against one key

The decision function folded over request times, with the three throttler options
fixed. `Consistent` is what every reachable window satisfies when the block lasts at
least as long as the window: the hit count tells a blocked window from a free one,
and a block never lapses before the window it was started in ends.
-/

namespace VertexApi.Throttler

section Fold

variable (ttl limit blockDuration : Nat)

/-- The state stored after a sequence of request times. -/
def windowAfter : Option ThrottleWindow → List Nat → Option ThrottleWindow
  | current, [] => current
  | current, now :: rest =>
    windowAfter (some (advanceThrottleWindow current now ttl limit blockDuration).next) rest

/-- The times of the requests that are let through. -/
def admittedTimes : Option ThrottleWindow → List Nat → List Nat
  | _, [] => []
  | current, now :: rest =>
    let step := advanceThrottleWindow current now ttl limit blockDuration
    (if step.record.isBlocked then [] else [now]) ++ admittedTimes (some step.next) rest

theorem windowAfter_append (current : Option ThrottleWindow) (as bs : List Nat) :
    windowAfter ttl limit blockDuration current (as ++ bs) =
      windowAfter ttl limit blockDuration (windowAfter ttl limit blockDuration current as) bs := by
  induction as generalizing current with
  | nil => rfl
  | cons a as ih => exact ih _

theorem windowAfter_snoc (current : Option ThrottleWindow) (as : List Nat) (now : Nat) :
    windowAfter ttl limit blockDuration current (as ++ [now]) =
      some (advanceThrottleWindow (windowAfter ttl limit blockDuration current as) now
        ttl limit blockDuration).next :=
  windowAfter_append ttl limit blockDuration current as [now]

theorem admittedTimes_append (current : Option ThrottleWindow) (as bs : List Nat) :
    admittedTimes ttl limit blockDuration current (as ++ bs) =
      admittedTimes ttl limit blockDuration current as ++
        admittedTimes ttl limit blockDuration
          (windowAfter ttl limit blockDuration current as) bs := by
  induction as generalizing current with
  | nil => rfl
  | cons a as ih => simp only [List.cons_append, admittedTimes, windowAfter, ih, List.append_assoc]

/-- Only requests of the sequence are admitted. -/
theorem mem_of_mem_admittedTimes {current : Option ThrottleWindow} {times : List Nat} {now : Nat}
    (h : now ∈ admittedTimes ttl limit blockDuration current times) : now ∈ times := by
  induction times generalizing current with
  | nil => exact absurd h (List.not_mem_nil)
  | cons a as ih =>
    rcases List.mem_append.mp h with h | h
    · split at h
      · exact absurd h (List.not_mem_nil)
      · exact List.mem_cons.mpr (Or.inl (List.mem_singleton.mp h))
    · exact List.mem_cons_of_mem a (ih h)

end Fold

/-- The run rule for request times that are positive and never decrease. -/
theorem windowAfter_induction {ttl limit blockDuration : Nat}
    {P : List Nat → Option ThrottleWindow → Prop} (hnil : P [] none)
    (hsnoc : ∀ pre now, P pre (windowAfter ttl limit blockDuration none pre) →
      (∀ a ∈ pre, a ≤ now) → 0 < now →
      P (pre ++ [now]) (some (advanceThrottleWindow
        (windowAfter ttl limit blockDuration none pre) now ttl limit blockDuration).next))
    {times : List Nat} (hpos : ∀ a ∈ times, 0 < a) (hmono : times.Pairwise (· ≤ ·)) :
    P times (windowAfter ttl limit blockDuration none times) := by
  induction times using List.reverseRecOn with
  | nil => exact hnil
  | append_singleton pre now ih =>
    obtain ⟨hpre, _, hle⟩ := List.pairwise_append.mp hmono
    rw [windowAfter_snoc]
    exact hsnoc pre now (ih (fun a ha => hpos a (List.mem_append_left _ ha)) hpre)
      (fun a ha => hle a ha now (List.mem_singleton_self now))
      (hpos now (List.mem_append_right _ (List.mem_singleton_self now)))

/-- What every window stored by time `now` satisfies when blocks outlast windows. -/
structure ThrottleWindow.Consistent (ttl limit now : Nat) (window : ThrottleWindow) : Prop where
  /-- The window was opened no later than `now`. -/
  ends_le : window.windowEndsAt ≤ now + ttl
  /-- A window that is not blocked is within the limit. -/
  hits_free : window.blockedUntil = 0 → window.totalHits ≤ limit
  /-- A blocked window holds the one hit that went over. -/
  hits_blocked : window.blockedUntil ≠ 0 → window.totalHits = limit + 1
  /-- The block lasts until the window's end or longer. -/
  ends_le_block : window.blockedUntil ≠ 0 → window.windowEndsAt ≤ window.blockedUntil

/-- A consistent window stays consistent as time passes. -/
theorem ThrottleWindow.Consistent.mono {ttl limit now later : Nat} {window : ThrottleWindow}
    (h : window.Consistent ttl limit now) (hle : now ≤ later) :
    window.Consistent ttl limit later :=
  { h with ends_le := Nat.le_trans h.ends_le (Nat.add_le_add_right hle ttl) }

/-- A window that just opened is consistent. -/
theorem freshWindow_consistent (now ttl limit : Nat) :
    (freshWindow now ttl).Consistent ttl limit now where
  ends_le := Nat.le_refl _
  hits_free _ := Nat.zero_le _
  hits_blocked h := absurd rfl h
  ends_le_block h := absurd rfl h

/-- A consistent live window is carried into a request as it is. -/
theorem ThrottleWindow.Consistent.carry {ttl limit last now : Nat} {window : ThrottleWindow}
    (h : window.Consistent ttl limit last) (hlive : now < window.windowEndsAt) :
    carryWindow (some window) now ttl = window := by
  refine carryWindow_live ttl hlive ?_
  by_cases hb : window.blockedUntil = 0
  · exact Or.inl hb
  · exact Or.inr (Nat.lt_of_lt_of_le hlive (h.ends_le_block hb))

/-- The window carried into a request is consistent at the time of the request. -/
theorem carryWindow_consistent {ttl limit last now : Nat} {current : Option ThrottleWindow}
    (h : ∀ window, current = some window → window.Consistent ttl limit last)
    (hle : last ≤ now) : (carryWindow current now ttl).Consistent ttl limit now := by
  rcases carryWindow_cases current now ttl with he | ⟨window, hcur, _, _, he⟩
  · rw [he]
    exact freshWindow_consistent now ttl limit
  · rw [he]
    exact (h window hcur).mono hle

/-- One request keeps the stored window consistent. -/
theorem advance_consistent {ttl limit blockDuration last now : Nat}
    {current : Option ThrottleWindow} (hblock : ttl ≤ blockDuration)
    (h : ∀ window, current = some window → window.Consistent ttl limit last)
    (hle : last ≤ now) (hpos : 0 < now) :
    (advanceThrottleWindow current now ttl limit blockDuration).next.Consistent ttl limit now := by
  have hc := carryWindow_consistent h hle
  rcases advance_cases current now ttl limit blockDuration with
    ⟨hb, hl, he⟩ | ⟨hb, hl, he⟩ | ⟨_, he⟩
  · rw [he]
    exact ⟨hc.ends_le, fun _ => hl, fun hne => absurd hb hne, fun hne => absurd hb hne⟩
  · have hle := hc.hits_free hb
    have hends := hc.ends_le
    rw [he]
    refine ⟨hends, fun h0 => ?_, fun _ => ?_, fun _ => ?_⟩
    · simp only at h0
      omega
    · simp only
      omega
    · simp only
      omega
  · rw [he]
    exact hc

/-- One request keeps a consistent window consistent. -/
theorem ThrottleWindow.Consistent.advance {ttl limit blockDuration last now : Nat}
    {window : ThrottleWindow} (h : window.Consistent ttl limit last)
    (hblock : ttl ≤ blockDuration) (hle : last ≤ now) (hpos : 0 < now) :
    (advanceThrottleWindow (some window) now ttl limit blockDuration).next.Consistent
      ttl limit now :=
  advance_consistent hblock (fun _ he => Option.some.inj he ▸ h) hle hpos

/-- Every window reached by request times bounded by `now` is consistent at `now`. -/
theorem windowAfter_consistent {ttl limit blockDuration now : Nat} {times : List Nat}
    (hblock : ttl ≤ blockDuration) (hpos : ∀ a ∈ times, 0 < a)
    (hmono : times.Pairwise (· ≤ ·)) (hle : ∀ a ∈ times, a ≤ now) :
    ∀ window, windowAfter ttl limit blockDuration none times = some window →
      window.Consistent ttl limit now := by
  have key : ∀ window, windowAfter ttl limit blockDuration none times = some window →
      ∀ later, (∀ a ∈ times, a ≤ later) → window.Consistent ttl limit later := by
    refine windowAfter_induction (P := fun times current => ∀ window, current = some window →
      ∀ later, (∀ a ∈ times, a ≤ later) → window.Consistent ttl limit later) ?_ ?_ hpos hmono
    · intro window h
      cases h
    · intro pre t ih hpre ht window hw later hlater
      obtain rfl := Option.some.inj hw
      have htl : t ≤ later := hlater t (List.mem_append_right _ (List.mem_singleton_self t))
      exact (advance_consistent hblock (fun w hw => ih w hw t hpre) (Nat.le_refl t) ht).mono htl
  exact fun window hw => key window hw now hle

end VertexApi.Throttler
