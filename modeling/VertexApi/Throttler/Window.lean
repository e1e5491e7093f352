/-!
# The rate-limiting decision of one request

`advanceThrottleWindow` is the whole decision: it carries the stored window over or
opens a new one, counts the hit unless the key is blocked, starts a block once the
limit is exceeded, and reports the result. Times are epoch milliseconds. Its parts
are named after what they do, and `advance_cases` says once what a step can produce.
-/

namespace VertexApi.Throttler

/-- The record shape ThrottlerGuard reads back from a storage. -/
structure ThrottleDecision where
  totalHits : Nat
  /-- Whole seconds, rounded up. -/
  timeToExpire : Nat
  isBlocked : Bool
  /-- Whole seconds, rounded up; zero when the key is not blocked. -/
  timeToBlockExpire : Nat
  deriving DecidableEq, Repr

/-- The counter state a single throttler key carries. -/
structure ThrottleWindow where
  totalHits : Nat
  windowEndsAt : Nat
  /-- Zero when the key is not blocked. -/
  blockedUntil : Nat
  deriving DecidableEq, Repr

/-- `Math.ceil(ms / 1000)`. -/
def ceilSeconds (ms : Nat) : Nat := (ms + 999) / 1000

/-- A window that opens now, before its first hit is counted. -/
def freshWindow (now ttl : Nat) : ThrottleWindow where
  totalHits := 0
  windowEndsAt := now + ttl
  blockedUntil := 0

/-- The window a request is counted into: an ended window or a lapsed block is replaced. -/
def carryWindow (current : Option ThrottleWindow) (now ttl : Nat) : ThrottleWindow :=
  match current with
  | none => freshWindow now ttl
  | some window =>
    if window.windowEndsAt ≤ now then freshWindow now ttl
    else if 0 < window.blockedUntil ∧ window.blockedUntil ≤ now then freshWindow now ttl
    else window

/-- A blocked key does not accumulate hits. -/
def countHit (next : ThrottleWindow) : ThrottleWindow :=
  if next.blockedUntil = 0 then { next with totalHits := next.totalHits + 1 } else next

/-- The hit that goes over the limit starts the block. -/
def startBlock (next : ThrottleWindow) (now limit blockDuration : Nat) : ThrottleWindow :=
  if limit < next.totalHits ∧ next.blockedUntil = 0 then
    { next with blockedUntil := now + blockDuration }
  else next

/-- The record reported for the state a request leaves behind. -/
def decision (next : ThrottleWindow) (now : Nat) : ThrottleDecision where
  totalHits := next.totalHits
  timeToExpire := ceilSeconds (next.windowEndsAt - now)
  isBlocked := decide (now < next.blockedUntil)
  timeToBlockExpire :=
    if now < next.blockedUntil then ceilSeconds (next.blockedUntil - now) else 0

/-- The state a request stores and the record it is answered with. -/
structure Advance where
  next : ThrottleWindow
  record : ThrottleDecision
  deriving DecidableEq, Repr

/-- The whole rate-limiting decision, as a pure function. -/
def advanceThrottleWindow (current : Option ThrottleWindow)
    (now ttl limit blockDuration : Nat) : Advance :=
  let next := startBlock (countHit (carryWindow current now ttl)) now limit blockDuration
  { next, record := decision next now }

/-- The ways a stored window is carried into a request: it is replaced, or it is live. -/
theorem carryWindow_cases (current : Option ThrottleWindow) (now ttl : Nat) :
    carryWindow current now ttl = freshWindow now ttl ∨
      ∃ window, current = some window ∧ now < window.windowEndsAt ∧
        (window.blockedUntil = 0 ∨ now < window.blockedUntil) ∧
        carryWindow current now ttl = window := by
  cases current with
  | none => exact Or.inl rfl
  | some window =>
    simp only [carryWindow]
    split
    · exact Or.inl rfl
    · split
      · exact Or.inl rfl
      · exact Or.inr ⟨window, rfl, by omega, by omega, rfl⟩

/-- An absent window opens a new one. -/
@[simp] theorem carryWindow_none (now ttl : Nat) :
    carryWindow none now ttl = freshWindow now ttl := rfl

/-- A window that has ended is replaced rather than extended. -/
theorem carryWindow_ended {window : ThrottleWindow} {now : Nat} (ttl : Nat)
    (h : window.windowEndsAt ≤ now) :
    carryWindow (some window) now ttl = freshWindow now ttl := by
  simp only [carryWindow, h, if_true]

/-- A live window without a lapsed block is carried over unchanged. -/
theorem carryWindow_live {window : ThrottleWindow} {now : Nat} (ttl : Nat)
    (h : now < window.windowEndsAt)
    (hb : window.blockedUntil = 0 ∨ now < window.blockedUntil) :
    carryWindow (some window) now ttl = window := by
  have hw : ¬window.windowEndsAt ≤ now := by omega
  have hn : ¬(0 < window.blockedUntil ∧ window.blockedUntil ≤ now) := by omega
  simp only [carryWindow, hw, hn, if_false]

/-- A request is admitted into its window, starts a block, or finds the key blocked. -/
theorem advance_cases (current : Option ThrottleWindow) (now ttl limit blockDuration : Nat) :
    let window := carryWindow current now ttl
    let next := (advanceThrottleWindow current now ttl limit blockDuration).next
    (window.blockedUntil = 0 ∧ window.totalHits < limit ∧
      next = { window with totalHits := window.totalHits + 1 }) ∨
    (window.blockedUntil = 0 ∧ limit ≤ window.totalHits ∧
      next = { window with
        totalHits := window.totalHits + 1, blockedUntil := now + blockDuration }) ∨
    (window.blockedUntil ≠ 0 ∧ next = window) := by
  simp only [advanceThrottleWindow, startBlock, countHit]
  by_cases hb : (carryWindow current now ttl).blockedUntil = 0
  · by_cases hl : limit ≤ (carryWindow current now ttl).totalHits
    · have hlt : limit < (carryWindow current now ttl).totalHits + 1 := by omega
      exact Or.inr (Or.inl ⟨hb, hl, by simp only [hb, hlt, if_true, and_self]⟩)
    · have hlt : ¬limit < (carryWindow current now ttl).totalHits + 1 := by omega
      exact Or.inl ⟨hb, by omega, by simp only [hb, hlt, if_true, false_and, if_false]⟩
  · exact Or.inr (Or.inr ⟨hb, by simp only [hb, if_false, and_false]⟩)

/-- The record is read off the state that the request leaves behind. -/
theorem advance_record (current : Option ThrottleWindow) (now ttl limit blockDuration : Nat) :
    (advanceThrottleWindow current now ttl limit blockDuration).record =
      decision (advanceThrottleWindow current now ttl limit blockDuration).next now := rfl

/-- Only the carried window matters: two stored states that carry alike advance alike. -/
theorem advance_congr {a b : Option ThrottleWindow} {now ttl : Nat} (limit blockDuration : Nat)
    (h : carryWindow a now ttl = carryWindow b now ttl) :
    advanceThrottleWindow a now ttl limit blockDuration =
      advanceThrottleWindow b now ttl limit blockDuration := by
  simp only [advanceThrottleWindow, h]

/-- Counting never moves the end of the carried window. -/
theorem advance_windowEndsAt (current : Option ThrottleWindow)
    (now ttl limit blockDuration : Nat) :
    (advanceThrottleWindow current now ttl limit blockDuration).next.windowEndsAt =
      (carryWindow current now ttl).windowEndsAt := by
  rcases advance_cases current now ttl limit blockDuration with ⟨_, _, he⟩ | ⟨_, _, he⟩ | ⟨_, he⟩
  all_goals rw [he]

/-- The window a request is counted into is still open at that request. -/
theorem lt_carryWindow_windowEndsAt (current : Option ThrottleWindow) (now : Nat) {ttl : Nat}
    (httl : 0 < ttl) : now < (carryWindow current now ttl).windowEndsAt := by
  rcases carryWindow_cases current now ttl with he | ⟨window, _, hlive, _, he⟩
  · rw [he]
    exact Nat.lt_add_of_pos_right httl
  · rw [he]
    exact hlive

/-- A blocked live window answers every request with itself. -/
theorem advance_blocked {window : ThrottleWindow} {now : Nat} (ttl limit blockDuration : Nat)
    (hlive : now < window.windowEndsAt) (hb : now < window.blockedUntil) :
    (advanceThrottleWindow (some window) now ttl limit blockDuration).next = window := by
  have he := carryWindow_live ttl hlive (Or.inr hb)
  rcases advance_cases (some window) now ttl limit blockDuration with ⟨h0, _⟩ | ⟨h0, _⟩ | ⟨_, h⟩
  · rw [he] at h0
    omega
  · rw [he] at h0
    omega
  · rw [h, he]

/-- A request that opens a window is its first hit. -/
theorem advance_fresh {current : Option ThrottleWindow} {now ttl limit : Nat}
    (blockDuration : Nat) (hlimit : 1 ≤ limit)
    (h : carryWindow current now ttl = freshWindow now ttl) :
    (advanceThrottleWindow current now ttl limit blockDuration).next =
      { freshWindow now ttl with totalHits := 1 } := by
  rcases advance_cases current now ttl limit blockDuration with
    ⟨_, _, he⟩ | ⟨_, hl, _⟩ | ⟨hb, _⟩
  · rw [he, h]
    rfl
  · rw [h] at hl
    simp only [freshWindow] at hl
    omega
  · rw [h] at hb
    exact absurd rfl hb

end VertexApi.Throttler
