import VertexApi.Auth.AuthDto
import VertexApi.Auth.Otp

/-!
# The code of an address

What a run of requests and verifications amounts to: an address has at most one code, that of
its latest request, which stops to be accepted when it has expired, when too many wrong codes
were presented, or when it has passed.
-/

namespace VertexApi.Auth

/-- What a run records: a request that got past the cooldown, with the sample from which its row
expires and whether its mail was sent, and a verification, with whether it passed its checks. -/
inductive OtpEvent where
  | requested (email code : String) (insertedAt : Nat) (sent : Bool)
  | presented (email code : String) (passed : Bool)
  deriving DecidableEq, Repr

namespace OtpEvent

/-- A request for an address. -/
def isRequest (email : String) : OtpEvent → Bool
  | .requested other .. => other == email
  | .presented .. => false

/-- A verification of an address with another code. -/
def isWrong (email code : String) : OtpEvent → Bool
  | .requested .. => false
  | .presented other given _ => other == email && given != code

/-- A verification of an address that passed. -/
def isPassed (email : String) : OtpEvent → Bool
  | .requested .. => false
  | .presented other _ passed => other == email && passed

end OtpEvent

/-- The code is that of the latest request for the address, its mail was sent, it has not expired,
fewer wrong codes than allowed were presented since, and no verification passed since. -/
def Accepted (history : List OtpEvent) (email code : String) (now : Nat) : Prop :=
  ∃ former insertedAt later, history = former ++ .requested email code insertedAt true :: later ∧
    (∀ event ∈ later, event.isRequest email = false) ∧ now ≤ insertedAt + otpTtlMs ∧
    later.countP (OtpEvent.isWrong email code) < otpMaxAttempts ∧
    later.any (OtpEvent.isPassed email) = false

/-- The one code of an address. -/
structure Issue where
  code : String
  insertedAt : Nat
  sent : Bool
  wrong : Nat
  passed : Bool
  deriving DecidableEq, Repr

namespace Issue

/-- A code is presented. -/
def presented (issue : Issue) (code : String) (passed : Bool) : Issue :=
  { issue with
    wrong := issue.wrong + if code = issue.code then 0 else 1
    passed := issue.passed || passed }

/-- The code of an address after an event. -/
def next (email : String) (issue : Option Issue) : OtpEvent → Option Issue
  | .requested other code insertedAt sent =>
    if other = email then some ⟨code, insertedAt, sent, 0, false⟩ else issue
  | .presented other code passed =>
    if other = email then issue.map fun issue => issue.presented code passed else issue

/-- The issue lets its code pass. -/
def Open (issue : Issue) (now : Nat) : Prop :=
  issue.sent = true ∧ now ≤ issue.insertedAt + otpTtlMs ∧ issue.wrong < otpMaxAttempts ∧
    issue.passed = false

/-- Time only closes an issue. -/
theorem Open.of_le {issue : Issue} {former now : Nat} (h : issue.Open now) (hle : former ≤ now) :
    issue.Open former := ⟨h.1, Nat.le_trans hle h.2.1, h.2.2⟩

/-- So does a code that is presented. -/
theorem Open.of_presented {issue : Issue} {code : String} {passed : Bool} {now : Nat}
    (h : (issue.presented code passed).Open now) : issue.Open now := by
  obtain ⟨hsent, hlive, hwrong, hpassed⟩ := h
  exact ⟨hsent, hlive, Nat.lt_of_le_of_lt (Nat.le_add_right ..) hwrong,
    (Bool.or_eq_false_iff.mp hpassed).1⟩

end Issue

/-- The code of an address after a history. -/
def issueOf (email : String) (history : List OtpEvent) : Option Issue :=
  history.foldl (Issue.next email) none

variable {email code : String} {history : List OtpEvent} {now : Nat}

@[simp] theorem issueOf_append_singleton (event : OtpEvent) :
    issueOf email (history ++ [event]) = Issue.next email (issueOf email history) event := by
  rw [issueOf, List.foldl_append]
  rfl

/-- What follows a request without a further one is counted on its code. -/
theorem foldl_next_of_no_request (issue : Issue) {later : List OtpEvent}
    (hlater : ∀ event ∈ later, event.isRequest email = false) :
    later.foldl (Issue.next email) (some issue) = some { issue with
      wrong := issue.wrong + later.countP (OtpEvent.isWrong email issue.code)
      passed := issue.passed || later.any (OtpEvent.isPassed email) } := by
  induction later generalizing issue with
  | nil => simp only [List.foldl_nil, List.countP_nil, Nat.add_zero, List.any_nil, Bool.or_false]
  | cons event later ih =>
    obtain ⟨hevent, hrest⟩ := List.forall_mem_cons.mp hlater
    rw [List.foldl_cons]
    cases event with
    | requested other code insertedAt sent =>
      have hne : other ≠ email := beq_eq_false_iff_ne.mp hevent
      rw [Issue.next, if_neg hne, ih _ hrest, List.any_cons,
        List.countP_cons_of_neg Bool.false_ne_true]
      rfl
    | presented other given passed =>
      rw [List.countP_cons, List.any_cons, OtpEvent.isWrong, OtpEvent.isPassed]
      by_cases hother : other = email
      · rw [Issue.next, if_pos hother, Option.map_some, ih _ hrest]
        by_cases hgiven : given = issue.code
        · simp [Issue.presented, hother, hgiven, Bool.or_assoc]
        · simp [Issue.presented, hother, hgiven, Bool.or_assoc, Nat.add_assoc, Nat.add_comm 1]
      · simp only [Issue.next, if_neg hother, ih _ hrest, beq_false_of_ne hother, Bool.false_and,
          Bool.false_eq_true, if_false, Nat.add_zero, Bool.false_or]

/-- The code of an address is that of its latest request. -/
theorem issueOf_of_request {former later : List OtpEvent} {insertedAt : Nat} {sent : Bool}
    (hlater : ∀ event ∈ later, event.isRequest email = false) :
    issueOf email (former ++ .requested email code insertedAt sent :: later) = some
      ⟨code, insertedAt, sent, later.countP (OtpEvent.isWrong email code),
        later.any (OtpEvent.isPassed email)⟩ := by
  rw [issueOf, List.foldl_append, List.foldl_cons, Issue.next, if_pos rfl,
    foldl_next_of_no_request _ hlater]
  simp only [Nat.zero_add, Bool.false_or]

/-- A history without a request of an address, or what follows the latest. -/
theorem no_request_or_latest (email : String) (history : List OtpEvent) :
    (∀ event ∈ history, event.isRequest email = false) ∨
    ∃ former code insertedAt sent later,
      history = former ++ .requested email code insertedAt sent :: later ∧
      ∀ event ∈ later, event.isRequest email = false := by
  induction history with
  | nil => exact Or.inl fun event hevent => absurd hevent List.not_mem_nil
  | cons event history ih =>
    rcases ih with hnone | ⟨former, code, insertedAt, sent, later, rfl, hlater⟩
    · cases hevent : event.isRequest email with
      | false => exact Or.inl (List.forall_mem_cons.mpr ⟨hevent, hnone⟩)
      | true =>
        cases event with
        | requested other code insertedAt sent =>
          obtain rfl : other = email := beq_iff_eq.mp hevent
          exact Or.inr ⟨[], code, insertedAt, sent, history, rfl, hnone⟩
        | presented => cases hevent
    · exact Or.inr ⟨event :: former, code, insertedAt, sent, later, rfl, hlater⟩

/-- An address that made no request has no code. -/
theorem issueOf_of_no_request (h : ∀ event ∈ history, event.isRequest email = false) :
    issueOf email history = none := by
  induction history with
  | nil => rfl
  | cons event history ih =>
    obtain ⟨hevent, hrest⟩ := List.forall_mem_cons.mp h
    have hnext : Issue.next email none event = none := by
      cases event with
      | requested other code insertedAt sent =>
        exact if_neg (beq_eq_false_iff_ne.mp hevent)
      | presented other given passed => exact ite_self none
    rw [issueOf, List.foldl_cons, hnext]
    exact ih hrest

/-- A code is accepted when it is the code of its address, and lets itself pass. -/
theorem accepted_iff_issueOf : Accepted history email code now ↔
    ∃ issue, issueOf email history = some issue ∧ issue.code = code ∧ issue.Open now := by
  constructor
  · rintro ⟨former, insertedAt, later, rfl, hlater, hnow, hwrong, hpassed⟩
    exact ⟨_, issueOf_of_request hlater, rfl, rfl, hnow, hwrong, hpassed⟩
  · rintro ⟨issue, hissue, rfl, hsent, hnow, hwrong, hpassed⟩
    rcases no_request_or_latest email history with
      hnone | ⟨former, code, insertedAt, sent, later, rfl, hlater⟩
    · rw [issueOf_of_no_request hnone] at hissue
      cases hissue
    · rw [issueOf_of_request hlater] at hissue
      obtain rfl := Option.some.inj hissue
      obtain rfl : sent = true := hsent
      exact ⟨former, insertedAt, later, rfl, hlater, hnow, hwrong, hpassed⟩

/-- A drawn code has six digits. -/
theorem sixDigits_otpCode (drawn : Fin 1000000) : SixDigits (otpCode drawn) := by
  have hlength : (Nat.toDigits 10 drawn).length ≤ 6 :=
    (Nat.length_toDigits_le_iff (by decide) (by decide)).mpr drawn.isLt
  rw [SixDigits, otpCode, String.toList_ofList]
  refine ⟨List.length_leftpad.trans (Nat.max_eq_left hlength), fun c hc => ?_⟩
  rcases List.mem_append.mp hc with hpad | hdigit
  · obtain rfl := List.eq_of_mem_replicate hpad
    rfl
  · exact Nat.isDigit_of_mem_toDigits (by decide) (by decide) hdigit

/-- No two codes of six digits have one hash for an address. -/
def CollisionFree (sha256 : String → String) : Prop :=
  ∀ email code given, SixDigits code → SixDigits given →
    hashOtpCode sha256 email code = hashOtpCode sha256 email given → code = given

end VertexApi.Auth
