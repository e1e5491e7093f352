import Mathlib.Logic.Function.Basic
import VertexApi.Auth.JwtPayload
import VertexApi.Common.ErrorCodes
import VertexApi.Core.Machine

/-!
# Passwordless sign-in codes

A request for a code reads the pending row of the address, replaces it by a fresh one, and
sends the code; a verification reads the row, judges it on its own clock, and then drops
it, counts a wrong code, or consumes it and signs the user in. Every database statement
and every clock sample is one step, so a run interleaves any number of requests and
verifications, for any addresses, with changes to the users. The list of comparisons is
kept for statements only.
-/

namespace VertexApi.Auth

/-- How long a sent code is valid, in the words of the mail. -/
def otpLifetimeMinutes : Nat := 10

/-- How long a code is valid. -/
def otpTtlMs : Nat := otpLifetimeMinutes * 60000

/-- How long an address waits between two codes. -/
def otpResendCooldownMs : Nat := 60000

/-- How many wrong codes a row takes. -/
def otpMaxAttempts : Nat := 5

/-- The rejection of a request inside the cooldown. -/
def otpCooldown : HttpException :=
  tooManyRequestsException "Wait before requesting another code" .otpCooldown

/-- The rejection of a wrong code, or of a code for an address without a row. -/
def otpInvalid : HttpException := unauthorizedException "Invalid code" (some .otpInvalid)

/-- The rejection of an expired row. -/
def otpExpired : HttpException := unauthorizedException "Code expired" (some .otpExpired)

/-- The rejection of a row that took its wrong codes. -/
def otpTooManyAttempts : HttpException :=
  unauthorizedException "Too many attempts — request a new code" (some .otpTooManyAttempts)

/-- The rejection of a banned user. -/
def userBanned : HttpException := unauthorizedException "User is banned" (some .userBanned)

/-- A drawn number as its six digits. -/
def otpCode (drawn : Nat) : String := String.ofList ((Nat.toDigits 10 drawn).leftpad 6 '0')

/-- `email.split('@')[0]`. -/
def localPart (email : String) : String := String.ofList (email.toList.takeWhile (· != '@'))

/-- The claims of a passwordless sign-in, built from the user row. -/
def otpClaims (user : User) : JwtPayload where
  sub := user.id
  email := user.email
  role := user.role
  name := user.name
  avatarUrl := user.avatarUrl

/-- How a `requestCode` call ends. -/
inductive RequestAnswer where
  /-- `Code sent`. -/
  | sent
  | refused (failure : HttpException)
  /-- The insert violated the unique address. -/
  | violated
  /-- The sender's error, after the cleanup. -/
  | undelivered
  deriving DecidableEq, Repr

/-- Where a `requestCode` call stands. -/
inductive RequestPhase where
  /-- Before the read of the pending row. -/
  | find
  /-- Before the cooldown check of what the read returned. -/
  | cooldown (existing : Option EmailOtp)
  /-- Before the delete of the address's row. -/
  | replace (code : String)
  /-- Before the clock sample of the new row's expiry. -/
  | stamp (code : String)
  /-- Before the insert. -/
  | insert (code : String) (expiresAt : Nat)
  /-- Before the mail. -/
  | send (code : String) (row : EmailOtp)
  /-- Before the delete after a failed mail. -/
  | cleanup (row : EmailOtp)
  | done (answer : RequestAnswer)
  deriving DecidableEq, Repr

/-- One `requestCode` call. -/
structure Request where
  email : String
  phase : RequestPhase
  deriving DecidableEq, Repr

/-- How a `verifyCode` call ends. -/
inductive VerifyAnswer where
  | token (payload : JwtPayload)
  | refused (failure : HttpException)
  /-- The insert of the user violated the unique address. -/
  | violated
  deriving DecidableEq, Repr

/-- Where a `verifyCode` call stands; `entry` is the row that it read. -/
inductive VerifyPhase where
  /-- Before the read of the row. -/
  | find
  /-- Before the checks of what the read returned. -/
  | check (entry : Option EmailOtp)
  /-- Before the delete of an expired or exhausted row. -/
  | drop (entry : EmailOtp) (failure : HttpException)
  /-- Before the write of the attempt count. -/
  | count (entry : EmailOtp)
  /-- Before the delete of the row of the right code. -/
  | consume (entry : EmailOtp)
  /-- Before the lookup of the user. -/
  | findUser (entry : EmailOtp)
  /-- Before the insert of a new user. -/
  | insertUser (entry : EmailOtp)
  | done (entry : Option EmailOtp) (answer : VerifyAnswer)
  deriving DecidableEq, Repr

/-- One `verifyCode` call. -/
structure Verify where
  email : String
  code : String
  phase : VerifyPhase
  deriving DecidableEq, Repr

/-- A mail that the sender accepted, and the row whose code it carries. -/
structure OtpMail where
  email : String
  code : String
  row : EmailOtp
  deriving DecidableEq, Repr

/-- The database, the outbox, and the calls. -/
structure OtpState where
  clock : Nat
  otps : List EmailOtp
  /-- Every row id ever drawn. -/
  usedIds : List String
  users : List User
  outbox : List OtpMail
  requests : Nat → Option Request
  verifies : Nat → Option Verify
  /-- For every comparison of a code, the row id and whether the code was right. -/
  compared : List (String × Bool)

namespace OtpState

/-- Empty tables and no calls. -/
def initial (clock : Nat) : OtpState where
  clock := clock
  otps := []
  usedIds := []
  users := []
  outbox := []
  requests _ := none
  verifies _ := none
  compared := []

/-- Replace one request. -/
def setRequest (s : OtpState) (id : Nat) (request : Request) : OtpState :=
  { s with requests := Function.update s.requests id (some request) }

/-- Replace one verification. -/
def setVerify (s : OtpState) (id : Nat) (verify : Verify) : OtpState :=
  { s with verifies := Function.update s.verifies id (some verify) }

@[simp] theorem setVerify_verifies_self (s : OtpState) (id : Nat) (verify : Verify) :
    (s.setVerify id verify).verifies id = some verify := Function.update_self ..

theorem setVerify_verifies_of_ne (s : OtpState) {id other : Nat} (verify : Verify)
    (h : other ≠ id) : (s.setVerify id verify).verifies other = s.verifies other :=
  Function.update_of_ne h ..

/-- The table without the row of an address. -/
def withoutEmail (s : OtpState) (email : String) : OtpState :=
  { s with otps := s.otps.filter fun row => row.email != email }

/-- The table without one row. -/
def withoutId (s : OtpState) (rowId : String) : OtpState :=
  { s with otps := s.otps.filter fun row => row.id != rowId }

/-- One more comparison of a code with a row. -/
def comparing (s : OtpState) (rowId : String) (right : Bool) : OtpState :=
  { s with compared := s.compared ++ [(rowId, right)] }

/-- The table with the attempt count of one row overwritten. -/
def setAttempts (s : OtpState) (rowId : String) (attempts : Nat) : OtpState :=
  { s with otps := s.otps.map fun row =>
      if row.id = rowId then { row with attempts := attempts } else row }

end OtpState

/-- The steps of a request. -/
inductive RequestStep where
  | start (email : String)
  | find
  /-- The cooldown check, and the number drawn when it lets the request through. -/
  | cooldown (drawn : Nat)
  | replace
  | stamp
  | insert (rowId : String)
  | send
  | sendFailed
  | cleanup
  deriving DecidableEq, Repr

/-- The steps of a verification. -/
inductive VerifyStep where
  | start (email code : String)
  | find
  | check
  | drop
  | count
  | consume
  | findUser
  | insertUser (userId passwordHash : String)
  deriving DecidableEq, Repr

/-- The steps of a run. -/
inductive OtpLabel where
  | tick (ms : Nat)
  /-- Any other operation on the users table. -/
  | users (users : List User)
  | request (id : Nat) (step : RequestStep)
  | verify (id : Nat) (step : VerifyStep)
  deriving DecidableEq, Repr

section Machine

variable (sha256 : String → String) (adminEmail : Option String)

/-- The stored form of a code. -/
def hashOtpCode (email code : String) : String := sha256 (email ++ ":" ++ code)

/-- The row that the insert of a request stores. -/
def newOtp (email code rowId : String) (expiresAt now : Nat) : EmailOtp where
  id := rowId
  email := email
  codeHash := hashOtpCode sha256 email code
  expiresAt := expiresAt
  attempts := 0
  createdAt := now

/-- The row of a first passwordless sign-in. -/
def newOtpUser (email userId passwordHash : String) (now : Nat) : User where
  id := userId
  email := email
  passwordHash := passwordHash
  name := none
  displayName := some (localPart email)
  avatarUrl := none
  githubId := none
  googleId := none
  isBanned := false
  role := if some email = adminEmail then .admin else .user
  createdAt := now
  updatedAt := now

/-- The pending row refuses another request. -/
def coolingDown (row : EmailOtp) (now : Nat) : Bool :=
  decide (now < row.createdAt + otpResendCooldownMs) && decide (now < row.expiresAt)

/-- The ban check, and the token. -/
def answerUser (user : User) : VerifyAnswer :=
  if user.isBanned then .refused userBanned else .token (otpClaims user)

/-- What the checks of a read row decide: to drop it, to count a wrong code, or to consume
it. -/
def judge (entry : EmailOtp) (email code : String) (now : Nat) : VerifyPhase :=
  if entry.expiresAt < now then .drop entry otpExpired
  else if otpMaxAttempts ≤ entry.attempts then .drop entry otpTooManyAttempts
  else if entry.codeHash ≠ hashOtpCode sha256 email code then .count entry
  else .consume entry

namespace OtpState

/-- One step of a request. -/
def requestStep (s : OtpState) (id : Nat) (request : Request) : RequestStep → Option OtpState
  | .start _ => none
  | .find =>
    match request.phase with
    | .find => some (s.setRequest id { request with
        phase := .cooldown (findOtpByEmail s.otps request.email) })
    | _ => none
  | .cooldown drawn =>
    match request.phase with
    | .cooldown existing =>
      if existing.any fun row => coolingDown row s.clock then
        some (s.setRequest id { request with phase := .done (.refused otpCooldown) })
      else if drawn < 1000000 then
        some (s.setRequest id { request with phase := .replace (otpCode drawn) })
      else none
    | _ => none
  | .replace =>
    match request.phase with
    | .replace code =>
      some ((s.withoutEmail request.email).setRequest id { request with phase := .stamp code })
    | _ => none
  | .stamp =>
    match request.phase with
    | .stamp code =>
      some (s.setRequest id { request with phase := .insert code (s.clock + otpTtlMs) })
    | _ => none
  | .insert rowId =>
    match request.phase with
    | .insert code expiresAt =>
      if rowId ∈ s.usedIds then none
      else if s.otps.any fun row => row.email == request.email then
        some (s.setRequest id { request with phase := .done .violated })
      else
        let row := newOtp sha256 request.email code rowId expiresAt s.clock
        some ({ s with otps := s.otps ++ [row], usedIds := rowId :: s.usedIds }.setRequest id
          { request with phase := .send code row })
    | _ => none
  | .send =>
    match request.phase with
    | .send code row =>
      let mail : OtpMail := { email := request.email, code := code, row := row }
      some ({ s with outbox := s.outbox ++ [mail] }.setRequest id { request with
        phase := .done .sent })
    | _ => none
  | .sendFailed =>
    match request.phase with
    | .send _ row => some (s.setRequest id { request with phase := .cleanup row })
    | _ => none
  | .cleanup =>
    match request.phase with
    | .cleanup _ => some ((s.withoutEmail request.email).setRequest id
        { request with phase := .done .undelivered })
    | _ => none

/-- One step of a verification. -/
def verifyStep (s : OtpState) (id : Nat) (verify : Verify) : VerifyStep → Option OtpState
  | .start _ _ => none
  | .find =>
    match verify.phase with
    | .find => some (s.setVerify id { verify with
        phase := .check (findOtpByEmail s.otps verify.email) })
    | _ => none
  | .check =>
    match verify.phase with
    | .check none => some (s.setVerify id { verify with
        phase := .done none (.refused otpInvalid) })
    | .check (some entry) =>
      let phase := judge sha256 entry verify.email verify.code s.clock
      let compared := match phase with
        | .count _ => s.comparing entry.id false
        | .consume _ => s.comparing entry.id true
        | _ => s
      some (compared.setVerify id { verify with phase := phase })
    | _ => none
  | .drop =>
    match verify.phase with
    | .drop entry failure => some ((s.withoutId entry.id).setVerify id
        { verify with phase := .done (some entry) (.refused failure) })
    | _ => none
  | .count =>
    match verify.phase with
    | .count entry => some ((s.setAttempts entry.id (entry.attempts + 1)).setVerify id
        { verify with phase := .done (some entry) (.refused otpInvalid) })
    | _ => none
  | .consume =>
    match verify.phase with
    | .consume entry => some ((s.withoutId entry.id).setVerify id
        { verify with phase := .findUser entry })
    | _ => none
  | .findUser =>
    match verify.phase with
    | .findUser entry =>
      match findUserByEmail s.users verify.email with
      | some user => some (s.setVerify id { verify with
          phase := .done (some entry) (answerUser user) })
      | none => some (s.setVerify id { verify with phase := .insertUser entry })
    | _ => none
  | .insertUser userId passwordHash =>
    match verify.phase with
    | .insertUser entry =>
      let user := newOtpUser adminEmail verify.email userId passwordHash s.clock
      if s.users.any fun row => row.id == userId then none
      else if s.users.any fun row => row.email == verify.email then
        some (s.setVerify id { verify with phase := .done (some entry) .violated })
      else some ({ s with users := s.users ++ [user] }.setVerify id { verify with
        phase := .done (some entry) (answerUser user) })
    | _ => none

end OtpState

/-- Requests, verifications and user changes as one machine. -/
def otps : Machine OtpState OtpLabel where
  step s
    | .tick ms => some { s with clock := s.clock + ms }
    | .users users => some { s with users := users }
    | .request id (.start email) =>
      if (s.requests id).isSome then none else some (s.setRequest id ⟨email, .find⟩)
    | .request id step => (s.requests id).bind fun request => s.requestStep sha256 id request step
    | .verify id (.start email code) =>
      if (s.verifies id).isSome then none else some (s.setVerify id ⟨email, code, .find⟩)
    | .verify id step =>
      (s.verifies id).bind fun verify => s.verifyStep sha256 adminEmail id verify step

/-- What one step of a verification does to the rest of the state, and the phase it leads
to. -/
inductive Moves (s : OtpState) (verify : Verify) : VerifyStep → OtpState → VerifyPhase → Prop where
  | find (h : verify.phase = .find) :
    Moves s verify .find s (.check (findOtpByEmail s.otps verify.email))
  | unknown (h : verify.phase = .check none) :
    Moves s verify .check s (.done none (.refused otpInvalid))
  | dropping {entry : EmailOtp} {failure : HttpException} (h : verify.phase = .check (some entry))
    (hjudge : judge sha256 entry verify.email verify.code s.clock = .drop entry failure) :
    Moves s verify .check s (.drop entry failure)
  | wrong {entry : EmailOtp} (h : verify.phase = .check (some entry))
    (hlive : s.clock ≤ entry.expiresAt) (hopen : entry.attempts < otpMaxAttempts)
    (hhash : entry.codeHash ≠ hashOtpCode sha256 verify.email verify.code) :
    Moves s verify .check (s.comparing entry.id false) (.count entry)
  | right {entry : EmailOtp} (h : verify.phase = .check (some entry))
    (hlive : s.clock ≤ entry.expiresAt) (hopen : entry.attempts < otpMaxAttempts)
    (hhash : entry.codeHash = hashOtpCode sha256 verify.email verify.code) :
    Moves s verify .check (s.comparing entry.id true) (.consume entry)
  | drop {entry : EmailOtp} {failure : HttpException} (h : verify.phase = .drop entry failure) :
    Moves s verify .drop (s.withoutId entry.id) (.done (some entry) (.refused failure))
  | count {entry : EmailOtp} (h : verify.phase = .count entry) :
    Moves s verify .count (s.setAttempts entry.id (entry.attempts + 1))
      (.done (some entry) (.refused otpInvalid))
  | consume {entry : EmailOtp} (h : verify.phase = .consume entry) :
    Moves s verify .consume (s.withoutId entry.id) (.findUser entry)
  | newUser {entry : EmailOtp} (h : verify.phase = .findUser entry)
    (huser : findUserByEmail s.users verify.email = none) :
    Moves s verify .findUser s (.insertUser entry)
  | found {entry : EmailOtp} {user : User} (h : verify.phase = .findUser entry)
    (huser : findUserByEmail s.users verify.email = some user) :
    Moves s verify .findUser s (.done (some entry) (answerUser user))
  | violated {entry : EmailOtp} {userId passwordHash : String}
    (h : verify.phase = .insertUser entry) (huser : ∃ row ∈ s.users, row.email = verify.email) :
    Moves s verify (.insertUser userId passwordHash) s (.done (some entry) .violated)
  | created {entry : EmailOtp} {userId passwordHash : String} {user : User}
    (h : verify.phase = .insertUser entry)
    (huser : user = newOtpUser adminEmail verify.email userId passwordHash s.clock) :
    Moves s verify (.insertUser userId passwordHash) { s with users := s.users ++ [user] }
      (.done (some entry) (answerUser user))

/-- What requests, the clock and other operations on the users may change. -/
structure Outside (s t : OtpState) : Prop where
  verifies : t.verifies = s.verifies
  compared : t.compared = s.compared
  clock : s.clock ≤ t.clock
  /-- Rows go, or one new row comes under a new id. -/
  rows : (∀ row ∈ t.otps, row ∈ s.otps) ∧ t.usedIds = s.usedIds ∨
    ∃ row, t.otps = s.otps ++ [row] ∧ row.id ∉ s.usedIds ∧ t.usedIds = row.id :: s.usedIds ∧
      row.attempts = 0

end Machine

section Inversion

variable {sha256 : String → String} {adminEmail : Option String} {s t : OtpState}

/-- The checks drop a row, count a wrong code on a live one, or consume the right one. -/
theorem judge_cases (sha256 : String → String) (entry : EmailOtp) (email code : String)
    (now : Nat) :
    (∃ failure, judge sha256 entry email code now = .drop entry failure) ∨
    now ≤ entry.expiresAt ∧ entry.attempts < otpMaxAttempts ∧
      ((entry.codeHash ≠ hashOtpCode sha256 email code ∧
        judge sha256 entry email code now = .count entry) ∨
      (entry.codeHash = hashOtpCode sha256 email code ∧
        judge sha256 entry email code now = .consume entry)) := by
  by_cases hexpired : entry.expiresAt < now
  · exact Or.inl ⟨otpExpired, if_pos hexpired⟩
  · by_cases hcap : otpMaxAttempts ≤ entry.attempts
    · refine Or.inl ⟨otpTooManyAttempts, ?_⟩
      rw [judge, if_neg hexpired, if_pos hcap]
    · refine Or.inr ⟨Nat.le_of_not_lt hexpired, Nat.lt_of_not_le hcap, ?_⟩
      by_cases hhash : entry.codeHash = hashOtpCode sha256 email code
      · refine Or.inr ⟨hhash, ?_⟩
        rw [judge, if_neg hexpired, if_neg hcap, if_neg (not_not_intro hhash)]
      · refine Or.inl ⟨hhash, ?_⟩
        rw [judge, if_neg hexpired, if_neg hcap, if_pos hhash]

/-- A check without a row rejects; a check of a row does what the checks decide. -/
theorem moves_of_check {id : Nat} {verify : Verify}
    (h : s.verifyStep sha256 adminEmail id verify .check = some t) :
    ∃ m phase, Moves sha256 adminEmail s verify .check m phase ∧
      t = m.setVerify id { verify with phase := phase } := by
  obtain ⟨email, code, phase⟩ := verify
  cases phase with
  | check entry =>
    cases entry with
    | none =>
      obtain rfl := Option.some.inj h
      exact ⟨_, _, .unknown rfl, rfl⟩
    | some entry =>
      simp only [OtpState.verifyStep] at h
      rcases judge_cases sha256 entry email code s.clock with
        ⟨failure, hjudge⟩ | ⟨hlive, hopen, ⟨hhash, hjudge⟩ | ⟨hhash, hjudge⟩⟩
      · simp only [hjudge] at h
        obtain rfl := Option.some.inj h
        exact ⟨s, _, .dropping rfl hjudge, rfl⟩
      · simp only [hjudge] at h
        obtain rfl := Option.some.inj h
        exact ⟨_, _, .wrong rfl hlive hopen hhash, rfl⟩
      · simp only [hjudge] at h
        obtain rfl := Option.some.inj h
        exact ⟨_, _, .right rfl hlive hopen hhash, rfl⟩
  | find | drop | count | consume | findUser | insertUser | done => cases h

/-- The lookup of the user answers for the row it finds, or goes on to the insert. -/
theorem moves_of_findUser {id : Nat} {verify : Verify}
    (h : s.verifyStep sha256 adminEmail id verify .findUser = some t) :
    ∃ m phase, Moves sha256 adminEmail s verify .findUser m phase ∧
      t = m.setVerify id { verify with phase := phase } := by
  obtain ⟨email, code, phase⟩ := verify
  cases phase with
  | findUser entry =>
    simp only [OtpState.verifyStep] at h
    cases huser : findUserByEmail s.users email with
    | none =>
      simp only [huser] at h
      obtain rfl := Option.some.inj h
      exact ⟨_, _, .newUser rfl huser, rfl⟩
    | some user =>
      simp only [huser] at h
      obtain rfl := Option.some.inj h
      exact ⟨_, _, .found rfl huser, rfl⟩
  | find | check | drop | count | consume | insertUser | done => cases h

/-- The insert of a new user answers for the row it stored, or violates a constraint. -/
theorem moves_of_insertUser {id : Nat} {verify : Verify} {userId passwordHash : String}
    (h : s.verifyStep sha256 adminEmail id verify (.insertUser userId passwordHash) = some t) :
    ∃ m phase, Moves sha256 adminEmail s verify (.insertUser userId passwordHash) m phase ∧
      t = m.setVerify id { verify with phase := phase } := by
  obtain ⟨email, code, phase⟩ := verify
  cases phase with
  | insertUser entry =>
    simp only [OtpState.verifyStep] at h
    split at h
    · cases h
    · split at h
      · next htaken =>
        obtain rfl := Option.some.inj h
        obtain ⟨row, hrow, he⟩ := List.any_eq_true.mp htaken
        exact ⟨_, _, .violated rfl ⟨row, hrow, beq_iff_eq.mp he⟩, rfl⟩
      · obtain rfl := Option.some.inj h
        exact ⟨_, _, .created rfl rfl, rfl⟩
  | find | check | drop | count | consume | findUser | done => cases h

/-- A step of a verification is one of its moves. -/
theorem moves_of_verifyStep {id : Nat} {verify : Verify} {step : VerifyStep}
    (h : s.verifyStep sha256 adminEmail id verify step = some t) :
    ∃ m phase, Moves sha256 adminEmail s verify step m phase ∧
      t = m.setVerify id { verify with phase := phase } := by
  cases step with
  | start email code => cases h
  | find =>
    obtain ⟨email, code, phase⟩ := verify
    cases phase with
    | find =>
      obtain rfl := Option.some.inj h
      exact ⟨_, _, .find rfl, rfl⟩
    | check | drop | count | consume | findUser | insertUser | done => cases h
  | check => exact moves_of_check h
  | drop =>
    obtain ⟨email, code, phase⟩ := verify
    cases phase with
    | drop entry failure =>
      obtain rfl := Option.some.inj h
      exact ⟨_, _, .drop rfl, rfl⟩
    | find | check | count | consume | findUser | insertUser | done => cases h
  | count =>
    obtain ⟨email, code, phase⟩ := verify
    cases phase with
    | count entry =>
      obtain rfl := Option.some.inj h
      exact ⟨_, _, .count rfl, rfl⟩
    | find | check | drop | consume | findUser | insertUser | done => cases h
  | consume =>
    obtain ⟨email, code, phase⟩ := verify
    cases phase with
    | consume entry =>
      obtain rfl := Option.some.inj h
      exact ⟨_, _, .consume rfl, rfl⟩
    | find | check | drop | count | findUser | insertUser | done => cases h
  | findUser => exact moves_of_findUser h
  | insertUser userId passwordHash => exact moves_of_insertUser h

/-- A change to the calls alone is outside of the verifications. -/
theorem outside_setRequest (id : Nat) (request : Request) : Outside s (s.setRequest id request) :=
  ⟨rfl, rfl, Nat.le_refl _, Or.inl ⟨fun _ hrow => hrow, rfl⟩⟩

/-- So is the delete of an address's row. -/
theorem outside_withoutEmail (email : String) (id : Nat) (request : Request) :
    Outside s ((s.withoutEmail email).setRequest id request) :=
  ⟨rfl, rfl, Nat.le_refl _, Or.inl ⟨fun _ hrow => (List.mem_filter.mp hrow).1, rfl⟩⟩

/-- A step of a request changes nothing of the verifications. -/
theorem outside_of_requestStep {id : Nat} {request : Request} {step : RequestStep}
    (h : s.requestStep sha256 id request step = some t) : Outside s t := by
  obtain ⟨email, phase⟩ := request
  cases step with
  | start email => cases h
  | find =>
    cases phase with
    | find =>
      obtain rfl := Option.some.inj h
      exact outside_setRequest ..
    | cooldown | replace | stamp | insert | send | cleanup | done => cases h
  | cooldown drawn =>
    cases phase with
    | cooldown existing =>
      simp only [OtpState.requestStep] at h
      split at h
      · obtain rfl := Option.some.inj h
        exact outside_setRequest ..
      · split at h
        · obtain rfl := Option.some.inj h
          exact outside_setRequest ..
        · cases h
    | find | replace | stamp | insert | send | cleanup | done => cases h
  | replace =>
    cases phase with
    | replace code =>
      obtain rfl := Option.some.inj h
      exact outside_withoutEmail ..
    | find | cooldown | stamp | insert | send | cleanup | done => cases h
  | stamp =>
    cases phase with
    | stamp code =>
      obtain rfl := Option.some.inj h
      exact outside_setRequest ..
    | find | cooldown | replace | insert | send | cleanup | done => cases h
  | insert rowId =>
    cases phase with
    | insert code expiresAt =>
      simp only [OtpState.requestStep] at h
      split at h
      · cases h
      · next hnew =>
        split at h
        · obtain rfl := Option.some.inj h
          exact outside_setRequest ..
        · obtain rfl := Option.some.inj h
          exact ⟨rfl, rfl, Nat.le_refl _, Or.inr ⟨_, rfl, hnew, rfl, rfl⟩⟩
    | find | cooldown | replace | stamp | send | cleanup | done => cases h
  | send =>
    cases phase with
    | send code row =>
      obtain rfl := Option.some.inj h
      exact ⟨rfl, rfl, Nat.le_refl _, Or.inl ⟨fun _ hrow => hrow, rfl⟩⟩
    | find | cooldown | replace | stamp | insert | cleanup | done => cases h
  | sendFailed =>
    cases phase with
    | send code row =>
      obtain rfl := Option.some.inj h
      exact outside_setRequest ..
    | find | cooldown | replace | stamp | insert | cleanup | done => cases h
  | cleanup =>
    cases phase with
    | cleanup row =>
      obtain rfl := Option.some.inj h
      exact outside_withoutEmail ..
    | find | cooldown | replace | stamp | insert | send | done => cases h

/-- A step of a request starts it, or the request is there and goes on. -/
theorem request_step_cases {id : Nat} {step : RequestStep}
    (h : (otps sha256 adminEmail).step s (.request id step) = some t) :
    (∃ email, step = .start email ∧ s.requests id = none ∧
      t = s.setRequest id ⟨email, .find⟩) ∨
    ∃ request, s.requests id = some request ∧
      s.requestStep sha256 id request step = some t := by
  cases step with
  | start email =>
    simp only [otps, Option.ite_none_left_eq_some, Option.not_isSome_iff_eq_none,
      Option.some.injEq] at h
    exact .inl ⟨email, rfl, h.1, h.2.symm⟩
  | find | cooldown | replace | stamp | insert | send | sendFailed | cleanup =>
    exact .inr (Option.bind_eq_some_iff.mp h)

/-- So it is with a verification. -/
theorem verify_step_cases {id : Nat} {step : VerifyStep}
    (h : (otps sha256 adminEmail).step s (.verify id step) = some t) :
    (∃ email code, step = .start email code ∧ s.verifies id = none ∧
      t = s.setVerify id ⟨email, code, .find⟩) ∨
    ∃ verify, s.verifies id = some verify ∧
      s.verifyStep sha256 adminEmail id verify step = some t := by
  cases step with
  | start email code =>
    simp only [otps, Option.ite_none_left_eq_some, Option.not_isSome_iff_eq_none,
      Option.some.injEq] at h
    exact .inl ⟨email, code, rfl, h.1, h.2.symm⟩
  | find | check | drop | count | consume | findUser | insertUser =>
    exact .inr (Option.bind_eq_some_iff.mp h)

/-- A step starts a verification, moves one, or happens outside of all of them. -/
theorem step_cases {label : OtpLabel} (h : (otps sha256 adminEmail).step s label = some t) :
    (∃ id email code, label = .verify id (.start email code) ∧ s.verifies id = none ∧
      t = s.setVerify id ⟨email, code, .find⟩) ∨
    (∃ id step verify m phase, label = .verify id step ∧ s.verifies id = some verify ∧
      Moves sha256 adminEmail s verify step m phase ∧
      t = m.setVerify id { verify with phase := phase }) ∨
    Outside s t := by
  cases label with
  | tick ms =>
    obtain rfl := Option.some.inj h
    exact Or.inr (Or.inr ⟨rfl, rfl, Nat.le_add_right .., Or.inl ⟨fun _ hrow => hrow, rfl⟩⟩)
  | users users =>
    obtain rfl := Option.some.inj h
    exact Or.inr (Or.inr ⟨rfl, rfl, Nat.le_refl _, Or.inl ⟨fun _ hrow => hrow, rfl⟩⟩)
  | request id step =>
    rcases request_step_cases h with ⟨email, -, -, rfl⟩ | ⟨request, -, hstep⟩
    · exact Or.inr (Or.inr (outside_setRequest ..))
    · exact Or.inr (Or.inr (outside_of_requestStep hstep))
  | verify id step =>
    rcases verify_step_cases h with ⟨email, code, rfl, hnone, ht⟩ | ⟨verify, hverify, hstep⟩
    · exact Or.inl ⟨id, email, code, rfl, hnone, ht⟩
    · obtain ⟨m, phase, hmoves, rfl⟩ := moves_of_verifyStep hstep
      exact Or.inr (Or.inl ⟨id, step, verify, m, phase, rfl, hverify, hmoves, rfl⟩)

end Inversion

end VertexApi.Auth
