import VertexApi.App.PasswordSecrecy
import VertexApi.Auth.OtpHistory

/-!
# Sign-in codes, one call at a time

A request or a verification runs to its end while time passes in front of its samples and
statements, and a mail may fail. What either does to the table depends on the row of its
address alone.
-/

namespace VertexApi.App

open Auth

section Calls

variable {τ : Type}

/-- Time passes. -/
def later (ms : Nat) (s : Store) : Store := { s with clock := s.clock + ms }

@[simp] theorem later_clock (ms : Nat) (s : Store) : (later ms s).clock = s.clock + ms := rfl

@[simp] theorem later_users (ms : Nat) (s : Store) : (later ms s).users = s.users := rfl

@[simp] theorem later_emailOtps (ms : Nat) (s : Store) : (later ms s).emailOtps = s.emailOtps :=
  rfl

/-- Time passes in front of each of the seven samples and statements of a call; the sixth of a
request is its mail, which may fail. -/
def callTurns (pause : Nat → Nat) (mailError : Option ThrownError) : List (Turn Store Failure) :=
  [⟨later (pause 0), none⟩, ⟨later (pause 1), none⟩, ⟨later (pause 2), none⟩,
    ⟨later (pause 3), none⟩, ⟨later (pause 4), none⟩,
    ⟨later (pause 5), mailError.map .thrown⟩, ⟨later (pause 6), none⟩]

/-- The first sample of a call. -/
def checkedAt (pause : Nat → Nat) (s : Store) : Nat := s.clock + pause 0 + pause 1

/-- The second sample of a request. -/
def insertedAt (pause : Nat → Nat) (s : Store) : Nat := checkedAt pause s + pause 2 + pause 3

/-- One request. -/
def requestEnding (sha256 : String → String) (email : String) (drawn : Fin 1000000)
    (rowId : String) (pause : Nat → Nat) (mailError : Option ThrownError) (s : Store) :
    Ending Store Failure Unit :=
  (OtpService.requestCode sha256 email drawn rowId).run (callTurns pause mailError) s

/-- One verification. -/
def verifyEnding (config : ApiConfig τ) (email code userId passwordHash : String)
    (pause : Nat → Nat) (s : Store) : Ending Store Failure τ :=
  (OtpService.verifyCode config email code userId passwordHash).run (callTurns pause none) s

/-- The cooldown has refused the request. -/
def refusedByCooldown : Except Failure Unit → Bool
  | .error failure => failure == .refused otpCooldown
  | .ok _ => false

/-- The answer is none of the rejections of a code. -/
def passesChecks : Except Failure τ → Bool
  | .error failure =>
    !([otpInvalid, otpExpired, otpTooManyAttempts].map Failure.refused).contains failure
  | .ok _ => true

/-- The store and the record of a run. -/
structure OtpRun where
  store : Store
  history : List OtpEvent

/-- The steps of a run. -/
inductive OtpStep where
  | request (email : String) (drawn : Fin 1000000) (rowId : String) (pause : Nat → Nat)
    (mailError : Option ThrownError)
  | verify (email code userId passwordHash : String) (pause : Nat → Nat)
  /-- Anything else, which leaves the codes alone. -/
  | others (store : Store)

/-- The run after a request. -/
def OtpRun.afterRequest (s : OtpRun) (sha256 : String → String) (email : String)
    (drawn : Fin 1000000) (rowId : String) (pause : Nat → Nat) (mailError : Option ThrownError) :
    OtpRun :=
  let ending := requestEnding sha256 email drawn rowId pause mailError s.store
  { store := ending.state
    history := s.history ++ if refusedByCooldown ending.result then [] else
      [.requested email (otpCode drawn) (insertedAt pause s.store) mailError.isNone] }

/-- The run after a verification. -/
def OtpRun.afterVerify (s : OtpRun) (config : ApiConfig τ)
    (email code userId passwordHash : String) (pause : Nat → Nat) : OtpRun :=
  let ending := verifyEnding config email code userId passwordHash pause s.store
  { store := ending.state
    history := s.history ++ [.presented email code (passesChecks ending.result)] }

/-- The calls one at a time; the ids that they draw are fresh, and a code has six digits. -/
def otpSequence (config : ApiConfig τ) : Machine OtpRun OtpStep where
  step s
    | .request email drawn rowId pause mailError =>
      if ∃ row ∈ s.store.emailOtps, row.id = rowId then none
      else some (s.afterRequest config.sha256 email drawn rowId pause mailError)
    | .verify email code userId passwordHash pause =>
      if (∃ user ∈ s.store.users, user.id = userId) ∨ ¬ SixDigits code then none
      else some (s.afterVerify config email code userId passwordHash pause)
    | .others store =>
      if store.emailOtps = s.store.emailOtps ∧ s.store.clock ≤ store.clock then
        some { s with store := store }
      else none

end Calls

section Requests

variable {sha256 : String → String} {email rowId : String} {drawn : Fin 1000000}
  {pause : Nat → Nat} {mailError : Option ThrownError} {s : Store}

/-- A request inside the cooldown changes nothing; time has passed. -/
theorem requestEnding_of_cooling
    (h : (findOtpByEmail s.emailOtps email).any (coolingDown · (checkedAt pause s))) :
    (requestEnding sha256 email drawn rowId pause mailError s).state =
      later (pause 0 + pause 1) s ∧
    (requestEnding sha256 email drawn rowId pause mailError s).result =
      .error (.refused otpCooldown) := by
  rw [checkedAt] at h
  simp only [requestEnding, OtpService.requestCode, callTurns, Program.run_bind, run_read, run_now,
    Ending.andThen_ok, later_emailOtps, later_clock, h, if_true, Program.run_throw,
    Ending.andThen_error, and_true]
  simp only [later, Nat.add_assoc]

/-- The table without the row of an address takes a row with a fresh id. -/
theorem insertRow_newOtp {rows : List EmailOtp} (hfresh : ∀ row ∈ rows, row.id ≠ rowId)
    (code : String) (expiresAt createdAt : Nat) :
    insertRow emailOtpColumns (rows.filter fun row => !(row.email == email))
      (newOtp sha256 email code rowId expiresAt createdAt) =
    .ok ((rows.filter fun row => !(row.email == email)) ++
      [newOtp sha256 email code rowId expiresAt createdAt]) := by
  refine insertRow_eq_ok.mpr ⟨violatedColumn_eq_none.mpr ?_, rfl⟩
  simp only [emailOtpColumns, List.forall_mem_cons, List.not_mem_nil, false_implies, implies_true,
    and_true, Option.some.injEq, newOtp, ne_eq, forall_eq']
  constructor
  · exact fun other hother => hfresh other (List.mem_filter.mp hother).1
  · intro other hother
    simpa using (List.mem_filter.mp hother).2

/-- The row that a request past the cooldown leaves. -/
def addedRows (sha256 : String → String) (email : String) (drawn : Fin 1000000) (rowId : String)
    (pause : Nat → Nat) (mailError : Option ThrownError) (s : Store) : List EmailOtp :=
  if mailError.isSome then [] else
    [newOtp sha256 email (otpCode drawn) rowId (insertedAt pause s + otpTtlMs)
      (insertedAt pause s + pause 4)]

/-- It is a row of the address. -/
theorem email_of_mem_addedRows {row : EmailOtp}
    (h : row ∈ addedRows sha256 email drawn rowId pause mailError s) : row.email = email := by
  cases mailError with
  | none =>
    obtain rfl := List.mem_singleton.mp h
    rfl
  | some error => cases h

/-- A request past the cooldown replaces the row of the address, and takes the new one back when
its mail fails. -/
theorem requestEnding_of_not_cooling
    (h : (findOtpByEmail s.emailOtps email).any (coolingDown · (checkedAt pause s)) = false)
    (hfresh : ∀ row ∈ s.emailOtps, row.id ≠ rowId) :
    let ending := requestEnding sha256 email drawn rowId pause mailError s
    insertedAt pause s ≤ ending.state.clock ∧
    ending.result = (match mailError with
      | none => .ok ()
      | some error => .error (.thrown error)) ∧
    ending.state.emailOtps = (s.emailOtps.filter fun row => !(row.email == email)) ++
      addedRows sha256 email drawn rowId pause mailError s := by
  have hinsert := @insertRow_newOtp sha256 email rowId s.emailOtps hfresh (otpCode drawn)
    (insertedAt pause s + otpTtlMs) (insertedAt pause s + pause 4)
  rw [addedRows]
  rw [insertedAt, checkedAt] at *
  simp only [requestEnding, OtpService.requestCode, callTurns, Program.run_bind, run_read, run_now,
    Ending.andThen_ok, later_emailOtps, later_clock, h, Bool.false_eq_true, if_false,
    run_deleteFromEmailOtps, run_insertIntoEmailOtps, Store.withOtps_emailOtps,
    Store.withOtps_clock, hinsert, Program.run_tryCatch]
  cases mailError with
  | none =>
    simp
    omega
  | some error =>
    simp [newOtp]
    omega

end Requests

section Verifications

variable {τ : Type} {config : ApiConfig τ} {email code userId passwordHash : String}
  {pause : Nat → Nat} {s : Store}

/-- The row of the address is the found one, or a new one; its token depends on its ban alone, and
the codes are left alone. -/
structure SignsIn (config : ApiConfig τ) (email userId passwordHash : String) (s : Store)
    (ending : Ending Store Failure τ) : Prop where
  account : ∃ user, findUserByEmail ending.state.users email = some user ∧
    (findUserByEmail s.users email = some user ∨ findUserByEmail s.users email = none ∧
      ∃ createdAt, user = newOtpUser config.adminEmail email userId passwordHash createdAt) ∧
    ∃ issuedAt, ending.result = if user.isBanned then .error (.refused userBanned)
      else .ok (config.jwt.sign (otpClaims user) issuedAt)
  emailOtps : ending.state.emailOtps = s.emailOtps
  clock : s.clock ≤ ending.state.clock

/-- The insert of a first passwordless sign-in with a fresh id. -/
theorem insertUser_newOtpUser {users : List User} {adminEmail : Option String} {createdAt : Nat}
    (hnone : findUserByEmail users email = none) (hfresh : ∀ user ∈ users, user.id ≠ userId) :
    insertUser users (newOtpUser adminEmail email userId passwordHash createdAt) =
      .ok (users ++ [newOtpUser adminEmail email userId passwordHash createdAt]) := by
  have hemail : ∀ user ∈ users, user.email ≠ email := fun user huser =>
    beq_eq_false_iff_ne.mp (by simpa using List.find?_eq_none.mp hnone user huser)
  refine insertUser_eq_ok.mpr ⟨violatedColumn_eq_none.mpr ?_, rfl⟩
  simp only [userColumns, List.forall_mem_cons, List.not_mem_nil, false_implies, implies_true,
    and_true, Option.some.injEq, newOtpUser, ne_eq, forall_eq', reduceCtorEq]
  exact ⟨hfresh, hemail⟩

/-- A sign-in after a right code. -/
theorem signsIn_signIn (hfresh : ∀ user ∈ s.users, user.id ≠ userId) (p q r t : Nat) :
    SignsIn config email userId passwordHash s
      ((OtpService.signIn config.jwt config.adminEmail email userId passwordHash).run
        [⟨later p, none⟩, ⟨later q, none⟩, ⟨later r, none⟩, ⟨later t, none⟩] s) := by
  simp only [OtpService.signIn, OtpService.findOrCreate, Program.run_bind, run_read,
    Ending.andThen_ok, later_users, AuthService.generateAccessToken]
  cases hfind : findUserByEmail s.users email with
  | some user =>
    simp only [Program.run_pure, Ending.andThen_ok]
    cases hbanned : user.isBanned with
    | true =>
      exact ⟨⟨user, hfind, Or.inl hfind, 0, by rw [hbanned]; rfl⟩, rfl, Nat.le_add_right ..⟩
    | false =>
      refine ⟨⟨user, hfind, Or.inl hfind, _, by rw [hbanned]; rfl⟩, rfl, ?_⟩
      change s.clock ≤ s.clock + p + q + r
      omega
  | none =>
    have hinsert := fun createdAt => @insertUser_newOtpUser email userId passwordHash s.users
      config.adminEmail createdAt hfind hfresh
    simp only [run_insertIntoUsers, later_users, hinsert, later_clock, Ending.andThen_ok]
    refine ⟨⟨newOtpUser config.adminEmail email userId passwordHash (s.clock + p + q), ?_,
      Or.inr ⟨hfind, _, rfl⟩, _, rfl⟩, rfl, ?_⟩
    · change (s.users ++ _).find? _ = _
      rw [List.find?_append, show s.users.find? _ = none from hfind, Option.none_or]
      exact List.find?_cons_of_pos (beq_self_eq_true _)
    · change s.clock ≤ s.clock + p + q + r + t
      omega

/-- What a verification does, by the row of its address. -/
inductive VerifyOutcome (config : ApiConfig τ) (email code userId passwordHash : String)
    (now : Nat) (s : Store) (ending : Ending Store Failure τ) : Prop where
  | absent (hrow : findOtpByEmail s.emailOtps email = none)
    (hresult : ending.result = .error (.refused otpInvalid))
    (hotps : ending.state.emailOtps = s.emailOtps) (hclock : s.clock ≤ ending.state.clock)
  | dropped {row : EmailOtp} (hrow : findOtpByEmail s.emailOtps email = some row)
    (hdead : row.expiresAt < now ∨ otpMaxAttempts ≤ row.attempts)
    (hresult : ending.result = .error (.refused otpExpired) ∨
      ending.result = .error (.refused otpTooManyAttempts))
    (hotps : ending.state.emailOtps = s.emailOtps.filter fun other => !(other.id == row.id))
    (hclock : now ≤ ending.state.clock)
  | counted {row : EmailOtp} (hrow : findOtpByEmail s.emailOtps email = some row)
    (hcode : row.codeHash ≠ hashOtpCode config.sha256 email code)
    (hresult : ending.result = .error (.refused otpInvalid))
    (hotps : ending.state.emailOtps =
      updateWhere EmailOtp.id row.id (fun other => { other with attempts := row.attempts + 1 })
        s.emailOtps)
    (hclock : now ≤ ending.state.clock)
  | consumed {row : EmailOtp} (hrow : findOtpByEmail s.emailOtps email = some row)
    (hlive : now ≤ row.expiresAt) (hattempts : row.attempts < otpMaxAttempts)
    (hcode : row.codeHash = hashOtpCode config.sha256 email code)
    (hsigns : SignsIn config email userId passwordHash
      (s.withOtps (s.emailOtps.filter fun other => !(other.id == row.id))) ending)
    (hclock : now ≤ ending.state.clock)

/-- What a verification does, by the row of its address. -/
theorem verifyOutcome_verifyEnding (hfresh : ∀ user ∈ s.users, user.id ≠ userId) :
    VerifyOutcome config email code userId passwordHash (checkedAt pause s) s
      (verifyEnding config email code userId passwordHash pause s) := by
  simp only [verifyEnding, OtpService.verifyCode, callTurns, Program.run_bind, run_read,
    Ending.andThen_ok, later_emailOtps]
  cases hrow : findOtpByEmail s.emailOtps email with
  | none => exact .absent hrow rfl rfl (Nat.le_add_right ..)
  | some row =>
    simp only [run_now, Program.run_bind, Ending.andThen_ok, later_clock, judge]
    by_cases hexpired : row.expiresAt < s.clock + pause 0 + pause 1
    · rw [if_pos hexpired]
      exact .dropped hrow (Or.inl hexpired) (Or.inl rfl) rfl (Nat.le_add_right ..)
    rw [if_neg hexpired]
    by_cases hattempts : otpMaxAttempts ≤ row.attempts
    · rw [if_pos hattempts]
      exact .dropped hrow (Or.inr hattempts) (Or.inr rfl) rfl (Nat.le_add_right ..)
    rw [if_neg hattempts]
    by_cases hcode : row.codeHash = hashOtpCode config.sha256 email code
    · rw [if_neg (not_not.mpr hcode)]
      simp only [Program.run_bind, OtpService.deleteEntry, run_deleteFromEmailOtps,
        Ending.andThen_ok]
      have hsigns := @signsIn_signIn τ config email userId passwordHash
        ((later (pause 2) (later (pause 1) (later (pause 0) s))).withOtps
          (s.emailOtps.filter fun other => !(other.id == row.id))) hfresh (pause 3) (pause 4)
          (pause 5) (pause 6)
      refine .consumed hrow (Nat.le_of_not_lt hexpired) (Nat.lt_of_not_le hattempts) hcode
        ⟨hsigns.account, hsigns.emailOtps, ?_⟩ ?_
      · refine Nat.le_trans ?_ hsigns.clock
        simp only [Store.withOtps_clock, later_clock]
        omega
      · exact Nat.le_trans (Nat.le_add_right ..) hsigns.clock
    · rw [if_pos hcode]
      exact .counted hrow hcode rfl rfl (Nat.le_add_right ..)

end Verifications

end VertexApi.App
