import VertexApi.Auth.ExchangeCodes
import VertexApi.Auth.Password

/-!
# The three ways to sign in

A password, an emailed code and an exchange code each lead to a row of the users table and
to a token for it. The claims are the same function of the row on all paths; only the
emailed code asks whether the row is banned.
-/

namespace VertexApi.Auth

/-- The ways to sign in, with the password of the first one. -/
inductive SignInPath where
  | login (password : String)
  | verifyCode
  | exchangeOAuthCode
  deriving DecidableEq, Repr

/-- In one step of its path, a sign-in reads or creates the row and signs the claims. -/
inductive Issues (argon2 : PasswordHash) (sha256 : String → String) (adminEmail : Option String) :
    SignInPath → User → JwtPayload → Prop where
  | login {users : List User} {loginDto : LoginDto} {row : User} {claims : JwtPayload}
    (hrow : findUserByEmail users loginDto.email = some row)
    (hanswer : login argon2 users loginDto = .ok claims) :
    Issues argon2 sha256 adminEmail (.login loginDto.password) row claims
  | found {s t : OtpState} {id : Nat} {email code : String} {entry : EmailOtp}
    {last : Option EmailOtp} {row : User} {claims : JwtPayload}
    (hverify : s.verifies id = some ⟨email, code, .findUser entry⟩)
    (hrow : findUserByEmail s.users email = some row)
    (hstep : (otps sha256 adminEmail).step s (.verify id .findUser) = some t)
    (hanswer : t.verifies id = some ⟨email, code, .done last (.token claims)⟩) :
    Issues argon2 sha256 adminEmail .verifyCode row claims
  | created {s t : OtpState} {id : Nat} {email code userId passwordHash : String}
    {entry : EmailOtp} {last : Option EmailOtp} {claims : JwtPayload}
    (hverify : s.verifies id = some ⟨email, code, .insertUser entry⟩)
    (hstep : (otps sha256 adminEmail).step s (.verify id (.insertUser userId passwordHash)) =
      some t)
    (hanswer : t.verifies id = some ⟨email, code, .done last (.token claims)⟩) :
    Issues argon2 sha256 adminEmail .verifyCode
      (newOtpUser adminEmail email userId passwordHash s.clock) claims
  | exchanged {s t : ExchangeState} {id : Nat} {exchange answered : Exchange} {userId : String}
    {row : User} {claims : JwtPayload} (hexchange : s.exchanges id = some exchange)
    (hphase : exchange.phase = .lookup userId)
    (hrow : findUserById s.users userId = some row)
    (hstep : (exchangeCodes sha256).step s (.lookup id) = some t)
    (hanswer : t.exchanges id = some answered) (hdone : answered.phase = .done (.ok claims)) :
    Issues argon2 sha256 adminEmail .exchangeOAuthCode row claims

/-- What a path asks of the row before it signs. -/
def Accepts (argon2 : PasswordHash) (row : User) : SignInPath → Prop
  | .login password => argon2.verify row.passwordHash password = true
  | .verifyCode => row.isBanned = false
  | .exchangeOAuthCode => True

section Paths

variable {argon2 : PasswordHash} {sha256 : String → String} {adminEmail : Option String}
  {path : SignInPath} {row : User} {claims : JwtPayload}

/-- The hand-built claims of an emailed code are the claims of the row. -/
theorem otpClaims_eq_toJwtPayload (user : User) : otpClaims user = toJwtPayload user := rfl

/-- An emailed code signs the claims of a row that is not banned. -/
theorem answerUser_eq_token : answerUser row = .token claims ↔
    row.isBanned = false ∧ claims = toJwtPayload row := by
  cases hbanned : row.isBanned with
  | true => simp only [answerUser, hbanned, if_true, reduceCtorEq, Bool.true_eq_false, false_and]
  | false =>
    simp only [answerUser, hbanned, Bool.false_eq_true, if_false, VerifyAnswer.token.injEq,
      otpClaims_eq_toJwtPayload, true_and, eq_comm (b := claims)]

/-- A step of a verification that signs claims leads to the phase that says so. -/
theorem phase_of_verifies {m : OtpState} {id : Nat} {email code : String}
    {phase after phase' : VerifyPhase}
    (h : (m.setVerify id { (⟨email, code, phase⟩ : Verify) with phase := after }).verifies id =
      some ⟨email, code, phase'⟩) : after = phase' := by
  simpa only [OtpState.setVerify, Function.update_self, Option.some.injEq, Verify.mk.injEq,
    true_and] using h

/-- Every path signs the claims of a row that it accepts. -/
theorem Issues.accepts (h : Issues argon2 sha256 adminEmail path row claims) :
    Accepts argon2 row path ∧ claims = toJwtPayload row := by
  cases h with
  | login hrow hanswer =>
    obtain ⟨user, huser, hverify, rfl⟩ := login_eq_ok.mp hanswer
    rw [hrow, Option.some.injEq] at huser
    subst huser
    exact ⟨hverify, rfl⟩
  | @found s t id email code entry last _ _ hverify hrow hstep hanswer =>
    have hmoves : s.verifyStep sha256 adminEmail id ⟨email, code, .findUser entry⟩ .findUser =
        some t := by
      simpa only [otps, hverify, Option.bind_some] using hstep
    obtain ⟨m, phase, hmove, rfl⟩ := moves_of_findUser hmoves
    have hphase := phase_of_verifies hanswer
    cases hmove with
    | newUser _ huser => cases hphase
    | found _ huser =>
      rw [hrow, Option.some.injEq] at huser
      subst huser
      exact answerUser_eq_token.mp (VerifyPhase.done.inj hphase).2
  | @created s t id email code userId passwordHash entry last _ hverify hstep hanswer =>
    have hmoves : s.verifyStep sha256 adminEmail id ⟨email, code, .insertUser entry⟩
        (.insertUser userId passwordHash) = some t := by
      simpa only [otps, hverify, Option.bind_some] using hstep
    obtain ⟨m, phase, hmove, rfl⟩ := moves_of_insertUser hmoves
    have hphase := phase_of_verifies hanswer
    cases hmove with
    | violated _ huser => cases hphase
    | created _ huser =>
      subst huser
      exact answerUser_eq_token.mp (VerifyPhase.done.inj hphase).2
  | @exchanged s t id exchange answered userId _ _ hexchange hphase hrow hstep hanswer hdone =>
    obtain ⟨code, other, found, checkedAt, users, hcall, hcases⟩ := step_lookup.mp hstep
    obtain rfl : exchange = ⟨code, .lookup other, found, checkedAt, users⟩ :=
      Option.some.inj (hexchange.symm.trans hcall)
    obtain rfl : other = userId := ExchangePhase.lookup.inj hphase
    rcases hcases with ⟨hnone, rfl⟩ | ⟨user, huser, rfl⟩
    · rw [hrow] at hnone
      cases hnone
    · obtain rfl : row = user := Option.some.inj (hrow.symm.trans huser)
      rw [ExchangeState.setExchange_exchanges_self, Option.some.injEq] at hanswer
      subst hanswer
      exact ⟨trivial, (Except.ok.inj (ExchangePhase.done.inj hdone)).symm⟩

/-- A row that a path accepts can sign in by it. -/
theorem issues_of_accepts (h : Accepts argon2 row path) :
    Issues argon2 sha256 adminEmail path row (toJwtPayload row) := by
  have hemail : findUserByEmail [row] row.email = some row := by
    simp only [findUserByEmail, List.find?_cons, beq_self_eq_true]
  have hid : findUserById [row] row.id = some row := by
    simp only [findUserById, List.find?_cons, beq_self_eq_true]
  cases path with
  | login password =>
    have hlogin : login argon2 [row] ⟨row.email, password⟩ = .ok (toJwtPayload row) :=
      login_eq_ok.mpr ⟨row, hemail, h, rfl⟩
    exact Issues.login hemail hlogin
  | verifyCode =>
    have hanswer : answerUser row = .token (toJwtPayload row) := answerUser_eq_token.mpr ⟨h, rfl⟩
    let s : OtpState := { OtpState.initial 0 with users := [row] }
    let before := s.setVerify 0 ⟨row.email, "", .findUser ⟨"", "", "", 0, 0, 0⟩⟩
    have hverify : before.verifies 0 = some ⟨row.email, "", .findUser ⟨"", "", "", 0, 0, 0⟩⟩ :=
      s.setVerify_verifies_self 0 _
    have hstep : (otps sha256 adminEmail).step before (.verify 0 .findUser) =
        some (before.setVerify 0 ⟨row.email, "",
          .done (some ⟨"", "", "", 0, 0, 0⟩) (answerUser row)⟩) := by
      have hfind : findUserByEmail before.users row.email = some row := hemail
      simp only [otps, hverify, Option.bind_some, OtpState.verifyStep, hfind]
    rw [hanswer] at hstep
    exact .found hverify hemail hstep (before.setVerify_verifies_self 0 _)
  | exchangeOAuthCode =>
    let s : ExchangeState := { ExchangeState.initial 0 with users := [row] }
    let before := s.setExchange 0 ⟨"", .lookup row.id, .fresh, 0, []⟩
    have hexchange : before.exchanges 0 = some ⟨"", .lookup row.id, .fresh, 0, []⟩ :=
      s.setExchange_exchanges_self 0 _
    have hstep : (exchangeCodes sha256).step before (.lookup 0) = some (before.setExchange 0
        ⟨"", .done (.ok (toJwtPayload row)), .fresh, 0, before.users⟩) :=
      step_lookup.mpr ⟨_, _, _, _, _, hexchange, Or.inr ⟨row, hid, rfl⟩⟩
    exact .exchanged hexchange rfl hid hstep (before.setExchange_exchanges_self 0 _) rfl

end Paths

/-- A path refuses a banned row, and signs the claims of every other one, exactly if the row
is not banned, the path is that of an emailed code, or the password is wrong. -/
theorem signIn_refuses_banned_iff (argon2 : PasswordHash) (sha256 : String → String)
    (adminEmail : Option String) (path : SignInPath) (row : User) :
    (∀ claims, Issues argon2 sha256 adminEmail path row claims →
      row.isBanned = false ∧ claims = toJwtPayload row) ↔
    row.isBanned = false ∨ path = .verifyCode ∨
      ∃ password, path = .login password ∧ argon2.verify row.passwordHash password = false := by
  constructor
  · intro h
    cases path with
    | login password =>
      cases hverify : argon2.verify row.passwordHash password with
      | false => exact Or.inr (Or.inr ⟨password, rfl, hverify⟩)
      | true => exact Or.inl (h _ (issues_of_accepts hverify)).1
    | verifyCode => exact Or.inr (Or.inl rfl)
    | exchangeOAuthCode => exact Or.inl (h _ (issues_of_accepts trivial)).1
  · intro h claims hissues
    obtain ⟨haccepts, hclaims⟩ := hissues.accepts
    rcases h with hbanned | rfl | ⟨password, rfl, hverify⟩
    · exact ⟨hbanned, hclaims⟩
    · exact ⟨haccepts, hclaims⟩
    · rw [Accepts, hverify] at haccepts
      cases haccepts

/-- A banned user whose password is `"secret"`. -/
def bannedUser : User where
  id := "b"
  email := "banned@example.com"
  passwordHash := "secret"
  name := none
  displayName := none
  avatarUrl := none
  githubId := none
  googleId := none
  isBanned := true
  role := .user
  createdAt := 0
  updatedAt := 0

/-- A hash that stores the password. -/
def plainHash : PasswordHash := ⟨fun password => password, fun hash password => hash == password⟩

/-- The password of a banned user, and an exchange code of theirs, get tokens. -/
theorem issues_bannedUser : bannedUser.isBanned = true ∧
    Issues plainHash (fun text => text) none (.login "secret") bannedUser
      (toJwtPayload bannedUser) ∧
    Issues plainHash (fun text => text) none .exchangeOAuthCode bannedUser
      (toJwtPayload bannedUser) :=
  ⟨rfl, issues_of_accepts rfl, issues_of_accepts trivial⟩

end VertexApi.Auth
