import VertexApi.Auth.JwtPayload
import VertexApi.Common.ErrorCodes

/-!
# Guards

The session guard verifies the access token, reads the row of its subject once and refuses
a banned one; a subject without a row passes. The admin guard looks at the role among the
claims of the token. Token signing and the texts of tokens are parameters.
-/

namespace VertexApi.Auth

universe u

/-- How long an access token is valid. -/
def accessTokenTtlSeconds : Nat := 7 * 24 * 60 * 60

/-- Signs claims at a second, and decodes what it signed and nothing else. -/
structure JwtSigner (τ : Type u) where
  sign : JwtPayload → Nat → τ
  decode : τ → Option (JwtPayload × Nat)
  decode_sign : ∀ payload issuedAt, decode (sign payload issuedAt) = some (payload, issuedAt)
  eq_sign_of_decode : ∀ {token payload issuedAt}, decode token = some (payload, issuedAt) →
    token = sign payload issuedAt

/-- The signer whose tokens are the claims themselves, or nothing that it signed. -/
def claimsSigner : JwtSigner (Option (JwtPayload × Nat)) where
  sign payload issuedAt := some (payload, issuedAt)
  decode token := token
  decode_sign _ _ := rfl
  eq_sign_of_decode h := h

variable {τ : Type u}

/-- A token is signed for one payload. -/
theorem JwtSigner.payload_of_sign_eq (jwt : JwtSigner τ) {payload payload' : JwtPayload}
    {issuedAt issuedAt' : Nat} (h : jwt.sign payload issuedAt = jwt.sign payload' issuedAt') :
    payload = payload' := by
  have hdecoded := congrArg jwt.decode h
  rw [jwt.decode_sign, jwt.decode_sign] at hdecoded
  exact (Prod.mk.inj (Option.some.inj hdecoded)).1

/-- A token of one second is still valid at a time in milliseconds. -/
def tokenIsLive (issuedAt now : Nat) : Bool := now / 1000 < issuedAt + accessTokenTtlSeconds

/-- The claims of a token that is signed and has not expired. -/
def verifyAsync (jwt : JwtSigner τ) (token : τ) (now : Nat) : Option JwtPayload :=
  match jwt.decode token with
  | none => none
  | some (payload, issuedAt) => if tokenIsLive issuedAt now then some payload else none

/-- What the guards leave in the request for its handler. -/
structure GuardedRequest where
  user : JwtPayload
  currentUser : Option User
  deriving DecidableEq, Repr

/-- The first half of the session guard: the token of the cookie, which is absent also when
it is empty. -/
def verifyCookie (jwt : JwtSigner τ) (accessToken : Option τ) (now : Nat) :
    Except HttpException JwtPayload :=
  match accessToken with
  | none => .error (unauthorizedException "Authentication token not found" none)
  | some token =>
    match verifyAsync jwt token now with
    | none => .error (unauthorizedException "Invalid or expired token" none)
    | some payload => .ok payload

/-- The second half of the session guard: the row of the subject, if there is one. -/
def checkBanned (payload : JwtPayload) (user : Option User) :
    Except HttpException GuardedRequest :=
  if user.any fun user => user.isBanned then
    .error (unauthorizedException "User banned by moderation." (some .userBanned))
  else .ok ⟨payload, user⟩

/-- The session guard, when nothing happens between its halves. -/
def jwtAuthGuard (jwt : JwtSigner τ) (users : List User) (accessToken : Option τ) (now : Nat) :
    Except HttpException GuardedRequest := do
  let payload ← verifyCookie jwt accessToken now
  checkBanned payload (findUserById users payload.sub)

/-- The admin guard, on the claims that the session guard left. -/
def adminGuard (user : Option JwtPayload) : Except HttpException Unit :=
  if user.all fun user => user.role != .admin then
    .error (forbiddenException "Access restricted to administrators" .adminOnly)
  else .ok ()

/-- Both guards after the lookup of the subject's row. -/
def adminRoute (payload : JwtPayload) (user : Option User) :
    Except HttpException GuardedRequest :=
  match checkBanned payload user with
  | .error failure => .error failure
  | .ok request =>
    match adminGuard (some request.user) with
    | .error failure => .error failure
    | .ok () => .ok request

/-- A token is verified when it is signed and has not expired. -/
theorem verifyAsync_eq_some {jwt : JwtSigner τ} {token : τ} {now : Nat} {payload : JwtPayload} :
    verifyAsync jwt token now = some payload ↔
      ∃ issuedAt, token = jwt.sign payload issuedAt ∧ tokenIsLive issuedAt now = true := by
  simp only [verifyAsync]
  constructor
  · intro h
    cases hdecode : jwt.decode token with
    | none => simp only [hdecode, reduceCtorEq] at h
    | some decoded =>
      obtain ⟨claims, issuedAt⟩ := decoded
      simp only [hdecode, Option.ite_none_right_eq_some, Option.some.injEq] at h
      obtain ⟨hlive, rfl⟩ := h
      exact ⟨issuedAt, jwt.eq_sign_of_decode hdecode, hlive⟩
  · rintro ⟨issuedAt, rfl, hlive⟩
    simp only [jwt.decode_sign, hlive, if_true]

/-- A cookie is let through with the claims of its token. -/
theorem verifyCookie_eq_ok {jwt : JwtSigner τ} {accessToken : Option τ} {now : Nat}
    {payload : JwtPayload} : verifyCookie jwt accessToken now = .ok payload ↔
      ∃ issuedAt, accessToken = some (jwt.sign payload issuedAt) ∧
        tokenIsLive issuedAt now = true := by
  cases accessToken with
  | none => simp only [verifyCookie, reduceCtorEq, false_and, exists_false]
  | some token =>
    simp only [Option.some.injEq, ← verifyAsync_eq_some, verifyCookie]
    cases verifyAsync jwt token now with
    | none => simp only [reduceCtorEq]
    | some claims => simp only [Except.ok.injEq, Option.some.injEq]

/-- The session guard lets a subject pass who has no banned row. -/
theorem checkBanned_eq_ok {payload : JwtPayload} {user : Option User} {request : GuardedRequest} :
    checkBanned payload user = .ok request ↔
      (∀ row, user = some row → row.isBanned = false) ∧ request = ⟨payload, user⟩ := by
  cases user with
  | none =>
    simp only [checkBanned, Option.any_none, Bool.false_eq_true, if_false, Except.ok.injEq,
      reduceCtorEq, false_implies, implies_true, true_and, eq_comm (b := request)]
  | some row =>
    cases hbanned : row.isBanned with
    | true =>
      simp only [checkBanned, Option.any_some, hbanned, if_true, reduceCtorEq, Option.some.injEq,
        forall_eq', Bool.true_eq_false, false_and]
    | false =>
      simp only [checkBanned, Option.any_some, hbanned, Bool.false_eq_true, if_false,
        Except.ok.injEq, Option.some.injEq, forall_eq', true_and, eq_comm (b := request)]

/-- The session guard lets a live token pass whose subject has no banned row. -/
theorem jwtAuthGuard_eq_ok {jwt : JwtSigner τ} {users : List User} {accessToken : Option τ}
    {now : Nat} {request : GuardedRequest} :
    jwtAuthGuard jwt users accessToken now = .ok request ↔ ∃ payload issuedAt,
      accessToken = some (jwt.sign payload issuedAt) ∧ tokenIsLive issuedAt now = true ∧
      (∀ row, findUserById users payload.sub = some row → row.isBanned = false) ∧
      request = ⟨payload, findUserById users payload.sub⟩ := by
  simp only [jwtAuthGuard]
  constructor
  · intro h
    cases hcookie : verifyCookie jwt accessToken now with
    | error failure =>
      rw [hcookie] at h
      cases h
    | ok payload =>
      rw [hcookie] at h
      obtain ⟨issuedAt, htoken, hlive⟩ := verifyCookie_eq_ok.mp hcookie
      exact ⟨payload, issuedAt, htoken, hlive, checkBanned_eq_ok.mp h⟩
  · rintro ⟨payload, issuedAt, htoken, hlive, hrow, rfl⟩
    have hcookie : verifyCookie jwt accessToken now = .ok payload :=
      verifyCookie_eq_ok.mpr ⟨issuedAt, htoken, hlive⟩
    rw [hcookie]
    exact checkBanned_eq_ok.mpr ⟨hrow, rfl⟩

/-- The admin guard lets the role claim pass. -/
theorem adminGuard_eq_ok {payload : JwtPayload} :
    adminGuard (some payload) = .ok () ↔ payload.role = .admin := by
  cases hrole : payload.role with
  | user => simp only [adminGuard, Option.all_some, hrole, bne_iff_ne, ne_eq, reduceCtorEq,
      not_false_eq_true, if_true]
  | admin => simp only [adminGuard, Option.all_some, hrole, bne_self_eq_false,
      Bool.false_eq_true, if_false]

/-- The handler of an admin route is reached by the role claim, unless a row says banned. -/
theorem adminRoute_eq_ok {payload : JwtPayload} {user : Option User} {request : GuardedRequest} :
    adminRoute payload user = .ok request ↔
      payload.role = .admin ∧ (∀ row, user = some row → row.isBanned = false) ∧
      request = ⟨payload, user⟩ := by
  simp only [adminRoute]
  cases hchecked : checkBanned payload user with
  | error failure =>
    simp only [reduceCtorEq, false_iff, not_and]
    intro _ hrow he
    rw [checkBanned_eq_ok.mpr ⟨hrow, rfl⟩] at hchecked
    cases hchecked
  | ok checked =>
    obtain ⟨hrow, rfl⟩ := checkBanned_eq_ok.mp hchecked
    cases hadmin : adminGuard (some payload) with
    | error failure =>
      simp only [hadmin, reduceCtorEq, false_iff, not_and]
      intro hrole
      rw [adminGuard_eq_ok.mpr hrole] at hadmin
      cases hadmin
    | ok _ =>
      simp only [hadmin, Except.ok.injEq, adminGuard_eq_ok.mp hadmin, true_and,
        eq_comm (b := request)]
      exact ⟨fun he => ⟨hrow, he⟩, fun h => h.2⟩

end VertexApi.Auth
