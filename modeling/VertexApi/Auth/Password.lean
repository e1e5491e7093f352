import VertexApi.Auth.Otp

/-!
# Accounts with a password

Registration takes any address that no row has, without asking its owner, and a sign-in
compares the password with the stored hash. Hashing is a parameter.
-/

namespace VertexApi.Auth

/-- The body of a registration. -/
structure RegisterDto where
  email : String
  password : String
  deriving DecidableEq, Repr

/-- The body of a sign-in. -/
structure LoginDto where
  email : String
  password : String
  deriving DecidableEq, Repr

/-- The password hash: `argon2.hash` for some salt, and `argon2.verify`. -/
structure PasswordHash where
  hash : String → String
  verify : String → String → Bool

/-- The rejection of a taken address. -/
def emailInUse : HttpException := conflictException "Email is already in use" .emailInUse

/-- The rejection of a sign-in. -/
def invalidCredentials : HttpException :=
  unauthorizedException "Invalid credentials" (some .invalidCredentials)

/-- The row of a registration. -/
def registeredUser (argon2 : PasswordHash) (registerDto : RegisterDto) (userId : String)
    (now : Nat) : User where
  id := userId
  email := registerDto.email
  passwordHash := argon2.hash registerDto.password
  name := none
  displayName := some (localPart registerDto.email)
  avatarUrl := none
  githubId := none
  googleId := none
  isBanned := false
  role := .user
  createdAt := now
  updatedAt := now

/-- A registration, with the users after it and the id and address that it returns. -/
def register (argon2 : PasswordHash) (users : List User) (registerDto : RegisterDto)
    (userId : String) (now : Nat) : List User × Except HttpException (String × String) :=
  match findUserByEmail users registerDto.email with
  | some _ => (users, .error emailInUse)
  | none =>
    (users ++ [registeredUser argon2 registerDto userId now], .ok (userId, registerDto.email))

/-- A sign-in, with the claims of the token that it signs. -/
def login (argon2 : PasswordHash) (users : List User) (loginDto : LoginDto) :
    Except HttpException JwtPayload :=
  match findUserByEmail users loginDto.email with
  | none => .error invalidCredentials
  | some user =>
    if argon2.verify user.passwordHash loginDto.password then .ok (toJwtPayload user)
    else .error invalidCredentials

/-- A sign-in issues the claims of the row whose password it is. -/
theorem login_eq_ok {argon2 : PasswordHash} {users : List User} {loginDto : LoginDto}
    {claims : JwtPayload} : login argon2 users loginDto = .ok claims ↔
      ∃ user, findUserByEmail users loginDto.email = some user ∧
        argon2.verify user.passwordHash loginDto.password = true ∧ claims = toJwtPayload user := by
  simp only [login]
  cases findUserByEmail users loginDto.email with
  | none => simp only [reduceCtorEq, false_and, exists_false]
  | some user =>
    simp only [Option.some.injEq, exists_eq_left']
    cases argon2.verify user.passwordHash loginDto.password with
    | true => simp only [if_true, Except.ok.injEq, true_and, eq_comm (b := claims)]
    | false => simp only [Bool.false_eq_true, if_false, reduceCtorEq, false_and]

end VertexApi.Auth
