import VertexApi.Auth.OauthState
import VertexApi.Auth.Password
import VertexApi.Database.Users

/-!
# Identities of the providers

What each strategy takes from the profile of its provider, and what it writes to the users
table: a login writes the provider id, and fills the name and the avatar where they are
missing; a link writes the provider id to the row of the signed-in user.
-/

namespace VertexApi.Auth

/-- A Google profile. -/
structure GoogleProfile where
  id : String
  displayName : Option String
  /-- `name.givenName`. -/
  givenName : Option String
  /-- The addresses of the entries. -/
  emails : Option (List String)
  /-- The addresses of the pictures. -/
  photos : Option (List String)
  deriving DecidableEq, Repr

/-- An entry of the GitHub address list. -/
structure GithubEmail where
  value : String
  primary : Option Bool
  verified : Option Bool
  deriving DecidableEq, Repr

/-- A GitHub profile. -/
structure GithubProfile where
  id : String
  displayName : Option String
  username : Option String
  emails : Option (List GithubEmail)
  /-- The addresses of the pictures. -/
  photos : Option (List String)
  deriving DecidableEq, Repr

/-- A profile of either provider. -/
inductive Profile where
  | google (profile : GoogleProfile)
  | github (profile : GithubProfile)
  deriving DecidableEq, Repr

/-- What a strategy takes from a profile. -/
structure ProviderIdentity where
  provider : OAuthProvider
  providerId : String
  email : String
  name : String
  avatarUrl : Option String
  deriving DecidableEq, Repr

/-- The rejection of a Google profile without an address. -/
def googleAccountHasNoEmail : HttpException :=
  unauthorizedException "Google account has no email" none

/-- The rejection of a GitHub profile without an id. -/
def githubAccountHasNoId : HttpException :=
  badRequestException "Could not retrieve the GitHub account identifier." none

/-- The first picture. -/
def firstPhoto (photos : Option (List String)) : Option String := photos.bind List.head?

/-- What the Google strategy takes from a profile. -/
def googleIdentity (profile : GoogleProfile) : Except HttpException ProviderIdentity :=
  match JsString.truthy (profile.emails.bind List.head?) with
  | none => .error googleAccountHasNoEmail
  | some email => .ok {
      provider := .google
      providerId := profile.id
      email := email
      name := ((JsString.truthy profile.displayName).or
        (JsString.truthy profile.givenName)).getD "Google User"
      avatarUrl := firstPhoto profile.photos }

/-- The address of the primary entry, or else of the first one. -/
def realEmail (emails : Option (List GithubEmail)) : Option String :=
  match emails with
  | none | some [] => none
  | some (first :: rest) =>
    let primary := (first :: rest).find? fun entry => entry.primary == some true
    some ((primary.map GithubEmail.value).getD first.value)

/-- The address under which the GitHub strategy looks a profile up. -/
def githubEmail (profile : GithubProfile) : String :=
  (realEmail profile.emails).getD ("github-" ++ profile.id ++ "@guest.local")

/-- What the GitHub strategy takes from a profile. -/
def githubIdentity (profile : GithubProfile) : Except HttpException ProviderIdentity :=
  if profile.id = "" then .error githubAccountHasNoId
  else .ok {
    provider := .github
    providerId := profile.id
    email := githubEmail profile
    name := ((JsString.truthy profile.displayName).or
      (JsString.truthy profile.username)).getD "GitHub User"
    avatarUrl := firstPhoto profile.photos }

/-- What the strategy of the profile's provider takes from it. -/
def identityOf : Profile → Except HttpException ProviderIdentity
  | .google profile => googleIdentity profile
  | .github profile => githubIdentity profile

/-- The user in the link cookie, when it is signed. -/
def getVerifiedLinkUserId (signer : CookieSigner) (linkCookie : Option String) : Option String :=
  match JsString.truthy linkCookie with
  | none => none
  | some signedCookie =>
    let unsigned := signer.unsign signedCookie
    if unsigned.valid then JsString.truthy unsigned.value else none

/-- The cookie of a link intent is verified. -/
theorem getVerifiedLinkUserId_sign (signer : CookieSigner) {userId : String} (h : userId ≠ "") :
    getVerifiedLinkUserId signer (some (signer.sign userId)) = some userId := by
  have hcookie := JsString.truthy_eq_some.mpr ⟨rfl, signer.sign_ne_empty userId⟩
  simp only [getVerifiedLinkUserId, hcookie, signer.unsign_sign, if_true]
  exact JsString.truthy_eq_some.mpr ⟨rfl, h⟩

/-- The id of a provider that a row carries. -/
def linkedId : OAuthProvider → User → Option String
  | .google, user => user.googleId
  | .github, user => user.githubId

/-- The write of a provider id. -/
def withLinkedId (provider : OAuthProvider) (providerId : String) (user : User) : User :=
  match provider with
  | .google => { user with googleId := some providerId }
  | .github => { user with githubId := some providerId }

/-- A row matches the lookup of a login. -/
def matchesIdentity (identity : ProviderIdentity) (user : User) : Bool :=
  linkedId identity.provider user == some identity.providerId || user.email == identity.email

/-- The write of a login to a row, over what it has read. -/
def loggedIn (identity : ProviderIdentity) (existing user : User) : User :=
  { withLinkedId identity.provider identity.providerId user with
    name := existing.name.or (some identity.name)
    avatarUrl := existing.avatarUrl.or identity.avatarUrl }

/-- The write of a link to a row, over what it has read. -/
def linked (identity : ProviderIdentity) (current user : User) : User :=
  { withLinkedId identity.provider identity.providerId user with
    avatarUrl := current.avatarUrl.or identity.avatarUrl }

/-- The row of a first login. -/
def newProviderUser (adminEmail : Option String) (identity : ProviderIdentity)
    (userId passwordHash : String) (now : Nat) : User :=
  withLinkedId identity.provider identity.providerId {
    id := userId
    email := identity.email
    passwordHash := passwordHash
    name := some identity.name
    displayName := none
    avatarUrl := identity.avatarUrl
    githubId := none
    googleId := none
    isBanned := false
    role := if some identity.email = adminEmail then .admin else .user
    createdAt := now
    updatedAt := now }

/-- How a callback ends. -/
inductive CallbackAnswer where
  | signedIn (claims : JwtPayload)
  | rejected (failure : HttpException)
  /-- An error that is no HTTP exception. -/
  | crashed
  deriving DecidableEq, Repr

/-- The rejection of a link to an account that another user has. -/
def alreadyLinked : OAuthProvider → HttpException
  | .google => conflictException "This Google account is already linked to another account."
      .googleAlreadyLinked
  | .github => conflictException "This GitHub profile is already linked to another account."
      .githubAlreadyLinked

/-- The rejection of a link of a user who is gone. -/
def linkUserNotFound : OAuthProvider → HttpException
  | .google => unauthorizedException "User to link the Google account to was not found." none
  | .github => unauthorizedException "User to link the GitHub account to was not found." none

/-- The rejection of an address that another account has. -/
def githubEmailConflict : HttpException :=
  conflictException ("This email is already associated with a Google account. Sign in with " ++
    "Google and connect GitHub from your profile settings.") .githubEmailConflict

/-- `isUniqueViolation` looks at the error itself, not at its cause. -/
def isUniqueViolation (error : ThrownError) : Bool := error.code == some postgresUniqueViolation

/-- A login whose statement throws: one strategy lets the error through, the other reports it. -/
def loginFailed : OAuthProvider → CallbackAnswer
  | .google => .crashed
  | .github => .rejected (internalServerErrorException "Failed to authenticate with GitHub")

/-- A login whose insert throws. -/
def insertFailed (error : ThrownError) : OAuthProvider → CallbackAnswer
  | .google => .crashed
  | .github =>
    if isUniqueViolation error then .rejected githubEmailConflict else loginFailed .github

/-- A link whose statement throws. -/
def linkFailed : OAuthProvider → CallbackAnswer
  | .google => .rejected (internalServerErrorException "Failed to link Google account")
  | .github => .rejected (internalServerErrorException "Failed to link GitHub account")

section Writes

variable {provider other : OAuthProvider} {providerId : String} {user existing : User}
  {identity : ProviderIdentity}

/-- A written provider id is carried. -/
@[simp] theorem linkedId_withLinkedId :
    linkedId provider (withLinkedId provider providerId user) = some providerId := by
  cases provider <;> rfl

/-- The id of the other provider stays. -/
theorem linkedId_withLinkedId_of_ne (h : other ≠ provider) :
    linkedId other (withLinkedId provider providerId user) = linkedId other user := by
  cases provider <;> cases other <;> first | rfl | exact absurd rfl h

/-- The write of a provider id keeps the id and the address of the row. -/
@[simp] theorem withLinkedId_id : (withLinkedId provider providerId user).id = user.id := by
  cases provider <;> rfl

@[simp] theorem withLinkedId_email :
    (withLinkedId provider providerId user).email = user.email := by
  cases provider <;> rfl

/-- A login writes provider ids like a plain write of its own. -/
@[simp] theorem linkedId_loggedIn : linkedId other (loggedIn identity existing user) =
    linkedId other (withLinkedId identity.provider identity.providerId user) := by
  cases other <;> rfl

/-- So does a link. -/
@[simp] theorem linkedId_linked : linkedId other (linked identity existing user) =
    linkedId other (withLinkedId identity.provider identity.providerId user) := by
  cases other <;> rfl

/-- The provider ids of a table are unique. -/
theorem uniqueOn_linkedId {users : List User} (h : UniqueUsers users) (provider : OAuthProvider) :
    UniqueOn (linkedId provider) users := by
  cases provider with
  | google => exact h.googleId
  | github => exact h.githubId

end Writes

end VertexApi.Auth
