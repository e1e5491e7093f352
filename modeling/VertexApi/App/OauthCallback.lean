import VertexApi.App.Services
import VertexApi.Auth.OauthBrowsers
import VertexApi.Core.Turns

/-!
# The callback routes

A guard checks the state of a callback and has passport exchange its code for a profile, of
which the strategy makes a user. The controller then closes the popup of a link, or mints an
exchange code and redirects with it. A filter turns four exceptions into redirects; whatever
else is thrown ends in an error response. What the guard does to the cookies stays in the
response in any case.
-/

namespace VertexApi.App

open Auth

/-- The profiles of a provider. -/
abbrev ProviderProfile : OAuthProvider → Type
  | .google => GoogleProfile
  | .github => GithubProfile

/-- A profile, with its provider. -/
def profileOf : {provider : OAuthProvider} → ProviderProfile provider → Profile
  | .google, profile => .google profile
  | .github, profile => .github profile

/-- How passport fails a callback on its own: the login is declined, or an exchange with the
provider throws. -/
inductive PassportFailure where
  | declined
  | failed (error : ThrownError)
  deriving DecidableEq, Repr

/-- What the guard throws then. -/
def PassportFailure.raised : PassportFailure → Failure
  | .declined => .refused (unauthorizedException "Unauthorized" none)
  | .failed error => .thrown error

/-- The rejection of a provider without credentials. -/
def notConfigured : OAuthProvider → HttpException
  | .google => serviceUnavailableException ("Google OAuth is not configured on this server " ++
      "(GOOGLE_CLIENT_ID / GOOGLE_CLIENT_SECRET).")
  | .github => serviceUnavailableException ("GitHub OAuth is not configured on this server " ++
      "(GITHUB_CLIENT_ID / GITHUB_CLIENT_SECRET).")

/-- What the OAuth routes take from their surroundings. -/
structure OAuthRoutesConfig extends StrategyConfig where
  /-- The digest of a text. -/
  sha256 : String → List UInt8
  hashExchangeCode : String → String
  /-- `process.env.NODE_ENV`. -/
  nodeEnv : Option String
  /-- `process.env.FRONTEND_URL`. -/
  frontendUrl : Option String
  isConfigured : OAuthProvider → Bool

/-- The part that the guards see. -/
def OAuthRoutesConfig.oauth (config : OAuthRoutesConfig) : OAuthConfig where
  signer := config.signer
  sha256 := config.sha256
  nodeEnv := config.nodeEnv

/-- The callback page of the frontend. -/
def OAuthRoutesConfig.callbackPage (config : OAuthRoutesConfig) : String :=
  config.frontendUrl.getD "http://localhost:3000" ++ "/auth/callback"

/-- The cookie of a link intent. -/
def linkCookieName : String := "link_user_id"

/-- A request of a callback route, with what the provider answers to it and what is drawn for
it. -/
structure CallbackVisit where
  provider : OAuthProvider
  query : Option OAuthQuery
  cookies : String → Option String
  stateBytes : Vector UInt8 32
  verifierBytes : Vector UInt8 32
  /-- What the code is exchanged for. -/
  exchange : Except PassportFailure (ProviderProfile provider)
  /-- How passport takes an error of the provider. -/
  refusal : PassportFailure
  userId : String
  passwordHash : String
  pick : Nat
  exchangeCode : String

namespace CallbackVisit

/-- The parameters of the request. -/
def parameters (visit : CallbackVisit) : OAuthQuery := visit.query.getD .empty

/-- It carries a code, and no error. -/
def carriesCode (visit : CallbackVisit) : Prop :=
  visit.parameters.error.truthy = false ∧ visit.parameters.code.truthy = true

/-- It comes from the provider: it carries a code or an error. -/
def isReturn (visit : CallbackVisit) : Bool :=
  visit.parameters.error.truthy || visit.parameters.code.truthy

/-- The cookie of the link intent. -/
def linkCookie (visit : CallbackVisit) : Option String := visit.cookies linkCookieName

/-- `isLinkFlow` of the controller. -/
def isLinkFlow (visit : CallbackVisit) : Bool := (JsString.truthy visit.linkCookie).isSome

/-- The state is that of the attempt in the cookie. -/
def StateMatches (config : OAuthRoutesConfig) (visit : CallbackVisit) : Prop :=
  ∃ attempt, readOAuthAttempt config.signer (visit.cookies (cookieName visit.provider)) =
    some attempt ∧ visit.parameters.state = .text attempt.state

end CallbackVisit

/-- What the browser is answered with. -/
inductive Reply where
  | redirect (url : String)
  /-- The redirect to the provider. -/
  | consent (options : OAuthAuthenticateOptions)
  | popupScript (script : String)
  /-- The response of an exception that no filter of the route catches. -/
  | unhandled (failure : Failure)
  deriving DecidableEq, Repr

/-- A response, with its changes of cookies. -/
structure Response where
  cookies : List CookieChange
  reply : Reply
  deriving DecidableEq, Repr

/-- The cookie of the link intent is cleared. -/
def clearLinkCookie : CookieChange := .clear linkCookieName "/"

section Routes

variable (config : OAuthRoutesConfig) (visit : CallbackVisit)

/-- `getAuthenticateOptions` of the guard. -/
def getAuthenticateOptions : Except HttpException OAuthAuthenticateOptions × List CookieChange :=
  oauthAuthenticateOptions config.oauth visit.provider ⟨visit.query, visit.cookies⟩
    visit.stateBytes visit.verifierBytes

/-- `validate` of the strategy on a profile. -/
def validate (profile : ProviderProfile visit.provider) : Operation JwtPayload :=
  OAuthStrategy.validate config.toStrategyConfig (profileOf profile) visit.linkCookie visit.userId
    visit.passwordHash visit.pick

/-- `authenticate`: the user of a code, or none when the visitor is sent to the provider. -/
def authenticate : Operation (Option JwtPayload) :=
  if config.isConfigured visit.provider = false then
    throw (.refused (notConfigured visit.provider))
  else if visit.parameters.error.truthy then throw visit.refusal.raised
  else if visit.parameters.code.truthy then
    match visit.exchange with
    | .error failure => throw failure.raised
    | .ok profile => some <$> validate config visit profile
  else return none

/-- `handleOAuthCallback`. -/
def handleOAuthCallback (user : JwtPayload) : Operation Response := do
  let code ← AuthService.createOAuthExchangeCode config.hashExchangeCode user.sub visit.exchangeCode
  return ⟨[], .redirect (config.callbackPage ++ "?code=" ++ JsString.encodeURIComponent code)⟩

/-- `googleAuthCallback` and `githubAuthCallback`. -/
def authCallback (user : JwtPayload) : Operation Response :=
  if visit.isLinkFlow then return ⟨[clearLinkCookie], .popupScript "window.close();"⟩
  else handleOAuthCallback config visit user

/-- The guard and the controller. -/
def handled : Operation Response := do
  let options ← admitted (getAuthenticateOptions config visit).1
  match ← authenticate config visit with
  | none => return ⟨[], .consent options⟩
  | some user => authCallback config visit user

/-- The exceptions that the filter catches. -/
def popupExceptions : List HttpException :=
  [alreadyLinked .github, githubEmailConflict, alreadyLinked .google, oAuthStateMismatchException]

/-- The redirect of a caught exception. -/
def errorRedirect (exception : HttpException) : Reply :=
  .redirect (config.callbackPage ++ "?oauth_error=" ++
    JsString.encodeURIComponent (exception.code.getD ""))

/-- `OAuthPopupExceptionFilter`, and the response of what it does not catch. -/
def popupResponse : Failure → Response
  | .refused exception =>
    if exception ∈ popupExceptions then ⟨[clearLinkCookie], errorRedirect config exception⟩
    else ⟨[], .unhandled (.refused exception)⟩
  | failure => ⟨[], .unhandled failure⟩

/-- A response after what the guard does to the cookies. -/
def guarded (response : Response) : Response :=
  { response with cookies := (getAuthenticateOptions config visit).2 ++ response.cookies }

/-- A callback route. -/
def callback : Operation Response := do
  let response ← try handled config visit catch failure => pure (popupResponse config failure)
  return guarded config visit response

end Routes

section Runs

variable {config : OAuthRoutesConfig} {visit : CallbackVisit} {turns : List (Turn Store Failure)}
  {s : Store}

/-- A check that admits goes on. -/
@[simp] theorem run_admitted_ok {α : Type} (a : α) :
    (admitted (.ok a)).run turns s = ⟨s, turns, .ok a⟩ := rfl

/-- A check that refuses throws. -/
@[simp] theorem run_admitted_error {α : Type} (exception : HttpException) :
    (admitted (.error exception : Except HttpException α)).run turns s =
      ⟨s, turns, .error (.refused exception)⟩ := rfl

/-- The response, of whatever the controller returns or is thrown. -/
def answered (config : OAuthRoutesConfig) : Except Failure Response → Response
  | .ok response => response
  | .error failure => popupResponse config failure

/-- A callback route always responds. -/
theorem run_callback : (callback config visit).run turns s =
    ⟨((handled config visit).run turns s).state, ((handled config visit).run turns s).turns,
      .ok (guarded config visit
        (answered config ((handled config visit).run turns s).result))⟩ := by
  simp only [callback, Program.run_bind, Program.run_tryCatch]
  obtain ⟨t, later, result⟩ := (handled config visit).run turns s
  cases result with
  | ok response => rfl
  | error failure => rfl

/-- The profile has the provider of the visit. -/
theorem provider_of_identityOf {provider : OAuthProvider} {profile : ProviderProfile provider}
    {identity : ProviderIdentity} (h : identityOf (profileOf profile) = .ok identity) :
    identity.provider = provider := by
  cases provider with
  | google =>
    simp only [profileOf, identityOf, googleIdentity] at h
    split at h
    · cases h
    · rw [← Except.ok.inj h]
  | github =>
    simp only [profileOf, identityOf, githubIdentity] at h
    split at h
    · cases h
    · rw [← Except.ok.inj h]

/-- A strategy links when the cookie of the link intent is verified, and logs in otherwise. -/
theorem run_validate {profile : ProviderProfile visit.provider} {identity : ProviderIdentity}
    (h : identityOf (profileOf profile) = .ok identity) :
    (validate config visit profile).run turns s =
      match getVerifiedLinkUserId config.signer visit.linkCookie with
      | some linkUserId => (OAuthStrategy.linkToExistingUser identity linkUserId).run turns s
      | none => (OAuthStrategy.loginOrRegister config.adminEmail identity visit.userId
          visit.passwordHash visit.pick).run turns s := by
  simp only [validate, OAuthStrategy.validate, h, Program.run_bind, run_admitted_ok,
    Ending.andThen_ok]
  cases getVerifiedLinkUserId config.signer visit.linkCookie with
  | some linkUserId => rfl
  | none => rfl

/-- A profile that a strategy does not take is refused. -/
theorem run_validate_of_refused {profile : ProviderProfile visit.provider}
    {exception : HttpException} (h : identityOf (profileOf profile) = .error exception) :
    (validate config visit profile).run turns s = ⟨s, turns, .error (.refused exception)⟩ := by
  simp only [validate, OAuthStrategy.validate, h, Program.run_bind, run_admitted_error,
    Ending.andThen_error]

namespace CallbackVisit

/-- The guard of a code reads the attempt back. -/
theorem getAuthenticateOptions_of_carriesCode (h : visit.carriesCode) :
    getAuthenticateOptions config visit =
      (match readOAuthAttempt config.signer (visit.cookies (cookieName visit.provider)) with
        | some attempt =>
          if statesMatch attempt.state visit.parameters.state then
            .ok ⟨none, none, some attempt.codeVerifier⟩
          else .error oAuthStateMismatchException
        | none => .error oAuthStateMismatchException,
      [.clear (cookieName visit.provider) (cookiePath visit.provider)]) :=
  oauthAuthenticateOptions_code config.oauth visit.provider ⟨visit.query, visit.cookies⟩
    visit.stateBytes visit.verifierBytes rfl h.1 h.2

/-- The guard of a code whose state matches passes, and clears the cookie of the attempt. -/
theorem getAuthenticateOptions_of_stateMatches (h : visit.carriesCode)
    (hstate : visit.StateMatches config) : ∃ codeVerifier, getAuthenticateOptions config visit =
      (.ok ⟨none, none, some codeVerifier⟩,
        [.clear (cookieName visit.provider) (cookiePath visit.provider)]) := by
  obtain ⟨attempt, hread, hmatch⟩ := hstate
  refine ⟨attempt.codeVerifier, ?_⟩
  rw [visit.getAuthenticateOptions_of_carriesCode h]
  simp only [hread, if_pos (statesMatch_iff.mpr hmatch)]

/-- The guard of any other code refuses it. -/
theorem getAuthenticateOptions_of_not_stateMatches (h : visit.carriesCode)
    (hstate : ¬ visit.StateMatches config) : getAuthenticateOptions config visit =
      (.error oAuthStateMismatchException,
        [.clear (cookieName visit.provider) (cookiePath visit.provider)]) := by
  rw [visit.getAuthenticateOptions_of_carriesCode h]
  cases hread : readOAuthAttempt config.signer (visit.cookies (cookieName visit.provider)) with
  | none => rfl
  | some attempt =>
    refine congrArg (fun options => (options, _)) (if_neg fun hmatch => hstate ?_)
    exact ⟨attempt, hread, statesMatch_iff.mp hmatch⟩

end CallbackVisit

/-- A code with another state is refused before anything else. -/
theorem run_handled_of_not_stateMatches (h : visit.carriesCode)
    (hstate : ¬ visit.StateMatches config) : (handled config visit).run turns s =
      ⟨s, turns, .error (.refused oAuthStateMismatchException)⟩ := by
  rw [handled, visit.getAuthenticateOptions_of_not_stateMatches h hstate, Program.run_bind,
    run_admitted_error, Ending.andThen_error]

/-- A code with the right state is exchanged for a profile, and the profile for a user. -/
theorem run_handled_of_stateMatches (h : visit.carriesCode) (hstate : visit.StateMatches config)
    (hconfigured : config.isConfigured visit.provider = true) :
    (handled config visit).run turns s =
      match visit.exchange with
      | .error failure => ⟨s, turns, .error failure.raised⟩
      | .ok profile =>
        ((validate config visit profile).run turns s).andThen (authCallback config visit) := by
  obtain ⟨codeVerifier, hoptions⟩ := visit.getAuthenticateOptions_of_stateMatches h hstate
  simp only [handled, hoptions, Program.run_bind, run_admitted_ok, Ending.andThen_ok, authenticate,
    hconfigured, h.1, h.2, Bool.true_eq_false, Bool.false_eq_true, if_false, if_true]
  cases visit.exchange with
  | error failure => rfl
  | ok profile =>
    simp only [Program.run_map]
    obtain ⟨t, later, result⟩ := (validate config visit profile).run turns s
    cases result with
    | ok user => rfl
    | error failure => rfl

/-- Without credentials it is not exchanged. -/
theorem run_handled_of_not_configured (h : visit.carriesCode)
    (hstate : visit.StateMatches config)
    (hconfigured : config.isConfigured visit.provider = false) :
    (handled config visit).run turns s =
      ⟨s, turns, .error (.refused (notConfigured visit.provider))⟩ := by
  obtain ⟨codeVerifier, hoptions⟩ := visit.getAuthenticateOptions_of_stateMatches h hstate
  simp only [handled, hoptions, Program.run_bind, run_admitted_ok, Ending.andThen_ok, authenticate,
    hconfigured, if_true, Program.run_throw, Ending.andThen_error]

end Runs

end VertexApi.App
