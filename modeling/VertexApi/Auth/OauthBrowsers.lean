import Mathlib.Logic.Function.Basic
import VertexApi.Auth.OauthState
import VertexApi.Core.Machine
import VertexApi.Core.OneShot

/-!
# Browsers and their state cookies

Any number of browsers visit the start and callback routes of the providers. A visit sends
the cookies of the browser's jar that are in scope, and the browser applies the response
before its next visit. The history of started attempts and presented codes is kept for
statements only.
-/

namespace VertexApi.Auth

universe u

/-- The two routes behind a provider's guard. -/
inductive OAuthRoute where
  | start
  | callback
  deriving DecidableEq, Repr

/-- The path of a route. -/
def OAuthRoute.path (provider : OAuthProvider) : OAuthRoute → String
  | .start => "/auth/" ++ provider.text
  | .callback => cookiePath provider

/-- A cookie in a jar. -/
structure StoredCookie where
  value : String
  path : String
  expiresAt : Nat
  deriving DecidableEq, Repr

/-- The cookies of one browser, by name. -/
abbrev CookieJar := String → Option StoredCookie

/-- Whether a cookie of a path goes with a request of another: the same or a lower one. -/
def inScope (cookiePath requestPath : String) : Bool :=
  requestPath == cookiePath || JsString.startsWith requestPath
    (if cookiePath.toList.getLast? = some '/' then cookiePath else cookiePath ++ "/")

namespace CookieJar

/-- The cookies that go with a request: those in scope that have not expired. -/
def sent (jar : CookieJar) (path : String) (now : Nat) : String → Option String := fun name =>
  match jar name with
  | none => none
  | some cookie =>
    if inScope cookie.path path && decide (now < cookie.expiresAt) then some cookie.value else none

/-- What one change of a response does to the jar. -/
def apply (now : Nat) (jar : CookieJar) : CookieChange → CookieJar
  | .set name value options =>
    Function.update jar name
      (some ⟨value, options.path, now + options.maxAge * 1000⟩)
  | .clear name path =>
    if (jar name).any fun cookie => cookie.path == path then Function.update jar name none else jar

end CookieJar

/-- One visit of a route, with the random bytes that the API draws for it. -/
structure OAuthVisit (β : Type u) where
  browser : β
  provider : OAuthProvider
  route : OAuthRoute
  query : Option OAuthQuery
  stateBytes : Vector UInt8 32
  verifierBytes : Vector UInt8 32
  deriving DecidableEq

namespace OAuthVisit

variable {β : Type u}

/-- The visit reports a failure of the provider. -/
def reportsError (visit : OAuthVisit β) : Prop :=
  (visit.query.getD .empty).error.truthy = true

/-- The visit carries a code. -/
def carriesCode (visit : OAuthVisit β) : Prop :=
  (visit.query.getD .empty).error.truthy = false ∧ (visit.query.getD .empty).code.truthy = true

/-- The visit starts an attempt. -/
def startsAttempt (visit : OAuthVisit β) : Prop :=
  (visit.query.getD .empty).error.truthy = false ∧ (visit.query.getD .empty).code.truthy = false

/-- The attempt that the drawn bytes make. -/
def attempt (visit : OAuthVisit β) : OAuthAttempt :=
  createOAuthAttempt visit.stateBytes visit.verifierBytes

/-- The `state` parameter of the visit. -/
def queryState (visit : OAuthVisit β) : QueryValue := (visit.query.getD .empty).state

/-- A visit is exactly one of the three. -/
theorem kind (visit : OAuthVisit β) :
    visit.reportsError ∨ visit.carriesCode ∨ visit.startsAttempt := by
  cases herror : (visit.query.getD .empty).error.truthy with
  | true => exact Or.inl herror
  | false =>
    cases hcode : (visit.query.getD .empty).code.truthy with
    | true => exact Or.inr (Or.inl ⟨herror, hcode⟩)
    | false => exact Or.inr (Or.inr ⟨herror, hcode⟩)

/-- An error wins over a code. -/
theorem not_carriesCode_of_reportsError {visit : OAuthVisit β} (h : visit.reportsError) :
    ¬visit.carriesCode := by
  intro hcode
  have herror := hcode.1
  rw [show (visit.query.getD .empty).error.truthy = true from h] at herror
  cases herror

/-- A start has no code. -/
theorem not_carriesCode_of_startsAttempt {visit : OAuthVisit β} (h : visit.startsAttempt) :
    ¬visit.carriesCode := by
  intro hcode
  have htrue := hcode.2
  rw [h.2] at htrue
  cases htrue

end OAuthVisit

/-- A started attempt: its secrets, what was handed to passport for it, and when. -/
structure StartedAttempt where
  attempt : OAuthAttempt
  options : OAuthAuthenticateOptions
  startedAt : Nat
  deriving DecidableEq, Repr

/-- The attempt that a visit starts. -/
def OAuthVisit.started {β : Type u} (config : OAuthConfig) (visit : OAuthVisit β) (now : Nat) :
    StartedAttempt where
  attempt := visit.attempt
  options := {
    state := some visit.attempt.state
    codeChallenge := some (codeChallengeFor config visit.attempt.codeVerifier)
    codeVerifier := none }
  startedAt := now

/-- When the browser forgets an attempt. -/
def StartedAttempt.expiresAt (started : StartedAttempt) : Nat :=
  started.startedAt + oauthAttemptMaxAgeSeconds * 1000

/-- The cookie that a started attempt leaves in the jar. -/
def StartedAttempt.cookie (config : OAuthConfig) (provider : OAuthProvider)
    (started : StartedAttempt) : StoredCookie where
  value := config.signer.sign started.attempt.cookieValue
  path := cookiePath provider
  expiresAt := started.expiresAt

/-- What happens to the attempts of the browsers. -/
abbrev OAuthEvent (β : Type u) :=
  TokenEvent (β × OAuthProvider) StartedAttempt (OAuthVisit β)

/-- The jars of the browsers and the history of their attempts. -/
structure BrowsersState (β : Type u) where
  clock : Nat
  jars : β → CookieJar
  history : List (OAuthEvent β)

/-- The steps of a run. -/
inductive BrowsersLabel (β : Type u) where
  | tick (ms : Nat)
  | visit (visit : OAuthVisit β)
  deriving DecidableEq

namespace BrowsersState

variable {β : Type u}

/-- Empty jars. -/
def initial (clock : Nat) : BrowsersState β where
  clock := clock
  jars _ _ := none
  history := []

/-- The request of a visit. -/
def request (s : BrowsersState β) (visit : OAuthVisit β) : OAuthRequest where
  query := visit.query
  cookies := (s.jars visit.browser).sent (visit.route.path visit.provider) s.clock

/-- What the API answers to a visit. -/
def respond (config : OAuthConfig) (s : BrowsersState β) (visit : OAuthVisit β) :
    Except HttpException OAuthAuthenticateOptions × List CookieChange :=
  oauthAuthenticateOptions config visit.provider (s.request visit) visit.stateBytes
    visit.verifierBytes

/-- What the history records of a visit. -/
def events (config : OAuthConfig) (s : BrowsersState β) (visit : OAuthVisit β) :
    List (OAuthEvent β) :=
  let query := visit.query.getD .empty
  if query.error.truthy then []
  else if query.code.truthy then [.presented (visit.browser, visit.provider) visit]
  else
    match (s.respond config visit).1 with
    | .ok options =>
      [.issued (visit.browser, visit.provider) ⟨visit.attempt, options, s.clock⟩]
    | .error _ => []

/-- The browser applies the response. -/
def visit [DecidableEq β] (config : OAuthConfig) (s : BrowsersState β) (visit : OAuthVisit β) :
    BrowsersState β where
  clock := s.clock
  jars := Function.update s.jars visit.browser
    ((s.respond config visit).2.foldl (CookieJar.apply s.clock) (s.jars visit.browser))
  history := s.history ++ s.events config visit

end BrowsersState

/-- The browsers and the API as one machine. -/
def browsers {β : Type u} [DecidableEq β] (config : OAuthConfig) :
    Machine (BrowsersState β) (BrowsersLabel β) where
  step s
    | .tick ms => some { s with clock := s.clock + ms }
    | .visit visit => some (s.visit config visit)

/-- The visit is answered with a verifier. -/
def Returns {β : Type u} (config : OAuthConfig) (s : BrowsersState β) (visit : OAuthVisit β)
    (codeVerifier : String) : Prop :=
  ∃ options, (s.respond config visit).1 = .ok options ∧ options.codeVerifier = some codeVerifier

section Answers

variable {β : Type u} {config : OAuthConfig} {s : BrowsersState β} {visit : OAuthVisit β}

/-- What a reported error is answered with. -/
theorem respond_of_reportsError (h : visit.reportsError) :
    s.respond config visit = (.ok ⟨none, none, none⟩, []) :=
  oauthAuthenticateOptions_error config visit.provider (s.request visit) visit.stateBytes
    visit.verifierBytes rfl h

/-- What a code is answered with. -/
theorem respond_of_carriesCode (h : visit.carriesCode) :
    s.respond config visit =
      (match readOAuthAttempt config.signer
          ((s.request visit).cookies (cookieName visit.provider)) with
        | some attempt =>
          if statesMatch attempt.state visit.queryState then
            .ok ⟨none, none, some attempt.codeVerifier⟩
          else .error oAuthStateMismatchException
        | none => .error oAuthStateMismatchException,
      [.clear (cookieName visit.provider) (cookiePath visit.provider)]) :=
  oauthAuthenticateOptions_code config visit.provider (s.request visit) visit.stateBytes
    visit.verifierBytes rfl h.1 h.2

/-- What a start is answered with. -/
theorem respond_of_startsAttempt (h : visit.startsAttempt) :
    s.respond config visit = (.ok (visit.started config s.clock).options,
      rememberOAuthAttempt config visit.provider visit.attempt) :=
  oauthAuthenticateOptions_start config visit.provider (s.request visit) visit.stateBytes
    visit.verifierBytes rfl h.1 h.2

/-- A verifier is returned to a code whose state is the one read back. -/
theorem returns_iff {codeVerifier : String} : Returns config s visit codeVerifier ↔
    visit.carriesCode ∧ ∃ attempt,
      readOAuthAttempt config.signer ((s.request visit).cookies (cookieName visit.provider)) =
        some attempt ∧
      visit.queryState = .text attempt.state ∧ codeVerifier = attempt.codeVerifier := by
  rcases visit.kind with herror | hcode | hstart
  · have hnot := OAuthVisit.not_carriesCode_of_reportsError herror
    simp only [Returns, respond_of_reportsError herror, Except.ok.injEq, exists_eq_left',
      reduceCtorEq, hnot, false_and]
  · simp only [Returns, respond_of_carriesCode hcode, hcode, true_and]
    cases readOAuthAttempt config.signer
        ((s.request visit).cookies (cookieName visit.provider)) with
    | none => simp only [reduceCtorEq, false_and, exists_false]
    | some attempt =>
      simp only [← statesMatch_iff, Option.some.injEq, exists_eq_left']
      cases statesMatch attempt.state visit.queryState with
      | false => simp only [Bool.false_eq_true, if_false, reduceCtorEq, false_and, exists_false]
      | true =>
        simp only [if_true, Except.ok.injEq, exists_eq_left', Option.some.injEq, true_and,
          eq_comm (b := codeVerifier)]
  · have hnot := OAuthVisit.not_carriesCode_of_startsAttempt hstart
    simp only [Returns, respond_of_startsAttempt hstart, OAuthVisit.started, Except.ok.injEq,
      exists_eq_left', reduceCtorEq, hnot, false_and]

/-- A code that gets no verifier is refused. -/
theorem respond_of_not_returns (h : visit.carriesCode)
    (hnot : ∀ codeVerifier, ¬Returns config s visit codeVerifier) :
    (s.respond config visit).1 = .error oAuthStateMismatchException := by
  rw [respond_of_carriesCode h]
  cases hread : readOAuthAttempt config.signer
      ((s.request visit).cookies (cookieName visit.provider)) with
  | none => rfl
  | some attempt =>
    refine if_neg fun hmatch => ?_
    exact hnot attempt.codeVerifier
      (returns_iff.mpr ⟨h, attempt, hread, statesMatch_iff.mp hmatch, rfl⟩)

end Answers

section Visits

variable {β : Type u} [DecidableEq β] {config : OAuthConfig} {s : BrowsersState β}
  {visit : OAuthVisit β}

/-- A visit that reports an error changes nothing. -/
theorem visit_of_reportsError (h : visit.reportsError) : s.visit config visit = s := by
  simp only [BrowsersState.visit, respond_of_reportsError h, BrowsersState.events,
    if_pos (show _ = true from h), List.foldl_nil, Function.update_eq_self, List.append_nil]

/-- A visit with a code clears the cookie and presents the code. -/
theorem visit_of_carriesCode (h : visit.carriesCode) :
    s.visit config visit = { s with
      jars := Function.update s.jars visit.browser
        ((s.jars visit.browser).apply s.clock
          (.clear (cookieName visit.provider) (cookiePath visit.provider)))
      history := s.history ++ [.presented (visit.browser, visit.provider) visit] } := by
  simp only [BrowsersState.visit, respond_of_carriesCode h, BrowsersState.events, h.1, h.2,
    Bool.false_eq_true, if_false, if_true, List.foldl_cons, List.foldl_nil]

/-- Any other visit stores the cookie of a new attempt. -/
theorem visit_of_startsAttempt (h : visit.startsAttempt) :
    s.visit config visit = { s with
      jars := Function.update s.jars visit.browser
        (Function.update (s.jars visit.browser) (cookieName visit.provider)
          (some ((visit.started config s.clock).cookie config visit.provider)))
      history := s.history ++
        [.issued (visit.browser, visit.provider) (visit.started config s.clock)] } := by
  simp only [BrowsersState.visit, respond_of_startsAttempt h, BrowsersState.events, h.1, h.2,
    Bool.false_eq_true, if_false]
  rfl

/-- Clearing a cookie leaves the others alone. -/
theorem CookieJar.apply_clear_of_ne {jar : CookieJar} {now : Nat} {name other path : String}
    (h : other ≠ name) : jar.apply now (.clear name path) other = jar other := by
  simp only [CookieJar.apply]
  split
  · exact Function.update_of_ne h ..
  · rfl

/-- Clearing a cookie that has the path removes it. -/
theorem CookieJar.apply_clear_self {jar : CookieJar} {now : Nat} {name path : String}
    (h : ∀ cookie, jar name = some cookie → cookie.path = path) :
    jar.apply now (.clear name path) name = none := by
  cases hcookie : jar name with
  | none => simp only [CookieJar.apply, hcookie, Option.any_none, Bool.false_eq_true, if_false]
  | some cookie =>
    simp only [CookieJar.apply, hcookie, Option.any_some, beq_iff_eq, h cookie hcookie, if_true,
      Function.update_self]

/-- A state cookie goes with the callback, and not with the start. -/
theorem inScope_cookiePath (provider : OAuthProvider) (route : OAuthRoute) :
    inScope (cookiePath provider) (route.path provider) = true ↔ route = .callback := by
  cases provider <;> cases route <;> decide

end Visits

end VertexApi.Auth
