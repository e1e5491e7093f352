import VertexApi.App.PopupErrors
import VertexApi.Core.Machine

/-!
# How long a link intent lasts

A link start leaves a signed cookie for five minutes. The controller and the filter clear it;
the error responses of everything else leave it in the browser, where the next callback is
taken for a link once more. One browser starts links and logins and comes back from the
providers, in any order; what else the services do in the meantime is part of the callbacks.
-/

namespace VertexApi.App

open Auth

/-- How long the cookie of a link intent lasts. -/
def linkCookieMaxAgeSeconds : Nat := 5 * 60

/-- `googleLink` and `githubLink`, of a signed-in user. -/
def rememberLinkIntent (config : OAuthRoutesConfig) (userId : String) : List CookieChange :=
  [.set linkCookieName (config.signer.sign userId) {
    httpOnly := true
    secure := config.nodeEnv == some "production"
    sameSite := "lax"
    path := "/"
    maxAge := linkCookieMaxAgeSeconds }]

/-- A browser, and the store behind the API. -/
structure BrowserState where
  clock : Nat
  jar : CookieJar
  store : Store
  /-- Whether a link was started since the last return from a provider. -/
  pending : Bool

/-- The steps of a run. -/
inductive BrowserLabel where
  | tick (ms : Nat)
  | startLink (provider : OAuthProvider) (userId : String)
  | startLogin (provider : OAuthProvider) (stateBytes verifierBytes : Vector UInt8 32)
  | callback (visit : CallbackVisit) (turns : List (Turn Store ThrownError))

namespace BrowserState

/-- An empty jar. -/
def initial (clock : Nat) (store : Store) : BrowserState where
  clock := clock
  jar _ := none
  store := store
  pending := false

/-- What the browser sends with a callback. -/
def request (s : BrowserState) (visit : CallbackVisit) : CallbackVisit :=
  { visit with cookies := s.jar.sent (cookiePath visit.provider) s.clock }

/-- What the browser sends with the start of a login. -/
def startRequest (s : BrowserState) (provider : OAuthProvider) : OAuthRequest where
  query := none
  cookies := s.jar.sent (OAuthRoute.start.path provider) s.clock

/-- The browser applies a response. -/
def receive (s : BrowserState) (cookies : List CookieChange) : BrowserState :=
  { s with jar := cookies.foldl (CookieJar.apply s.clock) s.jar }

/-- The browser after a callback. -/
def afterCallback (s : BrowserState) (visit : CallbackVisit)
    (ending : Ending Store Failure Response) :
    Option BrowserState :=
  match ending.result with
  | .error _ => none
  | .ok response =>
    some { s.receive response.cookies with
      store := ending.state
      pending := if visit.isReturn then false else s.pending }

end BrowserState

/-- The browser and the API as one machine; the subject of a token is not empty. -/
def browser (config : OAuthRoutesConfig) : Machine BrowserState BrowserLabel where
  step s
    | .tick ms => some { s with clock := s.clock + ms }
    | .startLink _ userId =>
      if userId = "" then none
      else some { s.receive (rememberLinkIntent config userId) with pending := true }
    | .startLogin provider stateBytes verifierBytes => some (s.receive
        (oauthAuthenticateOptions config.oauth provider (s.startRequest provider) stateBytes
          verifierBytes).2)
    | .callback visit turns => s.afterCallback visit
        ((callback config (s.request visit)).run (storeTurns turns) s.store)

/-- Unless a link has been started since the last return, the cookie is gone, and neither the
strategy nor the controller takes a callback for a link. -/
def IntentSpent (config : OAuthRoutesConfig) (s : BrowserState) : Prop :=
  s.pending = false → ∀ visit, (s.request visit).linkCookie = none ∧
    ¬ (s.request visit).performsLink config ∧ (s.request visit).isLinkFlow = false

/-- The statements of a link go through. -/
def LinkGoesThrough (identity : ProviderIdentity) (linkUserId : String)
    (turns : List (Turn Store ThrownError)) (s : Store) : Prop :=
  Turn.nextFault turns = none ∧ ¬ LinkedElsewhere identity linkUserId turns s ∧
  Turn.nextFault turns.tail = none ∧ Turn.nextFault turns.tail.tail = none ∧
  ∃ current, findUserById (Turn.met turns.tail (Turn.met turns s)).users linkUserId =
    some current ∧
  ∃ users user, updateUser
    (Turn.met turns.tail.tail (Turn.met turns.tail (Turn.met turns s))).users linkUserId
    (linked identity current) = .ok (users, some user)

/-- The callback carries a code, and its state does not match, or the account turns out to be
linked to another user, or the link goes through. -/
def EndsIntent (config : OAuthRoutesConfig) (visit : CallbackVisit)
    (turns : List (Turn Store ThrownError)) (s : Store) : Prop :=
  visit.carriesCode ∧ (visit.StateMatches config →
    config.isConfigured visit.provider = true ∧
    ∃ profile identity linkUserId, visit.exchange = .ok profile ∧
      identityOf (profileOf profile) = .ok identity ∧
      getVerifiedLinkUserId config.signer visit.linkCookie = some linkUserId ∧
      (LinkedElsewhere identity linkUserId turns s ∨ LinkGoesThrough identity linkUserId turns s))

/-- A return from a provider that brings the link cookie ends the intent. -/
def SpendsIntent (config : OAuthRoutesConfig) (s : BrowserState) : BrowserLabel → Prop
  | .callback visit turns => visit.isReturn = true → (s.request visit).linkCookie ≠ none →
      EndsIntent config (s.request visit) turns s.store
  | _ => True

section Links

variable {identity : ProviderIdentity} {linkUserId : String} {turns : List (Turn Store ThrownError)}
  {s : Store}

/-- When the statements of a link after its lookup go through. -/
theorem afterLookup_isOk_iff : (∃ user, ((do
      let some current ← findUser linkUserId
        | throw (.refused (linkUserNotFound identity.provider))
      let some updated ← updateUsers linkUserId (linked identity current) | throw .typeError
      return toJwtPayload updated : Operation JwtPayload).run (storeTurns turns) s).result =
        .ok user) ↔
    Turn.nextFault turns = none ∧ Turn.nextFault turns.tail = none ∧
    ∃ current, findUserById (Turn.met turns s).users linkUserId = some current ∧
    ∃ users user, updateUser (Turn.met turns.tail (Turn.met turns s)).users linkUserId
      (linked identity current) = .ok (users, some user) := by
  simp only [findUser, read, Program.run_bind]
  cases hfind : Turn.nextFault turns with
  | some error =>
    simp only [run_query_of_fault hfind, Ending.andThen_error, reduceCtorEq, exists_false,
      false_and]
  | none =>
    simp only [run_query_of_no_fault hfind, Ending.ofOutcome_ok, Ending.andThen_ok, true_and]
    cases hcurrent : findUserById (Turn.met turns s).users linkUserId with
    | none => simp only [Program.run_throw, reduceCtorEq, exists_false, false_and, and_false]
    | some current =>
      simp only [Program.run_bind, updateUsers, Option.some.injEq, exists_eq_left']
      cases hupdate : Turn.nextFault turns.tail with
      | some error =>
        simp only [run_query_of_fault hupdate, Ending.andThen_error, reduceCtorEq, exists_false,
          false_and]
      | none =>
        simp only [run_query_of_no_fault hupdate, true_and]
        cases updateUser (Turn.met turns.tail (Turn.met turns s)).users linkUserId
            (linked identity current) with
        | error error =>
          simp only [Ending.ofOutcome_error, Ending.andThen_error, reduceCtorEq, exists_false]
        | ok outcome =>
          obtain ⟨users, updated⟩ := outcome
          cases updated with
          | none =>
            simp only [Ending.ofOutcome_ok, Ending.andThen_ok, Program.run_throw, Except.ok.injEq,
              Prod.mk.injEq, reduceCtorEq, and_false, exists_false]
          | some updated => exact iff_of_true ⟨_, rfl⟩ ⟨users, updated, rfl⟩

/-- When the statements of a link go through. -/
theorem link_isOk_iff :
    (∃ user, ((OAuthStrategy.link identity linkUserId).run (storeTurns turns) s).result =
      .ok user) ↔ LinkGoesThrough identity linkUserId turns s := by
  simp only [OAuthStrategy.link, Program.run_bind, read, LinkGoesThrough]
  cases hread : Turn.nextFault turns with
  | some error =>
    simp only [run_query_of_fault hread, Ending.andThen_error, reduceCtorEq, exists_false,
      false_and]
  | none =>
    simp only [run_query_of_no_fault hread, Ending.ofOutcome_ok, Ending.andThen_ok, true_and]
    split
    · next hconflicting =>
      obtain ⟨other, hother, hne⟩ := (Option.any_eq_true ..).mp hconflicting
      refine iff_of_false (fun hok => ?_) fun h => h.1 ⟨hread, other, hother, bne_iff_ne.mp hne⟩
      obtain ⟨user, ⟨⟩⟩ := hok
    · next hconflicting =>
      have hfree : ¬ LinkedElsewhere identity linkUserId turns s := by
        rintro ⟨-, other, hother, hne⟩
        rw [hother] at hconflicting
        exact hconflicting (bne_iff_ne.mpr hne)
      rw [and_iff_right hfree]
      exact afterLookup_isOk_iff

/-- A link returns a user when its statements go through. -/
theorem linkToExistingUser_isOk_iff :
    (∃ user, ((OAuthStrategy.linkToExistingUser identity linkUserId).run (storeTurns turns)
      s).result = .ok user) ↔ LinkGoesThrough identity linkUserId turns s := by
  rw [← link_isOk_iff, OAuthStrategy.linkToExistingUser, Program.run_tryCatch]
  obtain ⟨t, later, result⟩ := (OAuthStrategy.link identity linkUserId).run (storeTurns turns) s
  cases result with
  | ok user => rfl
  | error failure =>
    refine iff_of_false (fun h => ?_) fun h => ?_
    · obtain ⟨user, ⟨⟩⟩ := h
    · obtain ⟨user, ⟨⟩⟩ := h

end Links

section Responses

variable {config : OAuthRoutesConfig} {visit : CallbackVisit}
  {turns : List (Turn Store ThrownError)} {s : Store} {failure : Failure}

/-- The error response of a callback clears the cookie when the filter catches the failure. -/
theorem mem_popupResponse_iff :
    clearLinkCookie ∈ (popupResponse config failure).cookies ↔ failure.IsCaught := by
  cases failure with
  | refused exception =>
    by_cases hcaught : exception ∈ popupExceptions
    · simp only [popupResponse, if_pos hcaught, List.mem_singleton, true_iff]
      exact ⟨exception, hcaught, rfl⟩
    · simp only [popupResponse, if_neg hcaught, List.not_mem_nil, false_iff]
      exact not_isCaught_refused hcaught
  | slugInUse | thrown | typeError =>
    refine iff_of_false List.not_mem_nil ?_
    rintro ⟨exception, -, ⟨⟩⟩

/-- It changes no other cookie. -/
theorem cookies_popupResponse : (popupResponse config failure).cookies = [] ∨
    (popupResponse config failure).cookies = [clearLinkCookie] := by
  cases failure with
  | refused exception =>
    by_cases hcaught : exception ∈ popupExceptions
    · exact Or.inr (congrArg Response.cookies (if_pos hcaught))
    · exact Or.inl (congrArg Response.cookies (if_neg hcaught))
  | slugInUse | thrown | typeError => exact Or.inl rfl

/-- A return with an error is not caught. -/
theorem not_isCaught_of_error (herror : visit.parameters.error.truthy = true) :
    ∃ failure, ((handled config visit).run (storeTurns turns) s).result = .error failure ∧
      ¬ failure.IsCaught := by
  have hoptions : (getAuthenticateOptions config visit).1 = .ok ⟨none, none, none⟩ :=
    congrArg Prod.fst (oauthAuthenticateOptions_error config.oauth visit.provider
      ⟨visit.query, visit.cookies⟩ visit.stateBytes visit.verifierBytes rfl herror)
  cases hconfigured : config.isConfigured visit.provider with
  | false =>
    refine ⟨.refused (notConfigured visit.provider), ?_, not_isCaught_refused ?_⟩
    · simp only [handled, hoptions, Program.run_bind, run_admitted_ok, Ending.andThen_ok,
        authenticate, hconfigured, if_true, Program.run_throw, Ending.andThen_error]
    · cases visit.provider <;> decide
  | true =>
    refine ⟨visit.refusal.raised, ?_, ?_⟩
    · simp only [handled, hoptions, Program.run_bind, run_admitted_ok, Ending.andThen_ok,
        authenticate, hconfigured, Bool.true_eq_false, if_false, herror, if_true,
        Program.run_throw, Ending.andThen_error]
    · cases visit.refusal with
      | declined => exact not_isCaught_refused (by decide)
      | failed error => exact not_isCaught_of_isThrown ⟨error, rfl⟩

/-- What the strategy and the controller make of a verified link cookie. -/
theorem clears_iff_of_identity {linkUserId : String} {profile : ProviderProfile visit.provider}
    {identity : ProviderIdentity}
    (hverified : getVerifiedLinkUserId config.signer visit.linkCookie = some linkUserId)
    (hidentity : identityOf (profileOf profile) = .ok identity) :
    clearLinkCookie ∈ (answered config (((validate config visit profile).run (storeTurns turns)
      s).andThen (authCallback config visit)).result).cookies ↔
    LinkedElsewhere identity linkUserId turns s ∨ LinkGoesThrough identity linkUserId turns s := by
  have hvalidate : (validate config visit profile).run (storeTurns turns) s = _ :=
    run_validate hidentity
  have hflow : visit.isLinkFlow = true :=
    isLinkFlow_of_performsLink (by rw [CallbackVisit.performsLink, hverified]; rfl)
  have hok := @linkToExistingUser_isOk_iff identity linkUserId turns s
  simp only [hvalidate, hverified]
  generalize hlink : (OAuthStrategy.linkToExistingUser identity linkUserId).run
    (storeTurns turns) s = ending at hok ⊢
  obtain ⟨t, later, result⟩ := ending
  cases result with
  | ok user =>
    rw [Ending.andThen_ok, authCallback, if_pos hflow]
    exact iff_of_true (List.mem_singleton.mpr rfl) (Or.inr (hok.mp ⟨user, rfl⟩))
  | error failure =>
    have hnot : ¬ LinkGoesThrough identity linkUserId turns s := by
      intro hlinks
      obtain ⟨user, ⟨⟩⟩ := hok.mpr hlinks
    rw [Ending.andThen_error, answered, mem_popupResponse_iff, or_iff_left hnot]
    exact linkToExistingUser_isCaught_iff (congrArg Ending.result hlink)

/-- What the exchange, the strategy and the controller make of one. -/
theorem clears_iff_of_exchange {linkUserId : String}
    (hverified : getVerifiedLinkUserId config.signer visit.linkCookie = some linkUserId) :
    clearLinkCookie ∈ (answered config (match visit.exchange with
      | .error failure => ⟨s, storeTurns turns, .error failure.raised⟩
      | .ok profile => ((validate config visit profile).run (storeTurns turns) s).andThen
          (authCallback config visit) : Ending Store Failure Response).result).cookies ↔
    ∃ profile identity linkUserId, visit.exchange = .ok profile ∧
      identityOf (profileOf profile) = .ok identity ∧
      getVerifiedLinkUserId config.signer visit.linkCookie = some linkUserId ∧
      (LinkedElsewhere identity linkUserId turns s ∨
        LinkGoesThrough identity linkUserId turns s) := by
  cases hexchange : visit.exchange with
  | error refusal =>
    rw [answered, mem_popupResponse_iff]
    refine iff_of_false ?_ ?_
    · cases refusal with
      | declined => exact not_isCaught_refused (by decide)
      | failed error => exact not_isCaught_of_isThrown ⟨error, rfl⟩
    · rintro ⟨profile, identity, userId, ⟨⟩, -⟩
  | ok profile =>
    cases hidentity : identityOf (profileOf profile) with
    | error exception =>
      have hvalidate : (validate config visit profile).run (storeTurns turns) s = _ :=
        run_validate_of_refused hidentity
      simp only [hvalidate, Ending.andThen_error, answered, mem_popupResponse_iff]
      refine iff_of_false (not_isCaught_refused (identityOf_error hidentity)) ?_
      rintro ⟨other, identity, userId, hother, hidentity', -⟩
      obtain rfl := Except.ok.inj hother
      cases hidentity.symm.trans hidentity'
    | ok identity =>
      refine (clears_iff_of_identity hverified hidentity).trans ?_
      constructor
      · exact fun h => ⟨profile, identity, linkUserId, rfl, hidentity, hverified, h⟩
      · rintro ⟨other, identity', userId, hother, hidentity', hverified', h⟩
        obtain rfl := Except.ok.inj hother
        obtain rfl := Except.ok.inj (hidentity.symm.trans hidentity')
        obtain rfl := Option.some.inj (hverified.symm.trans hverified')
        exact h

/-- A return with a verified link cookie is answered by clearing it exactly when it ends the
intent. -/
theorem clears_iff_endsIntent {linkUserId : String} (hreturn : visit.isReturn = true)
    (hverified : getVerifiedLinkUserId config.signer visit.linkCookie = some linkUserId) :
    clearLinkCookie ∈ (answered config
      ((handled config visit).run (storeTurns turns) s).result).cookies ↔
    EndsIntent config visit turns s := by
  cases herror : visit.parameters.error.truthy with
  | true =>
    obtain ⟨failure, hfails, hnot⟩ := not_isCaught_of_error herror
    rw [hfails, answered, mem_popupResponse_iff]
    exact iff_of_false hnot fun h => Bool.noConfusion (herror.symm.trans h.1.1)
  | false =>
    have hcode : visit.carriesCode := by
      rw [CallbackVisit.isReturn, herror, Bool.false_or] at hreturn
      exact ⟨herror, hreturn⟩
    rw [EndsIntent, and_iff_right hcode]
    by_cases hstate : visit.StateMatches config
    · rw [imp_iff_right hstate]
      cases hconfigured : config.isConfigured visit.provider with
      | false =>
        rw [run_handled_of_not_configured hcode hstate hconfigured, answered,
          mem_popupResponse_iff]
        refine iff_of_false (not_isCaught_refused ?_) fun h => Bool.false_ne_true h.1
        cases visit.provider <;> decide
      | true =>
        rw [run_handled_of_stateMatches hcode hstate hconfigured, and_iff_right rfl]
        exact clears_iff_of_exchange hverified
    · rw [run_handled_of_not_stateMatches hcode hstate, answered, mem_popupResponse_iff]
      exact iff_of_true ⟨oAuthStateMismatchException, by decide, rfl⟩ fun h => absurd h hstate

end Responses

section Jars

variable {config : OAuthRoutesConfig} {jar : CookieJar} {now : Nat} {name : String}

/-- The name of the cookie that a change is about. -/
def changedName : CookieChange → String
  | .set name _ _ => name
  | .clear name _ => name

/-- A change leaves the other cookies. -/
theorem apply_of_ne {change : CookieChange} (h : changedName change ≠ name) :
    jar.apply now change name = jar name := by
  cases change with
  | set other value options => exact Function.update_of_ne (Ne.symm h) ..
  | clear other path => exact CookieJar.apply_clear_of_ne (Ne.symm h)

/-- So do any number of changes. -/
theorem foldl_apply_of_ne {changes : List CookieChange}
    (h : ∀ change ∈ changes, changedName change ≠ name) :
    changes.foldl (CookieJar.apply now) jar name = jar name := by
  induction changes generalizing jar with
  | nil => rfl
  | cons change changes ih =>
    obtain ⟨hchange, hchanges⟩ := List.forall_mem_cons.mp h
    rw [List.foldl_cons, ih hchanges, apply_of_ne hchange]

/-- A guard changes the state cookie of its provider, and no other. -/
theorem changedName_of_oauthAuthenticateOptions {oauth : OAuthConfig} {provider : OAuthProvider}
    {request : OAuthRequest} {stateBytes verifierBytes : Vector UInt8 32} {change : CookieChange}
    (h : change ∈ (oauthAuthenticateOptions oauth provider request stateBytes verifierBytes).2) :
    changedName change = cookieName provider := by
  cases herror : (request.query.getD .empty).error.truthy with
  | true =>
    rw [oauthAuthenticateOptions_error oauth provider request _ _ rfl herror] at h
    cases h
  | false =>
    cases hcode : (request.query.getD .empty).code.truthy with
    | true =>
      rw [oauthAuthenticateOptions_code oauth provider request _ _ rfl herror hcode] at h
      rw [List.mem_singleton.mp h]
      rfl
    | false =>
      rw [oauthAuthenticateOptions_start oauth provider request _ _ rfl herror hcode] at h
      rw [List.mem_singleton.mp h]
      rfl

/-- The state cookies have names of their own. -/
theorem cookieName_ne_linkCookieName (provider : OAuthProvider) :
    cookieName provider ≠ linkCookieName := by
  cases provider <;> decide

/-- The link cookie of a jar was set by a link start. -/
def LinkCookieSigned (config : OAuthRoutesConfig) (jar : CookieJar) : Prop :=
  ∀ cookie, jar linkCookieName = some cookie → cookie.path = "/" ∧
    ∃ userId, userId ≠ "" ∧ cookie.value = config.signer.sign userId

/-- The controller clears the link cookie, or changes none. -/
theorem cookies_authCallback (visit : CallbackVisit) (user : JwtPayload)
    (turns : List (Turn Store Failure)) (s : Store) :
    (answered config ((authCallback config visit user).run turns s).result).cookies = [] ∨
    (answered config ((authCallback config visit user).run turns s).result).cookies =
      [clearLinkCookie] := by
  rw [authCallback]
  split
  · exact Or.inr rfl
  · rw [handleOAuthCallback, Program.run_bind]
    generalize (AuthService.createOAuthExchangeCode _ _ _).run turns s = mint
    obtain ⟨t, later, result⟩ := mint
    cases result with
    | error failure => exact cookies_popupResponse
    | ok code => exact Or.inl rfl

/-- So does a callback as a whole. -/
theorem cookies_handled (visit : CallbackVisit) (turns : List (Turn Store Failure)) (s : Store) :
    (answered config ((handled config visit).run turns s).result).cookies = [] ∨
    (answered config ((handled config visit).run turns s).result).cookies = [clearLinkCookie] := by
  rw [handled, Program.run_bind]
  cases (getAuthenticateOptions config visit).1 with
  | error exception => exact cookies_popupResponse
  | ok options =>
    rw [run_admitted_ok, Ending.andThen_ok, Program.run_bind]
    generalize (authenticate config visit).run turns s = authenticated
    obtain ⟨t, later, result⟩ := authenticated
    cases result with
    | error failure => exact cookies_popupResponse
    | ok user =>
      cases user with
      | none => exact Or.inl rfl
      | some user => exact cookies_authCallback visit user later t

/-- What a callback leaves of the link cookie. -/
theorem linkCookie_of_response (h : LinkCookieSigned config jar) (visit : CallbackVisit)
    {response : Response}
    (hresponse : response.cookies = [] ∨ response.cookies = [clearLinkCookie]) :
    (guarded config visit response).cookies.foldl (CookieJar.apply now) jar linkCookieName =
    if clearLinkCookie ∈ response.cookies then none else jar linkCookieName := by
  have hguard : ∀ jar : CookieJar, (getAuthenticateOptions config visit).2.foldl
      (CookieJar.apply now) jar linkCookieName = jar linkCookieName := fun jar =>
    foldl_apply_of_ne fun change hchange => by
      rw [changedName_of_oauthAuthenticateOptions hchange]
      exact cookieName_ne_linkCookieName visit.provider
  simp only [guarded, List.foldl_append]
  rcases hresponse with hnil | hclear
  · rw [hnil, List.foldl_nil, hguard, if_neg List.not_mem_nil]
  · rw [hclear, if_pos (List.mem_singleton.mpr rfl), List.foldl_cons, List.foldl_nil]
    refine CookieJar.apply_clear_self fun cookie hcookie => ?_
    rw [hguard] at hcookie
    exact (h cookie hcookie).1

end Jars

/-- The browser still sends the link cookie. -/
def BrowserState.SendsIntent (s : BrowserState) : Prop :=
  ∃ cookie, s.jar linkCookieName = some cookie ∧ s.clock < cookie.expiresAt

section Steps

variable {config : OAuthRoutesConfig} {s t : BrowserState} {label : BrowserLabel}
  {visit : CallbackVisit}

/-- A cookie of a link start goes with every callback until it expires. -/
theorem linkCookie_request (h : LinkCookieSigned config s.jar) (visit : CallbackVisit) :
    (s.request visit).linkCookie =
      ((s.jar linkCookieName).filter fun cookie => decide (s.clock < cookie.expiresAt)).map
        StoredCookie.value := by
  simp only [CallbackVisit.linkCookie, BrowserState.request, CookieJar.sent]
  cases hcookie : s.jar linkCookieName with
  | none => rfl
  | some cookie =>
    have hscope : inScope cookie.path (cookiePath visit.provider) = true := by
      rw [(h cookie hcookie).1]
      cases visit.provider <;> decide
    simp only [hscope, Bool.true_and]
    by_cases hlive : s.clock < cookie.expiresAt
    · simp only [hlive, decide_true, if_true, Option.filter_some, Option.map_some]
    · simp only [hlive, decide_false, Bool.false_eq_true, if_false, Option.filter_some,
        Option.map_none]

/-- It does not go with one when it is gone or has expired. -/
theorem linkCookie_request_eq_none (h : LinkCookieSigned config s.jar) :
    (s.request visit).linkCookie = none ↔ ¬ s.SendsIntent := by
  rw [linkCookie_request h, Option.map_eq_none_iff, Option.filter_eq_none_iff]
  constructor
  · rintro hexpired ⟨cookie, hcookie, hlive⟩
    exact hexpired cookie hcookie (decide_eq_true hlive)
  · exact fun hnone cookie hcookie hlive => hnone ⟨cookie, hcookie, of_decide_eq_true hlive⟩

/-- When it goes with one, the strategy verifies it. -/
theorem getVerifiedLinkUserId_request (h : LinkCookieSigned config s.jar)
    (hsends : (s.request visit).linkCookie ≠ none) : ∃ userId,
      getVerifiedLinkUserId config.signer (s.request visit).linkCookie = some userId := by
  obtain ⟨value, hvalue⟩ := Option.ne_none_iff_exists'.mp hsends
  have hsent := hvalue
  rw [linkCookie_request h, Option.map_eq_some_iff] at hsent
  obtain ⟨cookie, hcookie, rfl⟩ := hsent
  obtain ⟨-, userId, hne, hsigned⟩ := h cookie (Option.filter_eq_some_iff.mp hcookie).1
  rw [hvalue, hsigned]
  exact ⟨userId, getVerifiedLinkUserId_sign config.signer hne⟩

/-- An intent is spent when the cookie does not go with a callback any more. -/
theorem intentSpent_iff (h : LinkCookieSigned config s.jar) :
    IntentSpent config s ↔ (s.pending = false → ¬ s.SendsIntent) := by
  constructor
  · intro hspent hpending
    exact (linkCookie_request_eq_none h).mp
      (hspent hpending (adaVisit config .google none)).1
  · intro hspent hpending visit
    have hnone := (@linkCookie_request_eq_none config s visit h).mpr (hspent hpending)
    refine ⟨hnone, ?_, ?_⟩
    · rw [CallbackVisit.performsLink, hnone]
      exact Bool.false_ne_true
    · rw [CallbackVisit.isLinkFlow, hnone]
      rfl

/-- A signed-in user starts a link. -/
theorem step_startLink (config : OAuthRoutesConfig) (s : BrowserState) (provider : OAuthProvider)
    {userId : String} (h : userId ≠ "") : (browser config).step s (.startLink provider userId) =
      some { s.receive (rememberLinkIntent config userId) with pending := true } := by
  simp only [browser, if_neg h]

/-- The start of a link leaves its cookie behind. -/
theorem startLink_eq_some {provider : OAuthProvider} {userId : String}
    (hstep : (browser config).step s (.startLink provider userId) = some t) :
    userId ≠ "" ∧ t.pending = true ∧ ∃ expiresAt,
      t.jar linkCookieName = some ⟨config.signer.sign userId, "/", expiresAt⟩ := by
  obtain ⟨hne, hstep⟩ := Option.ite_none_left_eq_some.mp hstep
  obtain rfl := Option.some.inj hstep
  have hjar : (s.receive (rememberLinkIntent config userId)).jar = Function.update s.jar
      linkCookieName (some ⟨config.signer.sign userId, "/",
        s.clock + linkCookieMaxAgeSeconds * 1000⟩) := rfl
  exact ⟨hne, rfl, _, (congrFun hjar linkCookieName).trans (Function.update_self ..)⟩

/-- The start of a login leaves the link cookie alone. -/
theorem startLogin_eq_some {provider : OAuthProvider} {stateBytes verifierBytes : Vector UInt8 32}
    (hstep : (browser config).step s (.startLogin provider stateBytes verifierBytes) = some t) :
    t.clock = s.clock ∧ t.pending = s.pending ∧
      t.jar linkCookieName = s.jar linkCookieName := by
  obtain rfl := Option.some.inj hstep
  refine ⟨rfl, rfl, foldl_apply_of_ne fun change hchange => ?_⟩
  rw [changedName_of_oauthAuthenticateOptions hchange]
  exact cookieName_ne_linkCookieName provider

/-- What a callback leaves behind. -/
theorem callback_eq_some (h : LinkCookieSigned config s.jar)
    {turns : List (Turn Store ThrownError)}
    (hstep : (browser config).step s (.callback visit turns) = some t) :
    t.clock = s.clock ∧ t.pending = (if visit.isReturn then false else s.pending) ∧
    t.jar linkCookieName = if clearLinkCookie ∈ (answered config
      ((handled config (s.request visit)).run (storeTurns turns) s.store).result).cookies
      then none else s.jar linkCookieName := by
  simp only [browser, BrowserState.afterCallback, run_callback] at hstep
  obtain rfl := Option.some.inj hstep
  exact ⟨rfl, rfl, linkCookie_of_response h _ (cookies_handled ..)⟩

/-- A callback is always answered. -/
theorem exists_callback (s : BrowserState) (visit : CallbackVisit)
    (turns : List (Turn Store ThrownError)) :
    ∃ t, (browser config).step s (.callback visit turns) = some t := by
  simp only [browser, BrowserState.afterCallback, run_callback]
  exact ⟨_, rfl⟩

/-- Every step keeps the link cookie signed. -/
theorem LinkCookieSigned.step (h : LinkCookieSigned config s.jar)
    (hstep : (browser config).step s label = some t) : LinkCookieSigned config t.jar := by
  intro cookie hcookie
  cases label with
  | tick ms =>
    obtain rfl := Option.some.inj hstep
    exact h cookie hcookie
  | startLink provider userId =>
    obtain ⟨hne, -, expiresAt, hjar⟩ := startLink_eq_some hstep
    obtain rfl := Option.some.inj (hjar.symm.trans hcookie)
    exact ⟨rfl, userId, hne, rfl⟩
  | startLogin provider stateBytes verifierBytes =>
    obtain ⟨-, -, hjar⟩ := startLogin_eq_some hstep
    exact h cookie (hjar.symm.trans hcookie)
  | callback visit turns =>
    obtain ⟨-, -, hjar⟩ := callback_eq_some h hstep
    rw [hjar] at hcookie
    split at hcookie
    · cases hcookie
    · exact h cookie hcookie

/-- A callback leaves the intent spent exactly when it is no return with the link cookie, or one
that ends the intent. -/
theorem spendsIntent_callback_iff (h : LinkCookieSigned config s.jar)
    (hspent : IntentSpent config s)
    {turns : List (Turn Store ThrownError)}
    (hstep : (browser config).step s (.callback visit turns) = some t) :
    SpendsIntent config s (.callback visit turns) ↔ IntentSpent config t := by
  have ht := h.step hstep
  obtain ⟨hclock, hpending, hjar⟩ := callback_eq_some h hstep
  rw [intentSpent_iff ht]
  by_cases hsends : (s.request visit).linkCookie = none
  · -- The browser has nothing to send, and a callback gives it nothing.
    refine iff_of_true (fun _ hne => absurd hsends hne) fun _ hsent => ?_
    rw [linkCookie_request_eq_none h] at hsends
    obtain ⟨cookie, hcookie, hlive⟩ := hsent
    rw [hjar] at hcookie
    split at hcookie
    · cases hcookie
    · exact hsends ⟨cookie, hcookie, hclock ▸ hlive⟩
  · obtain ⟨userId, hverified⟩ := getVerifiedLinkUserId_request h hsends
    have hlive : s.SendsIntent := by
      by_contra hnot
      exact hsends ((linkCookie_request_eq_none h).mpr hnot)
    cases hreturn : visit.isReturn with
    | false =>
      refine iff_of_true (fun hisReturn => ?_) fun hnone => ?_
      · cases hreturn.symm.trans hisReturn
      · rw [hpending, hreturn] at hnone
        exact absurd hlive ((intentSpent_iff h).mp hspent hnone)
    | true =>
      have hclears := @clears_iff_endsIntent config (s.request visit) turns s.store userId hreturn
        hverified
      have hsent : t.SendsIntent ↔ clearLinkCookie ∉ (answered config ((handled config
          (s.request visit)).run (storeTurns turns) s.store).result).cookies := by
        rw [BrowserState.SendsIntent, hjar, hclock]
        split
        · next hmem =>
          exact iff_of_false (fun ⟨_, hcookie, _⟩ => nomatch hcookie) (not_not_intro hmem)
        · next hnot => exact iff_of_true hlive hnot
      simp only [SpendsIntent, hreturn, true_implies, hpending, if_true, hsent, not_not]
      exact ⟨fun hends => hclears.mpr (hends hsends), fun hmem _ => hclears.mp hmem⟩

/-- A step leaves the intent spent exactly when it is no return with the link cookie, or one that
ends the intent. -/
theorem spendsIntent_iff (h : LinkCookieSigned config s.jar) (hspent : IntentSpent config s) :
    SpendsIntent config s label ↔
      ∀ t, (browser config).step s label = some t → IntentSpent config t := by
  cases label with
  | callback visit turns =>
    obtain ⟨t, ht⟩ := @exists_callback config s visit turns
    rw [spendsIntent_callback_iff h hspent ht]
    exact ⟨fun hkept u hu => Option.some.inj (ht.symm.trans hu) ▸ hkept, fun hkept => hkept t ht⟩
  | tick ms =>
    refine iff_of_true trivial fun t hstep => ?_
    have ht := h.step hstep
    obtain rfl := Option.some.inj hstep
    rw [intentSpent_iff h] at hspent
    rw [intentSpent_iff ht]
    rintro hpending ⟨cookie, hcookie, hlive⟩
    exact hspent hpending ⟨cookie, hcookie, Nat.lt_of_le_of_lt (Nat.le_add_right ..) hlive⟩
  | startLink provider userId =>
    refine iff_of_true trivial fun t hstep hpending => ?_
    rw [(startLink_eq_some hstep).2.1] at hpending
    cases hpending
  | startLogin provider stateBytes verifierBytes =>
    refine iff_of_true trivial fun t hstep => ?_
    obtain ⟨hclock, hpending, hjar⟩ := startLogin_eq_some hstep
    rw [intentSpent_iff h] at hspent
    rw [intentSpent_iff (h.step hstep), hpending, BrowserState.SendsIntent, hjar, hclock]
    exact hspent

end Steps

/-- An empty jar has no link cookie. -/
theorem linkCookieSigned_initial (config : OAuthRoutesConfig) (clock : Nat) (store : Store) :
    LinkCookieSigned config (BrowserState.initial clock store).jar := fun _ hcookie =>
  nomatch hcookie

/-- Without a link start there is no intent. -/
theorem intentSpent_initial (config : OAuthRoutesConfig) (clock : Nat) (store : Store) :
    IntentSpent config (.initial clock store) :=
  fun _ _ => ⟨rfl, Bool.false_ne_true, rfl⟩

/-- In every run of a browser each intent is spent by the first return that follows it exactly
when every return that brings the link cookie ends its intent. -/
theorem intentsSpent_iff (config : OAuthRoutesConfig) (clock : Nat) (store : Store)
    (labels : List BrowserLabel) :
    ((browser config).Meets (SpendsIntent config) (.initial clock store) labels ↔
      (browser config).Meets (fun s label => ∀ t, (browser config).step s label = some t →
        IntentSpent config t) (.initial clock store) labels) ∧
    ((browser config).Meets (SpendsIntent config) (.initial clock store) labels → ∀ t,
      (browser config).exec (.initial clock store) labels = some t → IntentSpent config t) := by
  have hsigned := linkCookieSigned_initial config clock store
  have hspent := intentSpent_initial config clock store
  refine ⟨?exact, ?run⟩
  case exact =>
    exact (browser config).meets_iff_keeps (fun s label t h hstep => LinkCookieSigned.step h hstep)
      (fun s label h hspent => spendsIntent_iff h hspent) hsigned hspent labels
  case run =>
    intro hmeets t hexec
    exact ((browser config).exec_invariant_of_meets
      (P := fun s => LinkCookieSigned config s.jar ∧ IntentSpent config s) ⟨hsigned, hspent⟩
      (fun s label t h hspends hstep =>
        ⟨h.1.step hstep, (spendsIntent_iff h.1 h.2).mp hspends t hstep⟩) hmeets hexec).2

/-- A user has started a link. -/
def linkStarted : BrowserState :=
  { (BrowserState.initial 0 Store.empty).receive (rememberLinkIntent bytesRoutes "u") with
    pending := true }

/-- The provider reports that the visitor has declined. -/
def declinedVisit : CallbackVisit :=
  { adaVisit bytesRoutes .google none with
    query := some ⟨.text "access_denied", .missing, .missing⟩ }

/-- After a link start whose visitor declines, the next callback is taken for a link. -/
theorem not_intentSpent_declined : ∃ t,
    (browser bytesRoutes).exec (.initial 0 Store.empty)
      [.startLink .google "u", .callback declinedVisit []] = some t ∧
    t.pending = false ∧
    (∀ visit, (t.request visit).performsLink bytesRoutes ∧
      (t.request visit).isLinkFlow = true) ∧
    ¬ IntentSpent bytesRoutes t := by
  have hstart : (browser bytesRoutes).step (.initial 0 Store.empty) (.startLink .google "u") =
      some linkStarted := step_startLink _ _ _ (by decide)
  have hsigned : LinkCookieSigned bytesRoutes linkStarted.jar :=
    (linkCookieSigned_initial bytesRoutes 0 Store.empty).step hstart
  obtain ⟨t, hcallback⟩ := @exists_callback bytesRoutes linkStarted declinedVisit []
  obtain ⟨hclock, hpending, hjar⟩ := callback_eq_some hsigned hcallback
  obtain ⟨failure, hfails, hnot⟩ := @not_isCaught_of_error bytesRoutes
    (linkStarted.request declinedVisit) [] linkStarted.store
    (show ("access_denied" != "") = true by decide)
  have hkept : t.jar linkCookieName = some ⟨bytesRoutes.signer.sign "u", "/", 300000⟩ := by
    rw [hjar, hfails, answered, if_neg (mem_popupResponse_iff.not.mpr hnot)]
    rfl
  have hcookie : ∀ visit,
      (t.request visit).linkCookie = some (bytesRoutes.signer.sign "u") := by
    intro visit
    rw [linkCookie_request (hsigned.step hcallback), hkept, hclock]
    rfl
  have hlink : ∀ visit, (t.request visit).performsLink bytesRoutes := by
    intro visit
    rw [CallbackVisit.performsLink, hcookie, getVerifiedLinkUserId_sign _ (by decide)]
    rfl
  refine ⟨t, ?exec, hpending, fun visit => ⟨hlink visit, isLinkFlow_of_performsLink (hlink visit)⟩,
    fun hspent => (hspent hpending declinedVisit).2.1 (hlink declinedVisit)⟩
  case exec => rw [Machine.exec_cons, hstart, Option.bind_some, Machine.exec_singleton, hcallback]

end VertexApi.App
