import VertexApi.App.LoginPrecedence
import VertexApi.App.OauthCallback

/-!
# Links and logins of one callback

The strategy links when the signature of the link cookie is valid; the controller closes the
popup of a link when the cookie is there. The two agree on every cookie but one that is
there without a valid signature: the strategy then logs in, and the controller closes the
popup without a code.
-/

namespace VertexApi.App

open Auth

/-- The strategy performs a link: the signature of the cookie is valid. -/
def CallbackVisit.performsLink (config : OAuthRoutesConfig) (visit : CallbackVisit) : Prop :=
  (getVerifiedLinkUserId config.signer visit.linkCookie).isSome = true

/-- The callback reaches the controller, with a user. -/
def Reaches (config : OAuthRoutesConfig) (visit : CallbackVisit) (turns : List (Turn Store Failure))
    (s : Store) (validated : Ending Store Failure JwtPayload) (user : JwtPayload) : Prop :=
  visit.carriesCode ∧ visit.StateMatches config ∧ config.isConfigured visit.provider = true ∧
  ∃ profile, visit.exchange = .ok profile ∧
    validated = (validate config visit profile).run turns s ∧ validated.result = .ok user

/-- What the strategy has run was `linkToExistingUser`, for the user of the cookie. -/
def RanLink (config : OAuthRoutesConfig) (visit : CallbackVisit) (turns : List (Turn Store Failure))
    (s : Store) (validated : Ending Store Failure JwtPayload) : Prop :=
  ∃ profile identity linkUserId, visit.exchange = .ok profile ∧
    identityOf (profileOf profile) = .ok identity ∧
    getVerifiedLinkUserId config.signer visit.linkCookie = some linkUserId ∧
    validated = (OAuthStrategy.linkToExistingUser identity linkUserId).run turns s

/-- What the strategy has run was `loginOrRegister`. -/
def RanLogin (config : OAuthRoutesConfig) (visit : CallbackVisit)
    (turns : List (Turn Store Failure)) (s : Store) (validated : Ending Store Failure JwtPayload) :
    Prop :=
  ∃ profile identity, visit.exchange = .ok profile ∧
    identityOf (profileOf profile) = .ok identity ∧
    validated = (OAuthStrategy.loginOrRegister config.adminEmail identity visit.userId
      visit.passwordHash visit.pick).run turns s

/-- The response closes the popup. -/
def ClosesPopup (ending : Ending Store Failure Response) : Prop :=
  ∃ response, ending.result = .ok response ∧ response.reply = .popupScript "window.close();"

/-- An exchange code is minted, and when that goes through, the response redirects with it. -/
def MintsAndRedirects (config : OAuthRoutesConfig) (visit : CallbackVisit)
    (validated : Ending Store Failure JwtPayload) (user : JwtPayload)
    (ending : Ending Store Failure Response) : Prop :=
  let mint := (AuthService.createOAuthExchangeCode config.hashExchangeCode user.sub
    visit.exchangeCode).run validated.turns validated.state
  ending.state = mint.state ∧ ∀ code, mint.result = .ok code → ∃ response,
    ending.result = .ok response ∧ response.reply =
      .redirect (config.callbackPage ++ "?code=" ++ JsString.encodeURIComponent code)

/-- With a link cookie, every callback of the provider that reaches the controller is taken for a
link by the controller exactly when the strategy has run its link, and is answered with a code
when the strategy has run its login. -/
def FlowsAgree (config : OAuthRoutesConfig) (provider : OAuthProvider)
    (linkCookie : Option String) : Prop :=
  ∀ visit : CallbackVisit, visit.provider = provider → visit.linkCookie = linkCookie →
    ∀ turns s validated user, Reaches config visit turns s validated user →
      (ClosesPopup ((callback config visit).run turns s) ↔ visit.performsLink config) ∧
      (visit.performsLink config → RanLink config visit turns s validated) ∧
      (¬ visit.performsLink config → RanLogin config visit turns s validated ∧
        MintsAndRedirects config visit validated user ((callback config visit).run turns s))

section Flows

variable {config : OAuthRoutesConfig} {visit : CallbackVisit} {turns : List (Turn Store Failure)}
  {s : Store} {validated : Ending Store Failure JwtPayload} {user : JwtPayload}

/-- What the callback does once it has reached the controller. -/
theorem Reaches.run_handled (h : Reaches config visit turns s validated user) :
    (handled config visit).run turns s =
      (authCallback config visit user).run validated.turns validated.state := by
  obtain ⟨hcode, hstate, hconfigured, profile, hexchange, rfl, hresult⟩ := h
  rw [run_handled_of_stateMatches hcode hstate hconfigured, hexchange]
  simp only [Ending.andThen, hresult]

/-- The strategy has run its link when it performs one, and its login otherwise. -/
theorem Reaches.ran (h : Reaches config visit turns s validated user) :
    (visit.performsLink config → RanLink config visit turns s validated) ∧
      (¬ visit.performsLink config → RanLogin config visit turns s validated) := by
  obtain ⟨-, -, -, profile, hexchange, rfl, hresult⟩ := h
  rw [CallbackVisit.performsLink]
  cases hidentity : identityOf (profileOf profile) with
  | error exception =>
    rw [run_validate_of_refused hidentity] at hresult
    cases hresult
  | ok identity =>
    have hrun : (validate config visit profile).run turns s = _ := run_validate hidentity
    cases hverified : getVerifiedLinkUserId config.signer visit.linkCookie with
    | some linkUserId =>
      rw [hverified] at hrun
      exact ⟨fun _ => ⟨profile, identity, linkUserId, hexchange, hidentity, hverified, hrun⟩,
        fun hnot => absurd rfl hnot⟩
    | none =>
      rw [hverified] at hrun
      exact ⟨nofun, fun _ => ⟨profile, identity, hexchange, hidentity, hrun⟩⟩

/-- The error of a callback does not close the popup as a link. -/
theorem popupResponse_ne_popupScript (failure : Failure) (script : String) :
    (popupResponse config failure).reply ≠ .popupScript script := by
  cases failure with
  | refused exception =>
    simp only [popupResponse]
    split
    · exact fun h => Reply.noConfusion h
    · exact fun h => Reply.noConfusion h
  | slugInUse | thrown | typeError => exact fun h => Reply.noConfusion h

/-- With a link cookie the controller closes the popup. -/
theorem Reaches.closesPopup (h : Reaches config visit turns s validated user)
    (hlink : visit.isLinkFlow = true) :
    ClosesPopup ((callback config visit).run turns s) := by
  rw [run_callback, h.run_handled, authCallback, if_pos hlink]
  exact ⟨_, rfl, rfl⟩

/-- Without one it mints an exchange code, and redirects with it. -/
theorem Reaches.mintsAndRedirects (h : Reaches config visit turns s validated user)
    (hlogin : ¬ visit.isLinkFlow = true) :
    ¬ ClosesPopup ((callback config visit).run turns s) ∧
      MintsAndRedirects config visit validated user ((callback config visit).run turns s) := by
  rw [run_callback, h.run_handled, authCallback, if_neg hlogin, handleOAuthCallback,
    Program.run_bind]
  simp only [ClosesPopup, MintsAndRedirects]
  generalize (AuthService.createOAuthExchangeCode _ _ _).run _ _ = mint
  obtain ⟨t, later, result⟩ := mint
  cases result with
  | ok code =>
    refine ⟨?_, rfl, ?_⟩
    · rintro ⟨response, hresponse, hreply⟩
      obtain rfl := Except.ok.inj hresponse
      cases hreply
    · intro minted hminted
      obtain rfl := Except.ok.inj hminted
      exact ⟨_, rfl, rfl⟩
  | error failure =>
    refine ⟨?_, rfl, ?_⟩
    · rintro ⟨response, hresponse, hreply⟩
      obtain rfl := Except.ok.inj hresponse
      exact popupResponse_ne_popupScript failure _ hreply
    · intro minted hminted
      cases hminted

/-- A cookie whose signature is verified is there. -/
theorem isLinkFlow_of_performsLink (h : visit.performsLink config) : visit.isLinkFlow = true := by
  simp only [CallbackVisit.performsLink, getVerifiedLinkUserId] at h
  simp only [CallbackVisit.isLinkFlow]
  cases htruthy : JsString.truthy visit.linkCookie with
  | some signedCookie => rfl
  | none =>
    rw [htruthy] at h
    cases h

end Flows

/-- A profile with an id, and with the address that its strategy asks for. -/
def adaProfile : (provider : OAuthProvider) → ProviderProfile provider
  | .google => ⟨"1", none, none, some ["ada@example.com"], none⟩
  | .github => ⟨"1", none, none, none, none⟩

/-- What the strategy takes from it. -/
def adaIdentity : OAuthProvider → ProviderIdentity
  | .google => ⟨.google, "1", "ada@example.com", "Google User", none⟩
  | .github => ⟨.github, "1", "github-1@guest.local", "GitHub User", none⟩

/-- The random bytes of an attempt. -/
def zeroBytes : Vector UInt8 32 := Vector.replicate 32 0

/-- The cookies of an attempt, and of a link intent. -/
def attemptCookies (signer : CookieSigner) (provider : OAuthProvider) (linkCookie : Option String)
    (name : String) : Option String :=
  if name = linkCookieName then linkCookie
  else if name = cookieName provider then
    some (signer.sign (createOAuthAttempt zeroBytes zeroBytes).cookieValue)
  else none

/-- The callback of an attempt, with the cookie of a link intent. -/
def adaVisit (config : OAuthRoutesConfig) (provider : OAuthProvider) (linkCookie : Option String) :
    CallbackVisit where
  provider := provider
  query := some ⟨.missing, .text "code", .text (createOAuthAttempt zeroBytes zeroBytes).state⟩
  cookies := attemptCookies config.signer provider linkCookie
  stateBytes := zeroBytes
  verifierBytes := zeroBytes
  exchange := .ok (adaProfile provider)
  refusal := .declined
  userId := "u"
  passwordHash := "hash"
  pick := 0
  exchangeCode := "c0de"

section Visits

variable (config : OAuthRoutesConfig) (provider : OAuthProvider) (linkCookie : Option String)

/-- It carries a code. -/
theorem adaVisit_carriesCode : (adaVisit config provider linkCookie).carriesCode :=
  ⟨rfl, show ("code" != "") = true by decide⟩

/-- It comes back with the state of its attempt. -/
theorem adaVisit_stateMatches : (adaVisit config provider linkCookie).StateMatches config := by
  refine ⟨createOAuthAttempt zeroBytes zeroBytes, ?_, rfl⟩
  have hname : cookieName provider ≠ linkCookieName := by cases provider <;> decide
  simp only [adaVisit, attemptCookies, if_neg hname, if_true]
  exact readOAuthAttempt_sign config.signer zeroBytes zeroBytes

/-- Its strategy knows whom it is about. -/
theorem identityOf_adaProfile :
    identityOf (profileOf (adaProfile provider)) = .ok (adaIdentity provider) := by
  cases provider <;> decide

/-- It has the link cookie. -/
theorem adaVisit_linkCookie : (adaVisit config provider linkCookie).linkCookie = linkCookie := by
  simp only [CallbackVisit.linkCookie, adaVisit, attemptCookies, if_true]

/-- The row of its first login. -/
def adaUser : User :=
  newProviderUser config.adminEmail (adaIdentity provider) "u" "hash" Store.empty.clock

/-- Without a verified link cookie it signs in as a new user, and reaches the controller. -/
theorem adaVisit_reaches {linkCookie : Option String}
    (hconfigured : config.isConfigured provider = true)
    (hlink : getVerifiedLinkUserId config.signer linkCookie = none)
    (turns : List (Turn Store Failure)) :
    Reaches config (adaVisit config provider linkCookie) (⟨id, none⟩ :: ⟨id, none⟩ :: turns)
      Store.empty
      ⟨{ Store.empty with users := [adaUser config provider] }, turns,
        .ok (toJwtPayload (adaUser config provider))⟩
      (toJwtPayload (adaUser config provider)) := by
  refine ⟨adaVisit_carriesCode .., adaVisit_stateMatches .., hconfigured, adaProfile provider, rfl,
    ?_, rfl⟩
  have hrun : (validate config (adaVisit config provider linkCookie) (adaProfile provider)).run
      (⟨id, none⟩ :: ⟨id, none⟩ :: turns) Store.empty = _ :=
    run_validate (identityOf_adaProfile provider)
  rw [hrun, adaVisit_linkCookie, hlink]
  rfl

end Visits

/-- The two sides agree on the callbacks of a provider with credentials exactly when the cookie
is absent, empty, or validly signed over the id of a user. -/
theorem flowsAgree_iff (config : OAuthRoutesConfig) (provider : OAuthProvider)
    (hconfigured : config.isConfigured provider = true) (linkCookie : Option String) :
    FlowsAgree config provider linkCookie ↔ linkCookie = none ∨ linkCookie = some "" ∨
      ∃ userId, getVerifiedLinkUserId config.signer linkCookie = some userId := by
  constructor
  · intro h
    cases hverified : getVerifiedLinkUserId config.signer linkCookie with
    | some userId => exact Or.inr (Or.inr ⟨userId, rfl⟩)
    | none =>
      have hreaches := adaVisit_reaches config provider hconfigured hverified []
      have hlink := adaVisit_linkCookie config provider linkCookie
      have hagree := (h _ rfl hlink _ _ _ _ hreaches).1
      have hflow : (adaVisit config provider linkCookie).isLinkFlow ≠ true := by
        intro hflow
        have hlinks := hagree.mp (hreaches.closesPopup hflow)
        rw [CallbackVisit.performsLink, hlink, hverified] at hlinks
        cases hlinks
      rw [CallbackVisit.isLinkFlow, hlink, ne_eq, Option.isSome_iff_exists, not_exists] at hflow
      cases linkCookie with
      | none => exact Or.inl rfl
      | some value =>
        by_cases hempty : value = ""
        · exact Or.inr (Or.inl (congrArg some hempty))
        · exact absurd (JsString.truthy_eq_some.mpr ⟨rfl, hempty⟩) (hflow value)
  · intro hcookie visit hprovider hlink turns s validated user hreaches
    have hflow : visit.isLinkFlow = true → visit.performsLink config := by
      intro hflow
      obtain ⟨value, hvalue⟩ := Option.isSome_iff_exists.mp hflow
      rw [hlink] at hvalue
      obtain ⟨hsome, hne⟩ := JsString.truthy_eq_some.mp hvalue
      rcases hcookie with rfl | rfl | ⟨userId, hverified⟩
      · cases hsome
      · exact absurd (Option.some.inj hsome).symm hne
      · rw [CallbackVisit.performsLink, hlink, hverified]
        rfl
    by_cases hisLink : visit.isLinkFlow = true
    · exact ⟨iff_of_true (hreaches.closesPopup hisLink) (hflow hisLink), hreaches.ran.1,
        fun hnot => absurd (hflow hisLink) hnot⟩
    · obtain ⟨hcloses, hmints⟩ := hreaches.mintsAndRedirects hisLink
      exact ⟨iff_of_false hcloses fun hperforms => hisLink (isLinkFlow_of_performsLink hperforms),
        hreaches.ran.1, fun hnot => ⟨hreaches.ran.2 hnot, hmints⟩⟩

/-- Routes that sign cookies and hash codes by their bytes. -/
def bytesRoutes : OAuthRoutesConfig :=
  { bytesStrategies with
    sha256 := lowBytes
    hashExchangeCode := id
    nodeEnv := none
    frontendUrl := none
    isConfigured := fun _ => true }

/-- On the signed id of a user the two sides agree. -/
theorem flowsAgree_iff_signedId :
    FlowsAgree bytesRoutes .google (some (bytesRoutes.signer.sign "u")) := by
  refine (flowsAgree_iff bytesRoutes .google rfl _).mpr (Or.inr (Or.inr ⟨"u", ?_⟩))
  exact getVerifiedLinkUserId_sign _ (by decide)

/-- Turns in which nothing happens. -/
def quietTurns : List (Turn Store Failure) := [⟨id, none⟩, ⟨id, none⟩]

/-- With a cookie that nobody has signed, the strategy makes a new user of the callback, and the
controller closes the popup without an exchange code. -/
theorem not_flowsAgree_unsigned :
    let visit := adaVisit bytesRoutes .github (some "forged")
    let ending := (callback bytesRoutes visit).run quietTurns Store.empty
    ¬ visit.performsLink bytesRoutes ∧ ClosesPopup ending ∧
    ending.state = { Store.empty with users := [adaUser bytesRoutes .github] } ∧
    ¬ FlowsAgree bytesRoutes .github (some "forged") := by
  have hverified : getVerifiedLinkUserId bytesRoutes.signer (some "forged") = none := by
    have hunsign : bytesRoutes.signer.unsign "forged" = ⟨false, none⟩ :=
      macSigner_unsign_of_dotless (fun _ => dot_notMem_base64url _) (by decide)
    have hcookie := JsString.truthy_eq_some.mpr ⟨rfl, show "forged" ≠ "" by decide⟩
    simp only [getVerifiedLinkUserId, hcookie, hunsign, Bool.false_eq_true, if_false]
  have hlink := adaVisit_linkCookie bytesRoutes .github (some "forged")
  have hlogin : ¬ (adaVisit bytesRoutes .github (some "forged")).performsLink bytesRoutes := by
    rw [CallbackVisit.performsLink, hlink, hverified]
    exact Bool.false_ne_true
  have hflow : (adaVisit bytesRoutes .github (some "forged")).isLinkFlow = true := by
    rw [CallbackVisit.isLinkFlow, hlink]
    decide
  have hreaches := adaVisit_reaches bytesRoutes .github rfl hverified []
  have hcloses := hreaches.closesPopup hflow
  refine ⟨hlogin, hcloses, ?state, fun h => hlogin ?agree⟩
  case state =>
    rw [quietTurns, run_callback, hreaches.run_handled, authCallback, if_pos hflow]
    rfl
  case agree => exact (h _ rfl hlink _ _ _ _ hreaches).1.mp hcloses

end VertexApi.App
