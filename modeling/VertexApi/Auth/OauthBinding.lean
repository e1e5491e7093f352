import VertexApi.Auth.OauthBrowsers

/-!
# Callbacks are bound to the attempt of their browser

A jar holds the cookie of an attempt exactly as long as the attempt is the latest one of
its browser and provider and no code came back since. A callback therefore passes only
for the pending attempt, hands over the verifier of that attempt, and uses it up.
-/

namespace VertexApi.Auth

universe u

variable {β : Type u}

/-- The attempt is the latest one of its browser and provider, no code was presented since,
and it has not expired. -/
def PendingAttempt (s : BrowsersState β) (key : β × OAuthProvider) (started : StartedAttempt) :
    Prop :=
  (∃ before after, s.history = before ++ .issued key started :: after ∧
    (∀ visit, .presented key visit ∉ after) ∧ ∀ other, .issued key other ∉ after) ∧
  s.clock < started.expiresAt

variable [DecidableEq β]

/-- The jars hold the cookies of the live attempts and nothing else. -/
structure Remembered (config : OAuthConfig) (s : BrowsersState β) : Prop where
  live : ∀ browser provider started, tokenOf (browser, provider) s.history = .live started →
    (∃ visit : OAuthVisit β, started = visit.started config started.startedAt) ∧
    s.jars browser (cookieName provider) = some (started.cookie config provider)
  gone : ∀ browser provider, (∀ started, tokenOf (browser, provider) s.history ≠ .live started) →
    s.jars browser (cookieName provider) = none

namespace Remembered

variable {config : OAuthConfig} {s t : BrowsersState β}

/-- No jar holds anything at the start. -/
theorem initial (clock : Nat) : Remembered config (BrowsersState.initial clock : BrowsersState β)
    where
  live _ _ _ h := by cases h
  gone _ _ _ := rfl

/-- A cookie in a jar is that of the live attempt. -/
theorem of_jar (h : Remembered config s) {browser : β} {provider : OAuthProvider}
    {cookie : StoredCookie} (hcookie : s.jars browser (cookieName provider) = some cookie) :
    ∃ started, tokenOf (browser, provider) s.history = .live started ∧
      (∃ visit : OAuthVisit β, started = visit.started config started.startedAt) ∧
      cookie = started.cookie config provider := by
  by_cases hlive : ∃ started, tokenOf (browser, provider) s.history = .live started
  · obtain ⟨started, hstarted⟩ := hlive
    obtain ⟨hvisit, hjar⟩ := h.live browser provider started hstarted
    rw [hjar] at hcookie
    exact ⟨started, hstarted, hvisit, (Option.some.inj hcookie).symm⟩
  · rw [h.gone browser provider fun started hstarted => hlive ⟨started, hstarted⟩] at hcookie
    cases hcookie

/-- A change at one browser and provider has to be looked at there only. -/
theorem of_key (h : Remembered config s) (browser : β) (provider : OAuthProvider)
    (hjars : ∀ b p, (b, p) ≠ (browser, provider) →
      t.jars b (cookieName p) = s.jars b (cookieName p))
    (htokens : ∀ key, key ≠ (browser, provider) → tokenOf key t.history = tokenOf key s.history)
    (hlive : ∀ started, tokenOf (browser, provider) t.history = .live started →
      (∃ visit : OAuthVisit β, started = visit.started config started.startedAt) ∧
      t.jars browser (cookieName provider) = some (started.cookie config provider))
    (hgone : (∀ started, tokenOf (browser, provider) t.history ≠ .live started) →
      t.jars browser (cookieName provider) = none) : Remembered config t := by
  refine ⟨fun b p started hstarted => ?live, fun b p hnot => ?gone⟩
  case live =>
    by_cases he : (b, p) = (browser, provider)
    · obtain ⟨rfl, rfl⟩ := Prod.mk.inj he
      exact hlive started hstarted
    · rw [htokens _ he] at hstarted
      rw [hjars b p he]
      exact h.live b p started hstarted
  case gone =>
    by_cases he : (b, p) = (browser, provider)
    · obtain ⟨rfl, rfl⟩ := Prod.mk.inj he
      exact hgone hnot
    · rw [htokens _ he] at hnot
      rw [hjars b p he]
      exact h.gone b p hnot

/-- The jar of another browser, or the cookie of another provider, is not touched. -/
theorem update_of_key_ne {jars : β → CookieJar} {browser b : β} {provider p : OAuthProvider}
    {jar : CookieJar} (h : (b, p) ≠ (browser, provider))
    (hjar : p ≠ provider → jar (cookieName p) = jars browser (cookieName p)) :
    Function.update jars browser jar b (cookieName p) = jars b (cookieName p) := by
  by_cases hb : b = browser
  · subst hb
    rw [Function.update_self]
    exact hjar fun hp => h (by rw [hp])
  · rw [Function.update_of_ne hb]

/-- A visit with a code leaves no attempt in the jar. -/
theorem carriesCode (h : Remembered config s) {visit : OAuthVisit β} (hvisit : visit.carriesCode) :
    Remembered config (s.visit config visit) := by
  rw [visit_of_carriesCode hvisit]
  refine h.of_key visit.browser visit.provider ?_ ?_ ?_ ?_
  · intro b p hkey
    refine update_of_key_ne hkey fun hp => ?_
    exact CookieJar.apply_clear_of_ne (mt cookieName_inj.mp hp)
  · intro key hkey
    rw [tokenOf_snoc, Token.after_presented_of_ne (Ne.symm hkey)]
  · intro started hstarted
    rw [tokenOf_snoc] at hstarted
    exact absurd hstarted (Token.after_presented_ne_live _ _ _ started)
  · intro _
    dsimp only
    rw [Function.update_self]
    refine CookieJar.apply_clear_self fun cookie hcookie => ?_
    obtain ⟨started, -, -, rfl⟩ := h.of_jar hcookie
    rfl

/-- A start leaves its attempt in the jar. -/
theorem startsAttempt (h : Remembered config s) {visit : OAuthVisit β}
    (hvisit : visit.startsAttempt) : Remembered config (s.visit config visit) := by
  rw [visit_of_startsAttempt hvisit]
  refine h.of_key visit.browser visit.provider ?_ ?_ ?_ ?_
  · intro b p hkey
    refine update_of_key_ne hkey fun hp => ?_
    exact Function.update_of_ne (mt cookieName_inj.mp hp) ..
  · intro key hkey
    rw [tokenOf_snoc, Token.after_issued_of_ne (Ne.symm hkey)]
  · intro started hstarted
    rw [tokenOf_snoc, Token.after_issued] at hstarted
    obtain rfl := Token.live.inj hstarted
    dsimp only
    rw [Function.update_self, Function.update_self]
    exact ⟨⟨visit, rfl⟩, rfl⟩
  · intro hnot
    rw [tokenOf_snoc, Token.after_issued] at hnot
    exact absurd rfl (hnot _)

/-- Every step keeps the jars to the live attempts. -/
theorem step (h : Remembered config s) {label : BrowsersLabel β}
    (hstep : (browsers config).step s label = some t) : Remembered config t := by
  cases label with
  | tick ms =>
    obtain rfl := Option.some.inj hstep
    exact ⟨h.live, h.gone⟩
  | visit visit =>
    obtain rfl := Option.some.inj hstep
    rcases visit.kind with herror | hcode | hstart
    · rw [visit_of_reportsError herror]
      exact h
    · exact h.carriesCode hcode
    · exact h.startsAttempt hstart

end Remembered

/-- The jars hold the cookies of the live attempts in every reachable state. -/
theorem remembered_of_exec {config : OAuthConfig} {clock : Nat} {labels : List (BrowsersLabel β)}
    {s : BrowsersState β} (h : (browsers config).exec (.initial clock) labels = some s) :
    Remembered config s :=
  (browsers config).exec_invariant (Remembered.initial clock) (fun _ _ _ hm => hm.step) h

section Answers

variable {config : OAuthConfig} {s : BrowsersState β} {visit : OAuthVisit β}

/-- A callback sends the cookie of the pending attempt, and a start sends none. -/
theorem Remembered.cookie_eq_some (h : Remembered config s) {value : String} :
    (s.request visit).cookies (cookieName visit.provider) = some value ↔
      visit.route = .callback ∧ ∃ started,
        PendingAttempt s (visit.browser, visit.provider) started ∧
        value = config.signer.sign started.attempt.cookieValue := by
  simp only [BrowsersState.request, CookieJar.sent, PendingAttempt, ← tokenOf_live_iff]
  cases hjar : s.jars visit.browser (cookieName visit.provider) with
  | none =>
    simp only [reduceCtorEq, false_iff, not_and, not_exists]
    intro _ started hlive
    rw [(h.live _ _ started hlive.1).2] at hjar
    cases hjar
  | some cookie =>
    obtain ⟨started, hstarted, -, rfl⟩ := h.of_jar hjar
    simp only [StartedAttempt.cookie, Bool.and_eq_true, inScope_cookiePath,
      Option.ite_none_right_eq_some, Option.some.injEq, hstarted, Token.live.injEq]
    constructor
    · rintro ⟨⟨hroute, htime⟩, rfl⟩
      exact ⟨hroute, started, ⟨rfl, of_decide_eq_true htime⟩, rfl⟩
    · rintro ⟨hroute, _, ⟨rfl, htime⟩, rfl⟩
      exact ⟨⟨hroute, decide_eq_true htime⟩, rfl⟩

/-- The attempt that a visit reads back is the pending one. -/
theorem Remembered.readOAuthAttempt_eq_some (h : Remembered config s) {attempt : OAuthAttempt} :
    readOAuthAttempt config.signer ((s.request visit).cookies (cookieName visit.provider)) =
        some attempt ↔
      visit.route = .callback ∧ ∃ started,
        PendingAttempt s (visit.browser, visit.provider) started ∧ attempt = started.attempt := by
  have hread : ∀ started, PendingAttempt s (visit.browser, visit.provider) started →
      readOAuthAttempt config.signer (some (config.signer.sign started.attempt.cookieValue)) =
        some started.attempt := by
    rintro started ⟨hlive, -⟩
    obtain ⟨⟨source, hsource⟩, -⟩ := h.live _ _ started (tokenOf_live_iff.mpr hlive)
    rw [hsource]
    exact readOAuthAttempt_sign ..
  cases hcookie : (s.request visit).cookies (cookieName visit.provider) with
  | none =>
    simp only [readOAuthAttempt, reduceCtorEq, false_iff, not_and, not_exists]
    intro hroute started hpending _
    rw [h.cookie_eq_some.mpr ⟨hroute, started, hpending, rfl⟩] at hcookie
    cases hcookie
  | some value =>
    obtain ⟨hroute, started, hpending, rfl⟩ := h.cookie_eq_some.mp hcookie
    rw [hread started hpending]
    constructor
    · rintro ⟨⟩
      exact ⟨hroute, started, hpending, rfl⟩
    · rintro ⟨-, other, hother, rfl⟩
      rw [← hread other hother]
      rw [h.cookie_eq_some.mpr ⟨hroute, other, hother, rfl⟩] at hcookie
      rw [hcookie, hread started hpending]

/-- How the API has to answer a visit. -/
structure AttemptPaired (config : OAuthConfig) (s : BrowsersState β) (visit : OAuthVisit β) : Prop
    where
  /-- A verifier is returned for the pending attempt of this browser and provider only, on a
  callback with its code and its state; it is the one whose hash was sent out. -/
  returns : ∀ codeVerifier, Returns config s visit codeVerifier ↔
    visit.route = .callback ∧ visit.carriesCode ∧ ∃ started,
      PendingAttempt s (visit.browser, visit.provider) started ∧
      visit.queryState = .text started.attempt.state ∧
      codeVerifier = started.attempt.codeVerifier ∧
      started.options.codeChallenge = some (codeChallengeFor config codeVerifier)
  /-- Every other code is refused. -/
  refuses : visit.carriesCode → (∀ codeVerifier, ¬Returns config s visit codeVerifier) →
    (s.respond config visit).1 = .error oAuthStateMismatchException
  /-- A code uses up the pending attempt. -/
  consumes : visit.carriesCode → (∀ started,
      ¬PendingAttempt (s.visit config visit) (visit.browser, visit.provider) started) ∧
    (s.visit config visit).jars visit.browser (cookieName visit.provider) = none
  /-- A reported error is passed on and leaves everything as it is. -/
  passes : visit.reportsError →
    (s.respond config visit).1 = .ok ⟨none, none, none⟩ ∧ s.visit config visit = s

end Answers

/-- In every run of the browsers, each visit is answered from the attempt that its own
browser has pending for the provider, which a code uses up. -/
theorem attempts_paired (config : OAuthConfig) (clock : Nat) {labels : List (BrowsersLabel β)}
    {s : BrowsersState β} (h : (browsers config).exec (.initial clock) labels = some s)
    (visit : OAuthVisit β) : AttemptPaired config s visit := by
  have hs := remembered_of_exec h
  refine ⟨fun codeVerifier => ?returns, respond_of_not_returns, fun hcode => ?consumes,
    fun herror => ?passes⟩
  case returns =>
    rw [returns_iff]
    constructor
    · rintro ⟨hcode, attempt, hread, hstate, rfl⟩
      obtain ⟨hroute, started, hpending, rfl⟩ := hs.readOAuthAttempt_eq_some.mp hread
      obtain ⟨⟨source, hsource⟩, -⟩ := hs.live _ _ started (tokenOf_live_iff.mpr hpending.1)
      refine ⟨hroute, hcode, started, hpending, hstate, rfl, ?_⟩
      rw [hsource]
      rfl
    · rintro ⟨hroute, hcode, started, hpending, hstate, rfl, -⟩
      exact ⟨hcode, started.attempt,
        hs.readOAuthAttempt_eq_some.mpr ⟨hroute, started, hpending, rfl⟩, hstate, rfl⟩
  case consumes =>
    have hnot : ∀ started, tokenOf (visit.browser, visit.provider)
        (s.visit config visit).history ≠ .live started := by
      intro started
      rw [visit_of_carriesCode hcode, tokenOf_snoc]
      exact Token.after_presented_ne_live _ _ _ started
    refine ⟨fun started hpending => hnot started (tokenOf_live_iff.mpr hpending.1), ?_⟩
    exact (hs.carriesCode hcode).gone _ _ hnot
  case passes =>
    exact ⟨congrArg Prod.fst (respond_of_reportsError herror), visit_of_reportsError herror⟩

/-- The start of a login in one browser. -/
def googleStart (browser : Nat) (byte : UInt8) : OAuthVisit Nat where
  browser := browser
  provider := .google
  route := .start
  query := none
  stateBytes := Vector.replicate 32 byte
  verifierBytes := Vector.replicate 32 (byte + 1)

/-- The callback of a login in one browser, with a code and the state of those bytes. -/
def googleCallback (browser : Nat) (byte : UInt8) : OAuthVisit Nat where
  browser := browser
  provider := .google
  route := .callback
  query := some ⟨.missing, .text "code", .text (base64url (Vector.replicate 32 byte).toList)⟩
  stateBytes := Vector.replicate 32 0
  verifierBytes := Vector.replicate 32 0

/-- Two browsers that have each started a login. -/
def twoLogins : BrowsersState Nat :=
  (browsers bytesConfig).run (.initial 0)
    [.visit (googleStart 0 10), .tick 5, .visit (googleStart 1 20)] (by rfl)

/-- The callback of the first browser after both have started gets its own verifier. -/
theorem attempts_paired_twoLogins : AttemptPaired bytesConfig twoLogins (googleCallback 0 10) ∧
    Returns bytesConfig twoLogins (googleCallback 0 10)
      (googleStart 0 10).attempt.codeVerifier := by
  have hpaired : AttemptPaired bytesConfig twoLogins (googleCallback 0 10) :=
    attempts_paired bytesConfig 0 ((browsers bytesConfig).exec_run ..) _
  have hpending : PendingAttempt twoLogins (0, .google)
      ((googleStart 0 10).started bytesConfig 0) := by
    refine ⟨⟨[], [.issued (1, .google) ((googleStart 1 20).started bytesConfig 5)], rfl, ?_, ?_⟩,
      ?_⟩
    · intro visit hmem
      cases List.mem_singleton.mp hmem
    · intro other hmem
      cases List.mem_singleton.mp hmem
    · decide
  exact ⟨hpaired, (hpaired.returns _).mpr ⟨rfl, ⟨rfl, by decide⟩, _, hpending, rfl, rfl, rfl⟩⟩

end VertexApi.Auth
