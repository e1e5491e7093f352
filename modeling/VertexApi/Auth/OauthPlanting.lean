import VertexApi.Auth.OauthBinding

/-!
# Planted state cookies

Everyone but the victim is the attacker: he visits the routes with any number of browsers,
reads the cookies they receive, and writes cookies into the victim's jar. He cannot forge
a signature, so a value that he writes is one that the signer rejects or one that the API
has signed for him. The signature covers the attempt and not the browser, so the latter
kind is as good as the victim's own.
-/

namespace VertexApi.Auth

universe u

variable {β : Type u}

/-- The browsers, and the cookie values that the attacker has received. -/
structure PlantingState (β : Type u) where
  browsers : BrowsersState β
  held : List String

/-- The steps of a run. -/
inductive PlantingLabel (β : Type u) where
  | api (label : BrowsersLabel β)
  /-- The attacker writes a cookie into a jar. -/
  | plant (browser : β) (name : String) (cookie : StoredCookie)
  deriving DecidableEq

/-- The values of the cookies that a response sets. -/
def cookieValues (changes : List CookieChange) : List String :=
  changes.filterMap fun
    | .set _ value _ => some value
    | .clear .. => none

/-- Whether a browser sends the cookie on some route of the provider. -/
def StoredCookie.sendable (cookie : StoredCookie) (provider : OAuthProvider) (now : Nat) : Prop :=
  now < cookie.expiresAt ∧ ∃ route : OAuthRoute,
    inScope cookie.path (route.path provider) = true

/-- Every callback that gets a verifier in the browser carries the state of an attempt that
this browser started. -/
def OnlyOwnStates (config : OAuthConfig) (victim : β) (s : BrowsersState β) : Prop :=
  ∀ (visit : OAuthVisit β) codeVerifier, visit.browser = victim →
    Returns config s visit codeVerifier →
    ∃ provider started, .issued (victim, provider) started ∈ s.history ∧
      visit.queryState = .text started.attempt.state

/-- The step gives the victim no state cookie that the API has signed for the attacker and
that the browser will send. -/
def PlantsNoSigned (victim : β) (s : PlantingState β) (label : PlantingLabel β) : Prop :=
  ∀ provider cookie, label = .plant victim (cookieName provider) cookie →
    cookie.sendable provider s.browsers.clock → cookie.value ∉ s.held

section Machine

variable [DecidableEq β] (config : OAuthConfig) (victim : β)

namespace PlantingState

/-- Empty jars, and nothing held. -/
def initial (clock : Nat) : PlantingState β where
  browsers := .initial clock
  held := []

/-- What the attacker receives in a step. -/
def received (s : PlantingState β) : BrowsersLabel β → List String
  | .tick _ => []
  | .visit visit =>
    if visit.browser = victim then [] else cookieValues (s.browsers.respond config visit).2

/-- A write to a jar. -/
def plant (s : PlantingState β) (browser : β) (name : String) (cookie : StoredCookie) :
    PlantingState β :=
  { s with browsers := { s.browsers with
    jars := Function.update s.browsers.jars browser
      (Function.update (s.browsers.jars browser) name (some cookie)) } }

end PlantingState

/-- The browsers and the attacker as one machine. -/
def plantings : Machine (PlantingState β) (PlantingLabel β) where
  step s
    | .api label => ((browsers config).step s.browsers label).map fun t =>
      ⟨t, s.held ++ s.received config victim label⟩
    | .plant browser name cookie =>
      if cookie.value ∈ s.held ∨ (config.signer.unsign cookie.value).valid = false then
        some (s.plant browser name cookie)
      else none

end Machine

section Cookies

variable {config : OAuthConfig} {victim : β} {s t : BrowsersState β}

/-- What a visit adds to the history, and to the jar of its own browser only. -/
structure Untouched (victim : β) (s t : BrowsersState β) : Prop where
  clock : s.clock ≤ t.clock
  jar : t.jars victim = s.jars victim
  history : ∀ event ∈ s.history, event ∈ t.history

/-- The cookies of the victim that will be sent are invalid or come from its own attempts. -/
def OwnCookies (config : OAuthConfig) (victim : β) (s : BrowsersState β) : Prop :=
  ∀ provider cookie, s.jars victim (cookieName provider) = some cookie →
    cookie.sendable provider s.clock → (config.signer.unsign cookie.value).valid = true →
    ∃ visit : OAuthVisit β, ∃ now,
      .issued (victim, provider) (visit.started config now) ∈ s.history ∧
      cookie.value = config.signer.sign visit.attempt.cookieValue

/-- A cookie that is sent later is sent now. -/
theorem StoredCookie.sendable.mono {cookie : StoredCookie} {provider : OAuthProvider}
    {now later : Nat} (h : cookie.sendable provider later) (hle : now ≤ later) :
    cookie.sendable provider now := ⟨Nat.lt_of_le_of_lt hle h.1, h.2⟩

/-- A cookie that comes with a visit is in the jar, and is one that the browser sends. -/
theorem exists_of_sent {visit : OAuthVisit β} {value : String}
    (h : (s.request visit).cookies (cookieName visit.provider) = some value) :
    ∃ cookie, s.jars visit.browser (cookieName visit.provider) = some cookie ∧
      cookie.value = value ∧ cookie.sendable visit.provider s.clock := by
  simp only [BrowsersState.request, CookieJar.sent] at h
  cases hjar : s.jars visit.browser (cookieName visit.provider) with
  | none => simp only [hjar, reduceCtorEq] at h
  | some cookie =>
    simp only [hjar, Option.ite_none_right_eq_some, Bool.and_eq_true, Option.some.injEq] at h
    exact ⟨cookie, rfl, h.2, of_decide_eq_true h.1.2, visit.route, h.1.1⟩

/-- A step that leaves the victim's jar alone keeps its cookies. -/
theorem OwnCookies.untouched (h : OwnCookies config victim s)
    (huntouched : Untouched victim s t) : OwnCookies config victim t := by
  intro provider cookie hjar hsend hvalid
  rw [huntouched.jar] at hjar
  obtain ⟨visit, now, hissued, hvalue⟩ :=
    h provider cookie hjar (hsend.mono huntouched.clock) hvalid
  exact ⟨visit, now, huntouched.history _ hissued, hvalue⟩

/-- With such cookies, every callback that gets a verifier carries a state of its own browser. -/
theorem OwnCookies.onlyOwnStates (h : OwnCookies config victim s) :
    OnlyOwnStates config victim s := by
  intro visit codeVerifier hvictim hreturns
  subst hvictim
  obtain ⟨-, attempt, hread, hstate, -⟩ := returns_iff.mp hreturns
  obtain ⟨value, hcookie, -⟩ := exists_of_readOAuthAttempt hread
  obtain ⟨cookie, hjar, hvalue, hsend⟩ := exists_of_sent hcookie
  have hvalid : (config.signer.unsign cookie.value).valid = true := by
    rw [hvalue, config.signer.unsign_sign]
  obtain ⟨source, now, hissued, hsource⟩ := h visit.provider cookie hjar hsend hvalid
  have hattempt : attempt = source.attempt := by
    rw [hcookie, ← hvalue, hsource] at hread
    exact (Option.some.inj ((readOAuthAttempt_sign ..).symm.trans hread)).symm
  exact ⟨visit.provider, _, hissued, by rw [hstate, hattempt]; rfl⟩

/-- A signed attempt in the jar is accepted from whoever repeats its state. -/
theorem returns_of_signed (source : OAuthVisit β) {provider : OAuthProvider}
    {cookie : StoredCookie} (hjar : s.jars victim (cookieName provider) = some cookie)
    (hsend : cookie.sendable provider s.clock)
    (hvalue : cookie.value = config.signer.sign source.attempt.cookieValue) :
    ∃ visit : OAuthVisit β, visit.browser = victim ∧
      visit.queryState = .text source.attempt.state ∧
      Returns config s visit source.attempt.codeVerifier := by
  obtain ⟨htime, route, hscope⟩ := hsend
  refine ⟨{ source with
    browser := victim
    provider := provider
    route := route
    query := some ⟨.missing, .text "code", .text source.attempt.state⟩ }, rfl, rfl, ?_⟩
  refine returns_iff.mpr ⟨⟨rfl, rfl⟩, source.attempt, ?_, rfl, rfl⟩
  have hcookie : (s.jars victim).sent (route.path provider) s.clock (cookieName provider) =
      some (config.signer.sign source.attempt.cookieValue) := by
    simp only [CookieJar.sent, hjar, hscope, htime, decide_true, Bool.and_self, if_true, hvalue]
  exact (congrArg (readOAuthAttempt config.signer) hcookie).trans (readOAuthAttempt_sign ..)

/-- What a response sets is the cookie of the attempt it starts. -/
theorem mem_cookieValues {visit : OAuthVisit β} {value : String}
    (h : value ∈ cookieValues (s.respond config visit).2) :
    visit.startsAttempt ∧ value = config.signer.sign visit.attempt.cookieValue := by
  rcases visit.kind with herror | hcode | hstart
  · rw [respond_of_reportsError herror] at h
    cases h
  · rw [respond_of_carriesCode hcode] at h
    cases h
  · rw [respond_of_startsAttempt hstart] at h
    exact ⟨hstart, List.mem_singleton.mp h⟩

end Cookies

section Runs

variable [DecidableEq β] {config : OAuthConfig} {victim : β} {s t : PlantingState β}

/-- The victim's own visits keep its cookies. -/
theorem OwnCookies.visit {s : BrowsersState β} (h : OwnCookies config victim s)
    {visit : OAuthVisit β}
    (hvictim : visit.browser = victim) : OwnCookies config victim (s.visit config visit) := by
  subst hvictim
  rcases visit.kind with herror | hcode | hstart
  · rw [visit_of_reportsError herror]
    exact h
  · rw [visit_of_carriesCode hcode]
    intro provider cookie hjar hsend hvalid
    dsimp only at hjar hsend
    rw [Function.update_self] at hjar
    have hold : s.jars visit.browser (cookieName provider) = some cookie := by
      simp only [CookieJar.apply] at hjar
      split at hjar
      · by_cases hname : cookieName provider = cookieName visit.provider
        · rw [hname, Function.update_self] at hjar
          cases hjar
        · rwa [Function.update_of_ne hname] at hjar
      · exact hjar
    obtain ⟨source, now, hissued, hvalue⟩ := h provider cookie hold hsend hvalid
    exact ⟨source, now, List.mem_append_left _ hissued, hvalue⟩
  · rw [visit_of_startsAttempt hstart]
    intro provider cookie hjar hsend hvalid
    dsimp only at hjar hsend
    rw [Function.update_self] at hjar
    by_cases hname : provider = visit.provider
    · subst hname
      rw [Function.update_self] at hjar
      obtain rfl := Option.some.inj hjar
      exact ⟨visit, s.clock, List.mem_append_right _ (List.mem_singleton_self _), rfl⟩
    · rw [Function.update_of_ne (mt cookieName_inj.mp hname)] at hjar
      obtain ⟨source, now, hissued, hvalue⟩ := h provider cookie hjar hsend hvalid
      exact ⟨source, now, List.mem_append_left _ hissued, hvalue⟩

/-- A visit of another browser leaves the victim's jar alone. -/
theorem untouched_visit {s : BrowsersState β} {visit : OAuthVisit β}
    (hother : visit.browser ≠ victim) : Untouched victim s (s.visit config visit) where
  clock := Nat.le_refl _
  jar := Function.update_of_ne (Ne.symm hother) ..
  history _ hevent := List.mem_append_left _ hevent

/-- The values that the attacker holds are the cookies of attempts of other browsers. -/
def HeldSigned (config : OAuthConfig) (victim : β) (s : PlantingState β) : Prop :=
  ∀ value ∈ s.held, ∃ visit : OAuthVisit β, ∃ browser provider now, browser ≠ victim ∧
    .issued (browser, provider) (visit.started config now) ∈ s.browsers.history ∧
    value = config.signer.sign visit.attempt.cookieValue

/-- What a plant does: it writes a cookie that is held or invalid. -/
theorem step_plant {browser : β} {name : String} {cookie : StoredCookie} :
    (plantings config victim).step s (.plant browser name cookie) = some t ↔
      (cookie.value ∈ s.held ∨ (config.signer.unsign cookie.value).valid = false) ∧
      t = s.plant browser name cookie := by
  simp only [plantings, Option.ite_none_right_eq_some, Option.some.injEq, eq_comm (b := t)]

/-- A step of the API keeps what the attacker holds, and adds cookies of his own attempts. -/
theorem HeldSigned.step (h : HeldSigned config victim s) {label : PlantingLabel β}
    (hstep : (plantings config victim).step s label = some t) : HeldSigned config victim t := by
  cases label with
  | plant browser name cookie =>
    obtain ⟨-, rfl⟩ := step_plant.mp hstep
    exact h
  | api label =>
    cases label with
    | tick ms =>
      obtain rfl := Option.some.inj hstep
      intro value hvalue
      exact h value (by simpa only [PlantingState.received, List.append_nil] using hvalue)
    | visit visit =>
      obtain rfl := Option.some.inj hstep
      intro value hvalue
      rcases List.mem_append.mp hvalue with hold | hnew
      · obtain ⟨source, browser, provider, now, hother, hissued, he⟩ := h value hold
        exact ⟨source, browser, provider, now, hother, List.mem_append_left _ hissued, he⟩
      · by_cases hvictim : visit.browser = victim
        · simp only [PlantingState.received, if_pos hvictim, List.not_mem_nil] at hnew
        · simp only [PlantingState.received, if_neg hvictim] at hnew
          obtain ⟨hstart, he⟩ := mem_cookieValues hnew
          refine ⟨visit, visit.browser, visit.provider, s.browsers.clock, hvictim, ?_, he⟩
          dsimp only
          rw [visit_of_startsAttempt hstart]
          exact List.mem_append_right _ (List.mem_singleton_self _)

/-- A step that plants no signed cookie keeps the victim's cookies its own. -/
theorem OwnCookies.step (h : OwnCookies config victim s.browsers) {label : PlantingLabel β}
    (hplants : PlantsNoSigned victim s label)
    (hstep : (plantings config victim).step s label = some t) :
    OwnCookies config victim t.browsers := by
  cases label with
  | api label =>
    cases label with
    | tick ms =>
      obtain rfl := Option.some.inj hstep
      exact h.untouched ⟨Nat.le_add_right .., rfl, fun _ hevent => hevent⟩
    | visit visit =>
      obtain rfl := Option.some.inj hstep
      by_cases hvictim : visit.browser = victim
      · exact h.visit hvictim
      · exact h.untouched (untouched_visit hvictim)
  | plant browser name cookie =>
    obtain ⟨hallowed, rfl⟩ := step_plant.mp hstep
    intro provider found hjar hsend hvalid
    dsimp only [PlantingState.plant] at hjar hsend
    by_cases hkey : browser = victim ∧ name = cookieName provider
    · obtain ⟨rfl, rfl⟩ := hkey
      rw [Function.update_self, Function.update_self] at hjar
      obtain rfl := Option.some.inj hjar
      rcases hallowed with hheld | hinvalid
      · exact absurd hheld (hplants provider cookie rfl hsend)
      · rw [hinvalid] at hvalid
        cases hvalid
    · have hold : s.browsers.jars victim (cookieName provider) = some found := by
        by_cases hb : victim = browser
        · subst hb
          have hname : cookieName provider ≠ name := fun he => hkey ⟨rfl, he.symm⟩
          rwa [Function.update_self, Function.update_of_ne hname] at hjar
        · rwa [Function.update_of_ne hb] at hjar
      exact h provider found hold hsend hvalid

/-- The attacker holds cookies of his own attempts only. -/
theorem heldSigned_of_exec {clock : Nat} {labels : List (PlantingLabel β)}
    (h : (plantings config victim).exec (.initial clock) labels = some s) :
    HeldSigned config victim s :=
  (plantings config victim).exec_invariant (P := HeldSigned config victim)
    (by intro value hvalue; cases hvalue) (fun _ _ _ hm => hm.step) h

/-- In a run in which the attacker plants no state cookie that the API has signed for him,
the victim's browser accepts the states of its own attempts only; and as soon as he plants
one, it accepts the state of an attempt that another browser started. -/
theorem onlyOwnStates_of_plantsNoSigned (config : OAuthConfig) (victim : β) (clock : Nat)
    {labels : List (PlantingLabel β)}
    (h : (plantings config victim).exec (.initial clock) labels = some s)
    (hplants : (plantings config victim).Meets (PlantsNoSigned victim) (.initial clock) labels) :
    OnlyOwnStates config victim s.browsers ∧
    ∀ label t, (plantings config victim).step s label = some t → ¬PlantsNoSigned victim s label →
      ∃ visit codeVerifier browser provider started, visit.browser = victim ∧
        Returns config t.browsers visit codeVerifier ∧ browser ≠ victim ∧
        .issued (browser, provider) started ∈ t.browsers.history ∧
        visit.queryState = .text started.attempt.state := by
  have hown : OwnCookies config victim s.browsers :=
    (plantings config victim).exec_invariant_of_meets
      (P := fun s => OwnCookies config victim s.browsers)
      (by intro provider cookie hjar; cases hjar)
      (fun _ _ _ hm hlabel hstep => hm.step hlabel hstep) hplants h
  refine ⟨hown.onlyOwnStates, fun label t hstep hnot => ?_⟩
  simp only [PlantsNoSigned, not_forall, not_not] at hnot
  obtain ⟨provider, cookie, rfl, hsend, hheld⟩ := hnot
  obtain ⟨-, rfl⟩ := step_plant.mp hstep
  obtain ⟨source, browser, issuedFor, now, hother, hissued, hvalue⟩ :=
    heldSigned_of_exec h cookie.value hheld
  have hjar : (s.plant victim (cookieName provider) cookie).browsers.jars victim
      (cookieName provider) = some cookie := by
    simp only [PlantingState.plant, Function.update_self]
  obtain ⟨visit, hvictim, hstate, hreturns⟩ := returns_of_signed source hjar hsend hvalue
  exact ⟨visit, _, browser, issuedFor, _, hvictim, hreturns, hother, hissued, hstate⟩

/-- A browser has started a login, and the attacker holds the cookie if it is his. -/
def loginStarted (browser : Nat) (held : List String) : PlantingState Nat :=
  ⟨(BrowsersState.initial 0).visit bytesConfig (googleStart browser 10), held⟩

/-- The victim starts a login and is given a forged cookie for the other provider. -/
def forgingRun : List (PlantingLabel Nat) :=
  [.api (.visit (googleStart 0 10)), .plant 0 (cookieName .github) ⟨"forged", "/", 600000⟩]

/-- The forged cookie gets the attacker nowhere. -/
theorem onlyOwnStates_forgingRun : ∃ s, (plantings bytesConfig 0).exec (.initial 0) forgingRun =
    some s ∧ OnlyOwnStates bytesConfig 0 s.browsers := by
  have hstart : (plantings bytesConfig 0).step (.initial 0) (.api (.visit (googleStart 0 10))) =
      some (loginStarted 0 []) := rfl
  have hplant : (plantings bytesConfig 0).step (loginStarted 0 [])
      (.plant 0 (cookieName .github) ⟨"forged", "/", 600000⟩) =
      some ((loginStarted 0 []).plant 0 (cookieName .github) ⟨"forged", "/", 600000⟩) :=
    step_plant.mpr ⟨Or.inr (by decide), rfl⟩
  have hexec : (plantings bytesConfig 0).exec (.initial 0) forgingRun =
      some ((loginStarted 0 []).plant 0 (cookieName .github) ⟨"forged", "/", 600000⟩) := by
    simp only [forgingRun, Machine.exec_cons, Machine.exec_nil, hstart, hplant, Option.bind_some]
  refine ⟨_, hexec, (onlyOwnStates_of_plantsNoSigned bytesConfig 0 0 hexec ⟨?_, ?_, ?_⟩).1⟩
  · intro provider cookie he
    cases he
  · intro provider cookie he _ hheld
    cases hheld
  · split <;> trivial

/-- The attacker starts a login of his own and plants its cookie on the victim. -/
def plantingRun : List (PlantingLabel Nat) :=
  [.api (.visit (googleStart 1 10)), .plant 0 (cookieName .google)
    (((googleStart 1 10).started bytesConfig 0).cookie bytesConfig .google)]

/-- The victim's browser then accepts the attacker's state, though it started nothing. -/
theorem not_onlyOwnStates_plantingRun : ∃ s,
    (plantings bytesConfig 0).exec (.initial 0) plantingRun = some s ∧
    ¬OnlyOwnStates bytesConfig 0 s.browsers := by
  generalize hcookie :
    ((googleStart 1 10).started bytesConfig 0).cookie bytesConfig .google = cookie
  have hvalue : cookie.value = bytesConfig.signer.sign (googleStart 1 10).attempt.cookieValue := by
    rw [← hcookie]
    rfl
  have hsend : cookie.sendable .google 0 := by
    rw [← hcookie]
    exact ⟨by decide, .callback, by decide⟩
  have hstart : (plantings bytesConfig 0).step (.initial 0) (.api (.visit (googleStart 1 10))) =
      some (loginStarted 1 [cookie.value]) := by
    rw [hvalue]
    rfl
  have hplant : (plantings bytesConfig 0).step (loginStarted 1 [cookie.value])
      (.plant 0 (cookieName .google) cookie) =
      some ((loginStarted 1 [cookie.value]).plant 0 (cookieName .google) cookie) :=
    step_plant.mpr ⟨Or.inl (List.mem_singleton_self _), rfl⟩
  refine ⟨(loginStarted 1 [cookie.value]).plant 0 (cookieName .google) cookie, ?_, fun honly => ?_⟩
  · simp only [plantingRun, hcookie, Machine.exec_cons, Machine.exec_nil, hstart, hplant,
      Option.bind_some]
  · have hjar : ((loginStarted 1 [cookie.value]).plant 0 (cookieName .google) cookie).browsers.jars
        0 (cookieName .google) = some cookie := by
      simp only [PlantingState.plant, Function.update_self]
    obtain ⟨visit, hvictim, -, hreturns⟩ :=
      returns_of_signed (googleStart 1 10) hjar hsend hvalue
    obtain ⟨provider, started, hissued, -⟩ := honly visit _ hvictim hreturns
    cases List.mem_singleton.mp hissued

end Runs

end VertexApi.Auth
