import VertexApi.App.AccountWrites

/-!
# Where tokens come from

The row of an emailed code is that of a request for a code, and the row of an exchange code that
of a callback whose profile has matched a user or made one. A token is signed for a password
that was verified, for the code of such a row, or for the exchange code of such a row. So each
token goes back to something that only its user can show.
-/

namespace VertexApi.App

open About Auth Comments Posts Projects Topics Users

variable {τ : Type}

/-- The row of a code in the mail is that of a request for a code. -/
structure CodeRequested (config : SiteConfig τ) (request : Request τ) (row : EmailOtp) : Prop where
  drawn : ∃ body drawn, request.route = .requestOtp body drawn row.id ∧
    requestOtpSchema config.isEmail config.toLowerCase body = some row.email ∧
    row.codeHash = hashOtpCode config.api.sha256 row.email (otpCode drawn)
  attempts : row.attempts ≤ otpMaxAttempts

/-- The row of an exchange code is that of a callback, for the user of its profile. -/
structure CodeMinted (config : SiteConfig τ) (R : Rely Store) (s : Store) (request : Request τ)
    (row : OauthExchangeCode) (visit : CallbackVisit) (identity : ProviderIdentity) : Prop where
  route : request.route = .callback visit
  brings : BringsIdentity config request visit identity
  notLinking : visit.isLinkFlow = false
  codeHash : row.codeHash = config.hashExchangeCode visit.exchangeCode
  user : row.userId = visit.userId ∨ ∃ m existing, R.grows s m ∧ existing ∈ m.users ∧
    existing.id = row.userId ∧ matchesIdentity identity existing = true

/-- Every code of a site goes back to a request of the run. -/
structure CredentialsTraced (config : SiteConfig τ) (d : Site)
    (labels : List (CallLabel (Request τ) Failure Nat)) (s : Store) : Prop where
  emailOtps : ∀ row ∈ s.emailOtps, ∃ id request started,
    Started (site config) d labels id request started ∧ CodeRequested config request row
  exchangeCodes : ∀ row ∈ s.oauthExchangeCodes, ∃ id request started visit identity,
    Started (site config) d labels id request started ∧
    CodeMinted config (storesSince config d labels id) started.store request row visit identity

/-- What a request has shown for a token, over what was met since it was started. -/
inductive Earns (config : SiteConfig τ) (d : Site)
    (labels : List (CallLabel (Request τ) Failure Nat)) (R : Rely Store) (s : Store)
    (request : Request τ) : JwtPayload → Prop where
  | password {body : LoginDto} {m : Store} {user : User} (hroute : request.route = .login body)
    (hm : R.grows s m) (huser : user ∈ m.users) (hemail : user.email = body.email)
    (hpassword : config.argon2.verify user.passwordHash body.password = true) :
    Earns config d labels R s request (toJwtPayload user)
  | mailedCode {body bodyCode userId passwordHash email code : String} {m n o : Store}
    {row : EmailOtp} {user : User} {id : Nat} {earlier : Request τ} {started : Site}
    (hroute : request.route = .verifyOtp body bodyCode userId passwordHash)
    (hbody : verifyOtpSchema config.isEmail config.toLowerCase body bodyCode = some (email, code))
    (hm : R.grows s m) (hrow : findOtpByEmail m.emailOtps email = some row)
    (hstarted : Started (site config) d labels id earlier started)
    (hrequested : CodeRequested config earlier row)
    (hcode : row.codeHash = hashOtpCode config.api.sha256 email code) (hn : R.grows s n)
    (hlive : n.clock ≤ row.expiresAt) (hattempts : row.attempts < otpMaxAttempts)
    (ho : R.grows s o) (huser : findUserByEmail o.users email = some user ∨
      user = newOtpUser config.adminEmail email userId passwordHash o.clock)
    (hbanned : user.isBanned = false) :
    Earns config d labels R s request (otpClaims user)
  | provider {body code : String} {m n o : Store} {row : OauthExchangeCode} {user : User} {id : Nat}
    {earlier : Request τ} {started : Site} {visit : CallbackVisit} {identity : ProviderIdentity}
    (hroute : request.route = .exchange body) (hbody : exchangeSchema body = some code)
    (hm : R.grows s m) (hrow : (m.oauthExchangeCodes.find? fun row =>
      row.codeHash == config.hashExchangeCode code) = some row)
    (hstarted : Started (site config) d labels id earlier started)
    (hminted : CodeMinted config (storesSince config d labels id) started.store earlier row visit
      identity) (hn : R.grows s n) (hlive : n.clock ≤ row.expiresAt) (ho : R.grows s o)
    (huser : findUserById o.users row.userId = some user) :
    Earns config d labels R s request (toJwtPayload user)

section Steps

variable {config : SiteConfig τ} {R : Rely Store} {s t : Store} {request : Request τ}

/-- A request that inserts the row of a code has drawn it. -/
theorem codeRequested_of_permits {row : EmailOtp}
    (h : RequestPermits config R s request t (.store (.insertOtp row))) :
    CodeRequested config request row := by
  obtain ⟨m, guarded, call, hentered, -, hpermits⟩ := h
  have hhandles := handler_eq_ok hentered.handler
  generalize hroute : request.route = route at hhandles
  cases hpermits with
  | service hcall =>
    cases hcall with
    | insertCode =>
      cases hhandles with
      | requestOtp hbody =>
        exact { drawn := ⟨_, _, hroute, hbody, rfl⟩, attempts := Nat.zero_le _ }
  | startLogin _ _ _ hvalidate | callback _ _ _ hvalidate => cases hvalidate

/-- A code that is consumed is that of a live row. -/
theorem judge_eq_consume {sha256 : String → String} {row : EmailOtp} {email code : String}
    {now : Nat} (h : judge sha256 row email code now = .consume row) :
    now ≤ row.expiresAt ∧ row.attempts < otpMaxAttempts ∧
      row.codeHash = hashOtpCode sha256 email code := by
  rcases judge_cases sha256 row email code now with
    ⟨failure, hdrop⟩ | ⟨hlive, hattempts, ⟨-, hcount⟩ | ⟨hcode, -⟩⟩
  · rw [hdrop] at h
    cases h
  · rw [hcount] at h
    cases h
  · exact ⟨hlive, hattempts, hcode⟩

/-- A wrong code is counted up to the cap. -/
theorem attempts_le_of_permits {id : String} {attempts : Nat}
    (h : RequestPermits config R s request t (.store (.setAttempts id attempts))) :
    attempts ≤ otpMaxAttempts := by
  obtain ⟨m, guarded, call, -, -, hpermits⟩ := h
  cases hpermits with
  | service hcall =>
    cases hcall with
    | @countAttempt _ n _ email code _ _ row _ _ _ _ hjudged =>
      rcases judge_cases config.api.sha256 row email code n.clock with
        ⟨failure, hdrop⟩ | ⟨-, hattempts, -⟩
      · rw [hdrop] at hjudged
        cases hjudged
      · exact hattempts
  | startLogin _ _ _ hvalidate | callback _ _ _ hvalidate => cases hvalidate

/-- A request that mints an exchange code is a callback that does not link. -/
theorem codeMinted_of_permits {row : OauthExchangeCode}
    (h : RequestPermits config R s request t (.store (.insertExchangeCode row))) :
    ∃ visit identity, CodeMinted config R s request row visit identity := by
  obtain ⟨m, guarded, call, hentered, -, hpermits⟩ := h
  have hhandles := handler_eq_ok hentered.handler
  generalize hroute : request.route = route at hhandles
  cases hpermits with
  | mintCode hn ho ht hcode hstate hexchange hflow hpayload =>
    cases hhandles
    have hnone := getVerifiedLinkUserId_of_isLinkFlow config.signer hflow
    cases hpayload with
    | @login _ _ identity existing old hq _ _ hidentity _ hexisting hmatches hold =>
      have hid : (loggedIn identity existing old).id = existing.id :=
        ((UserEdit.login identity existing).apply_same old).id.trans (id_of_findUserById hold)
      exact ⟨_, identity, hroute, ⟨Or.inr hroute, hcode, hstate, _, hexchange, hidentity⟩, hflow,
        rfl, Or.inr ⟨_, existing, R.trans hentered.grows hq, hexisting, hid.symm, hmatches⟩⟩
    | @firstLogin _ identity _ _ hidentity =>
      refine ⟨_, identity, hroute, ⟨Or.inr hroute, hcode, hstate, _, hexchange, hidentity⟩, hflow,
        rfl, Or.inl ?_⟩
      simp only [toJwtPayload, newProviderUser, withLinkedId_id]
    | link hintent =>
      rw [hnone] at hintent
      cases hintent
  | service hcall =>
    cases hcall with
    | mintCode => cases hhandles
  | startLogin _ _ _ hvalidate | callback _ _ _ hvalidate => cases hvalidate

/-- Whose claims a request has signed. -/
theorem earns_of_permits {d : Site} {labels : List (CallLabel (Request τ) Failure Nat)}
    {payload : JwtPayload}
    (htraced : ∀ m, R.grows s m → CredentialsTraced config d labels m)
    (h : RequestPermits config R s request t (.store (.handOver (.signed payload)))) :
    Earns config d labels R s request payload := by
  obtain ⟨m, guarded, call, hentered, -, hpermits⟩ := h
  have hhandles := handler_eq_ok hentered.handler
  have hm := hentered.grows
  generalize hroute : request.route = route at hhandles
  cases hpermits with
  | login hn _ huser hpassword =>
    cases hhandles with
    | login hbody =>
      rw [loginSchema, Option.ite_none_right_eq_some] at hbody
      obtain rfl := Option.some.inj hbody.2
      have hmem := List.mem_of_find?_eq_some huser
      have hemail := List.find?_some huser
      exact .password hroute (R.trans hm hn) hmem (beq_iff_eq.mp hemail) hpassword
  | service hcall =>
    cases hcall with
    | sign => cases hhandles
    | @signExchanged n o q _ code row user hn ho hq _ hrow hlive huser =>
      cases hhandles with
      | exchange hbody =>
        obtain ⟨id, earlier, started, visit, identity, hstarted, hminted⟩ :=
          (htraced n (R.trans hm hn)).exchangeCodes row (List.mem_of_find?_eq_some hrow)
        exact .provider hroute hbody (R.trans hm hn) hrow hstarted hminted
          (R.trans hm (R.trans hn ho)) hlive (R.trans hm (R.trans hn (R.trans ho hq))) huser
    | @signVerified n o q _ email code _ _ row user hn ho hq _ hrow hjudged huser hbanned =>
      cases hhandles with
      | verifyOtp hbody =>
        obtain ⟨id, earlier, started, hstarted, hrequested⟩ :=
          (htraced n (R.trans hm hn)).emailOtps row (List.mem_of_find?_eq_some hrow)
        obtain ⟨hlive, hattempts, hcode⟩ := judge_eq_consume hjudged
        exact .mailedCode hroute hbody (R.trans hm hn) hrow hstarted hrequested hcode
          (R.trans hm (R.trans hn ho)) hlive hattempts (R.trans hm (R.trans hn (R.trans ho hq)))
          huser hbanned
  | startLogin _ _ _ hvalidate | callback _ _ _ hvalidate => cases hvalidate

/-- What is handed over is handed over by one kind of step. -/
theorem step_of_handing {u : Store} {step : TableStep} {outbound : Outbound}
    (h : TableMoves t step u) (hu : u.outbound = t.outbound ++ [outbound]) :
    step = .handOver outbound := by
  have hsame (he : t.outbound = t.outbound ++ [outbound]) : False :=
    List.cons_ne_nil _ _ (List.self_eq_append_right.mp he)
  cases h with
  | handOver =>
    obtain ⟨rfl, -⟩ := List.cons.inj (List.append_cancel_left hu)
    rfl
  | _ => exact (hsame hu).elim

end Steps

section Runs

variable {config : SiteConfig τ} {d : Site}
  {labels : List (CallLabel (Request τ) Failure Nat)} {label : CallLabel (Request τ) Failure Nat}
  {before after : CallState Site Failure (SiteAnswer τ)} {s t u : Store}

/-- The origin of a code stays when the run goes on. -/
theorem CredentialsTraced.append (h : CredentialsTraced config d labels s)
    (later : List (CallLabel (Request τ) Failure Nat)) :
    CredentialsTraced config d (labels ++ later) s where
  emailOtps row hrow := by
    obtain ⟨id, request, started, hstarted, hrequested⟩ := h.emailOtps row hrow
    exact ⟨id, request, started, hstarted.append later, hrequested⟩
  exchangeCodes row hrow := by
    obtain ⟨id, request, started, visit, identity, hstarted, hminted⟩ := h.exchangeCodes row hrow
    refine ⟨id, request, started, visit, identity, hstarted.append later,
      { hminted with user := hminted.user.imp_right ?_ }⟩
    rintro ⟨m, existing, hm, hrest⟩
    exact ⟨m, existing, metSince_append hm later, hrest⟩

/-- The steps of requests keep the origins. -/
theorem CredentialsTraced.permitted {id : Nat} {request : Request τ} {started : Site}
    {step : TableStep} (ht : CredentialsTraced config d labels t)
    (hstarted : Started (site config) d labels id request started)
    (h : RequestPermits config (storesSince config d labels id) started.store request t
      (.store step)) (hmoves : TableMoves t step u) : CredentialsTraced config d labels u := by
  cases hmoves with
  | insertOtp =>
    refine { ht with emailOtps := fun row hrow => ?_ }
    rcases List.mem_append.mp hrow with hrow | hrow
    · exact ht.emailOtps row hrow
    · obtain rfl := List.mem_singleton.mp hrow
      exact ⟨id, request, started, hstarted, codeRequested_of_permits h⟩
  | deleteOtpsOf | deleteOtp =>
    exact { ht with emailOtps := fun row hrow => ht.emailOtps row (List.mem_of_mem_filter hrow) }
  | setAttempts =>
    refine { ht with emailOtps := fun row hrow => ?_ }
    rcases mem_updateWhere.mp hrow with ⟨old, hold, -, rfl⟩ | ⟨hrow, -⟩
    · obtain ⟨id', request', started', hstarted', hrequested⟩ := ht.emailOtps old hold
      exact ⟨id', request', started', hstarted',
        { hrequested with attempts := attempts_le_of_permits h }⟩
    · exact ht.emailOtps row hrow
  | insertExchangeCode =>
    refine { ht with exchangeCodes := fun row hrow => ?_ }
    rcases List.mem_append.mp hrow with hrow | hrow
    · exact ht.exchangeCodes row hrow
    · obtain rfl := List.mem_singleton.mp hrow
      obtain ⟨visit, identity, hminted⟩ := codeMinted_of_permits h
      exact ⟨id, request, started, visit, identity, hstarted, hminted⟩
  | takeExchangeCode | pruneExchangeCodes | removeAccount =>
    exact { ht with
      exchangeCodes := fun row hrow => ht.exchangeCodes row (List.mem_of_mem_filter hrow) }
  | _ => exact { ht with }

/-- On a site that started without codes, every code goes back to a request of the run. -/
theorem credentials_traced (hotps : d.store.emailOtps = [])
    (hcodes : d.store.oauthExchangeCodes = [])
    (hrun : (site config).exec (.initial d) labels = some after) :
    CredentialsTraced config d labels after.state.store := by
  refine (site config).exec_induction
    (P := fun labels s => CredentialsTraced config d labels s.state.store) ?start
    (fun labels s label t hs ih _ hstep => ?step) (site_startsAny labels) hrun
  case start =>
    constructor
    · exact hotps ▸ fun _ => nofun
    · exact hcodes ▸ fun _ => nofun
  case step =>
    refine CredentialsTraced.append ?_ [label]
    rcases site_attributed_since (site_startsAny labels) hs hstep with
      hsame | ⟨ms, hpassing⟩ | ⟨id, request, started, step, -, hstarted, -, hpermits, hnext⟩
    · exact hsame ▸ ih
    · exact hpassing ▸ { ih with }
    · rcases store_of_sitePerformed hnext with ⟨tableStep, rfl, hstore⟩ | hstore
      · exact ih.permitted hstarted hpermits (performed_moves hstore)
      · exact hstore ▸ ih

/-- What is handed over is handed over by the step of a request. -/
theorem handed_over_by {outbound : Outbound}
    (hrun : (site config).exec (.initial d) labels = some before)
    (hstep : (site config).step before label = some after)
    (hhanded : after.state.store.outbound = before.state.store.outbound ++ [outbound]) :
    ∃ id request started, label = .step id ∧ Started (site config) d labels id request started ∧
      RequestPermits config (storesSince config d labels id) started.store request
        before.state.store (.store (.handOver outbound)) := by
  have hsame (he : after.state.store.outbound = before.state.store.outbound) : False :=
    List.cons_ne_nil _ _ (List.self_eq_append_right.mp (he.symm.trans hhanded))
  rcases site_attributed_since (site_startsAny labels) hrun hstep with
    hstays | ⟨ms, hpassing⟩ | ⟨id, request, started, step, hlabel, hstarted, -, hpermits, hnext⟩
  · exact (hsame (by rw [hstays])).elim
  · exact (hsame (by rw [hpassing]; rfl)).elim
  · rcases store_of_sitePerformed hnext with ⟨tableStep, rfl, hstore⟩ | hstore
    · obtain rfl := step_of_handing (performed_moves hstore) hhanded
      exact ⟨id, request, started, hlabel, hstarted, hpermits⟩
    · exact (hsame (by rw [hstore])).elim

/-- On a site that started without codes, a token is signed for a password that was verified, for
the code that an earlier request had mailed, or for the exchange code of an earlier callback. -/
theorem tokens_are_earned {payload : JwtPayload} (hotps : d.store.emailOtps = [])
    (hcodes : d.store.oauthExchangeCodes = [])
    (hrun : (site config).exec (.initial d) labels = some before)
    (hstep : (site config).step before label = some after)
    (hsigned : after.state.store.outbound = before.state.store.outbound ++ [.signed payload]) :
    ∃ id request started, label = .step id ∧ Started (site config) d labels id request started ∧
      Earns config d labels (storesSince config d labels id) started.store request payload := by
  obtain ⟨id, request, started, hlabel, hstarted, hpermits⟩ := handed_over_by hrun hstep hsigned
  refine ⟨id, request, started, hlabel, hstarted, earns_of_permits (fun m hm => ?_) hpermits⟩
  obtain ⟨former, later, reached, rfl, hreached, rfl⟩ := hstarted.reached hm
  exact (credentials_traced hotps hcodes hreached).append later

end Runs

/-- The member asks for a code, and signs in with it, up to the signature. -/
def signsInByMail : List (CallLabel (Request (Option (JwtPayload × Nat))) Failure Nat) :=
  .start 0 (Route.askedBy (.requestOtp "member@example.com" (Fin.last 999999) "otp") member) ::
    List.replicate 6 (.step 0) ++
    .start 1 (Route.askedBy (.verifyOtp "member@example.com" "999999" "u" "h") member) ::
    List.replicate 5 (.step 1)

/-- The site in front of the signature. -/
def codeTyped : CallState Site Failure (SiteAnswer (Option (JwtPayload × Nat))) :=
  (site bytesSite).run (.initial ownersSite) signsInByMail (by decide +kernel)

/-- The site behind it. -/
def signedIn : CallState Site Failure (SiteAnswer (Option (JwtPayload × Nat))) :=
  (site bytesSite).run (.initial ownersSite) (signsInByMail ++ [.step 1]) (by decide +kernel)

/-- The token was signed for the code of the mail. -/
theorem tokens_are_earned_by_mail : ∃ id request started,
    (.step 1 : CallLabel (Request (Option (JwtPayload × Nat))) Failure Nat) = .step id ∧
      Started (site bytesSite) ownersSite signsInByMail id request started ∧
      Earns bytesSite ownersSite signsInByMail (storesSince bytesSite ownersSite signsInByMail id)
        started.store request (otpClaims member) :=
  have hstep : (site bytesSite).step codeTyped (.step 1) = some signedIn :=
    (site bytesSite).step_run ..
  tokens_are_earned rfl rfl ((site bytesSite).exec_run ..) hstep (by decide +kernel)

end VertexApi.App
