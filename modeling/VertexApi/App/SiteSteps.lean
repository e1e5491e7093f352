import VertexApi.App.Permits
import VertexApi.App.Routes

/-!
# What each request may do to the site

The steps of the tables, those of the projects and of the about page are the steps of the site.
A request makes none of them before its guards have let it pass, and then those of its call
only. Every run of the site is a run of these steps, each of which some request may make that
was started before.
-/

namespace VertexApi.App

open About Auth Comments Posts Projects Topics Users

/-- One step of the site. -/
inductive SiteStep where
  | store (step : TableStep)
  | insertProject (row : Project)
  | updateProject (id : String) (updateProjectDto : UpdateProjectDto) (now : Nat)
  | removeProject (id : String)
  | insertAbout (row : AboutContent)
  | updateAbout (id : String) (updateAboutDto : UpdateAboutDto) (now : Nat)
  deriving DecidableEq, Repr

/-- The site after a step that it takes. -/
def sitePerformed (d : Site) : SiteStep → Option Site
  | .store step => (performed d.store step).map fun s => { d with store := s }
  | .insertProject row => (insertProject d.others.projects row).toOption.map d.withProjects
  | .updateProject id updateProjectDto now =>
    if (findProjectById d.others.projects id).isNone then none
    else some (d.withProjects (updateWhere Project.id id (editedProject updateProjectDto now)
      d.others.projects))
  | .removeProject id =>
    some (d.withProjects (d.others.projects.filter fun project => project.id != id))
  | .insertAbout row =>
    (insertRow AboutService.aboutColumns d.others.aboutContent row).toOption.map
      d.withAboutContent
  | .updateAbout id updateAboutDto now =>
    some (d.withAboutContent (updateWhere AboutContent.id id (written updateAboutDto now)
      d.others.aboutContent))

/-- The site, which takes steps in any order. -/
def siteTables : Machine Site SiteStep where
  step := sitePerformed

section Catalogue

variable {τ : Type}

/-- The steps that a call may make in a state, when its controller made it in another. -/
inductive SitePermits (config : SiteConfig τ) (R : Rely Store) (s : Store) :
    SiteCall τ → Store → SiteStep → Prop where
  | service {t : Store} {call : Call τ} {step : TableStep}
    (h : Permits config.api R s call t step) :
    SitePermits config R s (.service call) t (.store step)
  | login {m t : Store} {loginDto : LoginDto} {user : User} (hm : R.grows s m) (ht : R.grows m t)
    (huser : findUserByEmail m.users loginDto.email = some user)
    (hpassword : config.argon2.verify user.passwordHash loginDto.password = true) :
    SitePermits config R s (.login loginDto) t (.store (.handOver (.signed (toJwtPayload user))))
  | startLogin {t : Store} {visit : CallbackVisit} {profile : ProviderProfile visit.provider}
    {step : TableStep} (hcode : visit.carriesCode)
    (hstate : visit.StateMatches config.toOAuthRoutesConfig)
    (hexchange : visit.exchange = .ok profile)
    (h : Permits config.api R s (.validate (profileOf profile) visit.linkCookie visit.userId
      visit.passwordHash visit.pick) t step) :
    SitePermits config R s (.startLogin visit) t (.store step)
  | callback {t : Store} {visit : CallbackVisit} {profile : ProviderProfile visit.provider}
    {step : TableStep} (hcode : visit.carriesCode)
    (hstate : visit.StateMatches config.toOAuthRoutesConfig)
    (hexchange : visit.exchange = .ok profile)
    (h : Permits config.api R s (.validate (profileOf profile) visit.linkCookie visit.userId
      visit.passwordHash visit.pick) t step) :
    SitePermits config R s (.callback visit) t (.store step)
  | mintCode {m n t : Store} {visit : CallbackVisit} {profile : ProviderProfile visit.provider}
    {payload : JwtPayload} (hm : R.grows s m) (hn : R.grows m n) (ht : R.grows n t)
    (hcode : visit.carriesCode) (hstate : visit.StateMatches config.toOAuthRoutesConfig)
    (hexchange : visit.exchange = .ok profile) (hflow : visit.isLinkFlow = false)
    (hpayload : Identified config.toStrategyConfig R s m (profileOf profile) visit.linkCookie
      visit.userId visit.passwordHash payload) :
    SitePermits config R s (.callback visit) t (.store (.insertExchangeCode
      ⟨config.hashExchangeCode visit.exchangeCode, payload.sub,
        n.clock + oauthExchangeCodeTtlMs⟩))
  | pruneCodes {m t : Store} {visit : CallbackVisit} (hm : R.grows s m) (ht : R.grows m t) :
    SitePermits config R s (.callback visit) t (.store (.pruneExchangeCodes m.clock))
  | createTopic {t : Store} {createTopicDto : CreateTopicDto} {topicId : String} :
    SitePermits config R s (.createTopic createTopicDto topicId) t (.store (.insertTopic
      (newTopic config.normalizeNfd config.toLowerCase createTopicDto topicId t.clock)))
  | updateTopic {t : Store} {id : String} {updateTopicDto : CreateTopicDto} :
    SitePermits config R s (.updateTopic id updateTopicDto) t (.store (.renameTopic id
      updateTopicDto.name
      (Common.slugify config.normalizeNfd config.toLowerCase updateTopicDto.name)))
  | removeTopic {t : Store} {id : String} :
    SitePermits config R s (.removeTopic id) t (.store (.removeTopic id))
  | createProject {t : Store} {createProjectDto : CreateProjectDto} {projectId : String} :
    SitePermits config R s (.createProject createProjectDto projectId) t
      (.insertProject (newProject createProjectDto projectId t.clock))
  | updateProject {m t : Store} {id : String} {updateProjectDto : UpdateProjectDto}
    (hm : R.grows s m) (ht : R.grows m t) :
    SitePermits config R s (.updateProject id updateProjectDto) t
      (.updateProject id updateProjectDto m.clock)
  | removeProject {t : Store} {id : String} :
    SitePermits config R s (.removeProject id) t (.removeProject id)
  | about {t : Store} {rowId : String} {pick : Nat} :
    SitePermits config R s (.about rowId pick) t
      (.insertAbout (AboutOperation.newRow rowId t.clock .get))
  | newAbout {t : Store} {updateAboutDto : UpdateAboutDto} {rowId : String} {pick : Nat} :
    SitePermits config R s (.updateAbout updateAboutDto rowId pick) t
      (.insertAbout (AboutOperation.newRow rowId t.clock (.update updateAboutDto)))
  | updateAbout {m t : Store} {id : String} {updateAboutDto : UpdateAboutDto} {rowId : String}
    {pick : Nat} (hm : R.grows s m) (ht : R.grows m t) :
    SitePermits config R s (.updateAbout updateAboutDto rowId pick) t
      (.updateAbout id updateAboutDto m.clock)

/-- What the guards of a route have found between two states, when they let a request pass. -/
inductive Authorized (config : SiteConfig τ) (R : Rely Store) (accessToken : Option τ)
    (s t : Store) : Access → Guarded → Prop where
  | anyone : Authorized config R accessToken s t .anyone ⟨none, none⟩
  | identified {user : Option JwtPayload} (h : ∀ payload, user = some payload →
      ∃ currentUser, Admits R config.jwt accessToken s t ⟨payload, currentUser⟩) :
    Authorized config R accessToken s t .identified ⟨user, none⟩
  | session {request : GuardedRequest} (h : Admits R config.jwt accessToken s t request) :
    Authorized config R accessToken s t .session ⟨some request.user, request.currentUser⟩
  | admin {request : GuardedRequest} (h : Admits R config.jwt accessToken s t request)
    (hrole : request.user.role = .admin) :
    Authorized config R accessToken s t .admin ⟨some request.user, request.currentUser⟩

/-- A request has passed its guards and the validation of its body between two states, and its
controller makes a call. -/
structure Entered (config : SiteConfig τ) (R : Rely Store) (s : Store) (request : Request τ)
    (m : Store) (guarded : Guarded) (call : SiteCall τ) : Prop where
  global : globalGuards config request = .ok ()
  authorized : Authorized config R request.accessToken s m request.route.access guarded
  handler : request.route.handler config guarded = .ok call
  grows : R.grows s m

/-- The steps that a request may make in a state, when it was started in another. -/
def RequestPermits (config : SiteConfig τ) (R : Rely Store) (s : Store) (request : Request τ)
    (t : Store) (step : SiteStep) : Prop :=
  ∃ m guarded call, Entered config R s request m guarded call ∧ R.grows m t ∧
    SitePermits config R m call t step

end Catalogue

section Statements

variable {R : Rely Store} {Q : Site → SiteStep → Prop} {d : Site} {α : Type}

/-- An operation on the tables of the services behaves on the site as it does there. -/
theorem onStore_behaves {P : Store → TableStep → Prop} {V : Store → α → Prop} {p : Operation α}
    (h : p.Behaves R (tables.Performs P) V d.store)
    (hP : ∀ (t : Site) step, P t.store step → Q t (.store step)) :
    (onStore p).Behaves (R.comap Database.store) (siteTables.Performs Q) (fun t => V t.store)
      d := by
  refine h.zoom (fun _ _ ht => ht) fun t s ht => ?_
  rcases ht with rfl | ⟨step, hstep, hs⟩
  · exact .nothing
  · refine .label (hP t step hstep) ?_
    have hperformed : performed t.store step = some s := hs
    simp only [siteTables, sitePerformed, hperformed]
    rfl

/-- A statement of the site that is one step, or changes nothing. -/
theorem siteQuery_behaves {run : Site → Except Failure (Site × α)}
    (h : ∀ t u a, R.grows d.store t.store → run t = .ok (u, a) → siteTables.Performs Q t u) :
    (Program.query run).Behaves (R.comap Database.store) (siteTables.Performs Q)
      (fun t _ => R.grows d.store t.store) d :=
  .query (fun _ => .nothing) fun t u a ht hrun => ⟨h t u a ht hrun, ht⟩

theorem siteRead_behaves (f : Site → α) : (siteRead f).Behaves (R.comap Database.store)
    (siteTables.Performs Q) (fun t _ => R.grows d.store t.store) d := by
  refine siteQuery_behaves fun t u a _ hrun => ?_
  obtain ⟨rfl, -⟩ := Prod.mk.inj (Except.ok.inj hrun)
  exact .nothing

theorem siteNow_behaves : siteNow.Behaves (R.comap Database.store) (siteTables.Performs Q)
    (fun t a => R.grows d.store t.store ∧ a = t.store.clock) d := .look fun _ ht => ⟨ht, rfl⟩

end Statements

section Calls

variable {τ : Type} {config : SiteConfig τ} {R : Rely Store} {s : Store}

/-- A new topic is inserted, unless its name or its slug is taken. -/
theorem createTopic_behaves (createTopicDto : CreateTopicDto) (topicId : String) :
    (TopicsService.create config.normalizeNfd config.toLowerCase createTopicDto topicId).Behaves R
      (tables.Performs fun t step =>
        SitePermits config R s (.createTopic createTopicDto topicId) t (.store step))
      (fun _ _ => True) s := by
  refine .query (fun _ => .nothing) fun t u a _ hrun => ⟨?_, trivial⟩
  dsimp only at hrun
  split at hrun
  · cases hrun
  · next topics hinsert =>
    obtain ⟨rfl, -⟩ := Prod.mk.inj (Except.ok.inj hrun)
    refine .label .createTopic ?_
    simp only [tables, performed, hinsert]
    rfl

/-- A topic is renamed; one that has gone changes nothing. -/
theorem updateTopic_behaves (id : String) (updateTopicDto : CreateTopicDto) :
    (TopicsService.update config.normalizeNfd config.toLowerCase id updateTopicDto).Behaves R
      (tables.Performs fun t step =>
        SitePermits config R s (.updateTopic id updateTopicDto) t (.store step))
      (fun _ _ => True) s := by
  refine .bind (V := fun _ _ => True) ?_ fun _ topic _ => ?_
  · refine .query (fun _ => .nothing) fun t u a _ hrun => ⟨?_, trivial⟩
    split at hrun
    · cases hrun
    · next topics topic hupdate =>
      obtain ⟨rfl, rfl⟩ := Prod.mk.inj (Except.ok.inj hrun)
      cases topic with
      | none =>
        obtain ⟨-, rfl⟩ := updateRow_eq_ok_none.mp (mapError_eq_ok.mp hupdate)
        exact .nothing
      | some topic =>
        have hrename : Topics.updateTopic t.topics id (fun row => { row with
            name := updateTopicDto.name
            slug := Common.slugify config.normalizeNfd config.toLowerCase updateTopicDto.name }) =
            .ok (topics, some topic) := hupdate
        refine .label .updateTopic ?_
        simp only [tables, performed, hrename]
  · cases topic with
    | none => exact .throw _
    | some topic => exact .pure trivial

/-- A topic is removed, if it is there. -/
theorem removeTopic_behaves (id : String) :
    (TopicsService.remove id).Behaves R (tables.Performs fun t step =>
      SitePermits config R s (.removeTopic id) t (.store step)) (fun _ _ => True) s := by
  refine .bind (V := fun _ _ => True) ?_ fun _ topic _ => ?_
  · refine .query (fun _ => .nothing) fun t u a _ hrun => ⟨?_, trivial⟩
    split at hrun
    · obtain ⟨rfl, -⟩ := Prod.mk.inj (Except.ok.inj hrun)
      exact .nothing
    · next topic htopic =>
      obtain ⟨rfl, -⟩ := Prod.mk.inj (Except.ok.inj hrun)
      refine .label .removeTopic ?_
      simp only [tables, performed, htopic]
      rfl
  · cases topic with
    | none => exact .throw _
    | some topic => exact .pure trivial

/-- A login signs for the user of an address whose password it has verified. -/
theorem login_behaves (loginDto : LoginDto) :
    (AuthService.login config.argon2 config.jwt loginDto).Behaves R (tables.Performs fun t step =>
      SitePermits config R s (.login loginDto) t (.store step)) (fun _ _ => True) s := by
  refine (read_behaves _).bind fun m user ⟨hm, huser⟩ => ?_
  cases user with
  | none => exact .throw _
  | some user =>
    simp only
    split
    · next hpassword =>
      exact generateAccessToken_behaves config.jwt fun t ht => .login hm ht huser.symm hpassword
    · exact .throw _

/-- A visit that passport makes a user of carries a code, which it has exchanged. -/
theorem authenticate_behaves {P : Store → TableStep → Prop} (visit : CallbackVisit)
    (hP : ∀ profile t step, visit.carriesCode → visit.exchange = .ok profile →
      Permits config.api R s (.validate (profileOf profile) visit.linkCookie visit.userId
        visit.passwordHash visit.pick) t step → P t step) :
    (authenticate config.toOAuthRoutesConfig visit).Behaves R (tables.Performs P)
      (fun t user => R.grows s t ∧ ∀ payload, user = some payload → visit.carriesCode ∧
        ∃ profile, visit.exchange = .ok profile ∧ Identified config.toStrategyConfig R s t
          (profileOf profile) visit.linkCookie visit.userId visit.passwordHash payload) s := by
  rw [authenticate]
  split
  · exact .throw _
  · split
    · exact .throw _
    · next herror =>
      split
      · next hcode =>
        have hcarries : visit.carriesCode := ⟨Bool.eq_false_iff.mpr herror, hcode⟩
        split
        · exact .throw _
        · next profile hexchange =>
          have hvalidate := @validate_behaves _ config.api R s
            (profileOf profile) visit.linkCookie visit.userId visit.passwordHash visit.pick
          refine (hvalidate.mono (fun t u h => h.mono fun step hstep =>
            hP profile t step hcarries hexchange hstep) fun _ _ h => h).map ?_
          rintro t payload ⟨ht, hpayload⟩
          refine ⟨ht, ?_⟩
          rintro _ ⟨⟩
          exact ⟨hcarries, profile, hexchange, hpayload⟩
      · refine .pure ⟨R.refl s, ?_⟩
        rintro _ ⟨⟩

/-- The guard lets a code pass whose state is that of the attempt. -/
theorem stateMatches_of_options {config : OAuthRoutesConfig} {visit : CallbackVisit}
    {options : OAuthAuthenticateOptions} (hcode : visit.carriesCode)
    (h : (getAuthenticateOptions config visit).1 = .ok options) : visit.StateMatches config := by
  by_contra hstate
  rw [CallbackVisit.getAuthenticateOptions_of_not_stateMatches hcode hstate] at h
  cases h

theorem startLogin_behaves (visit : CallbackVisit) :
    (startLogin config.toOAuthRoutesConfig visit).Behaves R (tables.Performs fun t step =>
      SitePermits config R s (.startLogin visit) t (.store step)) (fun _ _ => True) s := by
  refine (admitted_behaves _).bind fun m options ⟨hm, hoptions⟩ => ?_
  subst hm
  refine (authenticate_behaves visit fun profile t step hcode hexchange hstep =>
    .startLogin hcode (stateMatches_of_options hcode hoptions) hexchange hstep).bind ?_
  exact fun _ _ _ => .pure trivial

/-- A visit whose link cookie is empty names no user to link. -/
theorem getVerifiedLinkUserId_of_isLinkFlow (signer : CookieSigner) {visit : CallbackVisit}
    (h : visit.isLinkFlow = false) : getVerifiedLinkUserId signer visit.linkCookie = none := by
  have hnone : JsString.truthy visit.linkCookie = none :=
    Option.isNone_iff_eq_none.mp (by
      simpa only [CallbackVisit.isLinkFlow, Option.isSome_eq_false_iff] using h)
  rw [getVerifiedLinkUserId, hnone]

/-- A callback mints a code for the user that it has identified, unless it links. -/
theorem callback_behaves (visit : CallbackVisit) :
    (callback config.toOAuthRoutesConfig visit).Behaves R (tables.Performs fun t step =>
      SitePermits config R s (.callback visit) t (.store step)) (fun _ _ => True) s := by
  refine .bind (V := fun _ _ => True) (.tryCatch ?_ fun _ _ _ => .pure trivial) fun _ _ _ =>
    .pure trivial
  refine (admitted_behaves _).bind fun m options ⟨hm, hoptions⟩ => ?_
  obtain rfl : s = m := hm.symm
  refine (authenticate_behaves visit fun profile t step hcode hexchange hstep =>
    .callback hcode (stateMatches_of_options hcode hoptions) hexchange hstep).bind ?_
  rintro t user ⟨ht, huser⟩
  cases user with
  | none => exact .pure trivial
  | some payload =>
    obtain ⟨hcode, profile, hexchange, hpayload⟩ := huser payload rfl
    simp only [authCallback]
    split
    · exact .pure trivial
    · next hflow =>
      have hmint (m n : Store) (hm : R.grows t m) (hn : R.grows m n) :
          SitePermits config R s (.callback visit) n (.store (.insertExchangeCode
            ⟨config.hashExchangeCode visit.exchangeCode, payload.sub,
              m.clock + oauthExchangeCodeTtlMs⟩)) :=
        .mintCode ht hm hn hcode (stateMatches_of_options hcode hoptions) hexchange
          (Bool.eq_false_iff.mpr hflow) hpayload
      refine (createOAuthExchangeCode_behaves _ payload.sub visit.exchangeCode hmint
        fun m n hm hn => .pruneCodes (R.trans ht hm) hn).bind fun _ _ _ => .pure trivial

/-- A row of the about page is inserted, unless its id is taken. -/
theorem insertIntoAboutContent_behaves {P : Store → SiteStep → Prop} {d : Site}
    {row : Nat → AboutContent} (hP : ∀ t : Store, P t (.insertAbout (row t.clock))) :
    (AboutService.insertIntoAboutContent row).Behaves (R.comap Database.store)
      (siteTables.Performs fun t => P t.store) (fun t _ => R.grows d.store t.store) d := by
  refine siteQuery_behaves fun t u a _ hrun => ?_
  split at hrun
  · cases hrun
  · next rows hinsert =>
    obtain ⟨rfl, -⟩ := Prod.mk.inj (Except.ok.inj hrun)
    refine .label (hP t.store) ?_
    simp only [siteTables, sitePerformed, hinsert]
    rfl

/-- An upload is prepared without a statement. -/
theorem prepared_behaves {α : Type} {Q : Site → SiteStep → Prop} {d : Site}
    (upload : Except ThrownError α) : (prepared upload).Behaves (R.comap Database.store)
      (siteTables.Performs Q) (fun _ _ => True) d := by
  cases upload with
  | ok upload => exact .pure trivial
  | error error => exact .throw _

/-- The catalogue is complete: a call makes no other steps. -/
theorem siteOperation_behaves (call : SiteCall τ) (d : Site) :
    (siteOperation config call).Behaves (R.comap Database.store)
      (siteTables.Performs fun t => SitePermits config R d.store call t.store)
      (fun _ _ => True) d := by
  cases call with
  | hello | startLink => exact .pure trivial
  | health => exact siteNow_behaves.map fun _ _ _ => trivial
  | service call =>
    exact (onStore_behaves (operation_behaves config.api R d.store call)
      fun _ _ => .service).map fun _ _ _ => trivial
  | login loginDto =>
    exact (onStore_behaves (login_behaves loginDto) fun _ _ h => h).map fun _ _ _ => trivial
  | startLogin visit =>
    exact (onStore_behaves (startLogin_behaves visit) fun _ _ h => h).map fun _ _ _ => trivial
  | callback visit =>
    exact (onStore_behaves (callback_behaves visit) fun _ _ h => h).map fun _ _ _ => trivial
  | ownProfile currentUser =>
    exact (onStore_behaves (P := fun _ _ => False) (admitted_behaves _) fun _ _ => False.elim).map
      fun _ _ _ => trivial
  | topics =>
    exact (onStore_behaves (P := fun _ _ => False) (read_behaves _) fun _ _ => False.elim).map
      fun _ _ _ => trivial
  | createTopic createTopicDto topicId =>
    exact (onStore_behaves (createTopic_behaves createTopicDto topicId) fun _ _ h => h).map
      fun _ _ _ => trivial
  | updateTopic id updateTopicDto =>
    exact (onStore_behaves (updateTopic_behaves id updateTopicDto) fun _ _ h => h).map
      fun _ _ _ => trivial
  | removeTopic id =>
    exact (onStore_behaves (removeTopic_behaves id) fun _ _ h => h).map fun _ _ _ => trivial
  | projects => exact (siteRead_behaves _).map fun _ _ _ => trivial
  | projectById id =>
    refine .map (V := fun _ _ => True) ?_ fun _ _ _ => trivial
    refine (siteRead_behaves _).bind fun _ project _ => ?_
    cases project with
    | none => exact .throw _
    | some project => exact .pure trivial
  | createProject createProjectDto projectId =>
    refine (siteQuery_behaves fun t u a _ hrun => ?_).map fun _ _ _ => trivial
    dsimp only at hrun
    split at hrun
    · cases hrun
    · next projects hinsert =>
      obtain ⟨rfl, -⟩ := Prod.mk.inj (Except.ok.inj hrun)
      refine .label .createProject ?_
      simp only [siteTables, sitePerformed, hinsert]
      rfl
  | updateProject id updateProjectDto =>
    refine .map (V := fun _ _ => True) ?_ fun _ _ _ => trivial
    refine siteNow_behaves.bind fun m updatedAt hnow => ?_
    obtain ⟨hm, rfl⟩ := hnow
    refine (siteQuery_behaves fun t u a ht hrun => ?_).bind fun _ project _ => ?_
    · split at hrun
      · obtain ⟨rfl, -⟩ := Prod.mk.inj (Except.ok.inj hrun)
        exact .nothing
      · next row hrow =>
        obtain ⟨rfl, -⟩ := Prod.mk.inj (Except.ok.inj hrun)
        refine .label (.updateProject hm ht) ?_
        simp only [siteTables, sitePerformed, hrow]
        rfl
    · cases project with
      | none => exact .throw _
      | some project => exact .pure trivial
  | removeProject id =>
    refine .map (V := fun _ _ => True) ?_ fun _ _ _ => trivial
    refine (siteQuery_behaves fun t u a _ hrun => ?_).bind fun _ project _ => ?_
    · obtain ⟨rfl, -⟩ := Prod.mk.inj (Except.ok.inj hrun)
      exact .label .removeProject rfl
    · cases project with
      | none => exact .throw _
      | some project => exact .pure trivial
  | about rowId pick =>
    refine .map (V := fun _ _ => True) ?_ fun _ _ _ => trivial
    refine (siteRead_behaves _).bind fun m existing hm => ?_
    cases existing with
    | some existing => exact .pure trivial
    | none => exact (insertIntoAboutContent_behaves fun _ => .about).map fun _ _ _ => trivial
  | updateAbout updateAboutDto rowId pick =>
    refine .map (V := fun _ _ => True) ?_ fun _ _ _ => trivial
    refine (siteRead_behaves _).bind fun m existing hm => ?_
    cases existing with
    | none => exact (insertIntoAboutContent_behaves fun _ => .newAbout).map fun _ _ _ => trivial
    | some existing =>
      refine siteNow_behaves.bind fun n updatedAt hnow => ?_
      obtain ⟨hn, rfl⟩ := hnow
      refine (siteQuery_behaves fun t u a ht hrun => ?_).mono (fun _ _ h => h)
        fun _ _ _ => trivial
      obtain ⟨rfl, -⟩ := Prod.mk.inj (Except.ok.inj hrun)
      exact .label (.updateAbout (R.trans hm hn) ht) rfl
  | presignedUrl dto date randomUUID =>
    refine .map (V := fun _ _ => True) ?_ fun _ _ _ => trivial
    exact prepared_behaves _
  | avatarPresignedUrl userId dto randomUUID =>
    refine .map (V := fun _ _ => True) ?_ fun _ _ _ => trivial
    exact prepared_behaves _

/-- The optional guard finds what the guard of a session does, or nothing. -/
theorem optionalJwtAuthGuard_behaves {P : Store → TableStep → Prop} (jwt : JwtSigner τ)
    (accessToken : Option τ) :
    (OptionalJwtAuthGuard.canActivate jwt accessToken).Behaves R (tables.Performs P)
      (fun t user => R.grows s t ∧ ∀ payload, user = some payload →
        ∃ currentUser, Admits R jwt accessToken s t ⟨payload, currentUser⟩) s := by
  cases accessToken with
  | none => exact .pure ⟨R.refl s, fun _ => nofun⟩
  | some token =>
    refine now_behaves.bind fun m checkedAt ⟨hm, hchecked⟩ => ?_
    subst hchecked
    cases hverified : verifyAsync jwt token m.clock with
    | none => exact .pure ⟨hm, fun _ => nofun⟩
    | some payload =>
      refine (read_behaves _).bind fun t user ⟨ht, huser⟩ => ?_
      have hlater : R.grows s t := R.trans hm ht
      split
      · exact .pure ⟨hlater, fun _ => nofun⟩
      · next hbanned =>
        refine .pure ⟨hlater, ?_⟩
        rintro _ ⟨⟩
        have hcookie : verifyCookie jwt (some token) m.clock = .ok payload := by
          rw [verifyCookie, hverified]
        refine ⟨user, ⟨m, hm, ht, hcookie⟩, ⟨t, hlater, R.refl t, huser⟩, ?_⟩
        rintro row rfl
        exact Bool.eq_false_iff.mpr hbanned

/-- The guards of a route make no steps, and find what they let pass. -/
theorem guard_behaves {Q : Site → SiteStep → Prop} (accessToken : Option τ) (access : Access)
    (d : Site) : (access.guard config accessToken).Behaves (R.comap Database.store)
      (siteTables.Performs Q) (fun t request => R.grows d.store t.store ∧
        Authorized config R accessToken d.store t.store access request) d := by
  cases access with
  | anyone => exact .pure ⟨R.refl _, .anyone⟩
  | identified =>
    refine (onStore_behaves (P := fun _ _ => False)
      (optionalJwtAuthGuard_behaves config.jwt accessToken) fun _ _ => False.elim).bind ?_
    rintro t user ⟨ht, huser⟩
    exact .pure ⟨ht, .identified huser⟩
  | session =>
    refine (onStore_behaves (P := fun _ _ => False)
      (canActivate_behaves config.jwt accessToken) fun _ _ => False.elim).bind ?_
    rintro t request ⟨ht, hadmits⟩
    exact .pure ⟨ht, .session hadmits⟩
  | admin =>
    refine (onStore_behaves (P := fun _ _ => False)
      (canActivate_behaves config.jwt accessToken) fun _ _ => False.elim).bind ?_
    rintro t request ⟨ht, hadmits⟩
    refine (onStore_behaves (P := fun _ _ => False) (admitted_behaves _)
      fun _ _ => False.elim).bind ?_
    rintro u _ ⟨hu, hadmin⟩
    refine .pure ?_
    rw [hu]
    exact ⟨ht, .admin hadmits (adminGuard_eq_ok.mp hadmin)⟩

/-- A check on a request admits what it returns. -/
theorem checked_behaves {α : Type} {Q : Site → SiteStep → Prop} (x : Except Failure α) (d : Site) :
    (checked x).Behaves (R.comap Database.store) (siteTables.Performs Q)
      (fun t a => t = d ∧ x = .ok a) d := by
  cases x with
  | ok a => exact .pure ⟨rfl, rfl⟩
  | error failure => exact .throw _

/-- A request makes the steps of its call, once its guards have let it pass. -/
theorem handle_behaves (config : SiteConfig τ) (R : Rely Store) (request : Request τ) (d : Site) :
    (handle config request).Behaves (R.comap Database.store)
      (siteTables.Performs fun t => RequestPermits config R d.store request t.store)
      (fun _ _ => ∃ m guarded call, Entered config R d.store request m guarded call) d := by
  refine (checked_behaves _ d).bind fun t _ ⟨ht, hglobal⟩ => ?_
  subst ht
  refine (guard_behaves request.accessToken request.route.access t).bind fun m guarded hm => ?_
  obtain ⟨hm, hauthorized⟩ := hm
  refine (checked_behaves _ m).bind fun n call ⟨hn, hhandler⟩ => ?_
  subst hn
  have hentered : Entered config R t.store request n.store guarded call :=
    ⟨hglobal, hauthorized, hhandler, hm⟩
  refine ((siteOperation_behaves call n).since (R.refl _)).mono (fun u v h => ?_)
    fun _ _ _ => ⟨n.store, guarded, call, hentered⟩
  obtain ⟨hu, hperforms⟩ := h
  exact hperforms.mono fun step hstep => ⟨n.store, guarded, call, hentered, hu, hstep⟩

end Calls

section Runs

variable {τ : Type}

/-- The tables of the services that a run has met since it started a request. -/
abbrev storesSince (config : SiteConfig τ) (d : Site)
    (labels : List (CallLabel (Request τ) Failure Nat)) (id : Nat) : Rely Store :=
  metSince (site config) d labels id Database.store

/-- What causes a step of a run: time passes, or a request that was started makes a step that it
may, over what the run has met since. -/
abbrev Caused (config : SiteConfig τ) (d : Site)
    (labels : List (CallLabel (Request τ) Failure Nat)) : Site → SiteStep → Prop :=
  CausedIn (handle config) passing Database.store
    (fun R s request t => RequestPermits config R s.store request t.store)
    (fun ms => .store (.tick ms)) d labels

variable {config : SiteConfig τ} {R : Rely Store} {C : Site → Request τ → Prop} {d s : Site}

/-- A step of the site is a step of the tables, or leaves them alone. -/
theorem store_of_sitePerformed {t : Site} {step : SiteStep} (h : sitePerformed s step = some t) :
    (∃ tableStep, step = .store tableStep ∧ performed s.store tableStep = some t.store) ∨
      t.store = s.store := by
  cases step with
  | store tableStep =>
    obtain ⟨store, hstore, rfl⟩ := Option.map_eq_some_iff.mp h
    exact Or.inl ⟨tableStep, rfl, hstore⟩
  | insertProject row =>
    obtain ⟨projects, -, rfl⟩ := Option.map_eq_some_iff.mp h
    exact Or.inr rfl
  | updateProject id updateProjectDto now =>
    obtain ⟨-, ht⟩ := Option.ite_none_left_eq_some.mp h
    exact Or.inr (by rw [← Option.some.inj ht]; rfl)
  | insertAbout row =>
    obtain ⟨rows, -, rfl⟩ := Option.map_eq_some_iff.mp h
    exact Or.inr rfl
  | removeProject id => exact Or.inr (by rw [← Option.some.inj h]; rfl)
  | updateAbout id updateAboutDto now => exact Or.inr (by rw [← Option.some.inj h]; rfl)

/-- The calls of a site that behave. -/
abbrev SiteConduct (config : SiteConfig τ) (R : Rely Store) (C : Site → Request τ → Prop)
    (d : Site) : Prop :=
  Conduct (handle config) passing (R.comap Database.store) C
    (fun s request => siteTables.Performs fun t => RequestPermits config R s.store request t.store)
    (fun s request _ _ => ∃ m guarded call, Entered config R s.store request m guarded call) d

/-- Requests rely on growth that their steps and the clock keep. -/
theorem site_conduct
    (hstep : ∀ {s : Site} {request : Request τ} {t u : Store} {step : TableStep},
      R.grows d.store s.store → C s request → R.grows s.store t →
      RequestPermits config R s.store request t (.store step) → performed t step = some u →
      R.grows t u)
    (htick : ∀ ms {t : Store}, R.grows d.store t → R.grows t { t with clock := t.clock + ms }) :
    SiteConduct config R C d where
  behaves {s request} _ _ := handle_behaves config R request s
  grows {s request t u} hs hC ht h := by
    rcases h with rfl | ⟨step, hpermits, hperformed⟩
    · exact R.refl _
    · rcases store_of_sitePerformed hperformed with ⟨tableStep, rfl, hstore⟩ | hstore
      · exact hstep hs hC ht hpermits hstore
      · change R.grows t.store u.store
        rw [hstore]
        exact R.refl _
  outside ms _ hs := htick ms hs

/-- Whatever changes the site in a run is time, or a step that a request may make. -/
theorem site_attributed (hconduct : SiteConduct config R C d)
    {labels : List (CallLabel (Request τ) Failure Nat)} {label : CallLabel (Request τ) Failure Nat}
    {before after : CallState Site Failure (SiteAnswer τ)}
    (hC : (site config).Meets (StartsOnly C) (.initial d) labels)
    (hrun : (site config).exec (.initial d) labels = some before)
    (hstep : (site config).step before label = some after) :
    after.state = before.state ∨ (∃ ms, after.state = passing ms before.state) ∨
      ∃ id request started step, label = .step id ∧
        Started (site config) d labels id request started ∧ C started request ∧
        R.grows d.store started.store ∧ R.grows started.store before.state.store ∧
        RequestPermits config R started.store request before.state.store step ∧
        sitePerformed before.state step = some after.state := by
  rcases callMachine_state hstep with hsame | ⟨ms, -, hpassing⟩ | ⟨id, rfl⟩
  · exact Or.inl hsame
  · exact Or.inr (Or.inl ⟨ms, hpassing⟩)
  · rcases hconduct.attributed hC hrun hstep with
      hsame | ⟨request, started, hstarted, hstart, hinit, hgrows, hsame | ⟨step, hpermits, hnext⟩⟩
    · exact Or.inl hsame.symm
    · exact Or.inl hsame.symm
    · exact Or.inr (Or.inr ⟨id, request, started, step, rfl, hstarted, hstart, hinit, hgrows,
        hpermits, hnext⟩)

/-- Any request may be started in any state. -/
theorem site_startsAny (labels : List (CallLabel (Request τ) Failure Nat)) :
    (site config).Meets (StartsOnly fun _ _ => True) (.initial d) labels :=
  meets_startsOnly fun _ _ _ _ => trivial

variable {labels : List (CallLabel (Request τ) Failure Nat)}
  {label : CallLabel (Request τ) Failure Nat} {before after : CallState Site Failure (SiteAnswer τ)}

/-- Whatever changes the site in a run is time, or a step that a request may make, over what the
run has met since it was started. -/
theorem site_attributed_since
    (hC : (site config).Meets (StartsOnly C) (.initial d) labels)
    (hrun : (site config).exec (.initial d) labels = some before)
    (hstep : (site config).step before label = some after) :
    after.state = before.state ∨ (∃ ms, after.state = passing ms before.state) ∨
      ∃ id request started step, label = .step id ∧
        Started (site config) d labels id request started ∧ C started request ∧
        RequestPermits config (storesSince config d labels id) started.store request
          before.state.store step ∧
        sitePerformed before.state step = some after.state := by
  rcases callMachine_state hstep with hsame | ⟨ms, -, hpassing⟩ | ⟨id, rfl⟩
  · exact Or.inl hsame
  · exact Or.inr (Or.inl ⟨ms, hpassing⟩)
  · rcases attributed_since (fun R s request _ => handle_behaves config R request s) hC hrun hstep
      with hsame | ⟨request, started, hstarted, hstart, hsame | ⟨step, hpermits, hnext⟩⟩
    · exact Or.inl hsame.symm
    · exact Or.inl hsame.symm
    · exact Or.inr (Or.inr ⟨id, request, started, step, rfl, hstarted, hstart, hpermits, hnext⟩)

/-- What every step keeps holds in every state of a run. -/
theorem site_invariant {P : Site → Prop} (hd : P d)
    (hP : ∀ {e f : Site} {step : SiteStep}, P e → sitePerformed e step = some f → P f)
    (hrun : (site config).exec (.initial d) labels = some after) : P after.state := by
  refine (site config).exec_induction (P := fun labels s =>
      (site config).exec (.initial d) labels = some s ∧ P s.state) ⟨rfl, hd⟩
    (fun labels s label t hs h _ hstep => ⟨(Machine.exec_snoc _).mpr ⟨s, hs, hstep⟩, ?_⟩)
    (site_startsAny labels) hrun |>.2
  rcases site_attributed_since (site_startsAny labels) hs hstep with
    hsame | ⟨ms, hpassing⟩ | ⟨-, -, -, step, -, -, -, -, hnext⟩
  · exact hsame ▸ h.2
  · exact @hP _ _ (.store (.tick ms)) h.2 (hpassing ▸ rfl)
  · exact hP h.2 hnext

/-- Every run of the site is a run of its tables, in which each step is made by time, or by a
request whose guards had let it pass since it was started, and to which its call entitles it. -/
theorem site_refines_tables (hrun : (site config).exec (.initial d) labels = some after) :
    ∃ steps, siteTables.exec d steps = some after.state ∧
      siteTables.Meets (Caused config d labels) d steps :=
  refines_since (fun R s request _ => handle_behaves config R request s) (fun _ _ => rfl)
    (site_startsAny labels) hrun

end Runs

/-- A site that signs cookies by their bytes and whose tokens are their claims. -/
def bytesSite : SiteConfig (Option (JwtPayload × Nat)) where
  toOAuthRoutesConfig := { bytesRoutes with adminEmail := some "owner@example.com" }
  jwt := claimsSigner
  publicUrlPrefix := ""
  normalizeNfd := id
  toLowerCase := id
  collation name other := decide (name ≤ other)
  isEmail _ := true
  isUuid _ := true
  parseUrl := some
  createPresignedUploadUrl _ _ := .ok ""
  edgeSharedSecret := none

/-- The admin of that site. -/
def owner : User := newOtpUser bytesSite.adminEmail "owner@example.com" "owner" "password" 0

/-- A user who is no admin. -/
def member : User := newOtpUser bytesSite.adminEmail "member@example.com" "member" "password" 0

/-- The site of the two, whose tokens have been signed. -/
def ownersSite : Site where
  store := { Store.empty with
    users := [owner, member]
    outbound := [.signed (toJwtPayload owner), .signed (toJwtPayload member)] }
  others := ⟨[], []⟩

/-- A request with a user's token. -/
def Route.askedBy (route : Route) (user : User) : Request (Option (JwtPayload × Nat)) where
  route := route
  headers _ := none
  accessToken := some (some (toJwtPayload user, 0))
  withinLimit := true

/-- A request up to its statement that writes, behind the two of its guard. -/
def behindGuard (route : Route) (user : User) :
    List (CallLabel (Request (Option (JwtPayload × Nat))) Failure Nat) :=
  [.start 0 (route.askedBy user), .step 0, .step 0]

/-- The admin asks for a topic. -/
def asksTopic : List (CallLabel (Request (Option (JwtPayload × Nat))) Failure Nat) :=
  behindGuard (.createTopic ⟨"Lean"⟩ "t") owner

/-- The site behind the guard of that request. -/
def topicAsked : CallState Site Failure (SiteAnswer (Option (JwtPayload × Nat))) :=
  (site bytesSite).run (.initial ownersSite) asksTopic (by decide +kernel)

/-- The site with that topic. -/
def topicCreated : CallState Site Failure (SiteAnswer (Option (JwtPayload × Nat))) :=
  (site bytesSite).run (.initial ownersSite) (asksTopic ++ [.step 0]) (by decide +kernel)

/-- Its last step makes the topic. -/
theorem topicAsked_step : (site bytesSite).step topicAsked (.step 0) = some topicCreated :=
  (site bytesSite).step_run ..

/-- The request for the topic, step by step. -/
theorem site_refines_tables_topicCreated :
    ∃ steps, siteTables.exec ownersSite steps = some topicCreated.state ∧
      siteTables.Meets (Caused bytesSite ownersSite (asksTopic ++ [.step 0])) ownersSite steps :=
  site_refines_tables ((site bytesSite).exec_run ..)

/-- A site with something in every table: a draft of the admin under one of two topics, and a
comment of the member on it. -/
def fullSite : Site where
  store := { ownersSite.store with
    clock := 1000
    emailOtps := [newOtp id "ada@example.com" "123456" "otp" 600500 500]
    oauthExchangeCodes := [⟨"digest", "member", 60500⟩]
    posts := [newPost ⟨bareFields, "Draft", "draft", "Text"⟩ "owner" "post" none 0]
    topics := [⟨"lean", "lean", "lean", 0⟩, ⟨"proofs", "proofs", "proofs", 0⟩]
    postsToTopics := [("post", "lean")]
    comments := [⟨"comment", "post", "member", "Welcome", 0⟩] }
  others := ⟨[⟨"project", "Site", "This one", [], none, 0, 0⟩], [⟨"about", "Hello", none, none, 0⟩]⟩

/-- The body of an edit that publishes a post under another topic. -/
def publishes : PostInput :=
  { bareFields with
    isPublished := some true
    topicIds := some ["proofs"]
    title := some "Published"
    slug := none
    content := none }

/-- The admin edits the draft so, up to the answer. -/
def editsDraft : List (CallLabel (Request (Option (JwtPayload × Nat))) Failure Nat) :=
  behindGuard (.updatePost "post" publishes) owner ++ [.step 0, .step 0, .step 0]

/-- The site with the edited post. -/
def draftEdited : CallState Site Failure (SiteAnswer (Option (JwtPayload × Nat))) :=
  (site bytesSite).run (.initial fullSite) editsDraft (by decide +kernel)

end VertexApi.App
