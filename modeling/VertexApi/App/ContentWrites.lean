import VertexApi.App.Handlers
import VertexApi.App.TableMoves
import VertexApi.Auth.AdminRole

/-!
# Who edits the content

The content of the site is edited by requests to the routes of admins and by nothing else: their
tokens were verified while they ran, and claim the role. A deployment that only meets tokens
of its own has given each of them to the account with the admin's address, so that nothing is
ever edited where there is no such address. The empty row that a look at the about page makes
is no content.
-/

namespace VertexApi.App

open About Auth Comments Posts Projects Topics Users

/-- The row has no text in any language. -/
def isBlank (row : AboutContent) : Bool :=
  row.content == "" && row.contentEn.isNone && row.contentEs.isNone

/-- What visitors read. -/
structure Content where
  blog : PostTables
  projects : List Project
  aboutContent : List AboutContent
  deriving DecidableEq, Repr

/-- The content of the site. -/
def content (d : Site) : Content where
  blog := d.store.blog
  projects := d.others.projects
  aboutContent := d.others.aboutContent.filter fun row => !isBlank row

/-- The steps that edit the blog. -/
def TableStep.editsBlog : TableStep → Bool
  | .createPost .. | .updatePost .. | .removePost .. | .insertTopic .. | .renameTopic .. |
    .removeTopic .. => true
  | _ => false

/-- The steps that edit the content. -/
def SiteStep.editsContent : SiteStep → Bool
  | .store step => step.editsBlog
  | .insertAbout row => !isBlank row
  | _ => true

section Steps

variable {s t : Store}

/-- The other steps leave the blog alone. -/
theorem blog_of_moves {step : TableStep} (h : TableMoves s step t)
    (hstep : step.editsBlog = false) : t.blog = s.blog := by
  cases h <;> first | rfl | cases hstep

/-- The other steps leave the content alone. -/
theorem content_of_sitePerformed {d e : Site} {step : SiteStep}
    (h : sitePerformed d step = some e) (hstep : step.editsContent = false) :
    content e = content d := by
  cases step with
  | store tableStep =>
    obtain ⟨store, hstore, rfl⟩ := Option.map_eq_some_iff.mp h
    have hblog := blog_of_moves (performed_moves hstore) hstep
    simp only [content, hblog]
  | insertAbout row =>
    obtain ⟨-, rfl⟩ := insertRow_toOption h
    have hblank : (!isBlank row) = false := hstep
    simp only [content, Database.withAboutContent, List.filter_append, List.filter_cons, hblank,
      Bool.false_eq_true, if_false, List.filter_nil, List.append_nil]
  | insertProject | updateProject | removeProject | updateAbout => cases hstep

variable {τ : Type} {config : SiteConfig τ} {R : Rely Store} {request : Request τ}

/-- Requests to the routes of admins edit the content. -/
theorem access_of_editsContent {step : SiteStep} (h : RequestPermits config R s request t step)
    (hstep : step.editsContent = true) : request.route.access = .admin := by
  obtain ⟨m, guarded, call, hentered, -, hpermits⟩ := h
  have hhandles := handler_eq_ok hentered.handler
  generalize request.route = route at hhandles ⊢
  cases hpermits with
  | service hcall =>
    cases hcall with
    | createPost | updatePost | removePost =>
      cases hhandles
      rfl
    | _ => cases hstep
  | login | mintCode | pruneCodes | about => cases hstep
  | startLogin _ _ _ hvalidate | callback _ _ _ hvalidate => cases hvalidate <;> cases hstep
  | createTopic | updateTopic | removeTopic | createProject | updateProject | removeProject |
    newAbout | updateAbout =>
    cases hhandles
    rfl

/-- A request that edits the content has its token verified before. -/
theorem verified_of_editsContent {step : SiteStep} (h : RequestPermits config R s request t step)
    (hstep : step.editsContent = true) : request.route.access = .admin ∧
      ∃ payload, Verified config R s request t payload ∧ payload.role = .admin := by
  have haccess := access_of_editsContent h hstep
  obtain ⟨m, guarded, call, hentered, ht, -⟩ := h
  obtain ⟨payload, huser⟩ := hentered.exists_user (Or.inr haccess)
  exact ⟨haccess, payload, hentered.verified huser ht, hentered.role haccess huser⟩

end Steps

section Roles

variable {τ : Type} {config : SiteConfig τ} {R : Rely Store} {s t u : Store} {request : Request τ}

/-- The rows that requests insert into the users. -/
theorem insertedUser_of_permits {row : User}
    (h : RequestPermits config R s request t (.store (.insertUser row))) :
    (∃ registerDto userId, row = registeredUser config.argon2 registerDto userId t.clock) ∨
    (∃ email userId passwordHash,
      row = newOtpUser config.adminEmail email userId passwordHash t.clock) ∨
    ∃ identity userId passwordHash,
      row = newProviderUser config.adminEmail identity userId passwordHash t.clock := by
  obtain ⟨m, guarded, call, -, -, hpermits⟩ := h
  cases hpermits with
  | service hcall =>
    cases hcall with
    | register => exact Or.inl ⟨_, _, rfl⟩
    | firstSignIn => exact Or.inr (Or.inl ⟨_, _, _, rfl⟩)
    | firstLogin => exact Or.inr (Or.inr ⟨_, _, _, rfl⟩)
  | startLogin _ _ _ hvalidate | callback _ _ _ hvalidate =>
    cases hvalidate with
    | firstLogin => exact Or.inr (Or.inr ⟨_, _, _, rfl⟩)

/-- The claims that requests have signed are those of a row that was there since they were
started. -/
theorem signed_of_permits {payload : JwtPayload}
    (h : RequestPermits config R s request t (.store (.handOver (.signed payload)))) :
    ∃ m user, R.grows s m ∧ R.grows m t ∧ payload = toJwtPayload user ∧
      (user ∈ m.users ∨ ∃ email userId passwordHash,
        user = newOtpUser config.adminEmail email userId passwordHash m.clock) := by
  obtain ⟨m, guarded, call, hentered, -, hpermits⟩ := h
  have hm := hentered.grows
  cases hpermits with
  | login hn ht huser =>
    have hmem := List.mem_of_find?_eq_some huser
    exact ⟨_, _, R.trans hm hn, ht, rfl, Or.inl hmem⟩
  | service hcall =>
    cases hcall with
    | sign =>
      have hhandles := handler_eq_ok hentered.handler
      generalize request.route = route at hhandles
      cases hhandles
    | signExchanged hn ho hq ht _ _ huser =>
      have hmem := List.mem_of_find?_eq_some huser
      exact ⟨_, _, R.trans hm (R.trans hn (R.trans ho hq)), ht, rfl, Or.inl hmem⟩
    | signVerified hn ho hq ht _ _ huser =>
      refine ⟨_, _, R.trans hm (R.trans hn (R.trans ho hq)), ht, rfl, ?_⟩
      exact huser.imp List.mem_of_find?_eq_some fun hrow => ⟨_, _, _, hrow⟩
  | startLogin _ _ _ hvalidate | callback _ _ _ hvalidate => cases hvalidate

/-- The rows and the tokens of admins have the admin's address. -/
structure AdminsTraced (adminEmail : Option String) (s : Store) : Prop where
  rows : ∀ row ∈ s.users, row.role = .admin → some row.email = adminEmail
  tokens : ∀ payload, .signed payload ∈ s.outbound → payload.role = .admin →
    some payload.email = adminEmail

namespace AdminsTraced

variable {adminEmail : Option String}

/-- A write to the rows of users that keeps their roles and addresses. -/
theorem withUsers (h : AdminsTraced adminEmail s) {users : List User}
    (husers : ∀ row ∈ users, ∃ old ∈ s.users, row.role = old.role ∧ row.email = old.email) :
    AdminsTraced adminEmail (s.withUsers users) where
  rows row hrow hrole := by
    obtain ⟨old, hold, hsame, hemail⟩ := husers row hrow
    rw [hemail]
    exact h.rows old hold (hsame.symm.trans hrole)
  tokens := h.tokens

/-- A new row that is no admin, or has the admin's address. -/
theorem append (h : AdminsTraced adminEmail s) {row : User}
    (hrow : row.role = .admin → some row.email = adminEmail) :
    AdminsTraced adminEmail (s.withUsers (s.users ++ [row])) where
  rows other hother hrole := by
    rcases List.mem_append.mp hother with hother | hother
    · exact h.rows other hother hrole
    · rw [List.mem_singleton.mp hother] at hrole ⊢
      exact hrow hrole
  tokens := h.tokens

/-- An update of one row that keeps its role and its address. -/
theorem updateWhere (h : AdminsTraced adminEmail s) (id : String) {f : User → User}
    (hf : ∀ row, (f row).role = row.role ∧ (f row).email = row.email) :
    AdminsTraced adminEmail (s.withUsers (VertexApi.updateWhere User.id id f s.users)) := by
  refine h.withUsers fun row hrow => ?_
  rcases mem_updateWhere.mp hrow with ⟨old, hold, -, rfl⟩ | ⟨hrow, -⟩
  · exact ⟨old, hold, hf old⟩
  · exact ⟨row, hrow, rfl, rfl⟩

/-- The steps of requests keep it. -/
theorem permitted (hs : AdminsTraced config.adminEmail s) (ht : AdminsTraced config.adminEmail t)
    {step : TableStep} (h : RequestPermits config (.keeps (AdminsTraced config.adminEmail)) s
      request t (.store step)) (hmoves : TableMoves t step u) :
    AdminsTraced config.adminEmail u := by
  cases hmoves with
  | @insertUser row =>
    refine ht.append fun hrole => ?_
    rcases insertedUser_of_permits h with
      ⟨_, _, rfl⟩ | ⟨_, _, _, rfl⟩ | ⟨_, _, _, rfl⟩
    · cases hrole
    · exact (role_newOtpUser ..).mp hrole
    · exact (role_newProviderUser ..).mp hrole
  | @updateUser id edit =>
    exact ht.updateWhere id fun row => ⟨(edit.apply_same row).role, (edit.apply_same row).email⟩
  | @setBanned id => exact ht.updateWhere id fun _ => ⟨rfl, rfl⟩
  | removeAccount =>
    exact { ht with rows := fun row hrow => ht.rows row (List.mem_of_mem_filter hrow) }
  | @handOver outbound =>
    refine { ht with tokens := fun payload hsigned hrole => ?_ }
    rcases List.mem_append.mp hsigned with hsigned | hsigned
    · exact ht.tokens payload hsigned hrole
    · obtain rfl := List.mem_singleton.mp hsigned
      obtain ⟨m, user, hm, -, rfl, huser | ⟨email, userId, passwordHash, rfl⟩⟩ :=
        signed_of_permits h
      · exact (hm hs).rows user huser hrole
      · exact (role_newOtpUser config.adminEmail email userId passwordHash m.clock).mp hrole
  | _ => exact { ht with }

end AdminsTraced

/-- A request carries a token that was signed here, or one that does not decode. -/
def CarriesOwnToken (config : SiteConfig τ) (d : Site) (request : Request τ) : Prop :=
  ∀ token payload issuedAt, request.accessToken = some token →
    config.jwt.decode token = some (payload, issuedAt) → .signed payload ∈ d.store.outbound

end Roles

section Runs

variable {τ : Type} {config : SiteConfig τ} {d : Site}
  {labels : List (CallLabel (Request τ) Failure Nat)} {label : CallLabel (Request τ) Failure Nat}
  {before after : CallState Site Failure (SiteAnswer τ)}

/-- A change of the content is no passing of time, and a step that edits it. -/
theorem editsContent_of_content_ne {e f : Site} {step : SiteStep}
    (hnext : sitePerformed e step = some f) (hne : content f ≠ content e) :
    step.editsContent = true := by
  by_contra hnot
  exact hne (content_of_sitePerformed hnext (Bool.eq_false_iff.mpr hnot))

/-- The content is edited by requests to the routes of admins, each with a token that claims the
role and has been verified since the request was started. -/
theorem content_edited_by_admins
    (hrun : (site config).exec (.initial d) labels = some before)
    (hstep : (site config).step before label = some after)
    (hne : content after.state ≠ content before.state) :
    ∃ id request started payload, label = .step id ∧
      Started (site config) d labels id request started ∧ request.route.access = .admin ∧
      Verified config (storesSince config d labels id) started.store request before.state.store
        payload ∧ payload.role = .admin := by
  rcases site_attributed_since (site_startsAny labels) hrun hstep with
    hsame | ⟨ms, hpassing⟩ | ⟨id, request, started, step, hlabel, hstarted, -, hpermits, hnext⟩
  · exact absurd (congrArg content hsame) hne
  · exact absurd (congrArg content hpassing) hne
  · obtain ⟨haccess, payload, hverified, hrole⟩ :=
      verified_of_editsContent hpermits (editsContent_of_content_ne hnext hne)
    exact ⟨id, request, started, payload, hlabel, hstarted, haccess, hverified, hrole⟩

end Runs

/-- The topic is new. -/
theorem topicCreated_content_ne : content topicCreated.state ≠ content topicAsked.state := by
  decide +kernel

/-- It was made for the token of the admin. -/
theorem content_edited_by_owner : ∃ id request started payload,
    (.step 0 : CallLabel (Request (Option (JwtPayload × Nat))) Failure Nat) = .step id ∧
      Started (site bytesSite) ownersSite asksTopic id request started ∧
      request.route.access = .admin ∧
      Verified bytesSite (storesSince bytesSite ownersSite asksTopic id) started.store request
        topicAsked.state.store payload ∧ payload.role = .admin :=
  content_edited_by_admins ((site bytesSite).exec_run ..) topicAsked_step topicCreated_content_ne

section Runs

variable {τ : Type} {config : SiteConfig τ} {d : Site}
  {labels : List (CallLabel (Request τ) Failure Nat)} {label : CallLabel (Request τ) Failure Nat}
  {before after : CallState Site Failure (SiteAnswer τ)}

/-- Where requests carry tokens that were signed here, the content is edited with a token that
was signed for the admin's address, and never where there is none. -/
theorem content_edited_for_adminEmail (hd : AdminsTraced config.adminEmail d.store)
    (hC : (site config).Meets (StartsOnly (CarriesOwnToken config)) (.initial d) labels)
    (hrun : (site config).exec (.initial d) labels = some before)
    (hstep : (site config).step before label = some after)
    (hne : content after.state ≠ content before.state) :
    ∃ id request started payload issuedAt, label = .step id ∧
      Started (site config) d labels id request started ∧
      request.accessToken = some (config.jwt.sign payload issuedAt) ∧
      .signed payload ∈ started.store.outbound ∧ payload.role = .admin ∧
      config.adminEmail = some payload.email := by
  have hconduct : SiteConduct config (.keeps (AdminsTraced config.adminEmail))
      (CarriesOwnToken config) d := by
    refine site_conduct (fun hs _ hst hpermits hperformed ht => ?_) fun ms t _ ht => { ht with }
    exact (hs hd).permitted ht hpermits (performed_moves hperformed)
  rcases site_attributed hconduct hC hrun hstep with
    hsame | ⟨ms, hpassing⟩ | ⟨id, request, started, step, hlabel, hstarted, hown, hinit, -,
      hpermits, hnext⟩
  · exact absurd (congrArg content hsame) hne
  · exact absurd (congrArg content hpassing) hne
  · obtain ⟨-, payload, hverified, hrole⟩ :=
      verified_of_editsContent hpermits (editsContent_of_content_ne hnext hne)
    obtain ⟨issuedAt, htoken⟩ := hverified.accessToken
    have hsigned := hown _ payload issuedAt htoken (config.jwt.decode_sign payload issuedAt)
    exact ⟨id, request, started, payload, issuedAt, hlabel, hstarted, htoken, hsigned, hrole,
      ((hinit hd).tokens payload hsigned hrole).symm⟩

end Runs

/-- The only admin there has the address of the admin. -/
theorem ownersSite_admins : AdminsTraced bytesSite.adminEmail ownersSite.store where
  rows := by decide +kernel
  tokens payload hsigned hrole := by
    rcases List.mem_cons.mp hsigned with hsame | hsigned
    · obtain rfl := Outbound.signed.inj hsame
      rfl
    · obtain rfl := Outbound.signed.inj (List.mem_singleton.mp hsigned)
      exact absurd hrole (by decide +kernel)

/-- The token of its request was signed there. -/
theorem asksTopic_carriesOwnToken :
    (site bytesSite).Meets (StartsOnly (CarriesOwnToken bytesSite)) (.initial ownersSite)
      asksTopic := by
  refine ⟨?_, meets_startsOnly (by simp)⟩
  rintro _ _ hlabel token payload issuedAt htoken hdecoded
  cases hlabel
  obtain rfl := Option.some.inj htoken
  obtain ⟨rfl, -⟩ := Prod.mk.inj (Option.some.inj hdecoded)
  exact List.mem_cons_self ..

/-- The token of the admin was signed for that address. -/
theorem content_edited_for_owner : ∃ id request started payload issuedAt,
    (.step 0 : CallLabel (Request (Option (JwtPayload × Nat))) Failure Nat) = .step id ∧
      Started (site bytesSite) ownersSite asksTopic id request started ∧
      request.accessToken = some (bytesSite.jwt.sign payload issuedAt) ∧
      .signed payload ∈ started.store.outbound ∧ payload.role = .admin ∧
      bytesSite.adminEmail = some payload.email :=
  content_edited_for_adminEmail ownersSite_admins asksTopic_carriesOwnToken
    ((site bytesSite).exec_run ..) topicAsked_step topicCreated_content_ne

end VertexApi.App
