import VertexApi.App.Handlers
import VertexApi.App.TableMoves

/-!
# What is stored was validated

A validation looks at one body. The row of a post or a project is merged out of the bodies of
many edits, which may run at the same time, and the slug of a topic is made of its name anew by
every edit. Still, every row of a table that is written through a validation meets what the
validation asks for, in every state of a run.
-/

namespace VertexApi.App

open About Auth Comments Common Posts Projects Topics Users

/-- What is there meets a condition. -/
def IfPresent {α : Type} (P : α → Prop) (value : Option α) : Prop := ∀ a, value = some a → P a

namespace IfPresent

variable {α : Type} {P : α → Prop} {value other : Option α}

theorem or (h : IfPresent P value) (hother : IfPresent P other) : IfPresent P (value.or other) := by
  cases value with
  | none => exact hother
  | some a => exact h

theorem getD (h : IfPresent P value) {a : α} (ha : P a) : P (value.getD a) := by
  cases value with
  | none => exact ha
  | some b => exact h b rfl

end IfPresent

section Schemas

variable {parseUrl : String → Option String} {isUuid : String → Bool}

/-- A text that is not empty. -/
def IsFilled (text : String) : Prop := text ≠ ""

instance : DecidablePred IsFilled := fun text => inferInstanceAs (Decidable (text ≠ ""))

/-- A text that `slugSchema` admits. -/
def IsSlug (text : String) : Prop := isSlug text = true

instance : DecidablePred IsSlug := fun text => inferInstanceAs (Decidable (isSlug text = true))

/-- A description that is short enough. -/
def IsMeta (text : String) : Prop := JsString.length text ≤ 160

/-- What the validation makes of an address. -/
def IsUrl (parseUrl : String → Option String) (text : String) : Prop :=
  ∃ input, parseUrl input = some text

/-- What the validation asks of the fields that a body of a post may leave out. -/
structure ValidFields (parseUrl : String → Option String) (fields : OptionalPostFields) : Prop where
  slugEn : IfPresent IsSlug fields.slugEn
  slugEs : IfPresent IsSlug fields.slugEs
  coverUrl : IfPresent (IsUrl parseUrl) fields.coverUrl
  coverUrlEn : IfPresent (IsUrl parseUrl) fields.coverUrlEn
  coverUrlEs : IfPresent (IsUrl parseUrl) fields.coverUrlEs
  metaDescription : IfPresent IsMeta fields.metaDescription
  metaDescriptionEn : IfPresent IsMeta fields.metaDescriptionEn
  metaDescriptionEs : IfPresent IsMeta fields.metaDescriptionEs

/-- What it asks of an edit. -/
structure ValidEdit (parseUrl : String → Option String) (dto : UpdatePostDto) : Prop where
  title : IfPresent IsFilled dto.title
  slug : IfPresent IsSlug dto.slug
  content : IfPresent IsFilled dto.content
  fields : ValidFields parseUrl dto.toOptionalPostFields

/-- What it asks of a row. -/
structure ValidPost (parseUrl : String → Option String) (row : Post) : Prop where
  title : IsFilled row.title
  slug : IsSlug row.slug
  content : IsFilled row.content
  slugEn : IfPresent IsSlug row.slugEn
  slugEs : IfPresent IsSlug row.slugEs
  coverUrl : IfPresent (IsUrl parseUrl) row.coverUrl
  coverUrlEn : IfPresent (IsUrl parseUrl) row.coverUrlEn
  coverUrlEs : IfPresent (IsUrl parseUrl) row.coverUrlEs
  metaDescription : IfPresent IsMeta row.metaDescription
  metaDescriptionEn : IfPresent IsMeta row.metaDescriptionEn
  metaDescriptionEs : IfPresent IsMeta row.metaDescriptionEs

/-- A checked text meets the check. -/
theorem ifPresent_of_checkedText {admits : String → Bool} {P : String → Prop}
    (hP : ∀ text, admits text = true → P text) {input value : Option String}
    (h : checkedText admits input = some value) : IfPresent P value := by
  cases input with
  | none => exact Option.some.inj h ▸ fun _ => nofun
  | some text =>
    rw [checkedText, Option.ite_none_right_eq_some] at h
    obtain ⟨hadmits, hvalue⟩ := h
    rintro _ rfl
    exact Option.some.inj (Option.some.inj hvalue) ▸ hP text hadmits

theorem ifPresent_of_filledText {input value : Option String} (h : filledText input = some value) :
    IfPresent IsFilled value :=
  ifPresent_of_checkedText (fun _ hfilled => bne_iff_ne.mp hfilled) h

theorem ifPresent_of_metaText {input value : Option String} (h : metaText input = some value) :
    IfPresent IsMeta value :=
  ifPresent_of_checkedText
    (fun text hshort => of_decide_eq_true (p := JsString.length text ≤ 160) hshort) h

/-- A blank slug counts as none. -/
theorem ifPresent_of_optionalSlugSchema {input value : Option String}
    (h : optionalSlugSchema input = some value) : IfPresent IsSlug value := by
  cases input with
  | none => exact Option.some.inj h ▸ fun _ => nofun
  | some text =>
    simp only [optionalSlugSchema] at h
    split at h
    · next hslug =>
      rintro _ rfl
      exact Option.some.inj (Option.some.inj h) ▸ hslug
    · split at h
      · exact Option.some.inj h ▸ fun _ => nofun
      · cases h

theorem ifPresent_of_urlText {input value : Option String}
    (h : urlText parseUrl input = some value) : IfPresent (IsUrl parseUrl) value := by
  cases input with
  | none => exact Option.some.inj h ▸ fun _ => nofun
  | some text =>
    obtain ⟨url, hurl, rfl⟩ := Option.map_eq_some_iff.mp h
    rintro _ ⟨⟩
    exact ⟨text, hurl⟩

/-- The optional fields, one after the other. -/
theorem validFields_of_optionalPostFields {input fields : OptionalPostFields}
    (h : optionalPostFields parseUrl isUuid input = some fields) : ValidFields parseUrl fields := by
  obtain ⟨slugEn, hslugEn, h⟩ := Option.bind_eq_some_iff.mp h
  obtain ⟨slugEs, hslugEs, h⟩ := Option.bind_eq_some_iff.mp h
  obtain ⟨coverUrl, hcoverUrl, h⟩ := Option.bind_eq_some_iff.mp h
  obtain ⟨coverUrlEn, hcoverUrlEn, h⟩ := Option.bind_eq_some_iff.mp h
  obtain ⟨coverUrlEs, hcoverUrlEs, h⟩ := Option.bind_eq_some_iff.mp h
  obtain ⟨metaDescription, hmeta, h⟩ := Option.bind_eq_some_iff.mp h
  obtain ⟨metaDescriptionEn, hmetaEn, h⟩ := Option.bind_eq_some_iff.mp h
  obtain ⟨metaDescriptionEs, hmetaEs, h⟩ := Option.bind_eq_some_iff.mp h
  obtain ⟨topicIds, -, h⟩ := Option.bind_eq_some_iff.mp h
  obtain rfl := Option.some.inj h
  exact {
    slugEn := ifPresent_of_optionalSlugSchema hslugEn
    slugEs := ifPresent_of_optionalSlugSchema hslugEs
    coverUrl := ifPresent_of_urlText hcoverUrl
    coverUrlEn := ifPresent_of_urlText hcoverUrlEn
    coverUrlEs := ifPresent_of_urlText hcoverUrlEs
    metaDescription := ifPresent_of_metaText hmeta
    metaDescriptionEn := ifPresent_of_metaText hmetaEn
    metaDescriptionEs := ifPresent_of_metaText hmetaEs }

/-- An edit that was validated. -/
theorem validEdit_of_updatePostSchema {input : PostInput} {dto : UpdatePostDto}
    (h : updatePostSchema parseUrl isUuid input = some dto) : ValidEdit parseUrl dto := by
  obtain ⟨title, htitle, h⟩ := Option.bind_eq_some_iff.mp h
  obtain ⟨slug, hslug, h⟩ := Option.bind_eq_some_iff.mp h
  obtain ⟨content, hcontent, h⟩ := Option.bind_eq_some_iff.mp h
  obtain ⟨fields, hfields, h⟩ := Option.bind_eq_some_iff.mp h
  obtain rfl := Option.some.inj h
  exact {
    title := ifPresent_of_filledText htitle
    slug := ifPresent_of_checkedText (fun _ hslug => hslug) hslug
    content := ifPresent_of_filledText hcontent
    fields := validFields_of_optionalPostFields hfields }

/-- A new post that was validated makes a valid row. -/
theorem validPost_of_createPostSchema {input : PostInput} {dto : CreatePostDto}
    (h : createPostSchema parseUrl isUuid input = some dto) (authorId postId : String)
    (publishedAt : Option Nat) (now : Nat) :
    ValidPost parseUrl (newPost dto authorId postId publishedAt now) := by
  obtain ⟨edit, hedit, h⟩ := Option.bind_eq_some_iff.mp h
  obtain ⟨title, htitle, h⟩ := Option.bind_eq_some_iff.mp h
  obtain ⟨slug, hslug, h⟩ := Option.bind_eq_some_iff.mp h
  obtain ⟨content, hcontent, h⟩ := Option.bind_eq_some_iff.mp h
  obtain rfl := Option.some.inj h
  have hvalid := validEdit_of_updatePostSchema hedit
  exact { hvalid.fields with
    title := hvalid.title title htitle
    slug := hvalid.slug slug hslug
    content := hvalid.content content hcontent }

/-- An edit that was validated keeps a row valid, whatever row it meets. -/
theorem ValidPost.edited {row : Post} {dto : UpdatePostDto} (h : ValidPost parseUrl row)
    (hdto : ValidEdit parseUrl dto) (stamp : Option Nat) (now : Nat) :
    ValidPost parseUrl (editedPost dto stamp now row) where
  title := hdto.title.getD h.title
  slug := hdto.slug.getD h.slug
  content := hdto.content.getD h.content
  slugEn := hdto.fields.slugEn.or h.slugEn
  slugEs := hdto.fields.slugEs.or h.slugEs
  coverUrl := hdto.fields.coverUrl.or h.coverUrl
  coverUrlEn := hdto.fields.coverUrlEn.or h.coverUrlEn
  coverUrlEs := hdto.fields.coverUrlEs.or h.coverUrlEs
  metaDescription := hdto.fields.metaDescription.or h.metaDescription
  metaDescriptionEn := hdto.fields.metaDescriptionEn.or h.metaDescriptionEn
  metaDescriptionEs := hdto.fields.metaDescriptionEs.or h.metaDescriptionEs

/-- What the validation asks of an edit of a project. -/
structure ValidProjectEdit (parseUrl : String → Option String) (dto : UpdateProjectDto) :
    Prop where
  title : IfPresent IsFilled dto.title
  description : IfPresent IsFilled dto.description
  link : IfPresent (IsUrl parseUrl) dto.link

/-- What it asks of a project. -/
structure ValidProject (parseUrl : String → Option String) (row : Project) : Prop where
  title : IsFilled row.title
  description : IsFilled row.description
  link : IfPresent (IsUrl parseUrl) row.link

theorem validProjectEdit_of_updateProjectSchema {input : ProjectInput} {dto : UpdateProjectDto}
    (h : updateProjectSchema parseUrl input = some dto) : ValidProjectEdit parseUrl dto := by
  obtain ⟨title, htitle, h⟩ := Option.bind_eq_some_iff.mp h
  obtain ⟨description, hdescription, h⟩ := Option.bind_eq_some_iff.mp h
  obtain ⟨link, hlink, h⟩ := Option.bind_eq_some_iff.mp h
  obtain rfl := Option.some.inj h
  exact {
    title := ifPresent_of_filledText htitle
    description := ifPresent_of_filledText hdescription
    link := ifPresent_of_urlText hlink }

theorem validProject_of_createProjectSchema {input : ProjectInput} {dto : CreateProjectDto}
    (h : createProjectSchema parseUrl input = some dto) (projectId : String) (now : Nat) :
    ValidProject parseUrl (newProject dto projectId now) := by
  obtain ⟨edit, hedit, h⟩ := Option.bind_eq_some_iff.mp h
  obtain ⟨title, htitle, h⟩ := Option.bind_eq_some_iff.mp h
  obtain ⟨description, hdescription, h⟩ := Option.bind_eq_some_iff.mp h
  obtain rfl := Option.some.inj h
  have hvalid := validProjectEdit_of_updateProjectSchema hedit
  exact {
    title := hvalid.title title htitle
    description := hvalid.description description hdescription
    link := hvalid.link }

theorem ValidProject.edited {row : Project} {dto : UpdateProjectDto} (h : ValidProject parseUrl row)
    (hdto : ValidProjectEdit parseUrl dto) (now : Nat) :
    ValidProject parseUrl (editedProject dto now row) where
  title := hdto.title.getD h.title
  description := hdto.description.getD h.description
  link := hdto.link.or h.link

end Schemas

section Rows

variable {τ : Type} {config : SiteConfig τ}

/-- What a topic is. -/
structure ValidTopic (config : SiteConfig τ) (row : Topic) : Prop where
  name : IsFilled row.name
  slug : row.slug = slugify config.normalizeNfd config.toLowerCase row.name

/-- The address of a code is that of a body, in lower case. -/
def ValidOtp (config : SiteConfig τ) (row : EmailOtp) : Prop :=
  ∃ email, config.isEmail email = true ∧ row.email = config.toLowerCase email

/-- The about page has a content, unless nobody has written it. -/
def ValidAbout (row : AboutContent) : Prop :=
  IsFilled row.content ∨ row.contentEn = none ∧ row.contentEs = none

/-- Every row meets what the validation asks for. -/
structure Valid (config : SiteConfig τ) (d : Site) : Prop where
  posts : ∀ row ∈ d.store.posts, ValidPost config.parseUrl row
  topics : ∀ row ∈ d.store.topics, ValidTopic config row
  comments : ∀ row ∈ d.store.comments, IsFilled row.content
  emailOtps : ∀ row ∈ d.store.emailOtps, ValidOtp config row
  projects : ∀ row ∈ d.others.projects, ValidProject config.parseUrl row
  aboutContent : ∀ row ∈ d.others.aboutContent, ValidAbout row

/-- What a step writes was validated. -/
def ValidStep (config : SiteConfig τ) : SiteStep → Prop
  | .store (.createPost row _) => ValidPost config.parseUrl row
  | .store (.updatePost _ _ dto _) => ValidEdit config.parseUrl dto
  | .store (.insertTopic row) => ValidTopic config row
  | .store (.renameTopic _ name slug) =>
    IsFilled name ∧ slug = slugify config.normalizeNfd config.toLowerCase name
  | .store (.insertComment row) => IsFilled row.content
  | .store (.insertOtp row) => ValidOtp config row
  | .insertProject row => ValidProject config.parseUrl row
  | .updateProject _ dto _ => ValidProjectEdit config.parseUrl dto
  | .insertAbout row => ValidAbout row
  | .updateAbout _ dto _ => IsFilled dto.content
  | _ => True

/-- A row joins valid ones. -/
theorem forall_mem_concat {ρ : Type} {P : ρ → Prop} {rows : List ρ} {row : ρ}
    (h : ∀ other ∈ rows, P other) (hrow : P row) : ∀ other ∈ rows ++ [row], P other :=
  List.forall_mem_append.mpr ⟨h, List.forall_mem_singleton.mpr hrow⟩

/-- Rows go. -/
theorem forall_mem_filter {ρ : Type} {P : ρ → Prop} {rows : List ρ} (h : ∀ row ∈ rows, P row)
    (p : ρ → Bool) : ∀ row ∈ rows.filter p, P row :=
  fun row hrow => h row (List.mem_of_mem_filter hrow)

/-- A step on the tables of the services that writes what was validated. -/
theorem Valid.moves {d : Site} {s : Store} {step : TableStep} (h : Valid config d)
    (hstep : ValidStep config (.store step)) (hmoves : TableMoves d.store step s) :
    Valid config { d with store := s } := by
  cases hmoves with
  | insertOtp => exact { h with emailOtps := forall_mem_concat h.emailOtps hstep }
  | deleteOtpsOf | deleteOtp => exact { h with emailOtps := forall_mem_filter h.emailOtps _ }
  | setAttempts =>
    exact { h with emailOtps := forall_mem_updateWhere h.emailOtps fun _ hrow => hrow }
  | removeAccount => exact { h with comments := forall_mem_filter h.comments _ }
  | createPost => exact { h with posts := forall_mem_concat h.posts hstep }
  | updatePost =>
    exact { h with posts := forall_mem_updateWhere h.posts fun _ hrow => hrow.edited hstep _ _ }
  | removePost =>
    exact { h with
      posts := forall_mem_filter h.posts _
      comments := forall_mem_filter h.comments _ }
  | insertTopic => exact { h with topics := forall_mem_concat h.topics hstep }
  | renameTopic =>
    exact { h with topics := forall_mem_updateWhere h.topics fun _ _ => ⟨hstep.1, hstep.2⟩ }
  | removeTopic => exact { h with topics := forall_mem_filter h.topics _ }
  | insertComment => exact { h with comments := forall_mem_concat h.comments hstep }
  | removeComment => exact { h with comments := forall_mem_filter h.comments _ }
  | _ => exact { h with }

/-- A step that writes what was validated leaves valid rows. -/
theorem Valid.performed {d e : Site} {step : SiteStep} (h : Valid config d)
    (hstep : ValidStep config step) (hnext : sitePerformed d step = some e) : Valid config e := by
  cases step with
  | store step =>
    obtain ⟨store, hstore, rfl⟩ := Option.map_eq_some_iff.mp hnext
    exact h.moves hstep (performed_moves hstore)
  | insertProject row =>
    obtain ⟨-, rfl⟩ := mapError_toOption hnext
    exact { h with projects := forall_mem_concat h.projects hstep }
  | updateProject id updateProjectDto now =>
    obtain ⟨-, he⟩ := Option.ite_none_left_eq_some.mp hnext
    obtain rfl := Option.some.inj he
    exact { h with
      projects := forall_mem_updateWhere h.projects fun _ hrow => hrow.edited hstep now }
  | removeProject id =>
    obtain rfl := Option.some.inj hnext
    exact { h with projects := forall_mem_filter h.projects _ }
  | insertAbout row =>
    obtain ⟨-, rfl⟩ := insertRow_toOption hnext
    exact { h with aboutContent := forall_mem_concat h.aboutContent hstep }
  | updateAbout id updateAboutDto now =>
    obtain rfl := Option.some.inj hnext
    exact { h with
      aboutContent := forall_mem_updateWhere h.aboutContent fun _ _ => Or.inl hstep }

/-- What a request writes was validated. -/
theorem validStep_of_permits {R : Rely Store} {s t : Store} {request : Request τ} {step : SiteStep}
    (h : RequestPermits config R s request t step) : ValidStep config step := by
  obtain ⟨m, guarded, call, hentered, -, hpermits⟩ := h
  have hhandles := handler_eq_ok hentered.handler
  generalize request.route = route at hhandles
  cases hpermits with
  | service hcall =>
    cases hcall with
    | createPost =>
      cases hhandles with
      | createPost hbody => exact validPost_of_createPostSchema hbody ..
    | updatePost =>
      cases hhandles with
      | updatePost hbody => exact validEdit_of_updatePostSchema hbody
    | createComment =>
      cases hhandles with
      | createComment hbody =>
        rw [createCommentSchema, Option.ite_none_left_eq_some] at hbody
        exact Option.some.inj hbody.2 ▸ hbody.1
    | insertCode =>
      cases hhandles with
      | @requestOtp body _ _ _ hbody =>
        rw [requestOtpSchema, Option.ite_none_right_eq_some] at hbody
        exact ⟨body, hbody.1, (Option.some.inj hbody.2).symm⟩
    | _ => trivial
  | startLogin _ _ _ hvalidate | callback _ _ _ hvalidate =>
    cases hvalidate with
    | login | firstLogin | link => trivial
  | createTopic =>
    cases hhandles with
    | createTopic hbody =>
      rw [createTopicSchema, Option.ite_none_left_eq_some] at hbody
      exact ⟨Option.some.inj hbody.2 ▸ hbody.1, rfl⟩
  | updateTopic =>
    cases hhandles with
    | updateTopic hbody =>
      rw [createTopicSchema, Option.ite_none_left_eq_some] at hbody
      exact ⟨Option.some.inj hbody.2 ▸ hbody.1, rfl⟩
  | createProject =>
    cases hhandles with
    | createProject hbody => exact validProject_of_createProjectSchema hbody ..
  | updateProject =>
    cases hhandles with
    | updateProject hbody => exact validProjectEdit_of_updateProjectSchema hbody
  | about => exact Or.inr ⟨rfl, rfl⟩
  | newAbout =>
    cases hhandles with
    | updateAbout hbody =>
      rw [updateAboutSchema, Option.ite_none_left_eq_some] at hbody
      exact Or.inl (Option.some.inj hbody.2 ▸ hbody.1)
  | updateAbout =>
    cases hhandles with
    | updateAbout hbody =>
      rw [updateAboutSchema, Option.ite_none_left_eq_some] at hbody
      exact Option.some.inj hbody.2 ▸ hbody.1
  | _ => trivial

end Rows

section Runs

variable {τ : Type} {config : SiteConfig τ} {d : Site}
  {labels : List (CallLabel (Request τ) Failure Nat)}
  {after : CallState Site Failure (SiteAnswer τ)}

/-- Whatever the requests do, and in whatever order their statements run, every row that they
leave meets what the validation asks for. -/
theorem rows_are_valid (hd : Valid config d)
    (hrun : (site config).exec (.initial d) labels = some after) : Valid config after.state := by
  refine (site config).exec_induction (P := fun _ s => Valid config s.state) hd
    (fun labels s label t hs ih _ hstep => ?_) (site_startsAny labels) hrun
  rcases site_attributed_since (site_startsAny labels) hs hstep with
    hsame | ⟨ms, hpassing⟩ | ⟨id, request, started, step, -, -, -, hpermits, hnext⟩
  · exact hsame ▸ ih
  · have htick : sitePerformed s.state (.store (.tick ms)) = some t.state := hpassing ▸ rfl
    have hnothing : ValidStep config (.store (.tick ms)) := trivial
    exact ih.performed hnothing htick
  · exact ih.performed (validStep_of_permits hpermits) hnext

end Runs

/-- The site with something in every table has what the validation lets through. -/
theorem fullSite_valid : Valid bytesSite fullSite where
  posts row hrow := by
    obtain rfl := List.mem_singleton.mp hrow
    exact {
      title := by decide
      slug := by decide +kernel
      content := by decide
      slugEn := nofun
      slugEs := nofun
      coverUrl := nofun
      coverUrlEn := nofun
      coverUrlEs := nofun
      metaDescription := nofun
      metaDescriptionEn := nofun
      metaDescriptionEs := nofun }
  topics row hrow := by
    have hcases : row = ⟨"lean", "lean", "lean", 0⟩ ∨ row = ⟨"proofs", "proofs", "proofs", 0⟩ := by
      simpa [fullSite] using hrow
    rcases hcases with rfl | rfl <;> exact ⟨by decide, by decide +kernel⟩
  comments row hrow := by
    obtain rfl := List.mem_singleton.mp hrow
    decide
  emailOtps row hrow := by
    obtain rfl := List.mem_singleton.mp hrow
    exact ⟨_, rfl, rfl⟩
  projects row hrow := by
    obtain rfl := List.mem_singleton.mp hrow
    exact ⟨by decide, by decide, nofun⟩
  aboutContent row hrow := by
    obtain rfl := List.mem_singleton.mp hrow
    exact Or.inl (by decide)

/-- The edited post has its new title, and the slug and text that it had. -/
theorem rows_are_valid_draftEdited :
    (draftEdited.state.store.posts.map fun row => (row.title, row.slug, row.content)) =
        [("Published", "draft", "Text")] ∧
      Valid bytesSite draftEdited.state :=
  ⟨by decide +kernel, rows_are_valid fullSite_valid ((site bytesSite).exec_run ..)⟩

end VertexApi.App
