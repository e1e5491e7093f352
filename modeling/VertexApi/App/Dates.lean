import VertexApi.App.SiteSteps
import VertexApi.App.TableMoves

/-!
# Dates

A date that a request writes was taken from the clock after the request was started, so that it
has passed when it is written. The expiry of a code is such a date and the lifetime of the code.
So no row carries a date of the future, and no code outlives its lifetime, whatever runs in
between a look at the clock and the write of what it has shown.
-/

namespace VertexApi.App

open About Auth Comments Posts Projects Topics Users

/-- Every date that the rows of a table carry has passed. -/
def Passed {ρ : Type} (dates : ρ → List Nat) (now : Nat) (rows : List ρ) : Prop :=
  ∀ row ∈ rows, ∀ date ∈ dates row, date ≤ now

namespace Passed

variable {ρ : Type} {dates : ρ → List Nat} {now later : Nat} {rows : List ρ}

theorem elapse (h : Passed dates now rows) (hnow : now ≤ later) : Passed dates later rows :=
  fun row hrow date hdate => (h row hrow date hdate).trans hnow

theorem filter (h : Passed dates now rows) (p : ρ → Bool) :
    Passed dates now (rows.filter p) := fun row hrow => h row (List.mem_of_mem_filter hrow)

theorem append (h : Passed dates now rows) {row : ρ} (hrow : ∀ date ∈ dates row, date ≤ now) :
    Passed dates now (rows ++ [row]) := by
  intro other hother
  rcases List.mem_append.mp hother with hother | hother
  · exact h other hother
  · rw [List.mem_singleton.mp hother]
    exact hrow

/-- An edit keeps the dates of a row, or writes some that have passed. -/
theorem updateWhere {κ : Type} [DecidableEq κ] {key : ρ → κ} {k : κ} {f : ρ → ρ}
    (h : Passed dates now rows)
    (hf : ∀ row, ∀ date ∈ dates (f row), date ∈ dates row ∨ date ≤ now) :
    Passed dates now (VertexApi.updateWhere key k f rows) := by
  intro row hrow date hdate
  rcases mem_updateWhere.mp hrow with ⟨old, hold, -, rfl⟩ | ⟨hrow, -⟩
  · rcases hf old date hdate with hkept | hpassed
    · exact h old hold date hkept
    · exact hpassed
  · exact h row hrow date hdate

end Passed

section Tables

/-- The dates of a row of `users`. -/
def userDates (row : User) : List Nat := [row.createdAt, row.updatedAt]

/-- Of a row of `posts`. -/
def postDates (row : Post) : List Nat := row.createdAt :: row.updatedAt :: row.publishedAt.toList

/-- Of a row of `email_otps`: when it was made, and when it was drawn. -/
def otpDates (row : EmailOtp) : List Nat := [row.createdAt, row.expiresAt - otpTtlMs]

/-- Of a row of `oauth_exchange_codes`: when it was drawn. -/
def exchangeCodeDates (row : OauthExchangeCode) : List Nat :=
  [row.expiresAt - oauthExchangeCodeTtlMs]

/-- Of a row of `topics`. -/
def topicDates (row : Topic) : List Nat := [row.createdAt]

/-- Of a row of `comments`. -/
def commentDates (row : Comment) : List Nat := [row.createdAt]

/-- Of a row of `projects`. -/
def projectDates (row : Project) : List Nat := [row.createdAt, row.updatedAt]

/-- Of a row of `about_content`. -/
def aboutDates (row : AboutContent) : List Nat := [row.updatedAt]

/-- Every date of the tables of the services has passed. -/
structure Store.Dated (s : Store) : Prop where
  users : Passed userDates s.clock s.users
  posts : Passed postDates s.clock s.posts
  emailOtps : Passed otpDates s.clock s.emailOtps
  oauthExchangeCodes : Passed exchangeCodeDates s.clock s.oauthExchangeCodes
  topics : Passed topicDates s.clock s.topics
  comments : Passed commentDates s.clock s.comments

/-- Every date of the site has passed. -/
structure Dated (d : Site) : Prop where
  store : d.store.Dated
  projects : Passed projectDates d.store.clock d.others.projects
  aboutContent : Passed aboutDates d.store.clock d.others.aboutContent

/-- The dates that a step writes. -/
def TableStep.dates : TableStep → List Nat
  | .insertUser row => userDates row
  | .updateUser _ (.profile _ _ now) => [now]
  | .insertOtp row => otpDates row
  | .insertExchangeCode row => exchangeCodeDates row
  | .createPost row _ => postDates row
  | .updatePost _ _ _ now => [now]
  | .insertTopic row => topicDates row
  | .insertComment row => commentDates row
  | _ => []

/-- The dates that a step of the site writes. -/
def SiteStep.dates : SiteStep → List Nat
  | .store step => step.dates
  | .insertProject row => projectDates row
  | .updateProject _ _ now => [now]
  | .insertAbout row => aboutDates row
  | .updateAbout _ _ now => [now]
  | .removeProject _ => []

end Tables

section Steps

variable {s t : Store} {step : TableStep}

/-- The dates of a user that an edit leaves are old ones, or that of the edit. -/
theorem userDates_apply (id : String) (edit : UserEdit) (row : User) :
    ∀ date ∈ userDates (edit.apply row),
      date ∈ userDates row ∨ date ∈ (TableStep.updateUser id edit).dates := by
  intro date hdate
  cases edit with
  | profile dto existing now =>
    rcases List.mem_cons.mp hdate with rfl | hdate
    · exact Or.inl (List.mem_cons_self ..)
    · exact Or.inr hdate
  | login identity existing | link identity existing =>
    cases identity with
    | mk provider => cases provider <;> exact Or.inl hdate

/-- So are those of a post. -/
theorem postDates_postEdit (id : String) (existing : Post) (updatePostDto : UpdatePostDto)
    (now : Nat) (row : Post) : ∀ date ∈ postDates (postEdit existing updatePostDto now row),
      date ∈ postDates row ∨
        date ∈ (TableStep.updatePost id existing updatePostDto now).dates := by
  intro date hdate
  have hnow : now ∈ (TableStep.updatePost id existing updatePostDto now).dates :=
    List.mem_singleton.mpr rfl
  rcases List.mem_cons.mp hdate with rfl | hdate
  · exact Or.inl (List.mem_cons_self ..)
  · rcases List.mem_cons.mp hdate with rfl | hdate
    · exact Or.inr hnow
    · have hpublished : (stampOf existing updatePostDto now).or row.publishedAt = some date :=
        Option.mem_toList.mp hdate
      rw [stampOf] at hpublished
      split at hpublished
      · obtain rfl := Option.some.inj hpublished
        exact Or.inr hnow
      · have hkept : date ∈ row.publishedAt.toList := Option.mem_toList.mpr hpublished
        exact Or.inl (List.mem_cons_of_mem _ (List.mem_cons_of_mem _ hkept))

/-- A step that writes dates which have passed leaves no others. -/
theorem Store.Dated.moves (h : s.Dated) (hdates : ∀ date ∈ step.dates, date ≤ s.clock)
    (hmoves : TableMoves s step t) : t.Dated := by
  cases hmoves with
  | @tick ms =>
    have hlater : s.clock ≤ s.clock + ms := Nat.le_add_right ..
    exact ⟨h.users.elapse hlater, h.posts.elapse hlater, h.emailOtps.elapse hlater,
      h.oauthExchangeCodes.elapse hlater, h.topics.elapse hlater, h.comments.elapse hlater⟩
  | handOver => exact { h with }
  | insertUser => exact { h with users := h.users.append hdates }
  | @updateUser id edit =>
    exact { h with users := h.users.updateWhere fun row date hdate =>
      (userDates_apply id edit row date hdate).imp_right (hdates date) }
  | setBanned => exact { h with users := h.users.updateWhere fun _ _ hdate => Or.inl hdate }
  | removeAccount =>
    exact { h with
      users := h.users.filter _
      comments := h.comments.filter _
      oauthExchangeCodes := h.oauthExchangeCodes.filter _ }
  | insertOtp => exact { h with emailOtps := h.emailOtps.append hdates }
  | deleteOtpsOf | deleteOtp => exact { h with emailOtps := h.emailOtps.filter _ }
  | setAttempts =>
    exact { h with emailOtps := h.emailOtps.updateWhere fun _ _ hdate => Or.inl hdate }
  | insertExchangeCode =>
    exact { h with oauthExchangeCodes := h.oauthExchangeCodes.append hdates }
  | takeExchangeCode | pruneExchangeCodes =>
    exact { h with oauthExchangeCodes := h.oauthExchangeCodes.filter _ }
  | createPost => exact { h with posts := h.posts.append hdates }
  | @updatePost id existing old updatePostDto now =>
    exact { h with posts := h.posts.updateWhere fun row date hdate =>
      (postDates_postEdit id existing updatePostDto now row date hdate).imp_right (hdates date) }
  | removePost =>
    exact { h with posts := h.posts.filter _, comments := h.comments.filter _ }
  | insertTopic => exact { h with topics := h.topics.append hdates }
  | renameTopic => exact { h with topics := h.topics.updateWhere fun _ _ hdate => Or.inl hdate }
  | removeTopic => exact { h with topics := h.topics.filter _ }
  | insertComment => exact { h with comments := h.comments.append hdates }
  | removeComment => exact { h with comments := h.comments.filter _ }

/-- So does a step of the site. -/
theorem Dated.performed {d e : Site} {step : SiteStep} (h : Dated d)
    (hdates : ∀ date ∈ step.dates, date ≤ d.store.clock) (hstep : sitePerformed d step = some e) :
    Dated e := by
  cases step with
  | store step =>
    obtain ⟨store, hstore, rfl⟩ := Option.map_eq_some_iff.mp hstep
    have hmoves := performed_moves hstore
    have hlater : d.store.clock ≤ store.clock := clock_le_of_moves hmoves
    exact ⟨h.store.moves hdates hmoves, h.projects.elapse hlater, h.aboutContent.elapse hlater⟩
  | insertProject row =>
    obtain ⟨-, rfl⟩ := mapError_toOption hstep
    exact { h with projects := h.projects.append hdates }
  | updateProject id updateProjectDto now =>
    obtain ⟨-, he⟩ := Option.ite_none_left_eq_some.mp hstep
    obtain rfl := Option.some.inj he
    refine { h with projects := h.projects.updateWhere fun row date hdate => ?_ }
    rcases List.mem_cons.mp hdate with rfl | hdate
    · exact Or.inl (List.mem_cons_self ..)
    · exact Or.inr (hdates date hdate)
  | removeProject id =>
    obtain rfl := Option.some.inj hstep
    exact { h with projects := h.projects.filter _ }
  | insertAbout row =>
    obtain ⟨-, rfl⟩ := insertRow_toOption hstep
    exact { h with aboutContent := h.aboutContent.append hdates }
  | updateAbout id updateAboutDto now =>
    obtain rfl := Option.some.inj hstep
    have hedit (row : AboutContent) : ∀ date ∈ aboutDates (written updateAboutDto now row),
        date ∈ aboutDates row ∨ date ≤ d.store.clock := fun date hdate => Or.inr (hdates date hdate)
    exact { h with aboutContent := h.aboutContent.updateWhere hedit }

variable {τ : Type} {config : SiteConfig τ} {request : Request τ}

/-- One date. -/
theorem passed_single {date now : Nat} (h : date ≤ now) : ∀ other ∈ [date], other ≤ now :=
  List.forall_mem_singleton.mpr h

/-- Two dates. -/
theorem passed_pair {first second now : Nat} (hfirst : first ≤ now) (hsecond : second ≤ now) :
    ∀ other ∈ [first, second], other ≤ now :=
  List.forall_mem_cons.mpr ⟨hfirst, passed_single hsecond⟩

/-- The dates of a new post. -/
theorem postDates_newPost (createPostDto : CreatePostDto) (authorId postId : String)
    {looked now : Nat} (hlooked : looked ≤ now) : ∀ date ∈ postDates
      (newPost createPostDto authorId postId (createdPublishedAt createPostDto looked) now),
      date ≤ now := by
  refine List.forall_mem_cons.mpr ⟨le_rfl, List.forall_mem_cons.mpr ⟨le_rfl, fun date hdate => ?_⟩⟩
  have hpublished : createdPublishedAt createPostDto looked = some date :=
    Option.mem_toList.mp hdate
  rw [createdPublishedAt, Option.ite_none_right_eq_some] at hpublished
  exact Option.some.inj hpublished.2 ▸ hlooked

/-- The dates that an operation writes have passed. -/
theorem dates_of_permits {config : ApiConfig τ} {call : Call τ}
    (h : Permits config elapses s call t step) : ∀ date ∈ step.dates, date ≤ t.clock := by
  cases h with
  | setBanned | removeUser | removeSelf | oldAvatar | removeComment | removedMedia | removePost |
    postMedia | sign | pruneCodes | takeCode | signExchanged | replaceCode | mailCode | dropCode |
    countAttempt | signVerified | login | link => exact fun _ => nofun
  | updateSelf _ _ ht => exact passed_single ht
  | createComment => exact passed_single le_rfl
  | createPost _ ht => exact postDates_newPost _ _ _ ht
  | updatePost _ _ ht => exact passed_single ht
  | register | firstSignIn => exact passed_pair le_rfl le_rfl
  | @firstLogin _ _ _ _ _ _ identity =>
    cases identity with
    | mk provider => cases provider <;> exact passed_pair le_rfl le_rfl
  | insertCode _ ht => exact passed_pair le_rfl (Nat.sub_le_of_le_add (Nat.add_le_add_right ht _))
  | mintCode _ ht => exact passed_single (Nat.sub_le_of_le_add (Nat.add_le_add_right ht _))

/-- The dates that a request writes have passed. -/
theorem dates_of_requestPermits {step : SiteStep}
    (h : RequestPermits config elapses s request t step) :
    ∀ date ∈ step.dates, date ≤ t.clock := by
  obtain ⟨m, guarded, call, -, -, hpermits⟩ := h
  cases hpermits with
  | service hcall => exact dates_of_permits hcall
  | startLogin _ _ _ hvalidate | callback _ _ _ hvalidate => exact dates_of_permits hvalidate
  | login | pruneCodes | updateTopic | removeTopic | removeProject => exact fun _ => nofun
  | mintCode _ _ ht => exact passed_single (Nat.sub_le_of_le_add (Nat.add_le_add_right ht _))
  | createTopic | about | newAbout => exact passed_single le_rfl
  | createProject => exact passed_pair le_rfl le_rfl
  | updateProject _ ht | updateAbout _ ht => exact passed_single ht

end Steps

section Runs

variable {τ : Type} {config : SiteConfig τ} {d : Site}
  {labels : List (CallLabel (Request τ) Failure Nat)}
  {after : CallState Site Failure (SiteAnswer τ)}

/-- Whatever runs, time does not turn back. -/
theorem elapses_conduct : SiteConduct config elapses (fun _ _ => True) d :=
  site_conduct (fun _ _ _ _ hperformed => clock_le_of_moves (performed_moves hperformed))
    fun _ _ _ => Nat.le_add_right ..

/-- Whatever the requests do, no row carries a date of the future, and every code expires within
its lifetime. -/
theorem dates_have_passed (hd : Dated d)
    (hrun : (site config).exec (.initial d) labels = some after) :
    Dated after.state ∧
      (∀ row ∈ after.state.store.emailOtps,
        row.expiresAt ≤ after.state.store.clock + otpTtlMs) ∧
      ∀ row ∈ after.state.store.oauthExchangeCodes,
        row.expiresAt ≤ after.state.store.clock + oauthExchangeCodeTtlMs := by
  have hconduct : SiteConduct config elapses (fun _ _ => True) d := elapses_conduct
  have hdated : Dated after.state := by
    refine (site config).exec_induction (P := fun _ s => Dated s.state) hd
      (fun labels s label t hs ih _ hstep => ?_) (site_startsAny labels) hrun
    rcases site_attributed hconduct (site_startsAny labels) hs hstep with
      hsame | ⟨ms, hpassing⟩ | ⟨id, request, started, step, -, -, -, -, -, hpermits, hnext⟩
    · exact hsame ▸ ih
    · have htick : sitePerformed s.state (.store (.tick ms)) = some t.state := hpassing ▸ rfl
      have hnone : ∀ date ∈ SiteStep.dates (.store (.tick ms)), date ≤ s.state.store.clock :=
        fun _ => nofun
      exact ih.performed hnone htick
    · exact ih.performed (dates_of_requestPermits hpermits) hnext
  refine ⟨hdated, fun row hrow => ?_, fun row hrow => ?_⟩
  · have hexpiry := hdated.store.emailOtps row hrow (row.expiresAt - otpTtlMs)
      (List.mem_cons_of_mem _ (List.mem_singleton.mpr rfl))
    exact Nat.le_add_of_sub_le hexpiry
  · have hexpiry := hdated.store.oauthExchangeCodes row hrow
      (row.expiresAt - oauthExchangeCodeTtlMs) (List.mem_singleton.mpr rfl)
    exact Nat.le_add_of_sub_le hexpiry

end Runs

/-- On the site with something in every table, the dates have passed. -/
theorem fullSite_dated : Dated fullSite where
  store := {
    users := by simp only [Passed]; decide +kernel
    posts := by simp only [Passed]; decide +kernel
    emailOtps := by simp only [Passed]; decide +kernel
    oauthExchangeCodes := by simp only [Passed]; decide +kernel
    topics := by simp only [Passed]; decide +kernel
    comments := by simp only [Passed]; decide +kernel }
  projects := by simp only [Passed]; decide +kernel
  aboutContent := by simp only [Passed]; decide +kernel

/-- So have those of the edit that publishes the post. -/
theorem dates_have_passed_draftEdited :
    draftEdited.state.store.posts.map Post.publishedAt = [some 1000] ∧
      Dated draftEdited.state ∧
      (∀ row ∈ draftEdited.state.store.emailOtps,
        row.expiresAt ≤ draftEdited.state.store.clock + otpTtlMs) ∧
      ∀ row ∈ draftEdited.state.store.oauthExchangeCodes,
        row.expiresAt ≤ draftEdited.state.store.clock + oauthExchangeCodeTtlMs :=
  ⟨by decide +kernel, dates_have_passed fullSite_dated ((site bytesSite).exec_run ..)⟩

end VertexApi.App
