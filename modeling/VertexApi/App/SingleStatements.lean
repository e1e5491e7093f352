import VertexApi.App.Handlers
import VertexApi.Core.Linearization

/-!
# Services of one statement

Most services are one statement, or one transaction: they read, or they write in one go. Whatever
other requests run between the statements of the guards and that one, such a service answers as it
does when it runs alone, at a position of the run that is behind its guards, and whatever its
request changes, it changes there. So these services can be taken to run whole, one at a time, in
between the single steps of the others.
-/

namespace VertexApi.App

open About Auth Comments Common Posts Projects Topics Uploads Users

variable {τ : Type}

/-- The routes whose services are one statement at most; a transaction is one. -/
def Route.isInstant : Route → Bool
  | .hello | .health | .publishedPosts | .postBySlug .. | .dashboardPosts | .topics |
    .createTopic .. | .updateTopic .. | .removeTopic .. | .projects | .projectById .. |
    .createProject .. | .removeProject .. | .users | .user .. | .setBanned .. | .removeSelf |
    .removeUser .. | .commentsOfPost .. | .commentsOfAuthor .. | .presignedUrl .. |
    .avatarPresignedUrl .. | .profile | .startLink .. => true
  | _ => false

/-- The service of a request, whose guards have let it pass before, answers so when it runs alone
between two states. -/
def AnsweredAlone (config : SiteConfig τ) (R : Rely Store) (started : Site) (request : Request τ)
    (d e : Site) (answer : SiteAnswer τ) : Prop :=
  ∃ m guarded call, Entered config R started.store request m guarded call ∧
    R.grows m d.store ∧ (siteOperation config call).run [] d = ⟨e, [], .ok answer⟩

section Services

variable {config : SiteConfig τ} {α β : Type}

/-- What happens at once on the tables does so on the site. -/
theorem onStore_atOnce {p : Operation α} {f : α → β} (h : p.AtOnce) :
    (f <$> onStore p).AtOnce := by
  have honStore : (onStore p).AtOnce := h.zoom (fun _ _ => rfl) (fun _ => rfl) fun _ _ _ => rfl
  exact honStore.map

/-- A check takes no statement. -/
theorem admitted_atOnce (x : Except HttpException α) : (admitted x).AtOnce := by
  cases x with
  | ok a => exact .pure a
  | error exception => exact .throw _

theorem prepared_atOnce (x : Except ThrownError α) : (prepared x).AtOnce := by
  cases x with
  | ok upload => exact .pure upload
  | error error => exact .throw _

/-- A topic is renamed at once. -/
theorem updateTopic_atOnce (id : String) (updateTopicDto : CreateTopicDto) :
    (TopicsService.update config.normalizeNfd config.toLowerCase id updateTopicDto).AtOnce := by
  refine Program.AtOnce.found rfl (fun _ => ⟨_, rfl⟩) fun s t hrun => ?_
  split at hrun
  · cases hrun
  · next topics topic hupdate =>
    obtain ⟨rfl, rfl⟩ := Prod.mk.inj (Except.ok.inj hrun)
    obtain ⟨-, rfl⟩ := updateRow_eq_ok_none.mp (mapError_eq_ok.mp hupdate)
    rfl

/-- A topic is removed at once, with its links. -/
theorem removeTopic_atOnce (id : String) : (TopicsService.remove id).AtOnce := by
  refine Program.AtOnce.found rfl (fun _ => ⟨_, rfl⟩) fun s t hrun => ?_
  split at hrun
  · exact (Prod.mk.inj (Except.ok.inj hrun)).1.symm
  · cases (Prod.mk.inj (Except.ok.inj hrun)).2

/-- A project is removed at once. -/
theorem removeProject_atOnce (id : String) : (ProjectsService.remove id).AtOnce := by
  refine Program.AtOnce.found rfl (fun _ => ⟨_, rfl⟩) fun d e hrun => ?_
  obtain ⟨rfl, hfound⟩ := Prod.mk.inj (Except.ok.inj hrun)
  rw [filter_of_findProjectById hfound]
  rfl

/-- The services of these routes. -/
theorem siteOperation_atOnce {guarded : Guarded} {route : Route} {call : SiteCall τ}
    (h : Handles config guarded route call) (hinstant : route.isInstant = true) :
    (siteOperation config call).AtOnce := by
  cases h with
  | hello | startLink => exact .pure _
  | health => exact (Program.AtOnce.look _).map
  | publishedPosts | dashboardPosts | users | setBanned | removeUser | removeSelf |
    commentsOfPost | commentsOfAuthor => exact onStore_atOnce (Program.AtOnce.query _).map
  | postBySlug | user => exact onStore_atOnce (.map (.find rfl fun _ => ⟨_, rfl⟩))
  | topics | createTopic => exact onStore_atOnce (.query _)
  | updateTopic => exact onStore_atOnce (updateTopic_atOnce _ _)
  | removeTopic => exact onStore_atOnce (removeTopic_atOnce _)
  | projects | createProject => exact (Program.AtOnce.query _).map
  | projectById => exact .map (.find rfl fun _ => ⟨_, rfl⟩)
  | removeProject => exact (removeProject_atOnce _).map
  | presignedUrl | avatarPresignedUrl => exact (prepared_atOnce _).map
  | profile => exact onStore_atOnce (admitted_atOnce _)
  | _ => cases hinstant

end Services

section Requests

variable {config : SiteConfig τ}

/-- What makes no steps changes nothing. -/
theorem eq_of_performs {d e : Site} (h : siteTables.Performs (fun _ _ => False) d e) : d = e := by
  rcases h with rfl | ⟨-, h, -⟩
  · rfl
  · exact h.elim

/-- Behind the guards of such a request, its service does what it does alone. -/
theorem handle_linearizes {request : Request τ} (hinstant : request.route.isInstant = true)
    (R : Rely Store) (d : Site) : (handle config request).Linearizes (R.comap Database.store)
      (AnsweredAlone config R d request) d := by
  refine .after (checked_behaves _ d) (fun _ _ => eq_of_performs) fun t _ ⟨ht, hglobal⟩ => ?_
  subst ht
  refine .after (guard_behaves request.accessToken request.route.access t)
    (fun _ _ => eq_of_performs) fun m guarded ⟨hm, hauthorized⟩ => ?_
  refine .after (checked_behaves _ m) (fun _ _ => eq_of_performs) fun n call ⟨hn, hhandler⟩ => ?_
  subst hn
  have hentered : Entered config R t.store request n.store guarded call :=
    ⟨hglobal, hauthorized, hhandler, hm⟩
  refine ((siteOperation_atOnce (handler_eq_ok hhandler) hinstant).linearizes _ n).mono ?_
  rintro u v answer ⟨hgrows, hrun⟩
  exact ⟨n.store, guarded, call, hentered, hgrows, hrun⟩

end Requests

section Runs

variable {config : SiteConfig τ} {d started : Site}
  {labels : List (CallLabel (Request τ) Failure Nat)}
  {before : CallState Site Failure (SiteAnswer τ)} {id : Nat} {request : Request τ}

/-- Whatever runs in between, a request whose service is one statement is answered as the service
answers when it runs alone at a moment of the request, where its guards had let it pass, and each
of its steps leaves the site as it is, or is all that the service does when it runs alone there. -/
theorem single_statements_linearize (hrun : (site config).exec (.initial d) labels = some before)
    (hstarted : Started (site config) d labels id request started)
    (hinstant : request.route.isInstant = true) :
    (∀ answer, before.answers id = some (.ok answer) → ∃ former m u,
      Moment (site config) d labels id request started former m u ∧
      AnsweredAlone config (storesSince config d former id) started request m u answer) ∧
    ∀ after, (site config).step before (.step id) = some after → after.state = before.state ∨
      ∃ answer, after.answers id = some (.ok answer) ∧
        AnsweredAlone config (storesSince config d labels id) started request before.state
          after.state answer := by
  have hlinearizes (R : Rely Store) : (handle config request).Linearizes
      (R.comap Database.store) (AnsweredAlone config R started request) started :=
    handle_linearizes hinstant R started
  refine ⟨fun answer hanswer => ?_, fun after hstep => ?_⟩
  · exact answered_at_once (W := fun R started request => AnsweredAlone config R started request)
      hlinearizes hrun hstarted hanswer
  · exact stepped_at_once (W := fun R started request => AnsweredAlone config R started request)
      hlinearizes hrun hstarted hstep

end Runs

/-- The topic comes up, and is answered with, as if its request had run alone. -/
theorem single_statements_linearize_topicCreated :
    ∃ answer, topicCreated.answers 0 = some (.ok answer) ∧
      AnsweredAlone bytesSite (storesSince bytesSite ownersSite asksTopic 0) ownersSite
        (Route.askedBy (.createTopic ⟨"Lean"⟩ "t") owner) topicAsked.state topicCreated.state
          answer ∧
      ∃ former m u, Moment (site bytesSite) ownersSite (asksTopic ++ [.step 0]) 0
          (Route.askedBy (.createTopic ⟨"Lean"⟩ "t") owner) ownersSite former m u ∧
        AnsweredAlone bytesSite (storesSince bytesSite ownersSite former 0) ownersSite
          (Route.askedBy (.createTopic ⟨"Lean"⟩ "t") owner) m u answer := by
  have hstarted : Started (site bytesSite) ownersSite asksTopic 0
      (Route.askedBy (.createTopic ⟨"Lean"⟩ "t") owner) ownersSite :=
    ⟨[], [.step 0, .step 0], .initial ownersSite, rfl, rfl, rfl⟩
  obtain ⟨-, hsteps⟩ := single_statements_linearize ((site bytesSite).exec_run ..) hstarted rfl
  rcases hsteps topicCreated topicAsked_step with hsame | hanswered
  · have htopics : topicCreated.state.store.topics ≠ topicAsked.state.store.topics := by
      decide +kernel
    exact absurd (congrArg (fun d : Site => d.store.topics) hsame) htopics
  · obtain ⟨answer, hanswer, halone⟩ := hanswered
    obtain ⟨hanswers, -⟩ := single_statements_linearize ((site bytesSite).exec_run ..)
      (hstarted.append [.step 0]) rfl
    exact ⟨answer, hanswer, halone, hanswers answer hanswer⟩

section Services

variable (τ) in
/-- What happens on a site whose services of one statement run whole. -/
inductive ServiceStep where
  | passing (ms : Nat)
  | whole (call : SiteCall τ)
  /-- One step of a service of several statements. -/
  | part (step : SiteStep)

/-- The site after a service that has run alone and has answered. -/
def servedAlone (config : SiteConfig τ) (d : Site) (call : SiteCall τ) : Option Site :=
  let ending := (siteOperation config call).run [] d
  ending.result.toOption.map fun _ => ending.state

/-- The site, on which the services of one statement run whole. -/
def services (config : SiteConfig τ) : Machine Site (ServiceStep τ) where
  step d
    | .passing ms => some (passing ms d)
    | .whole call => servedAlone config d call
    | .part step => sitePerformed d step

/-- What a request may cause there in a state, when it was started in another. -/
inductive ServicePermits (config : SiteConfig τ) (R : Rely Store) (started : Site)
    (request : Request τ) (d : Site) : ServiceStep τ → Prop where
  | whole {m : Store} {guarded : Guarded} {call : SiteCall τ}
    (hinstant : request.route.isInstant = true)
    (hentered : Entered config R started.store request m guarded call)
    (hgrows : R.grows m d.store) : ServicePermits config R started request d (.whole call)
  | part {step : SiteStep} (hsteps : request.route.isInstant = false)
    (h : RequestPermits config R started.store request d.store step) :
    ServicePermits config R started request d (.part step)

variable {config : SiteConfig τ} {d : Site} {labels : List (CallLabel (Request τ) Failure Nat)}
  {after : CallState Site Failure (SiteAnswer τ)}

/-- Every run of the site is a run in which each service of one statement runs whole, behind its
guards, while no other runs. -/
theorem site_refines_services (hrun : (site config).exec (.initial d) labels = some after) :
    ∃ steps, (services config).exec d steps = some after.state ∧
      (services config).Meets (CausedIn (handle config) passing Database.store
        (ServicePermits config) .passing d labels) d steps := by
  refine refines_of_attributed (C := fun _ _ => True) (fun _ _ => rfl)
    (fun {earlier id m s} hC hearlier hstep => ?_) (site_startsAny labels) hrun
  rcases attributed_since (fun R s request _ => handle_behaves config R request s) hC hearlier
    hstep with hsame | ⟨request, started, hstarted, -, hperforms⟩
  · exact Or.inl hsame.symm
  cases hinstant : request.route.isInstant with
  | false =>
    rcases hperforms with hsame | ⟨step, hpermits, hnext⟩
    · exact Or.inl hsame.symm
    · exact Or.inr ⟨request, started, .part step, hstarted, .part hinstant hpermits, hnext⟩
  | true =>
    refine (stepped_at_once (W := fun R started request => AnsweredAlone config R started request)
      (fun R => handle_linearizes hinstant R started) hearlier hstarted hstep).imp_right ?_
    rintro ⟨answer, -, n, guarded, call, hentered, hgrows, halone⟩
    refine ⟨request, started, .whole call, hstarted, .whole hinstant hentered hgrows, ?_⟩
    simp only [services, servedAlone, halone]
    rfl

/-- The topic, whose service runs whole. -/
theorem site_refines_services_topicCreated :
    ∃ steps, (services bytesSite).exec ownersSite steps = some topicCreated.state ∧
      (services bytesSite).Meets (CausedIn (handle bytesSite) passing Database.store
        (ServicePermits bytesSite) .passing ownersSite (asksTopic ++ [.step 0])) ownersSite steps :=
  site_refines_services ((site bytesSite).exec_run ..)

end Services

end VertexApi.App
