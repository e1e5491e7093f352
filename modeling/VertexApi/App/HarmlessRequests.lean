import VertexApi.App.ContentWrites
import VertexApi.App.Dates

/-!
# Requests that change nothing

A request is turned away by the guards of every route, by those of its own route, or by the
validation of its body. Most of these can be told when it is started, and whatever runs in between
then makes no difference: it changes nothing and is not answered. The routes that only show
something change nothing either, except that a look at the about page may write the empty row.
-/

namespace VertexApi.App

open About Auth Comments Common Posts Projects Topics Uploads Users

variable {τ : Type}

/-- Why a request is turned away that is started in a state. -/
inductive TurnedAway (config : SiteConfig τ) (s : Store) (request : Request τ) : Prop where
  /-- It has not come through the edge. -/
  | edge {secret : String} (hsecret : config.edgeSharedSecret = some secret) (hset : secret ≠ "")
    (hpresents : ¬ Presents EdgeOriginGuard.edgeSecretHeader secret request.headers)
  | limit (hlimit : request.withinLimit = false)
  /-- It has no token, one that was not signed here, or one that has expired. -/
  | session (haccess : request.route.access = .session ∨ request.route.access = .admin)
    (htoken : ∀ payload issuedAt, request.accessToken = some (config.jwt.sign payload issuedAt) →
      tokenIsLive issuedAt s.clock = false)
  | role (haccess : request.route.access = .admin)
    (htoken : ∀ payload issuedAt, request.accessToken = some (config.jwt.sign payload issuedAt) →
      payload.role ≠ .admin)
  | body (hbody : ∀ guarded call, request.route.handler config guarded ≠ .ok call)

/-- The routes that are asked for with `GET`, except for those of the providers. -/
def Route.shows : Route → Bool
  | .hello | .health | .publishedPosts | .postBySlug .. | .dashboardPosts | .topics | .projects |
    .projectById .. | .about .. | .users | .user .. | .commentsOfPost .. | .commentsOfAuthor .. |
    .profile | .startLink .. => true
  | _ => false

section Steps

variable {config : SiteConfig τ} {s t : Store} {request : Request τ}

/-- A token that has expired stays so. -/
theorem tokenIsLive_of_le {issuedAt now later : Nat} (hlater : now ≤ later)
    (h : tokenIsLive issuedAt later = true) : tokenIsLive issuedAt now = true := by
  simp only [tokenIsLive, decide_eq_true_eq] at h ⊢
  exact (Nat.div_le_div_right hlater).trans_lt h

/-- The guards of every route let in what comes through the edge, within the limit. -/
theorem of_globalGuards (h : globalGuards config request = .ok ()) :
    EdgeOriginGuard.canActivate config.edgeSharedSecret request.headers = .ok true ∧
      request.withinLimit = true := by
  rw [globalGuards] at h
  split at h
  · next hactivates =>
    split at h
    · next hlimit => exact ⟨hactivates, hlimit⟩
    · cases h
  all_goals cases h

/-- A request that is turned away does not get to its controller. -/
theorem TurnedAway.not_entered {m : Store} {guarded : Guarded} {call : SiteCall τ}
    (h : TurnedAway config s request) :
    ¬ Entered config elapses s request m guarded call := by
  intro hentered
  have hlive (haccess : request.route.access = .session ∨ request.route.access = .admin) :
      ∃ payload issuedAt, guarded.user = some payload ∧
        request.accessToken = some (config.jwt.sign payload issuedAt) ∧
        tokenIsLive issuedAt s.clock = true := by
    obtain ⟨payload, huser⟩ := hentered.exists_user haccess
    obtain ⟨n, hn, -, hcookie⟩ := (hentered.verified huser (elapses.refl m)).token
    obtain ⟨issuedAt, htoken, hlive⟩ := verifyCookie_eq_ok.mp hcookie
    exact ⟨payload, issuedAt, huser, htoken, tokenIsLive_of_le hn hlive⟩
  cases h with
  | edge hsecret hset hpresents =>
    have hactivates := (of_globalGuards hentered.global).1
    rw [hsecret] at hactivates
    exact hpresents ((EdgeOriginGuard.canActivate_eq_ok hset).mp hactivates)
  | limit hlimit =>
    have hwithin := (of_globalGuards hentered.global).2
    rw [hlimit] at hwithin
    cases hwithin
  | session haccess htoken =>
    obtain ⟨payload, issuedAt, -, hsigned, hlive⟩ := hlive haccess
    rw [htoken payload issuedAt hsigned] at hlive
    cases hlive
  | role haccess htoken =>
    obtain ⟨payload, issuedAt, huser, hsigned, -⟩ := hlive (Or.inr haccess)
    exact htoken payload issuedAt hsigned (hentered.role haccess huser)
  | body hbody => exact hbody guarded call hentered.handler

/-- A request that shows something makes one step at most, the insert of the empty row. -/
theorem step_of_shows {R : Rely Store} {step : SiteStep} (hshows : request.route.shows = true)
    (h : RequestPermits config R s request t step) : ∃ rowId pick,
      request.route = .about rowId pick ∧
        step = .insertAbout (AboutOperation.newRow rowId t.clock .get) := by
  obtain ⟨m, guarded, call, hentered, -, hpermits⟩ := h
  have hhandles := handler_eq_ok hentered.handler
  generalize request.route = route at hhandles hshows ⊢
  cases hhandles with
  | about =>
    cases hpermits with
    | about => exact ⟨_, _, rfl, rfl⟩
  | hello | health | topics | projects | projectById | profile | startLink => cases hpermits
  | publishedPosts | postBySlug | dashboardPosts | users | user | commentsOfPost |
    commentsOfAuthor =>
    cases hpermits with
    | service hcall => cases hcall
  | _ => cases hshows

end Steps

section Runs

variable {config : SiteConfig τ} {d started : Site}
  {labels : List (CallLabel (Request τ) Failure Nat)}
  {before after : CallState Site Failure (SiteAnswer τ)} {id : Nat} {request : Request τ}

/-- A request that is turned away changes nothing and is not answered, whatever runs in between
its start and its end. -/
theorem refused_requests_do_nothing (hrun : (site config).exec (.initial d) labels = some before)
    (hstarted : Started (site config) d labels id request started)
    (haway : TurnedAway config started.store request) :
    (∀ answer, before.answers id ≠ some (.ok answer)) ∧
      ∀ after, (site config).step before (.step id) = some after → after.state = before.state := by
  have hconduct : SiteConduct config elapses (fun _ _ => True) d := elapses_conduct
  refine ⟨fun answer hanswer => ?_, fun after hstep => ?_⟩
  · obtain ⟨-, -, -, m, guarded, call, hentered⟩ :=
      hconduct.answered_to (site_startsAny labels) hrun hstarted hanswer
    exact haway.not_entered hentered
  · rcases hconduct.attributed_to (site_startsAny labels) hrun hstarted hstep with
      hsame | ⟨-, hsame | ⟨step, ⟨m, guarded, call, hentered, -, -⟩, -⟩⟩
    · exact hsame.symm
    · exact hsame.symm
    · exact absurd hentered haway.not_entered

end Runs

/-- The member asks for a topic, up to the check of the role. -/
def asksAsMember : List (CallLabel (Request (Option (JwtPayload × Nat))) Failure Nat) :=
  behindGuard (.createTopic ⟨"Lean"⟩ "t") member

/-- The site there. -/
def memberAsked : CallState Site Failure (SiteAnswer (Option (JwtPayload × Nat))) :=
  (site bytesSite).run (.initial ownersSite) asksAsMember (by decide +kernel)

/-- Members make no topics. -/
theorem refused_requests_do_nothing_asMember :
    (∀ answer, memberAsked.answers 0 ≠ some (.ok answer)) ∧
      ∀ after, (site bytesSite).step memberAsked (.step 0) = some after →
        after.state = memberAsked.state := by
  have hstarted : Started (site bytesSite) ownersSite asksAsMember 0
      (Route.askedBy (.createTopic ⟨"Lean"⟩ "t") member) ownersSite :=
    ⟨[], [.step 0, .step 0], .initial ownersSite, rfl, rfl, rfl⟩
  refine refused_requests_do_nothing ((site bytesSite).exec_run ..) hstarted (.role rfl ?_)
  intro payload issuedAt htoken
  obtain ⟨rfl, -⟩ := Prod.mk.inj (Option.some.inj (Option.some.inj htoken))
  decide +kernel

section Runs

variable {config : SiteConfig τ} {d started : Site}
  {labels : List (CallLabel (Request τ) Failure Nat)}
  {before after : CallState Site Failure (SiteAnswer τ)} {id : Nat} {request : Request τ}

/-- A request that shows something changes nothing, whatever runs in between, except that a look
at the about page may insert the empty row. -/
theorem showing_changes_nothing (hrun : (site config).exec (.initial d) labels = some before)
    (hstarted : Started (site config) d labels id request started)
    (hshows : request.route.shows = true)
    (hstep : (site config).step before (.step id) = some after) :
    content after.state = content before.state ∧ (after.state = before.state ∨
      ∃ rowId pick, request.route = .about rowId pick ∧
        after.state = before.state.withAboutContent (before.state.others.aboutContent ++
          [AboutOperation.newRow rowId before.state.store.clock .get])) := by
  have hconduct : SiteConduct config elapses (fun _ _ => True) d := elapses_conduct
  rcases hconduct.attributed_to (site_startsAny labels) hrun hstarted hstep with
    hsame | ⟨-, hsame | ⟨step, hpermits, hnext⟩⟩
  · exact ⟨congrArg content hsame.symm, Or.inl hsame.symm⟩
  · exact ⟨congrArg content hsame.symm, Or.inl hsame.symm⟩
  · obtain ⟨rowId, pick, hroute, rfl⟩ := step_of_shows hshows hpermits
    have hinserted : sitePerformed before.state (.insertAbout
        (AboutOperation.newRow rowId before.state.store.clock .get)) = some after.state := hnext
    refine ⟨content_of_sitePerformed hinserted rfl, Or.inr ⟨rowId, pick, hroute, ?_⟩⟩
    obtain ⟨-, hafter⟩ := insertRow_toOption hinserted
    exact hafter

end Runs

/-- The member looks at the about page, up to the insert. -/
def looksAtAbout : List (CallLabel (Request (Option (JwtPayload × Nat))) Failure Nat) :=
  [.start 0 (Route.askedBy (.about "row" 0) member), .step 0]

/-- The site in front of the insert. -/
def aboutMissing : CallState Site Failure (SiteAnswer (Option (JwtPayload × Nat))) :=
  (site bytesSite).run (.initial ownersSite) looksAtAbout (by decide +kernel)

/-- The site behind it. -/
def aboutInserted : CallState Site Failure (SiteAnswer (Option (JwtPayload × Nat))) :=
  (site bytesSite).run (.initial ownersSite) (looksAtAbout ++ [.step 0]) (by decide +kernel)

/-- The row is empty, and there is no content still. -/
theorem showing_changes_nothing_about :
    content aboutInserted.state = content aboutMissing.state ∧
      (aboutInserted.state = aboutMissing.state ∨ ∃ rowId pick,
        (Route.askedBy (.about "row" 0) member).route = .about rowId pick ∧
        aboutInserted.state = aboutMissing.state.withAboutContent
          (aboutMissing.state.others.aboutContent ++
            [AboutOperation.newRow rowId aboutMissing.state.store.clock .get])) :=
  have hstarted : Started (site bytesSite) ownersSite looksAtAbout 0
      (Route.askedBy (.about "row" 0) member) ownersSite :=
    ⟨[], [.step 0], .initial ownersSite, rfl, rfl, rfl⟩
  have hstep : (site bytesSite).step aboutMissing (.step 0) = some aboutInserted :=
    (site bytesSite).step_run ..
  showing_changes_nothing ((site bytesSite).exec_run ..) hstarted rfl hstep

end VertexApi.App
