import VertexApi.App.Handlers
import VertexApi.App.TableMoves

/-!
# Who writes comments

A comment is written by a request with a token of its author, on a post that took comments since
the request was started, and stays as it was written. It goes by a request of its author or of
an admin, or with its post or its author's account.
-/

namespace VertexApi.App

open About Auth Comments Posts Projects Topics Users

variable {τ : Type} {config : SiteConfig τ} {R : Rely Store} {s t u : Store}
  {request : Request τ} {step : TableStep}

/-- Why a request may write a comment, over what was met since it was started. -/
structure WritesComment (config : SiteConfig τ) (R : Rely Store) (s : Store)
    (request : Request τ) (t : Store) (row : Comment) : Prop where
  route : ∃ body, request.route = .createComment row.postId body row.id ∧
    body.content = row.content
  /-- The author is the user of the token. -/
  verified : ∃ payload, Verified config R s request t payload ∧ payload.sub = row.authorId
  allowed : ∃ m post, R.grows s m ∧ findPostById m.posts row.postId = some post ∧
    post.allowComments = true
  createdAt : row.createdAt = t.clock

/-- Why a request may remove a comment, over what was met since it was started. -/
inductive RemovesComment (config : SiteConfig τ) (R : Rely Store) (s : Store)
    (request : Request τ) (t : Store) (row : Comment) : Prop where
  | comment {payload : JwtPayload} (hroute : request.route = .removeComment row.id)
    (hverified : Verified config R s request t payload)
    (hallowed : payload.sub = row.authorId ∨ payload.role = .admin)
  | post {payload : JwtPayload} (hroute : request.route = .removePost row.postId)
    (hverified : Verified config R s request t payload) (hrole : payload.role = .admin)
  | account {payload : JwtPayload} (hroute : request.route = .removeSelf)
    (hverified : Verified config R s request t payload) (hself : payload.sub = row.authorId)
  | moderated {payload : JwtPayload} (hroute : request.route = .removeUser row.authorId)
    (hverified : Verified config R s request t payload) (hrole : payload.role = .admin)

section Steps

variable {row : Comment}

/-- Comments are inserted by one kind of step. -/
theorem step_of_new_comment (h : TableMoves t step u) (hafter : row ∈ u.comments)
    (hbefore : row ∉ t.comments) : step = .insertComment row := by
  cases h with
  | insertComment =>
    rcases List.mem_append.mp hafter with hmem | hmem
    · exact absurd hmem hbefore
    · rw [List.mem_singleton.mp hmem]
  | removeAccount | removePost | removeComment =>
    exact absurd (List.mem_of_mem_filter hafter) hbefore
  | _ => exact absurd hafter hbefore

/-- They go by three kinds of steps. -/
theorem step_of_gone_comment (h : TableMoves t step u) (hbefore : row ∈ t.comments)
    (hafter : row ∉ u.comments) : step = .removeComment row.id ∨ step = .removePost row.postId ∨
      step = .removeAccount row.authorId := by
  cases h with
  | insertComment => exact absurd (List.mem_append_left _ hbefore) hafter
  | @removeAccount id =>
    by_cases hid : row.authorId = id
    · exact Or.inr (Or.inr (hid ▸ rfl))
    · have hstays : row ∈ t.comments.filter fun comment => comment.authorId != id :=
        List.mem_filter.mpr ⟨hbefore, bne_iff_ne.mpr hid⟩
      exact absurd hstays hafter
  | @removePost id =>
    by_cases hid : row.postId = id
    · exact Or.inr (Or.inl (hid ▸ rfl))
    · have hstays : row ∈ t.comments.filter fun comment => comment.postId != id :=
        List.mem_filter.mpr ⟨hbefore, bne_iff_ne.mpr hid⟩
      exact absurd hstays hafter
  | @removeComment id =>
    by_cases hid : row.id = id
    · exact Or.inl (hid ▸ rfl)
    · have hstays : row ∈ withoutComment t.comments id :=
        List.mem_filter.mpr ⟨hbefore, bne_iff_ne.mpr hid⟩
      exact absurd hstays hafter
  | _ => exact absurd hbefore hafter

/-- A request that inserts a comment may write it. -/
theorem writesComment_of_permits
    (h : RequestPermits config R s request t (.store (.insertComment row))) :
    WritesComment config R s request t row := by
  obtain ⟨m, guarded, call, hentered, ht, hpermits⟩ := h
  have hhandles := handler_eq_ok hentered.handler
  generalize hroute : request.route = route at hhandles
  cases hpermits with
  | service hcall =>
    cases hcall with
    | @createComment n _ _ _ _ _ post hn _ hpost hallowed =>
      cases hhandles with
      | @createComment _ _ body _ user hbody huser =>
        rw [createCommentSchema, Option.ite_none_left_eq_some] at hbody
        obtain rfl := Option.some.inj hbody.2
        exact {
          route := ⟨body, hroute, rfl⟩
          verified := ⟨user, hentered.verified huser ht, rfl⟩
          allowed := ⟨n, post, R.trans hentered.grows hn, hpost, hallowed⟩
          createdAt := rfl }
  | startLogin _ _ _ hvalidate | callback _ _ _ hvalidate => cases hvalidate

/-- What a request reads of a comment that it removes by its id. -/
theorem comment_of_permits {commentId : String}
    (h : RequestPermits config R s request t (.store (.removeComment commentId))) :
    request.route = .removeComment commentId ∧ ∃ n payload comment, R.grows s n ∧
      comment ∈ n.comments ∧ comment.id = commentId ∧ Verified config R s request t payload ∧
      (payload.sub = comment.authorId ∨ payload.role = .admin) := by
  obtain ⟨m, guarded, call, hentered, ht, hpermits⟩ := h
  have hhandles := handler_eq_ok hentered.handler
  generalize request.route = route at hhandles
  cases hpermits with
  | service hcall =>
    cases hcall with
    | @removeComment n _ _ _ _ comment hn _ hcomment hallowed =>
      cases hhandles with
      | @removeComment _ user huser =>
        have hmem := List.mem_of_find?_eq_some hcomment
        exact ⟨rfl, n, user, comment, R.trans hentered.grows hn, hmem,
          id_of_findCommentById hcomment, hentered.verified huser ht, hallowed.imp_left Eq.symm⟩
  | startLogin _ _ _ hvalidate | callback _ _ _ hvalidate => cases hvalidate

/-- A post is removed by an admin. -/
theorem route_of_removePost {id : String}
    (h : RequestPermits config R s request t (.store (.removePost id))) :
    request.route = .removePost id ∧
      ∃ payload, Verified config R s request t payload ∧ payload.role = .admin := by
  obtain ⟨m, guarded, call, hentered, ht, hpermits⟩ := h
  have hhandles := handler_eq_ok hentered.handler
  have hroute : request.route = .removePost id := by
    generalize request.route = route at hhandles
    cases hpermits with
    | service hcall =>
      cases hcall
      cases hhandles
      rfl
    | startLogin _ _ _ hvalidate | callback _ _ _ hvalidate => cases hvalidate
  have haccess : request.route.access = .admin := by rw [hroute]; rfl
  obtain ⟨payload, huser⟩ := hentered.exists_user (Or.inr haccess)
  exact ⟨hroute, payload, hentered.verified huser ht, hentered.role haccess huser⟩

/-- An account is removed by its user, or by another one who is an admin. -/
theorem route_of_removeAccount {userId : String}
    (h : RequestPermits config R s request t (.store (.removeAccount userId))) :
    ∃ payload, Verified config R s request t payload ∧
      (request.route = .removeSelf ∧ payload.sub = userId ∨
        request.route = .removeUser userId ∧ payload.role = .admin ∧ payload.sub ≠ userId) := by
  obtain ⟨m, guarded, call, hentered, ht, hpermits⟩ := h
  have hhandles := handler_eq_ok hentered.handler
  have hadmin (haccess : request.route.access = .admin) {payload : JwtPayload}
      (huser : guarded.user = some payload) := hentered.role haccess huser
  have hverified {payload : JwtPayload} (huser : guarded.user = some payload) :=
    hentered.verified huser ht
  generalize request.route = route at hhandles hadmin
  cases hpermits with
  | service hcall =>
    cases hcall with
    | removeUser hother =>
      cases hhandles with
      | removeUser huser =>
        exact ⟨_, hverified huser, Or.inr ⟨rfl, hadmin rfl huser, hother.symm⟩⟩
    | removeSelf =>
      cases hhandles with
      | removeSelf huser => exact ⟨_, hverified huser, Or.inl ⟨rfl, rfl⟩⟩
  | startLogin _ _ _ hvalidate | callback _ _ _ hvalidate => cases hvalidate

end Steps

/-- No comment but one has its id. -/
def OwnsId (row : Comment) (s : Store) : Prop :=
  ∀ comment ∈ s.comments, comment.id = row.id → comment = row

/-- A request draws another id for its comment. -/
def DrawsOther (commentId : String) (request : Request τ) : Prop :=
  ∀ postId body, request.route ≠ .createComment postId body commentId

/-- A comment stays the only one with its id, as long as nobody draws it again. -/
theorem OwnsId.permitted {row : Comment} (ht : OwnsId row t) (hdraws : DrawsOther row.id request)
    (h : RequestPermits config R s request t (.store step)) (hmoves : TableMoves t step u) :
    OwnsId row u := by
  intro comment hcomment hid
  by_cases hold : comment ∈ t.comments
  · exact ht comment hold hid
  · obtain rfl := step_of_new_comment hmoves hcomment hold
    obtain ⟨body, hroute, -⟩ := (writesComment_of_permits h).route
    exact absurd (hid ▸ hroute) (hdraws comment.postId body)

section Runs

variable {d : Site} {labels : List (CallLabel (Request τ) Failure Nat)}
  {label : CallLabel (Request τ) Failure Nat}
  {before after : CallState Site Failure (SiteAnswer τ)} {row : Comment}

/-- A comment that comes up was written by a request with a token of its author. -/
theorem comments_written_by (hrun : (site config).exec (.initial d) labels = some before)
    (hstep : (site config).step before label = some after)
    (hafter : row ∈ after.state.store.comments) (hbefore : row ∉ before.state.store.comments) :
    ∃ id request started, label = .step id ∧ Started (site config) d labels id request started ∧
      WritesComment config (storesSince config d labels id) started.store request
        before.state.store row := by
  rcases site_attributed_since (site_startsAny labels) hrun hstep with
    hsame | ⟨ms, hpassing⟩ | ⟨id, request, started, step, hlabel, hstarted, -, hpermits, hnext⟩
  · exact absurd (hsame ▸ hafter) hbefore
  · rw [hpassing] at hafter
    exact absurd hafter hbefore
  · rcases store_of_sitePerformed hnext with ⟨tableStep, rfl, hstore⟩ | hstore
    · obtain rfl := step_of_new_comment (performed_moves hstore) hafter hbefore
      exact ⟨id, request, started, hlabel, hstarted, writesComment_of_permits hpermits⟩
    · exact absurd (hstore ▸ hafter) hbefore

end Runs

/-- The site with a post of the admin. -/
def blogSite : Site :=
  { ownersSite with store := { ownersSite.store with
      posts := [newPost ⟨bareFields, "t", "s", "c"⟩ "owner" "post" none 0] } }

/-- The member's comment on it. -/
def welcome : Comment := ⟨"comment", "post", "member", "Welcome", 0⟩

/-- The member asks to write it, up to its insert. -/
def asksComment : List (CallLabel (Request (Option (JwtPayload × Nat))) Failure Nat) :=
  behindGuard (.createComment "post" ⟨"Welcome"⟩ "comment") member ++ [.step 0]

/-- The site in front of the insert. -/
def commentAsked : CallState Site Failure (SiteAnswer (Option (JwtPayload × Nat))) :=
  (site bytesSite).run (.initial blogSite) asksComment (by decide +kernel)

/-- The site with the comment. -/
def commentWritten : CallState Site Failure (SiteAnswer (Option (JwtPayload × Nat))) :=
  (site bytesSite).run (.initial blogSite) (asksComment ++ [.step 0]) (by decide +kernel)

/-- It was written for its author's token. -/
theorem comments_written_by_member : ∃ id request started,
    (.step 0 : CallLabel (Request (Option (JwtPayload × Nat))) Failure Nat) = .step id ∧
      Started (site bytesSite) blogSite asksComment id request started ∧
      WritesComment bytesSite (storesSince bytesSite blogSite asksComment id) started.store
        request commentAsked.state.store welcome :=
  have hstep : (site bytesSite).step commentAsked (.step 0) = some commentWritten :=
    (site bytesSite).step_run ..
  comments_written_by ((site bytesSite).exec_run ..) hstep (by decide +kernel) (by decide +kernel)

section Runs

variable {d : Site} {labels : List (CallLabel (Request τ) Failure Nat)}
  {label : CallLabel (Request τ) Failure Nat}
  {before after : CallState Site Failure (SiteAnswer τ)} {row : Comment}

/-- In a run in which nobody draws its id again, a comment stays the only one with it. -/
theorem ownsId_of_exec (hd : OwnsId row d.store)
    (hC : (site config).Meets (StartsOnly fun _ => DrawsOther row.id) (.initial d) labels)
    (hrun : (site config).exec (.initial d) labels = some after) :
    OwnsId row after.state.store := by
  induction labels using List.reverseRecOn generalizing after with
  | nil =>
    obtain rfl := Option.some.inj hrun
    exact hd
  | append_singleton labels label ih =>
    obtain ⟨m, hm, hstep⟩ := (site config).exec_snoc.mp hrun
    have howns : OwnsId row m.state.store := ih hC.of_append hm
    rcases site_attributed_since hC.of_append hm hstep with
      hsame | ⟨ms, hpassing⟩ | ⟨id, request, started, step, -, -, hdraws, hpermits, hnext⟩
    · exact hsame ▸ howns
    · exact hpassing ▸ howns
    · rcases store_of_sitePerformed hnext with ⟨tableStep, rfl, hstore⟩ | hstore
      · exact howns.permitted hdraws hpermits (performed_moves hstore)
      · exact hstore ▸ howns

/-- A comment whose id is not drawn again stays as it is, until its author or an admin removes it,
or its post or its author's account goes. -/
theorem comments_removed_by (hd : OwnsId row d.store)
    (hC : (site config).Meets (StartsOnly fun _ => DrawsOther row.id) (.initial d) labels)
    (hrun : (site config).exec (.initial d) labels = some before)
    (hstep : (site config).step before label = some after)
    (hbefore : row ∈ before.state.store.comments) (hafter : row ∉ after.state.store.comments) :
    ∃ id request started, label = .step id ∧ Started (site config) d labels id request started ∧
      RemovesComment config (storesSince config d labels id) started.store request
        before.state.store row := by
  rcases site_attributed_since hC hrun hstep with
    hsame | ⟨ms, hpassing⟩ | ⟨id, request, started, step, hlabel, hstarted, -, hpermits, hnext⟩
  · exact absurd (hsame.symm ▸ hbefore) hafter
  · rw [hpassing] at hafter
    exact absurd hbefore hafter
  · refine ⟨id, request, started, hlabel, hstarted, ?_⟩
    rcases store_of_sitePerformed hnext with ⟨tableStep, rfl, hstore⟩ | hstore
    · rcases step_of_gone_comment (performed_moves hstore) hbefore hafter with rfl | rfl | rfl
      · obtain ⟨hroute, n, payload, comment, hn, hmem, hid, hverified, hallowed⟩ :=
          comment_of_permits hpermits
        -- The comment that the request has read is the one that goes.
        obtain ⟨former, later, reached, rfl, hreached, rfl⟩ := hstarted.reached hn
        obtain rfl := ownsId_of_exec hd hC.of_append hreached comment hmem hid
        exact .comment hroute hverified hallowed
      · obtain ⟨hroute, payload, hverified, hrole⟩ := route_of_removePost hpermits
        exact .post hroute hverified hrole
      · obtain ⟨payload, hverified, ⟨hroute, hself⟩ | ⟨hroute, hrole, -⟩⟩ :=
          route_of_removeAccount hpermits
        · exact .account hroute hverified hself
        · exact .moderated hroute hverified hrole
    · exact absurd (hstore.symm ▸ hbefore) hafter

end Runs

/-- The site with the comment from the start. -/
def welcomedSite : Site :=
  { blogSite with store := { blogSite.store with comments := [welcome] } }

/-- The member asks to remove it, up to the delete. -/
def takesBack : List (CallLabel (Request (Option (JwtPayload × Nat))) Failure Nat) :=
  behindGuard (.removeComment "comment") member ++ [.step 0]

/-- The site in front of the delete. -/
def removalAsked : CallState Site Failure (SiteAnswer (Option (JwtPayload × Nat))) :=
  (site bytesSite).run (.initial welcomedSite) takesBack (by decide +kernel)

/-- The site without the comment. -/
def commentRemoved : CallState Site Failure (SiteAnswer (Option (JwtPayload × Nat))) :=
  (site bytesSite).run (.initial welcomedSite) (takesBack ++ [.step 0]) (by decide +kernel)

/-- It was removed for its author's token. -/
theorem comments_removed_by_member : ∃ id request started,
    (.step 0 : CallLabel (Request (Option (JwtPayload × Nat))) Failure Nat) = .step id ∧
      Started (site bytesSite) welcomedSite takesBack id request started ∧
      RemovesComment bytesSite (storesSince bytesSite welcomedSite takesBack id) started.store
        request removalAsked.state.store welcome := by
  have hd : OwnsId welcome welcomedSite.store :=
    fun comment hcomment _ => List.mem_singleton.mp hcomment
  have hC : (site bytesSite).Meets (StartsOnly fun _ => DrawsOther welcome.id)
      (.initial welcomedSite) takesBack := by
    refine meets_startsOnly fun id request hmem _ => ?_
    simp only [takesBack, behindGuard, List.cons_append, List.nil_append, List.mem_cons,
      CallLabel.start.injEq, reduceCtorEq, List.not_mem_nil, or_false] at hmem
    obtain ⟨-, rfl⟩ := hmem
    exact fun _ _ => nofun
  have hstep : (site bytesSite).step removalAsked (.step 0) = some commentRemoved :=
    (site bytesSite).step_run ..
  exact comments_removed_by hd hC ((site bytesSite).exec_run ..) hstep (by decide +kernel)
    (by decide +kernel)

end VertexApi.App
