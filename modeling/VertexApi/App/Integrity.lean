import VertexApi.App.SiteSteps
import VertexApi.App.TableMoves

/-!
# The constraints of the schema

Every step keeps the foreign keys and the unique columns of every table, so that they hold
whatever requests run, in whatever order their statements come, and whichever of them fail.
-/

namespace VertexApi.App

open About Auth Comments Posts Projects Topics Users

/-- The unique columns of the tables of the services. -/
structure Store.ColumnsUnique (s : Store) : Prop where
  users : UniqueUsers s.users
  emailOtps : UniqueColumns emailOtpColumns s.emailOtps
  oauthExchangeCodes : UniqueColumns oauthExchangeCodeColumns s.oauthExchangeCodes
  posts : UniquePosts s.posts
  topics : UniqueColumns topicColumns s.topics
  /-- The primary key is the pair. -/
  postsToTopics : s.postsToTopics.Nodup
  comments : UniqueColumns commentColumns s.comments

/-- The unique columns of all tables. -/
structure ColumnsUnique (d : Site) : Prop where
  store : d.store.ColumnsUnique
  projects : UniqueColumns projectColumns d.others.projects
  aboutContent : UniqueColumns AboutService.aboutColumns d.others.aboutContent

section References

variable {s t : Store} {step : TableStep}

/-- The ids of users after an edit of a row. -/
theorem ids_updateWhere_user (id : String) {f : User → User} (hf : ∀ row, (f row).id = row.id) :
    (updateWhere User.id id f s.users).map User.id = s.users.map User.id :=
  map_updateWhere_of_eq hf

/-- A row that is found is there. -/
theorem mem_ids_of_findUserById {id : String} {user : User}
    (h : findUserById s.users id = some user) : id ∈ s.users.map User.id :=
  List.mem_map.mpr ⟨user, List.mem_of_find?_eq_some h, id_of_findUserById h⟩

/-- So is a post. -/
theorem mem_ids_of_findPostById {id : String} {post : Post}
    (h : findPostById s.posts id = some post) : id ∈ s.posts.map Post.id :=
  List.mem_map.mpr ⟨post, mem_of_findPostById h, id_of_findPostById h⟩

namespace Store.ReferencesHold

/-- A write to the users that keeps their ids. -/
theorem withUsers (h : s.ReferencesHold) {users : List User}
    (hids : s.users.map User.id ⊆ users.map User.id) : (s.withUsers users).ReferencesHold :=
  { h with
    oauthExchangeCodes_userId := h.oauthExchangeCodes_userId.subset hids
    posts_authorId := h.posts_authorId.subset hids
    comments_authorId := h.comments_authorId.subset hids }

/-- New links of a post lead to topics that are there. -/
theorem links {topics : List Topic} {topicIds : List String} (postId : String)
    (htopics : ∀ topicId ∈ topicIds, ∃ topic ∈ topics, topic.id = topicId) :
    RefersTo Prod.snd (topicIds.map fun topicId => (postId, topicId)) (topics.map Topic.id) := by
  intro link hlink
  obtain ⟨topicId, htopicId, rfl⟩ := List.mem_map.mp hlink
  obtain ⟨topic, htopic, hid⟩ := htopics topicId htopicId
  exact List.mem_map.mpr ⟨topic, htopic, hid⟩

/-- Links that are appended. -/
theorem append_links {column : String × String → String} {rows new : List (String × String)}
    {keys : List String} (h : RefersTo column rows keys) (hnew : RefersTo column new keys) :
    RefersTo column (rows ++ new) keys := by
  intro link hlink
  rcases List.mem_append.mp hlink with hold | hlink
  · exact h link hold
  · exact hnew link hlink

/-- A new post with its links. -/
theorem createPost (h : s.ReferencesHold) {row : Post} {topicIds : List String} {author : User}
    (hauthor : findUserById s.users row.authorId = some author)
    (htopics : ∀ topicId ∈ topicIds, ∃ topic ∈ s.topics, topic.id = topicId) :
    ({ s with
      posts := s.posts ++ [row]
      postsToTopics := s.postsToTopics ++ topicIds.map fun topicId => (row.id, topicId) } :
      Store).ReferencesHold := by
  have hids : s.posts.map Post.id ⊆ (s.posts ++ [row]).map Post.id := by
    rw [List.map_append]
    exact List.subset_append_left ..
  have hnew : RefersTo Prod.fst (topicIds.map fun topicId => (row.id, topicId))
      ((s.posts ++ [row]).map Post.id) := by
    intro link hlink
    obtain ⟨topicId, -, rfl⟩ := List.mem_map.mp hlink
    exact List.mem_map.mpr ⟨row, List.mem_append_right _ (List.mem_singleton_self row), rfl⟩
  exact { h with
    posts_authorId := h.posts_authorId.append (mem_ids_of_findUserById hauthor)
    postsToTopics_postId := append_links (h.postsToTopics_postId.subset hids) hnew
    postsToTopics_topicId := append_links h.postsToTopics_topicId (links row.id htopics)
    comments_postId := h.comments_postId.subset hids }

/-- An edited post, which may get other links. -/
theorem updatePost (h : s.ReferencesHold) {id : String} {f : Post → Post} {old : Post}
    (hf : ∀ row, (f row).id = row.id ∧ (f row).authorId = row.authorId)
    (hold : findPostById s.posts id = some old) {topicIds : Option (List String)}
    (htopics : ∀ list, topicIds = some list → ∀ topicId ∈ list,
      ∃ topic ∈ s.topics, topic.id = topicId) :
    ({ s with
      posts := updateWhere Post.id id f s.posts
      postsToTopics := relinked s.postsToTopics id topicIds } : Store).ReferencesHold := by
  have hids : (updateWhere Post.id id f s.posts).map Post.id = s.posts.map Post.id :=
    map_updateWhere_of_eq fun row => (hf row).1
  have hauthors : (updateWhere Post.id id f s.posts).map Post.authorId =
      s.posts.map Post.authorId := map_updateWhere_of_eq fun row => (hf row).2
  have hposts : RefersTo Prod.fst (relinked s.postsToTopics id topicIds)
      (s.posts.map Post.id) := by
    cases topicIds with
    | none => exact h.postsToTopics_postId
    | some list =>
      refine append_links (h.postsToTopics_postId.filter _) fun link hlink => ?_
      obtain ⟨topicId, -, rfl⟩ := List.mem_map.mp hlink
      exact mem_ids_of_findPostById hold
  have hlinks : RefersTo Prod.snd (relinked s.postsToTopics id topicIds)
      (s.topics.map Topic.id) := by
    cases topicIds with
    | none => exact h.postsToTopics_topicId
    | some list =>
      exact append_links (h.postsToTopics_topicId.filter _) (links id (htopics list rfl))
  exact { h with
    posts_authorId := h.posts_authorId.of_map_eq hauthors
    postsToTopics_postId := hids.symm ▸ hposts
    postsToTopics_topicId := hlinks
    comments_postId := hids.symm ▸ h.comments_postId }

/-- A post goes with its links and its comments. -/
theorem removePost (h : s.ReferencesHold) (id : String) :
    ({ s with
      posts := s.posts.filter fun post => post.id != id
      postsToTopics := s.postsToTopics.filter fun link => link.1 != id
      comments := s.comments.filter fun comment => comment.postId != id } :
      Store).ReferencesHold := by
  have hgone {ρ : Type} {column : ρ → String} {rows : List ρ}
      (hrows : RefersTo column rows (s.posts.map Post.id)) :
      RefersTo column (rows.filter fun row => column row != id)
        ((s.posts.filter fun post => post.id != id).map Post.id) := by
    intro row hrow
    obtain ⟨hmem, hne⟩ := List.mem_filter.mp hrow
    obtain ⟨post, hpost, hid⟩ := List.mem_map.mp (hrows row hmem)
    exact List.mem_map.mpr ⟨post, List.mem_filter.mpr ⟨hpost, hid ▸ hne⟩, hid⟩
  exact { h with
    posts_authorId := h.posts_authorId.filter _
    postsToTopics_postId := hgone h.postsToTopics_postId
    postsToTopics_topicId := h.postsToTopics_topicId.filter _
    comments_postId := hgone h.comments_postId
    comments_authorId := h.comments_authorId.filter _ }

/-- A topic goes with its links. -/
theorem removeTopic (h : s.ReferencesHold) (id : String) :
    ({ s with
      topics := s.topics.filter fun topic => topic.id != id
      postsToTopics := s.postsToTopics.filter fun link => link.2 != id } :
      Store).ReferencesHold := by
  refine { h with
    postsToTopics_postId := h.postsToTopics_postId.filter _
    postsToTopics_topicId := fun link hlink => ?_ }
  obtain ⟨hmem, hne⟩ := List.mem_filter.mp hlink
  obtain ⟨topic, htopic, hid⟩ := List.mem_map.mp (h.postsToTopics_topicId link hmem)
  exact List.mem_map.mpr ⟨topic, List.mem_filter.mpr ⟨htopic, hid ▸ hne⟩, hid⟩

/-- An account goes with its comments and its codes, and without posts. -/
theorem withoutAccount (h : s.ReferencesHold) {id : String}
    (hposts : ∀ post ∈ s.posts, post.authorId ≠ id) : (s.withoutAccount id).ReferencesHold := by
  have hstays {ρ : Type} {column : ρ → String} {rows : List ρ}
      (hrows : RefersTo column rows (s.users.map User.id)) (hne : ∀ row ∈ rows, column row ≠ id) :
      RefersTo column rows ((s.users.filter fun row => row.id != id).map User.id) := by
    intro row hrow
    obtain ⟨user, huser, hid⟩ := List.mem_map.mp (hrows row hrow)
    have hother : user.id ≠ id := fun he => hne row hrow (hid.symm.trans he)
    exact List.mem_map.mpr ⟨user, List.mem_filter.mpr ⟨huser, bne_iff_ne.mpr hother⟩, hid⟩
  have hleft {ρ : Type} {column : ρ → String} {rows : List ρ} :
      ∀ row ∈ rows.filter fun row => column row != id, column row ≠ id :=
    fun row hrow => bne_iff_ne.mp (List.mem_filter.mp hrow).2
  exact { h with
    oauthExchangeCodes_userId := hstays (h.oauthExchangeCodes_userId.filter _) hleft
    posts_authorId := hstays h.posts_authorId hposts
    comments_postId := h.comments_postId.filter _
    comments_authorId := hstays (h.comments_authorId.filter _) hleft }

/-- Every step keeps the references. -/
theorem moves (h : s.ReferencesHold) (hmoves : TableMoves s step t) : t.ReferencesHold := by
  cases hmoves with
  | tick | handOver | insertOtp | deleteOtpsOf | deleteOtp | setAttempts =>
    exact { h with }
  | insertUser =>
    refine h.withUsers ?_
    rw [List.map_append]
    exact List.subset_append_left ..
  | @updateUser id edit =>
    refine h.withUsers ?_
    rw [ids_updateWhere_user id fun row => (edit.apply_same row).id]
    exact List.Subset.refl _
  | @setBanned id isBanned =>
    refine h.withUsers ?_
    rw [ids_updateWhere_user id (f := fun row => { row with isBanned }) fun _ => rfl]
    exact List.Subset.refl _
  | removeAccount hposts => exact h.withoutAccount hposts
  | insertExchangeCode huser =>
    exact { h with oauthExchangeCodes_userId :=
      h.oauthExchangeCodes_userId.append (mem_ids_of_findUserById huser) }
  | takeExchangeCode | pruneExchangeCodes =>
    exact { h with oauthExchangeCodes_userId := h.oauthExchangeCodes_userId.filter _ }
  | createPost hauthor _ _ htopics => exact h.createPost hauthor htopics
  | @updatePost id existing _ updatePostDto now hold _ _ htopics =>
    exact h.updatePost (f := postEdit existing updatePostDto now) (fun _ => ⟨rfl, rfl⟩) hold htopics
  | removePost => exact h.removePost _
  | insertTopic =>
    refine { h with postsToTopics_topicId := h.postsToTopics_topicId.subset ?_ }
    rw [List.map_append]
    exact List.subset_append_left ..
  | @renameTopic id name slug =>
    have hids : (updateWhere Topic.id id (fun row => { row with name, slug }) s.topics).map
        Topic.id = s.topics.map Topic.id := map_updateWhere_of_eq fun _ => rfl
    exact { h with postsToTopics_topicId := hids ▸ h.postsToTopics_topicId }
  | removeTopic => exact h.removeTopic _
  | insertComment hpost hauthor =>
    exact { h with
      comments_postId := h.comments_postId.append (mem_ids_of_findPostById hpost)
      comments_authorId := h.comments_authorId.append (mem_ids_of_findUserById hauthor) }
  | removeComment =>
    exact { h with
      comments_postId := h.comments_postId.filter _
      comments_authorId := h.comments_authorId.filter _ }

end Store.ReferencesHold

end References

section Columns

variable {s t : Store} {step : TableStep}

/-- Links with distinct pairs, after those of one post are replaced. -/
theorem nodup_relinked {links : List (String × String)} (h : links.Nodup) {id : String}
    {topicIds : Option (List String)} (hnew : ∀ list, topicIds = some list → list ≠ [] →
      (relinked links id (some list)).Nodup) : (relinked links id topicIds).Nodup := by
  cases topicIds with
  | none => exact h
  | some list =>
    by_cases hlist : list = []
    · subst hlist
      simp only [relinked, List.map_nil, List.append_nil]
      exact h.filter _
    · exact hnew list rfl hlist

namespace Store.ColumnsUnique

/-- Every step keeps the unique columns. -/
theorem moves (h : s.ColumnsUnique) (hmoves : TableMoves s step t) : t.ColumnsUnique := by
  cases hmoves with
  | tick | handOver => exact { h with }
  | insertUser hfree => exact { h with users := h.users.append hfree }
  | updateUser hold hfree =>
    have hmem := List.mem_of_find?_eq_some hold
    have hkept := UniqueColumns.updateWhere h.users h.users.id hmem (id_of_findUserById hold) hfree
    exact { h with users := hkept }
  | setBanned =>
    exact { h with users := h.users.updateWhere_of_eq fun _ => ⟨rfl, rfl, rfl, rfl⟩ }
  | removeAccount =>
    exact { h with
      users := h.users.filter _
      oauthExchangeCodes := h.oauthExchangeCodes.filter _
      comments := h.comments.filter _ }
  | insertOtp hfree => exact { h with emailOtps := h.emailOtps.append hfree }
  | deleteOtpsOf | deleteOtp => exact { h with emailOtps := h.emailOtps.filter _ }
  | setAttempts =>
    refine { h with emailOtps := h.emailOtps.updateWhere_of_eq ?_ }
    simp only [emailOtpColumns, List.forall_mem_cons, List.not_mem_nil, false_implies,
      implies_true, and_self]
  | insertExchangeCode _ hfree =>
    exact { h with oauthExchangeCodes := h.oauthExchangeCodes.append hfree }
  | takeExchangeCode | pruneExchangeCodes =>
    exact { h with oauthExchangeCodes := h.oauthExchangeCodes.filter _ }
  | @createPost row topicIds _ _ hfree hlinks =>
    refine { h with posts := h.posts.create hfree, postsToTopics := ?_ }
    by_cases hlist : topicIds.getD [] = []
    · change (s.postsToTopics ++ _).Nodup
      rw [hlist, List.map_nil, List.append_nil]
      exact h.postsToTopics
    · exact hlinks hlist
  | updatePost hold hfree hlinks =>
    exact { h with
      posts := h.posts.update hold hfree
      postsToTopics := nodup_relinked h.postsToTopics hlinks }
  | removePost =>
    exact { h with
      posts := UniqueColumns.filter h.posts _
      postsToTopics := h.postsToTopics.filter _
      comments := h.comments.filter _ }
  | insertTopic hfree => exact { h with topics := h.topics.append hfree }
  | @renameTopic id name slug old hold hfree =>
    have hids : UniqueOn (fun topic : Topic => some topic.id) s.topics :=
      h.topics _ (List.mem_cons_self ..)
    have hmem := List.mem_of_find?_eq_some hold
    have hkept := UniqueColumns.updateWhere (f := fun row => { row with name, slug }) h.topics hids
      hmem (id_of_findTopicById hold) hfree
    exact { h with topics := hkept }
  | removeTopic =>
    exact { h with topics := h.topics.filter _, postsToTopics := h.postsToTopics.filter _ }
  | insertComment _ _ hfree => exact { h with comments := h.comments.append hfree }
  | removeComment => exact { h with comments := h.comments.filter _ }

end Store.ColumnsUnique

end Columns

/-- Every step of the site keeps the unique columns. -/
theorem ColumnsUnique.step {d e : Site} {step : SiteStep} (h : ColumnsUnique d)
    (hstep : sitePerformed d step = some e) : ColumnsUnique e := by
  cases step with
  | store tableStep =>
    obtain ⟨store, hstore, rfl⟩ := Option.map_eq_some_iff.mp hstep
    exact { h with store := h.store.moves (performed_moves hstore) }
  | insertProject row =>
    obtain ⟨hfree, rfl⟩ := mapError_toOption hstep
    exact { h with projects := h.projects.append hfree }
  | updateProject id updateProjectDto now =>
    obtain ⟨-, he⟩ := Option.ite_none_left_eq_some.mp hstep
    obtain rfl := Option.some.inj he
    refine { h with projects := h.projects.updateWhere_of_eq ?_ }
    simp only [projectColumns, List.forall_mem_cons, List.not_mem_nil, false_implies,
      implies_true, and_true]
    exact fun _ => rfl
  | removeProject id =>
    obtain rfl := Option.some.inj hstep
    exact { h with projects := h.projects.filter _ }
  | insertAbout row =>
    obtain ⟨hfree, rfl⟩ := insertRow_toOption hstep
    exact { h with aboutContent := h.aboutContent.append hfree }
  | updateAbout id updateAboutDto now =>
    obtain rfl := Option.some.inj hstep
    refine { h with aboutContent := h.aboutContent.updateWhere_of_eq ?_ }
    simp only [AboutService.aboutColumns, List.forall_mem_cons, List.not_mem_nil, false_implies,
      implies_true, and_true]
    exact fun _ => rfl

/-- Every step of the site keeps the references. -/
theorem referencesHold_of_sitePerformed {d e : Site} {step : SiteStep}
    (h : d.store.ReferencesHold) (hstep : sitePerformed d step = some e) :
    e.store.ReferencesHold := by
  rcases store_of_sitePerformed hstep with ⟨tableStep, rfl, hstore⟩ | hstore
  · exact h.moves (performed_moves hstore)
  · exact hstore.symm ▸ h

section Runs

variable {τ : Type} {config : SiteConfig τ} {d : Site}
  {labels : List (CallLabel (Request τ) Failure Nat)}
  {after : CallState Site Failure (SiteAnswer τ)}

/-- Whatever the requests do, every row refers to rows that are there, and no two rows share the
value of a unique column. -/
theorem constraints_hold_of_exec (hreferences : d.store.ReferencesHold)
    (hcolumns : ColumnsUnique d)
    (hrun : (site config).exec (.initial d) labels = some after) :
    after.state.store.ReferencesHold ∧ ColumnsUnique after.state :=
  ⟨site_invariant (P := fun e => e.store.ReferencesHold) hreferences
      (fun h hstep => referencesHold_of_sitePerformed h hstep) hrun,
    site_invariant (P := ColumnsUnique) hcolumns (fun h hstep => h.step hstep) hrun⟩

end Runs

/-- Nothing refers to anything on the small site. -/
theorem ownersSite_references : ownersSite.store.ReferencesHold := by
  constructor <;> exact fun _ => nofun

/-- On the site with something in every table, the rows refer to each other. -/
theorem fullSite_references : fullSite.store.ReferencesHold := by
  constructor <;> unfold RefersTo <;> decide +kernel

/-- And no two of them share a value. -/
theorem fullSite_columns : ColumnsUnique fullSite where
  store := {
    users := (UniqueColumns.singleton owner).append (by decide +kernel)
    emailOtps := .singleton _
    oauthExchangeCodes := .singleton _
    posts := .singleton _
    topics := (UniqueColumns.singleton _).append (by decide +kernel)
    postsToTopics := List.nodup_singleton _
    comments := .singleton _ }
  projects := .singleton _
  aboutContent := .singleton _

/-- The post under its new topic, too, keeps the constraints. -/
theorem constraints_hold_draftEdited :
    draftEdited.state.store.postsToTopics = [("post", "proofs")] ∧
      draftEdited.state.store.ReferencesHold ∧ ColumnsUnique draftEdited.state :=
  ⟨by decide +kernel, constraints_hold_of_exec fullSite_references fullSite_columns
    ((site bytesSite).exec_run ..)⟩

end VertexApi.App
