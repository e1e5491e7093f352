import VertexApi.App.Handlers
import VertexApi.App.Integrity
import VertexApi.Core.Commit

/-!
# Requests change something once

Apart from the codes that go after a while and from what is handed over, a request changes the
tables in one statement. What follows cannot fail the request: a failed delete of an object is
logged. Two requests hand something over after they have changed something, and may fail then:
a sign-in with a mailed code, and a callback.
-/

namespace VertexApi.App

open About Auth Comments Posts Projects Topics Users

/-- The tables that last: without the clock, what was handed over, and the codes. -/
def Store.durable (s : Store) : Store :=
  { s with clock := 0, outbound := [], emailOtps := [], oauthExchangeCodes := [] }

/-- The site without them. -/
def durable (d : Site) : Site := { d with store := d.store.durable }

/-- A call may fail after it has changed something. -/
def Call.failsLate {τ : Type} : Call τ → Bool
  | .verifyCode .. => true
  | _ => false

/-- So may one of these. -/
def SiteCall.failsLate {τ : Type} : SiteCall τ → Bool
  | .service call => call.failsLate
  | .callback _ => true
  | _ => false

/-- The routes whose requests may. -/
def Route.failsLate : Route → Bool
  | .verifyOtp .. | .callback .. => true
  | _ => false

/-- What a request answers with is a failure; a callback responds to its own. -/
def IsFailure {τ : Type} : Except Failure (SiteAnswer τ) → Prop
  | .error _ => True
  | .ok (.callback ⟨_, .unhandled _⟩) => True
  | .ok _ => False

/-- An operation that changes what lasts once, and ends as it may end then. -/
abbrev CommitsOnce {α : Type} (E : Failure → Prop) (V : α → Prop) (p : Operation α) : Prop :=
  p.Commits Store.ReferencesHold Store.durable E V

/-- An operation that changes nothing that lasts, and ends as it may. -/
abbrev StaysQuiet {α : Type} (E : Failure → Prop) (V : α → Prop) (p : Operation α) : Prop :=
  p.Quiet Store.ReferencesHold Store.durable E V

section Statements

variable {α β : Type} {E : Failure → Prop} {V : α → Prop}

/-- A read commits nothing. -/
theorem read_commits (f : Store → α) :
    CommitsOnce E V (read f) := by
  refine .query fun s t a _ hrun => Or.inl ?_
  obtain ⟨rfl, -⟩ := Prod.mk.inj (Except.ok.inj hrun)
  rfl

/-- Neither does a write to what does not last. -/
theorem write_commits {f : Store → Store} {V : Unit → Prop}
    (hf : ∀ s, (f s).durable = s.durable) :
    CommitsOnce E V (write f) := by
  refine .query fun s t a _ hrun => Or.inl ?_
  obtain ⟨rfl, -⟩ := Prod.mk.inj (Except.ok.inj hrun)
  exact hf s

/-- What is handed over does not last, but the statement may fail. -/
theorem handOver_quiet (outbound : Outbound) :
    StaysQuiet (fun _ => True) (fun _ => True) (handOver outbound) := by
  refine .query (fun _ => trivial) fun s t a _ hrun => ⟨?_, trivial⟩
  obtain ⟨rfl, -⟩ := Prod.mk.inj (Except.ok.inj hrun)
  rfl

/-- A check commits nothing. -/
theorem admitted_commits (x : Except HttpException α) :
    CommitsOnce E V (admitted x) := by
  cases x with
  | ok a => exact .pure a
  | error exception => exact .throw _

/-- An object is deleted, or the failure is logged. -/
theorem deleteMediaKeys_quiet (keys : List String) :
    StaysQuiet E (fun _ => True) (PostsService.deleteMediaKeys keys) := by
  rw [PostsService.deleteMediaKeys]
  split
  · exact (handOver_quiet _).tryCatch fun _ _ => .pure trivial
  · exact .pure trivial

/-- Statements that write to one table commit with the row that they return. -/
theorem updateUsers_commits (id : String) (f : User → User) :
    CommitsOnce E (fun user => user.isSome = true) (updateUsers id f) := by
  refine .query fun s t user _ hrun => ?_
  cases hupdate : updateUser s.users id f with
  | error error =>
    rw [hupdate] at hrun
    cases hrun
  | ok outcome =>
    obtain ⟨users, found⟩ := outcome
    rw [hupdate] at hrun
    obtain ⟨rfl, rfl⟩ := Prod.mk.inj (Except.ok.inj hrun)
    cases found with
    | none =>
      obtain ⟨-, rfl⟩ := updateUser_eq_ok_none.mp hupdate
      exact Or.inl rfl
    | some user => exact Or.inr rfl

/-- A statement that commits whenever it does not throw. -/
theorem query_commits {run : Store → Except Failure (Store × α)} :
    CommitsOnce E (fun _ => True) (.query run) :=
  .query fun _ _ _ _ _ => Or.inr trivial

/-- A delete that finds no post leaves the tables as they are. -/
theorem deleteFromPosts_commits (id : String) :
    CommitsOnce E (fun deleted => deleted.isSome = true) (PostsService.deleteFromPosts id) := by
  refine .query fun s t deleted hs hrun => ?_
  obtain ⟨rfl, rfl⟩ := Prod.mk.inj (Except.ok.inj hrun)
  cases hfound : findPostById s.posts id with
  | some post => exact Or.inr rfl
  | none =>
    have hnot : ∀ post ∈ s.posts, post.id ≠ id := fun post hpost he => by
      have hsome := List.find?_eq_none.mp hfound post hpost
      exact hsome (beq_iff_eq.mpr he)
    have hposts : (s.posts.filter fun post => post.id != id) = s.posts :=
      List.filter_eq_self.mpr fun post hpost => bne_iff_ne.mpr (hnot post hpost)
    have hlinks : (s.postsToTopics.filter fun link => link.1 != id) = s.postsToTopics := by
      refine List.filter_eq_self.mpr fun link hlink => bne_iff_ne.mpr fun he => ?_
      obtain ⟨post, hpost, hid⟩ := List.mem_map.mp (hs.postsToTopics_postId link hlink)
      exact hnot post hpost (hid.trans he)
    have hcomments : (s.comments.filter fun comment => comment.postId != id) = s.comments := by
      refine List.filter_eq_self.mpr fun comment hcomment => bne_iff_ne.mpr fun he => ?_
      obtain ⟨post, hpost, hid⟩ := List.mem_map.mp (hs.comments_postId comment hcomment)
      exact hnot post hpost (hid.trans he)
    refine Or.inl ?_
    simp only [Store.withBlog, Store.blog, PostTables.withoutPost, unlinkTopics, hposts, hlinks,
      hcomments]

/-- An update of a topic that has gone leaves the tables as they are. -/
theorem updateTopics_commits (id : String) (f : Topic → Topic) :
    CommitsOnce E (fun topic => topic.isSome = true) (TopicsService.updateTopics id f) := by
  refine .query fun s t topic _ hrun => ?_
  cases hupdate : updateTopic s.topics id f with
  | error error =>
    rw [hupdate] at hrun
    cases hrun
  | ok outcome =>
    obtain ⟨topics, found⟩ := outcome
    rw [hupdate] at hrun
    obtain ⟨rfl, rfl⟩ := Prod.mk.inj (Except.ok.inj hrun)
    cases found with
    | none =>
      obtain ⟨-, rfl⟩ := updateRow_eq_ok_none.mp (mapError_eq_ok.mp hupdate)
      exact Or.inl rfl
    | some topic => exact Or.inr rfl

/-- So does a delete. -/
theorem deleteFromTopics_commits (id : String) :
    CommitsOnce E (fun topic => topic.isSome = true) (TopicsService.deleteFromTopics id) := by
  refine .query fun s t topic _ hrun => ?_
  split at hrun
  · obtain ⟨rfl, -⟩ := Prod.mk.inj (Except.ok.inj hrun)
    exact Or.inl rfl
  · obtain ⟨-, rfl⟩ := Prod.mk.inj (Except.ok.inj hrun)
    exact Or.inr rfl

end Statements

section Operations

variable {E : Failure → Prop}

/-- The edit of a profile that has committed deletes the old avatar at most. -/
theorem afterUpdate_some (publicUrlPrefix : String) (existing : User) (user : SafeUser) :
    afterUpdate publicUrlPrefix existing (some user) = .done (.updated (some user)) ∨
      ∃ oldKey, afterUpdate publicUrlPrefix existing (some user) = .delete oldKey user := by
  simp only [afterUpdate]
  split
  · exact Or.inl rfl
  · split
    · exact Or.inl rfl
    · split
      · exact Or.inl rfl
      · split
        · exact Or.inl rfl
        · exact Or.inr ⟨_, rfl⟩

/-- The edit of a profile. -/
theorem updateSelf_commits (publicUrlPrefix id : String) (dto : UpdateProfileDto) :
    CommitsOnce E (fun _ => True) (UsersService.updateSelf publicUrlPrefix id dto) := by
  refine (read_commits _).after fun existing => ?_
  cases existing with
  | none => exact .throw _
  | some existing =>
    refine Program.Commits.look.after fun updatedAt => ?_
    have hdelete (oldKey : String) (user : SafeUser) : StaysQuiet E (fun _ => True) (do
        try handOver (.deletedFiles [oldKey]) catch _ => pure ()
        return some user : Operation (Option SafeUser)) :=
      .bind (V := fun _ => True) ((handOver_quiet _).tryCatch fun _ _ => .pure trivial)
        fun _ _ => .pure trivial
    refine (updateUsers_commits id _).bind (fun updated => ?_) fun updated hupdated => ?_
    · split
      · exact .pure _
      · exact (hdelete _ _).commits
      · exact .throw _
    · cases updated with
      | none => cases hupdated
      | some updated =>
        simp only [Option.map_some]
        rcases afterUpdate_some publicUrlPrefix existing (safeReturning updated) with
          hdone | ⟨oldKey, hafter⟩
        · rw [hdone]
          exact .pure trivial
        · rw [hafter]
          exact hdelete oldKey _

/-- A new post, in one transaction. -/
theorem createPost_commits (createPostDto : CreatePostDto) (authorId postId : String) :
    CommitsOnce E (fun _ => True) (PostsService.create createPostDto authorId postId) := by
  refine Program.Commits.look.after fun createdAt => ?_
  exact (query_commits (E := fun _ => False)).tryCatch (fun _ => .throw _) fun _ => False.elim

/-- The edit of a post, in one transaction. -/
theorem updatePost_commits (publicUrlPrefix id : String) (updatePostDto : UpdatePostDto) :
    CommitsOnce E (fun _ => True) (PostsService.update publicUrlPrefix id updatePostDto) := by
  refine (read_commits _).after fun existing => ?_
  cases existing with
  | none => exact .throw _
  | some existing =>
    refine Program.Commits.look.after fun updatedAt => ?_
    refine .before ((query_commits (E := fun _ => False)).tryCatch (fun _ => .throw _)
      fun _ => False.elim) fun updated => ?_
    exact (deleteMediaKeys_quiet _).bind fun _ _ => .pure trivial

/-- The removal of a post, whose objects are deleted after it. -/
theorem removePost_commits (publicUrlPrefix id : String) :
    CommitsOnce E (fun _ => True) (PostsService.remove publicUrlPrefix id) := by
  have hmedia (deleted : Post) : StaysQuiet E (fun _ => True) (do
      PostsService.deleteMediaKeys (collectMediaKeys publicUrlPrefix deleted)
      return deleted : Operation Post) :=
    (deleteMediaKeys_quiet _).bind fun _ _ => .pure trivial
  refine (deleteFromPosts_commits id).bind (fun deleted => ?_) fun deleted hdeleted => ?_
  · cases deleted with
    | none => exact .throw _
    | some deleted => exact (hmedia deleted).commits
  · cases deleted with
    | none => cases hdeleted
    | some deleted => exact hmedia deleted

/-- A comment is inserted last. -/
theorem createComment_commits (postId authorId : String) (createCommentDto : CreateCommentDto)
    (commentId : String) : CommitsOnce E (fun _ => True)
      (CommentsService.create postId authorId createCommentDto commentId) :=
  (read_commits _).after fun _ => (admitted_commits _).after fun _ => query_commits

/-- It is deleted last. -/
theorem removeComment_commits (commentId requestingUserId : String) (role : UserRole) :
    CommitsOnce E (fun _ => True) (CommentsService.remove commentId requestingUserId role) := by
  refine (read_commits _).after fun comment => ?_
  cases comment with
  | none => exact .throw _
  | some comment =>
    exact (admitted_commits _).after fun _ => .before query_commits fun _ => .pure trivial

/-- A registration inserts last. -/
theorem register_commits (argon2 : PasswordHash) (registerDto : RegisterDto) (userId : String) :
    CommitsOnce E (fun _ => True) (AuthService.register argon2 registerDto userId) := by
  refine (read_commits _).after fun existingUser => ?_
  split
  · exact .throw _
  · exact .before query_commits fun _ => .pure trivial

/-- A token is handed over, which may fail. -/
theorem generateAccessToken_quiet {τ : Type} (jwt : JwtSigner τ) (payload : JwtPayload) :
    StaysQuiet (fun _ => True) (fun _ => True) (AuthService.generateAccessToken jwt payload) :=
  (Program.Quiet.look fun _ _ => trivial).bind (V := fun _ => True) fun _ _ =>
    (handOver_quiet _).bind fun _ _ => .pure trivial

/-- A code is minted, which may fail. -/
theorem createOAuthExchangeCode_quiet (sha256 : String → String) (userId code : String) :
    StaysQuiet (fun _ => True) (fun _ => True)
      (AuthService.createOAuthExchangeCode sha256 userId code) := by
  have hinsert (row : OauthExchangeCode) : StaysQuiet (fun _ => True) (fun _ => True)
      (insertIntoOauthExchangeCodes row) := by
    refine .query (fun _ => trivial) fun s t a _ hrun => ⟨?_, trivial⟩
    split at hrun
    · cases hrun
    · split at hrun
      · cases hrun
      · obtain ⟨rfl, -⟩ := Prod.mk.inj (Except.ok.inj hrun)
        rfl
  have hprune : StaysQuiet (fun _ => True) (fun _ => True) AuthService.pruneExpired := by
    refine (Program.Quiet.look fun _ _ => trivial).bind (V := fun _ => True) fun _ _ => ?_
    refine .query (fun _ => trivial) fun s t a _ hrun => ⟨?_, trivial⟩
    obtain ⟨rfl, -⟩ := Prod.mk.inj (Except.ok.inj hrun)
    rfl
  refine (Program.Quiet.look fun _ _ => trivial).bind (V := fun _ => True) fun createdAt _ => ?_
  refine (hinsert _).bind fun _ _ => ?_
  exact (hprune.tryCatch fun _ _ => .pure trivial).bind fun _ _ => .pure trivial

/-- The exchange of a code. -/
theorem exchangeOAuthCode_commits {τ : Type} {V : τ → Prop} (jwt : JwtSigner τ)
    (sha256 : String → String) (code : String) :
    CommitsOnce E V (AuthService.exchangeOAuthCode jwt sha256 code) := by
  have htake : CommitsOnce E (fun _ => False) (takeOauthExchangeCode (sha256 code)) := by
    refine .query fun s t a _ hrun => Or.inl ?_
    obtain ⟨rfl, -⟩ := Prod.mk.inj (Except.ok.inj hrun)
    rfl
  refine htake.after fun entry => ?_
  cases entry with
  | none => exact .throw _
  | some entry =>
    refine Program.Commits.look.after fun checkedAt => ?_
    split
    · exact .throw _
    · refine (read_commits _).after fun user => ?_
      cases user with
      | none => exact .throw _
      | some user => exact (generateAccessToken_quiet jwt _).commits

/-- A login. -/
theorem login_commits {τ : Type} {V : τ → Prop} (argon2 : PasswordHash) (jwt : JwtSigner τ)
    (loginDto : LoginDto) : CommitsOnce E V (AuthService.login argon2 jwt loginDto) := by
  refine (read_commits _).after fun user => ?_
  cases user with
  | none => exact .throw _
  | some user =>
    dsimp only
    split
    · exact (generateAccessToken_quiet jwt _).commits
    · exact .throw _

/-- A request for a mailed code. -/
theorem requestCode_commits {V : Unit → Prop} (sha256 : String → String) (email : String)
    (drawn : Fin 1000000) (rowId : String) :
    CommitsOnce E V (OtpService.requestCode sha256 email drawn rowId) := by
  have hdelete : CommitsOnce E (fun _ => False) (deleteFromEmailOtps fun row =>
      row.email == email) := write_commits fun _ => rfl
  have hinsert (row : Nat → EmailOtp) : CommitsOnce E (fun _ => False)
      (insertIntoEmailOtps row) := by
    refine .query fun s t a _ hrun => Or.inl ?_
    split at hrun
    · cases hrun
    · obtain ⟨rfl, -⟩ := Prod.mk.inj (Except.ok.inj hrun)
      rfl
  refine (read_commits _).after fun existing => Program.Commits.look.after fun checkedAt => ?_
  split
  · exact .throw _
  · refine hdelete.after fun _ => Program.Commits.look.after fun createdAt => ?_
    refine (hinsert _).after fun _ => ?_
    exact (handOver_quiet _).commits.tryCatch (E := fun _ => False)
      (fun _ => hdelete.after fun _ => .throw _) fun _ => False.elim

/-- The guard of a session. -/
theorem canActivate_commits {τ : Type} {V : GuardedRequest → Prop} (jwt : JwtSigner τ)
    (accessToken : Option τ) : CommitsOnce E V (AuthService.canActivate jwt accessToken) :=
  Program.Commits.look.after fun _ => (admitted_commits _).after fun _ =>
    (read_commits _).after fun _ => admitted_commits _

/-- The guard that lets everyone pass. -/
theorem optionalJwtAuthGuard_commits {τ : Type} {V : Option JwtPayload → Prop}
    (jwt : JwtSigner τ) (accessToken : Option τ) :
    CommitsOnce E V (OptionalJwtAuthGuard.canActivate jwt accessToken) := by
  cases accessToken with
  | none => exact .pure _
  | some token =>
    refine Program.Commits.look.after fun checkedAt => ?_
    split
    · refine (read_commits _).after fun user => ?_
      split
      · exact .pure _
      · exact .pure _
    · exact .pure _

/-- A sign-in with a mailed code inserts a row at most, and then hands a token over. -/
theorem verifyCode_commits {τ : Type} (config : ApiConfig τ)
    (email code userId passwordHash : String) :
    CommitsOnce (fun _ => True) (fun _ => True)
      (OtpService.verifyCode config email code userId passwordHash) := by
  have hdelete (id : String) : CommitsOnce (fun _ => True) (fun _ => False)
      (OtpService.deleteEntry id) := write_commits fun _ => rfl
  have hcount (id : String) (attempts : Nat) : CommitsOnce (fun _ => True) (fun _ => False)
      (OtpService.setAttempts id attempts) := write_commits fun _ => rfl
  have hcreate : CommitsOnce (fun _ => True) (fun _ => True)
      (OtpService.findOrCreate config.adminEmail email userId passwordHash) := by
    refine (read_commits _).after fun user => ?_
    cases user with
    | none => exact query_commits
    | some user => exact .pure user
  have hsignIn : CommitsOnce (fun _ => True) (fun _ => True)
      (OtpService.signIn config.jwt config.adminEmail email userId passwordHash) := by
    refine hcreate.before fun user => ?_
    split
    · exact .thrown trivial
    · exact generateAccessToken_quiet config.jwt _
  refine (read_commits _).after fun entry => ?_
  cases entry with
  | none => exact .throw _
  | some entry =>
    refine Program.Commits.look.after fun checkedAt => ?_
    split
    · exact (hdelete _).after fun _ => .throw _
    · exact (hcount _ _).after fun _ => .throw _
    · exact (hdelete _).after fun _ => hsignIn

/-- A callback of a provider updates or inserts one row. -/
theorem validate_commits (config : StrategyConfig) (profile : Profile)
    (linkCookie : Option String) (userId passwordHash : String) (pick : Nat) :
    CommitsOnce E (fun _ => True) (OAuthStrategy.validate config profile linkCookie userId
      passwordHash pick) := by
  have hlink (identity : ProviderIdentity) (linkUserId : String) :
      CommitsOnce (fun _ => False) (fun _ => True) (OAuthStrategy.link identity linkUserId) := by
    refine (read_commits _).after fun conflicting => ?_
    split
    · exact .throw _
    · refine (read_commits _).after fun current => ?_
      cases current with
      | none => exact .throw _
      | some current =>
        refine (updateUsers_commits _ _).bind (fun updated => ?_) fun updated hupdated => ?_
        · cases updated with
          | none => exact .throw _
          | some updated => exact .pure _
        · cases updated with
          | none => cases hupdated
          | some updated => exact .pure trivial
  have hregister (identity : ProviderIdentity) : CommitsOnce (fun _ => False)
      (fun user => user.isSome = true)
      (OAuthStrategy.register config.adminEmail identity userId passwordHash) := by
    refine Program.Commits.tryCatch (E := fun _ => False) ?_ (fun _ => .throw _) fun _ => False.elim
    exact query_commits.map fun _ _ => rfl
  have hfind (identity : ProviderIdentity) : CommitsOnce (fun _ => False)
      (fun user => user.isSome = true)
      (OAuthStrategy.findOrRegister config.adminEmail identity userId passwordHash pick) := by
    refine (read_commits _).after fun existing => ?_
    cases existing with
    | none => exact hregister identity
    | some existing => exact updateUsers_commits _ _
  refine (admitted_commits _).after fun identity => ?_
  split
  · next linkUserId _ =>
    exact (hlink identity linkUserId).tryCatch (fun _ => .throw _) fun _ => False.elim
  · refine ((hfind identity).tryCatch (fun _ => .throw _) fun _ => False.elim).bind
      (fun user => ?_) fun user huser => ?_
    · cases user with
      | none => exact .throw _
      | some user => exact .pure _
    · cases user with
      | none => cases huser
      | some user => exact .pure trivial

/-- The visitor is authenticated. -/
theorem authenticate_commits (config : OAuthRoutesConfig) (visit : CallbackVisit) :
    CommitsOnce E (fun _ => True) (authenticate config visit) := by
  rw [authenticate]
  split
  · exact .throw _
  · split
    · exact .throw _
    · split
      · split
        · exact .throw _
        · exact (validate_commits _ _ _ _ _ _).map fun _ _ => trivial
      · exact .pure _

/-- A callback responds to its failures, after a change too. -/
theorem callback_commits (config : OAuthRoutesConfig) (visit : CallbackVisit) :
    CommitsOnce E (fun _ => True) (callback config visit) := by
  have hhandled : CommitsOnce (fun _ => True) (fun _ => True) (handled config visit) := by
    refine (admitted_commits _).after fun options => ?_
    refine (authenticate_commits config visit).before fun user => ?_
    cases user with
    | none => exact .pure trivial
    | some user =>
      simp only [authCallback]
      split
      · exact .pure trivial
      · exact (createOAuthExchangeCode_quiet _ _ _).bind fun _ _ => .pure trivial
  exact (hhandled.tryCatch (fun _ => .pure _) fun _ _ => .pure trivial).before fun _ =>
    .pure trivial

/-- Every operation commits once. -/
theorem operation_commits {τ : Type} (config : ApiConfig τ) (call : Call τ) :
    CommitsOnce (fun _ => call.failsLate = true) (fun _ => True) (operation config call) := by
  have hmap {α : Type} {E : Failure → Prop} {p : Operation α} {f : α → Answer τ}
      (h : CommitsOnce E (fun _ => True) p) : CommitsOnce E (fun _ => True) (f <$> p) :=
    h.map fun _ _ => trivial
  cases call with
  | findAllUsers | commentsOfPost | commentsOfAuthor | publishedPosts | dashboardPosts =>
    exact hmap (read_commits _)
  | findUser id =>
    refine hmap ((read_commits _).after fun user => ?_)
    cases user with
    | none => exact .throw _
    | some user => exact .pure _
  | postBySlug slug locale pick =>
    refine hmap ((read_commits _).after fun post => ?_)
    cases post with
    | none => exact .throw _
    | some post => exact .pure _
  | profile accessToken =>
    refine hmap ((canActivate_commits _ _).after fun request => ?_)
    exact admitted_commits _
  | setBanned | removeUser | removeSelf => exact hmap query_commits
  | updateSelf id dto => exact hmap (updateSelf_commits _ id dto)
  | createComment => exact hmap (createComment_commits ..)
  | removeComment => exact hmap (removeComment_commits ..)
  | createPost => exact hmap (createPost_commits ..)
  | updatePost => exact hmap (updatePost_commits ..)
  | removePost => exact hmap (removePost_commits ..)
  | register => exact hmap (register_commits ..)
  | generateAccessToken payload => exact hmap (generateAccessToken_quiet _ payload).commits
  | createOAuthExchangeCode userId code =>
    exact hmap (createOAuthExchangeCode_quiet _ userId code).commits
  | exchangeOAuthCode code => exact hmap (exchangeOAuthCode_commits ..)
  | requestCode => exact hmap (requestCode_commits ..)
  | verifyCode =>
    refine hmap ((verifyCode_commits ..).mono (fun _ _ => rfl) fun _ h => h)
  | validate => exact hmap (validate_commits ..)

end Operations

section Requests

variable {τ : Type} {E : Failure → Prop}

/-- The references of the tables hold. -/
abbrev SiteReferencesHold (d : Site) : Prop := d.store.ReferencesHold

/-- A write to the tables changes what lasts on the site when it does so there. -/
theorem durable_eq_iff (d : Site) (s : Store) :
    durable { d with store := s } = durable d ↔ s.durable = d.store.durable := by
  simp only [durable, Database.mk.injEq, and_true]

/-- An operation over the tables commits once on the site. -/
theorem onStore_commits {α β : Type} {V : α → Prop} {W : β → Prop} {p : Operation α} {f : α → β}
    (h : CommitsOnce E V p) (hW : ∀ a, W (f a)) :
    (f <$> onStore p).Commits SiteReferencesHold durable E W :=
  (h.zoom (fun _ hd => hd) fun d s _ => durable_eq_iff d s).map fun a _ => hW a

/-- What a call returns when it has changed something. -/
def Returns (call : SiteCall τ) (answer : SiteAnswer τ) : Prop :=
  IsFailure (.ok answer) → call.failsLate = true

section Sites

variable {α : Type} {V : α → Prop}

theorem siteRead_commits (f : Site → α) :
    (siteRead f).Commits SiteReferencesHold durable E V := by
  refine .query fun d e a _ hrun => Or.inl ?_
  obtain ⟨rfl, -⟩ := Prod.mk.inj (Except.ok.inj hrun)
  rfl

theorem siteQuery_commits {run : Site → Except Failure (Site × α)} :
    (Program.query run).Commits SiteReferencesHold durable E fun _ => True :=
  .query fun _ _ _ _ _ => Or.inr trivial

theorem checked_commits (x : Except Failure α) :
    (checked x).Commits SiteReferencesHold durable E V := by
  cases x with
  | ok a => exact .pure a
  | error failure => exact .throw _

theorem prepared_commits (x : Except ThrownError α) :
    (prepared x).Commits SiteReferencesHold durable E V := by
  cases x with
  | ok upload => exact .pure upload
  | error error => exact .throw _

/-- An update of a project that has gone changes nothing. -/
theorem updateProjects_commits (id : String) (f : Project → Project) :
    (ProjectsService.updateProjects id f).Commits SiteReferencesHold durable E fun project =>
      project.isSome = true := by
  refine .query fun d e project _ hrun => ?_
  split at hrun
  · obtain ⟨rfl, -⟩ := Prod.mk.inj (Except.ok.inj hrun)
    exact Or.inl rfl
  · obtain ⟨-, rfl⟩ := Prod.mk.inj (Except.ok.inj hrun)
    exact Or.inr rfl

/-- So does a delete. -/
theorem deleteFromProjects_commits (id : String) :
    (ProjectsService.deleteFromProjects id).Commits SiteReferencesHold durable E fun project =>
      project.isSome = true := by
  refine .query fun d e project _ hrun => ?_
  obtain ⟨rfl, rfl⟩ := Prod.mk.inj (Except.ok.inj hrun)
  cases hfound : findProjectById d.others.projects id with
  | some project => exact Or.inr rfl
  | none =>
    refine Or.inl ?_
    simp only [Database.withProjects, filter_of_findProjectById hfound]

end Sites

/-- Every call commits once. -/
theorem siteOperation_commits (config : SiteConfig τ) (call : SiteCall τ) :
    (siteOperation config call).Commits SiteReferencesHold durable
      (fun _ => call.failsLate = true) (Returns call) := by
  cases call with
  | hello => exact .pure _
  | startLink => exact .pure _
  | health => exact Program.Commits.look.map (V := fun _ => False) fun _ => False.elim
  | service call => exact onStore_commits (operation_commits config.api call) fun _ => False.elim
  | login loginDto =>
    exact onStore_commits (V := fun _ => True) (login_commits _ _ loginDto) fun _ => False.elim
  | startLogin visit =>
    refine onStore_commits (V := fun _ => True) ?_ fun _ => False.elim
    refine (admitted_commits _).after fun options => ?_
    exact (authenticate_commits _ visit).before fun _ => .pure trivial
  | callback visit => exact onStore_commits (callback_commits _ visit) fun _ _ => rfl
  | ownProfile currentUser =>
    exact onStore_commits (V := fun _ => True) (admitted_commits _) fun _ => False.elim
  | topics => exact onStore_commits (V := fun _ => True) (read_commits _) fun _ => False.elim
  | createTopic => exact onStore_commits query_commits fun _ => False.elim
  | updateTopic id =>
    exact onStore_commits
      ((updateTopics_commits id _).found (.throw _) fun _ => .pure trivial) fun _ => False.elim
  | removeTopic id =>
    exact onStore_commits
      ((deleteFromTopics_commits id).found (.throw _) fun _ => .pure trivial) fun _ => False.elim
  | projects => exact (siteRead_commits (V := fun _ => False) _).map fun _ => False.elim
  | projectById id =>
    refine Program.Commits.map (V := fun _ => False) ?_ fun _ => False.elim
    refine (siteRead_commits _).after fun project => ?_
    cases project with
    | none => exact .throw _
    | some project => exact .pure _
  | createProject => exact siteQuery_commits.map fun _ _ => False.elim
  | updateProject id =>
    refine Program.Commits.map (V := fun _ => True) ?_ fun _ _ => False.elim
    exact Program.Commits.look.after fun _ =>
      (updateProjects_commits id _).found (.throw _) fun _ => .pure trivial
  | removeProject id =>
    refine Program.Commits.map (V := fun _ => True) ?_ fun _ _ => False.elim
    exact (deleteFromProjects_commits id).found (.throw _) fun _ => .pure trivial
  | about rowId pick =>
    refine Program.Commits.map (V := fun _ => True) ?_ fun _ _ => False.elim
    refine (siteRead_commits _).after fun existing => ?_
    cases existing with
    | some existing => exact .pure _
    | none => exact siteQuery_commits.map fun _ _ => trivial
  | updateAbout updateAboutDto rowId pick =>
    refine Program.Commits.map (V := fun _ => True) ?_ fun _ _ => False.elim
    refine (siteRead_commits _).after fun existing => ?_
    cases existing with
    | none => exact siteQuery_commits.map fun _ _ => trivial
    | some existing => exact Program.Commits.look.after fun _ => siteQuery_commits
  | presignedUrl | avatarPresignedUrl =>
    exact (prepared_commits (V := fun _ => False) _).map fun _ => False.elim

/-- The guards change nothing. -/
theorem guard_commits {V : Guarded → Prop} (config : SiteConfig τ) (accessToken : Option τ)
    (access : Access) :
    (access.guard config accessToken).Commits SiteReferencesHold durable E V := by
  have hstore {α : Type} {V : α → Prop} {p : Operation α} (h : CommitsOnce E V p) :
      (onStore p).Commits SiteReferencesHold durable E V :=
    h.zoom (fun _ hd => hd) fun d s _ => durable_eq_iff d s
  cases access with
  | anyone => exact .pure _
  | identified => exact (hstore (optionalJwtAuthGuard_commits _ _)).after fun _ => .pure _
  | session => exact (hstore (canActivate_commits _ _)).after fun _ => .pure _
  | admin =>
    refine (hstore (canActivate_commits _ _)).after fun _ => ?_
    exact (hstore (admitted_commits _)).after fun _ => .pure _

/-- A call that may fail late is that of a route whose requests may. -/
theorem Handles.failsLate {config : SiteConfig τ} {guarded : Guarded} {route : Route}
    {call : SiteCall τ} (h : Handles config guarded route call)
    (hlate : call.failsLate = true) : route.failsLate = true := by
  cases h <;> first | rfl | cases hlate

/-- Every request commits once. -/
theorem handle_commits (config : SiteConfig τ) (request : Request τ) :
    (handle config request).Commits SiteReferencesHold durable
      (fun _ => request.route.failsLate = true)
      fun answer => IsFailure (.ok answer) → request.route.failsLate = true := by
  refine (checked_commits _).after fun _ => (guard_commits _ _ _).after fun guarded => ?_
  cases hhandler : request.route.handler config guarded with
  | error failure => exact .thrown failure
  | ok call =>
    have hlate := (handler_eq_ok hhandler).failsLate
    exact (siteOperation_commits config call).mono (fun _ => hlate)
      fun answer hanswer hfailure => hlate (hanswer hfailure)

variable {config : SiteConfig τ} {d : Site} {request : Request τ} {started : Site} {id : Nat}
  {labels later : List (CallLabel (Request τ) Failure Nat)}
  {before after reached : CallState Site Failure (SiteAnswer τ)}

/-- A request that has changed what lasts does not change it again, and does not fail any more,
unless it is a sign-in with a mailed code, or a callback. -/
theorem requests_commit_once (hd : d.store.ReferencesHold)
    (hrun : (site config).exec (.initial d) labels = some before)
    (hstarted : Started (site config) d labels id request started)
    (hstep : (site config).step before (.step id) = some after)
    (hchange : durable after.state ≠ durable before.state)
    (hlater : (site config).exec after later = some reached) :
    (∀ next, (site config).step reached (.step id) = some next →
      durable next.state = durable reached.state) ∧
    ∀ answer, reached.answers id = some answer → IsFailure answer →
      request.route.failsLate = true := by
  obtain ⟨hquiet, herror, hok⟩ := commits_once (handle_commits config)
    (fun labels s hs => site_invariant (P := SiteReferencesHold) hd
      (fun h hnext => referencesHold_of_sitePerformed h hnext) hs)
    hrun hstarted hstep hchange hlater
  refine ⟨hquiet, fun answer hanswer hfailure => ?_⟩
  cases answer with
  | error error => exact herror error hanswer
  | ok answer => exact hok answer hanswer hfailure

end Requests

/-- The request for the topic is done with what lasts, and has not failed. -/
theorem requests_commit_once_topicCreated :
    (∀ next, (site bytesSite).step topicCreated (.step 0) = some next →
      durable next.state = durable topicCreated.state) ∧
    ∀ answer, topicCreated.answers 0 = some answer → IsFailure answer →
      (Route.createTopic ⟨"Lean"⟩ "t").failsLate = true := by
  have hstarted : Started (site bytesSite) ownersSite asksTopic 0
      (Route.askedBy (.createTopic ⟨"Lean"⟩ "t") owner) ownersSite :=
    ⟨[], [.step 0, .step 0], .initial ownersSite, rfl, rfl, rfl⟩
  have hreached : (site bytesSite).exec topicCreated [] = some topicCreated := rfl
  exact requests_commit_once ownersSite_references ((site bytesSite).exec_run ..) hstarted
    topicAsked_step (by decide +kernel) hreached

end VertexApi.App
