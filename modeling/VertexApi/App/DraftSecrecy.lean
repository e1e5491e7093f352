import VertexApi.App.Handlers
import VertexApi.Core.TwoRuns

/-!
# Drafts stay in the dashboard

A draft is a post that is not published. Two sites look alike when they are equal once
everything is erased from their drafts but that they are there, whose they are, and whether they
take comments. The lookups of the pages select published posts, a comment asks whether its post
takes comments, and a removal of an account asks for its posts; whatever else runs does not look
at posts. So, as long as nobody writes posts, every answer outside of the two routes that show
drafts to admins is the same in both sites, in every interleaving.
-/

namespace VertexApi.App

open About Auth Comments Posts Projects Topics Users

/-- A post as it is seen from outside of the dashboard. -/
def undrafted (post : Post) : Post :=
  if post.isPublished then post else {
    id := post.id
    title := ""
    titleEn := none
    titleEs := none
    slug := ""
    slugEn := none
    slugEs := none
    content := ""
    contentEn := none
    contentEs := none
    isPublished := false
    publishedAt := none
    allowComments := post.allowComments
    coverUrl := none
    coverUrlEn := none
    coverUrlEs := none
    coverAlt := none
    coverAltEn := none
    coverAltEs := none
    metaDescription := none
    metaDescriptionEn := none
    metaDescriptionEs := none
    authorId := post.authorId
    createdAt := 0
    updatedAt := 0 }

/-- A store as it is seen from there. -/
def Store.withoutDrafts (s : Store) : Store := { s with posts := s.posts.map undrafted }

/-- A site as it is seen from there. -/
def withoutDrafts (d : Site) : Site := { d with store := d.store.withoutDrafts }

/-- An operation does the same and ends alike, up to a view of its result, in stores that differ
only in drafts. -/
abbrev Hides {α γ : Type} (view : α → γ) (p : Operation α) : Prop :=
  p.Oblivious Store.withoutDrafts view

section Posts

variable (posts : List Post) {p : Post → Bool}

/-- What a draft still shows, a published post shows as well. -/
theorem undrafted_columns (post : Post) : (undrafted post).id = post.id ∧
    (undrafted post).isPublished = post.isPublished ∧
    (undrafted post).authorId = post.authorId ∧
    (undrafted post).allowComments = post.allowComments := by
  by_cases hpublished : post.isPublished = true
  · simp only [undrafted, if_pos hpublished, and_self]
  · simp only [undrafted, if_neg hpublished, Bool.not_eq_true] at hpublished ⊢
    simp only [hpublished, and_self]

@[simp] theorem undrafted_id (post : Post) : (undrafted post).id = post.id :=
  (undrafted_columns post).1

@[simp] theorem undrafted_isPublished (post : Post) :
    (undrafted post).isPublished = post.isPublished := (undrafted_columns post).2.1

@[simp] theorem undrafted_authorId (post : Post) : (undrafted post).authorId = post.authorId :=
  (undrafted_columns post).2.2.1

@[simp] theorem undrafted_allowComments (post : Post) :
    (undrafted post).allowComments = post.allowComments := (undrafted_columns post).2.2.2

/-- A published post is seen as it is. -/
theorem undrafted_of_isPublished {post : Post} (h : post.isPublished = true) :
    undrafted post = post := if_pos h

/-- Erasing a post twice is erasing it once. -/
@[simp] theorem undrafted_twice (post : Post) : undrafted (undrafted post) = undrafted post := by
  by_cases hpublished : post.isPublished = true
  · rw [undrafted_of_isPublished hpublished, undrafted_of_isPublished hpublished]
  · have hdraft : ¬ (undrafted post).isPublished = true := by rwa [undrafted_isPublished]
    rw [undrafted, if_neg hdraft]
    simp only [undrafted, if_neg hpublished]

@[simp] theorem map_undrafted_twice :
    (posts.map undrafted).map undrafted = posts.map undrafted := by
  rw [List.map_map]
  exact List.map_congr_left fun post _ => undrafted_twice post

/-- A lookup by what is seen finds the erased post. -/
theorem findPostById_map_undrafted (id : String) :
    findPostById (posts.map undrafted) id = (findPostById posts id).map undrafted := by
  have hid : (fun post : Post => post.id == id) ∘ undrafted = fun post => post.id == id :=
    funext fun post => by simp only [Function.comp_apply, undrafted_id]
  rw [findPostById, List.find?_map, hid, findPostById]

/-- A selection of published posts takes no notice of drafts. -/
theorem filter_map_undrafted (hp : ∀ post, p post = true → post.isPublished = true) :
    (posts.map undrafted).filter p = posts.filter p := by
  have hdraft {post : Post} (h : ¬ post.isPublished = true) : p post = false :=
    Bool.eq_false_iff.mpr fun he => h (hp post he)
  induction posts with
  | nil => rfl
  | cons post posts ih =>
    rw [List.map_cons]
    by_cases hpublished : post.isPublished = true
    · rw [undrafted_of_isPublished hpublished, List.filter_cons, List.filter_cons, ih]
    · have herased : ¬ (undrafted post).isPublished = true := by rwa [undrafted_isPublished]
      rw [List.filter_cons_of_neg (by simp only [hdraft herased, Bool.false_eq_true,
          not_false_eq_true]),
        List.filter_cons_of_neg (by simp only [hdraft hpublished, Bool.false_eq_true,
          not_false_eq_true]), ih]

end Posts

/-- Erasing a store twice is erasing it once. -/
@[simp] theorem Store.withoutDrafts_twice (s : Store) :
    s.withoutDrafts.withoutDrafts = s.withoutDrafts := by
  simp only [withoutDrafts, map_undrafted_twice]

section Statements

variable {α : Type}

/-- A statement that commutes with the erasure. -/
theorem query_hides {run : Store → Except Failure (Store × α)}
    (h : ∀ s : Store, run s.withoutDrafts = Program.seen Store.withoutDrafts id (run s)) :
    Hides id (.query run) :=
  .query_of_commutes Store.withoutDrafts_twice (fun _ => rfl) h

/-- A read of what is seen. -/
theorem read_hides {f : Store → α} (h : ∀ s : Store, f s.withoutDrafts = f s) :
    Hides id (read f) := query_hides fun s => congrArg (fun a => Except.ok (_, a)) (h s)

/-- A write that commutes with the erasure. -/
theorem write_hides {f : Store → Store}
    (h : ∀ s : Store, f s.withoutDrafts = (f s).withoutDrafts) : Hides id (write f) :=
  query_hides fun s => congrArg (fun t => Except.ok (t, ())) (h s)

theorem now_hides : Hides id now := .look fun _ => rfl

theorem admitted_hides (outcome : Except HttpException α) : Hides id (admitted outcome) := by
  cases outcome with
  | ok a => exact .pure a
  | error exception => exact .throw _

theorem findUser_hides (userId : String) : Hides id (findUser userId) := read_hides fun _ => rfl

theorem handOver_hides (outbound : Outbound) : Hides id (handOver outbound) :=
  write_hides fun _ => rfl

/-- A delete of objects whose failure is logged. -/
theorem handOver_or_hides (outbound : Outbound) :
    Hides id (try handOver outbound catch _ => pure ()) :=
  (handOver_hides outbound).tryCatch fun _ => .pure ()

theorem insertIntoUsers_hides (row : Nat → User) : Hides id (insertIntoUsers row) := by
  refine query_hides fun s => ?_
  simp only [Store.withoutDrafts]
  cases insertUser s.users (row s.clock) with
  | error error => rfl
  | ok users => rfl

theorem updateUsers_hides (userId : String) (f : User → User) :
    Hides id (updateUsers userId f) := by
  refine query_hides fun s => ?_
  simp only [Store.withoutDrafts]
  cases updateUser s.users userId f with
  | error error => rfl
  | ok updated => rfl

theorem insertIntoOauthExchangeCodes_hides (row : OauthExchangeCode) :
    Hides id (insertIntoOauthExchangeCodes row) := by
  refine query_hides fun s => ?_
  simp only [Store.withoutDrafts]
  cases insertRow oauthExchangeCodeColumns s.oauthExchangeCodes row with
  | error constraintName => rfl
  | ok codes =>
    by_cases huser : (findUserById s.users row.userId).isNone = true
    · simp only [huser, if_true]
      rfl
    · simp only [huser]
      rfl

theorem deleteFromEmailOtps_hides (p : EmailOtp → Bool) : Hides id (deleteFromEmailOtps p) :=
  write_hides fun _ => rfl

theorem updateEmailOtps_hides (otpId : String) (f : EmailOtp → EmailOtp) :
    Hides id (updateEmailOtps otpId f) := write_hides fun _ => rfl

theorem insertIntoEmailOtps_hides (row : Nat → EmailOtp) : Hides id (insertIntoEmailOtps row) := by
  refine query_hides fun s => ?_
  simp only [Store.withoutDrafts]
  cases insertRow emailOtpColumns s.emailOtps (row s.clock) with
  | error constraintName => rfl
  | ok emailOtps => rfl

end Statements

section Users

theorem findOne_hides (userId : String) : Hides id (UsersService.findOne userId) := by
  refine Program.Oblivious.bindId (read_hides fun _ => rfl) fun found => ?_
  cases found with
  | none => exact .throw _
  | some user => exact .pure user

theorem setBanned_hides (userId : String) (isBanned : Bool) (requestingUserId : String) :
    Hides id (UsersService.setBanned userId isBanned requestingUserId) := by
  refine query_hides fun s => ?_
  simp only [Store.withoutDrafts]
  obtain ⟨users, answer⟩ := Users.setBanned s.users userId isBanned requestingUserId
  cases answer with
  | error exception => rfl
  | ok user => rfl

/-- The tables of a removal without the drafts. -/
def withoutDraftsOf (tables : AccountTables) : AccountTables :=
  { tables with posts := tables.posts.map undrafted }

/-- A removal asks whose the posts are. -/
theorem deleteUser_withoutDrafts (tables : AccountTables) (userId : String) :
    deleteUserAndCascadeComments (withoutDraftsOf tables) userId =
      (withoutDraftsOf (deleteUserAndCascadeComments tables userId).1,
        (deleteUserAndCascadeComments tables userId).2) := by
  have hauthor : (fun post : Post => post.authorId == userId) ∘ undrafted =
      fun post => post.authorId == userId :=
    funext fun post => by simp only [Function.comp_apply, undrafted_authorId]
  simp only [deleteUserAndCascadeComments, withoutDraftsOf, List.any_map, hauthor]
  split
  · rfl
  · cases findUserById tables.users userId with
    | none => rfl
    | some user => rfl

/-- A removal that commutes with the erasure. -/
theorem removal_hides {run : AccountTables → AccountTables × Except HttpException SafeUser}
    (h : ∀ tables, run (withoutDraftsOf tables) =
      (withoutDraftsOf (run tables).1, (run tables).2)) : Hides id (UsersService.removal run) := by
  refine query_hides fun s => ?_
  rw [show s.withoutDrafts.accounts = withoutDraftsOf s.accounts from rfl, h]
  obtain ⟨tables, answer⟩ := run s.accounts
  cases answer with
  | error exception => rfl
  | ok user => rfl

theorem removeUser_hides (userId requestingUserId : String) :
    Hides id (UsersService.remove userId requestingUserId) := by
  refine removal_hides fun tables => ?_
  simp only [Users.remove]
  split
  · rfl
  · exact deleteUser_withoutDrafts tables userId

theorem removeSelf_hides (userId : String) : Hides id (UsersService.removeSelf userId) :=
  removal_hides fun tables => deleteUser_withoutDrafts tables userId

theorem updateSelf_hides (publicUrlPrefix userId : String) (dto : UpdateProfileDto) :
    Hides id (UsersService.updateSelf publicUrlPrefix userId dto) := by
  refine (findUser_hides userId).bindId fun found => ?_
  cases found with
  | none => exact .throw _
  | some existing =>
    refine now_hides.bindId fun updatedAt => ?_
    refine (updateUsers_hides userId (edited dto existing updatedAt)).bindId fun updated => ?_
    cases afterUpdate publicUrlPrefix existing (updated.map safeReturning) with
    | done answer => cases answer with
      | updated user => exact .pure user
      | refused | crashed => exact .throw _
    | delete oldKey user => exact (handOver_or_hides _).bindId fun _ => .pure _
    | find | update => exact .throw _

end Users

section Comments

/-- The joined columns of a post are those of its author; the route of admins shows them. -/
theorem findAllForAuthor_hides (authorId : String) :
    Hides (fun _ => ()) (CommentsService.findAllForAuthor authorId) :=
  .query fun s => congrArg (fun t => Except.ok (t, ())) s.withoutDrafts_twice

/-- A comment asks whether its post takes comments. -/
theorem createComment_hides (postId authorId : String) (createCommentDto : CreateCommentDto)
    (commentId : String) :
    Hides id (CommentsService.create postId authorId createCommentDto commentId) := by
  have hread : Hides (Option.map undrafted) (read fun s => findPostById s.posts postId) := by
    refine .query_of_commutes Store.withoutDrafts_twice (fun found => ?_) fun s => ?_
    · rw [Option.map_map]
      exact congrArg (fun f => found.map f) (funext undrafted_twice)
    · exact congrArg (fun found => Except.ok (s.withoutDrafts, found))
        (findPostById_map_undrafted s.posts postId)
  refine hread.bind (fun post => ?same) fun post => ?rest
  case same =>
    have hchecked : checkPost (post.map undrafted) = checkPost post := by
      cases post with
      | none => rfl
      | some post => simp only [Option.map_some, checkPost, undrafted_allowComments]
    rw [hchecked]
  case rest =>
    refine (admitted_hides (checkPost post)).bindId fun _ => query_hides fun s => ?_
    have hinsert (row : Comment) : insertComment s.users (s.posts.map undrafted) s.comments row =
        insertComment s.users s.posts s.comments row := by
      simp only [insertComment, findPostById_map_undrafted, Option.isNone_map]
    simp only [Store.withoutDrafts, hinsert]
    cases insertComment s.users s.posts s.comments
        (newComment createCommentDto postId authorId commentId s.clock) with
    | error error => rfl
    | ok comments => rfl

theorem removeComment_hides (commentId requestingUserId : String) (role : UserRole) :
    Hides id (CommentsService.remove commentId requestingUserId role) := by
  refine Program.Oblivious.bindId (read_hides fun _ => rfl) fun found => ?_
  cases found with
  | none => exact .throw _
  | some comment =>
    refine (admitted_hides (checkRemoval comment requestingUserId role)).bindId fun _ => ?_
    refine Program.Oblivious.bindId (write_hides fun _ => ?_) fun _ => .pure comment
    rfl

end Comments

section Pages

/-- The list of the posts selects published ones. -/
theorem findAllPublished_hides : Hides id PostsService.findAllPublished := by
  refine read_hides fun s => ?_
  have hpublished : (s.posts.map undrafted).filter Post.isPublished =
      s.posts.filter Post.isPublished := filter_map_undrafted s.posts fun _ h => h
  simp only [Store.withoutDrafts, Posts.findAllPublished, hpublished]
  rfl

/-- So does the lookup by a slug. -/
theorem findPublishedBySlug_hides (slug : String) (locale : Option String) (pick : Nat) :
    Hides id (PostsService.findPublishedBySlug slug locale pick) := by
  refine Program.Oblivious.bindId (read_hides fun s => ?read) fun found => ?_
  case read =>
    have hpublished : (s.posts.map undrafted).filter (isPublishedUnder slug locale) =
        s.posts.filter (isPublishedUnder slug locale) :=
      filter_map_undrafted s.posts fun _ h => (Bool.and_eq_true_iff.mp h).2
    simp only [Store.withoutDrafts, pickedRow, hpublished]
    rfl
  cases found with
  | none => exact .throw _
  | some post => exact .pure post

/-- The dashboard shows drafts to admins. -/
theorem findAllForDashboard_hides : Hides (fun _ => ()) PostsService.findAllForDashboard :=
  .query fun s => congrArg (fun t => Except.ok (t, ())) s.withoutDrafts_twice

end Pages

section Auth

variable {τ : Type}

theorem generateAccessToken_hides (jwt : JwtSigner τ) (payload : JwtPayload) :
    Hides id (AuthService.generateAccessToken jwt payload) := by
  refine now_hides.bindId fun issuedAt => ?_
  exact (handOver_hides _).bindId fun _ => .pure _

theorem register_hides (argon2 : PasswordHash) (registerDto : RegisterDto) (userId : String) :
    Hides id (AuthService.register argon2 registerDto userId) := by
  refine Program.Oblivious.bindId (read_hides fun _ => rfl) fun existingUser => ?_
  cases existingUser with
  | none => exact (insertIntoUsers_hides _).bindId fun createdUser => .pure _
  | some user => exact .throw _

theorem login_hides (argon2 : PasswordHash) (jwt : JwtSigner τ) (loginDto : LoginDto) :
    Hides id (AuthService.login argon2 jwt loginDto) := by
  refine Program.Oblivious.bindId (read_hides fun _ => rfl) fun found => ?_
  cases found with
  | none => exact .throw _
  | some user =>
    dsimp only
    split
    · exact generateAccessToken_hides jwt (toJwtPayload user)
    · exact .throw _

theorem pruneExpired_hides : Hides id AuthService.pruneExpired :=
  now_hides.bindId fun _ => write_hides fun _ => rfl

theorem createOAuthExchangeCode_hides (sha256 : String → String) (userId code : String) :
    Hides id (AuthService.createOAuthExchangeCode sha256 userId code) := by
  refine now_hides.bindId fun createdAt => ?_
  refine (insertIntoOauthExchangeCodes_hides _).bindId fun _ => ?_
  exact (pruneExpired_hides.tryCatch fun _ => .pure ()).bindId fun _ => .pure code

theorem exchangeOAuthCode_hides (jwt : JwtSigner τ) (sha256 : String → String) (code : String) :
    Hides id (AuthService.exchangeOAuthCode jwt sha256 code) := by
  refine Program.Oblivious.bindId (query_hides fun _ => rfl) fun found => ?_
  cases found with
  | none => exact .throw _
  | some entry =>
    refine now_hides.bindId fun checkedAt => ?_
    dsimp only
    split
    · exact .throw _
    · refine (findUser_hides entry.userId).bindId fun user => ?_
      cases user with
      | none => exact .throw _
      | some user => exact generateAccessToken_hides jwt (toJwtPayload user)

theorem canActivate_hides (jwt : JwtSigner τ) (accessToken : Option τ) :
    Hides id (AuthService.canActivate jwt accessToken) := by
  refine now_hides.bindId fun checkedAt => ?_
  refine (admitted_hides _).bindId fun payload => ?_
  exact (findUser_hides payload.sub).bindId fun user => admitted_hides _

theorem requestCode_hides (sha256 : String → String) (email : String) (drawn : Fin 1000000)
    (rowId : String) : Hides id (OtpService.requestCode sha256 email drawn rowId) := by
  refine Program.Oblivious.bindId (read_hides fun _ => rfl) fun existing => ?_
  refine now_hides.bindId fun checkedAt => ?_
  dsimp only
  split
  · exact .throw _
  · refine (deleteFromEmailOtps_hides _).bindId fun _ => ?_
    refine now_hides.bindId fun createdAt => ?_
    refine (insertIntoEmailOtps_hides _).bindId fun _ => ?_
    refine (handOver_hides _).tryCatch fun error => ?_
    exact (deleteFromEmailOtps_hides _).bindId fun _ => .throw error

theorem signIn_hides (jwt : JwtSigner τ) (adminEmail : Option String)
    (email userId passwordHash : String) :
    Hides id (OtpService.signIn jwt adminEmail email userId passwordHash) := by
  refine Program.Oblivious.bindId (Program.Oblivious.bindId (read_hides fun _ => rfl)
    fun found => ?_) fun user => ?_
  · cases found with
    | some user => exact .pure user
    | none => exact insertIntoUsers_hides _
  · dsimp only
    split
    · exact .throw _
    · exact generateAccessToken_hides jwt (otpClaims user)

theorem verifyCode_hides (config : ApiConfig τ) (email code userId passwordHash : String) :
    Hides id (OtpService.verifyCode config email code userId passwordHash) := by
  refine Program.Oblivious.bindId (read_hides fun _ => rfl) fun found => ?_
  cases found with
  | none => exact .throw _
  | some entry =>
    refine now_hides.bindId fun checkedAt => ?_
    have hconsume : Hides id (do
        OtpService.deleteEntry entry.id
        OtpService.signIn config.jwt config.adminEmail email userId passwordHash) :=
      (deleteFromEmailOtps_hides _).bindId fun _ => signIn_hides ..
    cases judge config.sha256 entry email code checkedAt with
    | drop dropped failure => exact (deleteFromEmailOtps_hides _).bindId fun _ => .throw _
    | count counted => exact (updateEmailOtps_hides ..).bindId fun _ => .throw _
    | find | check | consume | findUser | insertUser | done => exact hconsume

/-- The strategies look at users. -/
theorem validate_hides (config : StrategyConfig) (profile : Profile) (linkCookie : Option String)
    (userId passwordHash : String) (pick : Nat) :
    Hides id (OAuthStrategy.validate config profile linkCookie userId passwordHash pick) := by
  refine (admitted_hides _).bindId fun identity => ?_
  cases getVerifiedLinkUserId config.signer linkCookie with
  | some linkUserId =>
    refine Program.Oblivious.tryCatch ?link fun _ => .throw _
    refine Program.Oblivious.bindId (read_hides fun _ => rfl) fun conflicting => ?_
    dsimp only
    split
    · exact .throw _
    · refine (findUser_hides linkUserId).bindId fun current => ?_
      cases current with
      | none => exact .throw _
      | some current =>
        refine (updateUsers_hides linkUserId (linked identity current)).bindId fun updated => ?_
        cases updated with
        | none => exact .throw _
        | some updated => exact .pure _
  | none =>
    have hfound : Hides id (OAuthStrategy.findOrRegister config.adminEmail identity userId
        passwordHash pick) := by
      refine Program.Oblivious.bindId (read_hides fun _ => rfl) fun existing => ?_
      cases existing with
      | some existing => exact updateUsers_hides existing.id _
      | none =>
        refine Program.Oblivious.tryCatch ?_ fun _ => .throw _
        exact (insertIntoUsers_hides _).map fun _ => rfl
    refine (hfound.tryCatch fun _ => .throw _).bindId fun user => ?_
    cases user with
    | none => exact .throw _
    | some user => exact .pure _

end Auth

/-- A call writes posts. -/
def Call.writesPosts {τ : Type} : Call τ → Bool
  | .createPost .. | .updatePost .. | .removePost .. => true
  | _ => false

/-- A call shows drafts to an admin. -/
def Call.showsDrafts {τ : Type} : Call τ → Bool
  | .dashboardPosts | .commentsOfAuthor .. => true
  | _ => false

/-- So does a call of the site. -/
def SiteCall.writesPosts {τ : Type} : SiteCall τ → Bool
  | .service call => call.writesPosts
  | _ => false

/-- So does one here. -/
def SiteCall.showsDrafts {τ : Type} : SiteCall τ → Bool
  | .service call => call.showsDrafts
  | _ => false

/-- The routes of the first kind. -/
def Route.writesPosts : Route → Bool
  | .createPost .. | .updatePost .. | .removePost .. => true
  | _ => false

/-- The routes of the second kind. -/
def Route.showsDrafts : Route → Bool
  | .dashboardPosts | .commentsOfAuthor .. => true
  | _ => false

/-- All of a result, unless it shows drafts. -/
def unlessDrafts {α : Type} (showsDrafts : Bool) (a : α) : Option α :=
  if showsDrafts then none else some a

section Views

variable {σ ε α β : Type} {erase : σ → σ} {showsDrafts : Bool}

/-- What is seen of a result determines what is seen of what is made of it. -/
theorem unlessDrafts_congr {a b : α} (h : unlessDrafts showsDrafts a = unlessDrafts showsDrafts b)
    (f : α → β) : unlessDrafts showsDrafts (f a) = unlessDrafts showsDrafts (f b) := by
  have hmap (a : α) : unlessDrafts showsDrafts (f a) = (unlessDrafts showsDrafts a).map f := by
    cases showsDrafts with
    | true => rfl
    | false => rfl
  rw [hmap, hmap, h]

/-- Where results are seen, answers that look alike are equal. -/
theorem answers_eq_of_unlessDrafts {x y : Option (Except ε α)}
    (h : x.map (Except.map (unlessDrafts false)) = y.map (Except.map (unlessDrafts false))) :
    x = y := by
  have hseen : Function.Injective (Except.map (ε := ε) (unlessDrafts (α := α) false)) := by
    rintro (error | a) (error' | b) hsame
    · exact congrArg Except.error (Except.error.inj hsame)
    · cases hsame
    · cases hsame
    · exact congrArg Except.ok (Option.some.inj (Except.ok.inj hsame))
  exact Option.map_injective hseen h

/-- A result that is the same may be seen or not. -/
theorem hides_of_id {p : Program σ ε α} (h : p.Oblivious erase id) (showsDrafts : Bool)
    (f : α → β) : Program.Oblivious erase (unlessDrafts showsDrafts) (f <$> p) :=
  h.map fun _ => rfl

/-- Of a result that may differ nothing is seen. -/
theorem hides_of_unit {p : Program σ ε α} (h : p.Oblivious erase fun _ => ()) (f : α → β) :
    Program.Oblivious erase (unlessDrafts true) (f <$> p) :=
  Program.Agree.bind h fun _ _ _ => .pure rfl

end Views

section Calls

variable {τ : Type}

/-- A call that writes no posts hides drafts, unless it shows them. -/
theorem operation_hides (config : ApiConfig τ) (call : Call τ)
    (hwrites : call.writesPosts = false) : Hides (unlessDrafts call.showsDrafts) (operation config call) := by
  cases call with
  | findAllUsers => exact hides_of_id (read_hides fun _ => rfl) _ _
  | findUser => exact hides_of_id (findOne_hides ..) _ _
  | setBanned => exact hides_of_id (setBanned_hides ..) _ _
  | removeUser => exact hides_of_id (removeUser_hides ..) _ _
  | removeSelf => exact hides_of_id (removeSelf_hides ..) _ _
  | updateSelf => exact hides_of_id (updateSelf_hides ..) _ _
  | commentsOfPost => exact hides_of_id (read_hides fun _ => rfl) _ _
  | commentsOfAuthor => exact hides_of_unit (findAllForAuthor_hides ..) _
  | createComment => exact hides_of_id (createComment_hides ..) _ _
  | removeComment => exact hides_of_id (removeComment_hides ..) _ _
  | createPost => cases hwrites
  | publishedPosts => exact hides_of_id findAllPublished_hides _ _
  | dashboardPosts => exact hides_of_unit findAllForDashboard_hides _
  | postBySlug => exact hides_of_id (findPublishedBySlug_hides ..) _ _
  | updatePost => cases hwrites
  | removePost => cases hwrites
  | register => exact hides_of_id (register_hides ..) _ _
  | generateAccessToken => exact hides_of_id (generateAccessToken_hides ..) _ _
  | createOAuthExchangeCode => exact hides_of_id (createOAuthExchangeCode_hides ..) _ _
  | exchangeOAuthCode => exact hides_of_id (exchangeOAuthCode_hides ..) _ _
  | profile =>
    exact hides_of_id ((canActivate_hides ..).bindId fun request => admitted_hides _) _ _
  | requestCode => exact hides_of_id (requestCode_hides ..) _ _
  | verifyCode => exact hides_of_id (verifyCode_hides ..) _ _
  | validate => exact hides_of_id (validate_hides ..) _ _

end Calls

section Topics

variable (normalizeNfd toLowerCase : String → String)

theorem createTopic_hides (createTopicDto : CreateTopicDto) (topicId : String) :
    Hides id (TopicsService.create normalizeNfd toLowerCase createTopicDto topicId) := by
  refine query_hides fun s => ?_
  simp only [Store.withoutDrafts]
  cases insertTopic s.topics (newTopic normalizeNfd toLowerCase createTopicDto topicId s.clock) with
  | error error => rfl
  | ok topics => rfl

theorem updateTopic_hides (topicId : String) (updateTopicDto : CreateTopicDto) :
    Hides id (TopicsService.update normalizeNfd toLowerCase topicId updateTopicDto) := by
  refine Program.Oblivious.bindId (query_hides fun s => ?_) fun updated => ?_
  · simp only [Store.withoutDrafts]
    cases updateTopic s.topics topicId (renamed normalizeNfd toLowerCase updateTopicDto) with
    | error error => rfl
    | ok updated => rfl
  · cases updated with
    | none => exact .throw _
    | some topic => exact .pure topic

theorem removeTopic_hides (topicId : String) : Hides id (TopicsService.remove topicId) := by
  refine Program.Oblivious.bindId (query_hides fun s => ?_) fun deleted => ?_
  · simp only [Store.withoutDrafts]
    cases findTopicById s.topics topicId with
    | none => rfl
    | some topic => rfl
  · cases deleted with
    | none => exact .throw _
    | some topic => exact .pure topic

end Topics

section Routes

theorem authenticate_hides (config : OAuthRoutesConfig) (visit : CallbackVisit) :
    Hides id (authenticate config visit) := by
  rw [authenticate]
  split
  · exact .throw _
  · split
    · exact .throw _
    · split
      · split
        · exact .throw _
        · exact (validate_hides ..).map fun _ => rfl
      · exact .pure _

theorem startLogin_hides (config : OAuthRoutesConfig) (visit : CallbackVisit) :
    Hides id (startLogin config visit) := by
  refine (admitted_hides _).bindId fun options => ?_
  exact (authenticate_hides config visit).bindId fun user => .pure _

theorem callback_hides (config : OAuthRoutesConfig) (visit : CallbackVisit) :
    Hides id (callback config visit) := by
  have hhandled : Hides id (handled config visit) := by
    refine (admitted_hides _).bindId fun options => ?_
    refine (authenticate_hides config visit).bindId fun user => ?_
    cases user with
    | none => exact .pure _
    | some user =>
      simp only [authCallback]
      split
      · exact .pure _
      · exact (createOAuthExchangeCode_hides ..).bindId fun _ => .pure _
  exact (hhandled.tryCatch fun _ => .pure _).bindId fun _ => .pure _

theorem optionalJwtAuthGuard_hides {τ : Type} (jwt : JwtSigner τ) (accessToken : Option τ) :
    Hides id (OptionalJwtAuthGuard.canActivate jwt accessToken) := by
  cases accessToken with
  | none => exact .pure none
  | some token =>
    refine now_hides.bindId fun checkedAt => ?_
    cases verifyAsync jwt token checkedAt with
    | none => exact .pure none
    | some payload =>
      refine (findUser_hides payload.sub).bindId fun user => ?_
      split
      · exact .pure none
      · exact .pure (some payload)

end Routes

/-- A program of the site does the same and ends alike, up to a view of its result, on sites that
differ only in drafts. -/
abbrev SiteHides {α γ : Type} (view : α → γ) (p : SiteOperation α) : Prop :=
  p.Oblivious withoutDrafts view

section Sites

variable {τ : Type} {α β γ : Type} {view : α → γ}

/-- An operation on the tables of the services. -/
theorem onStore_hides {p : Operation α} (h : Hides view p) : SiteHides view (onStore p) :=
  h.zoom (fun _ => rfl) fun _ _ => rfl

/-- A statement on the other tables. -/
theorem siteQuery_hides {run : Site → Except Failure (Site × α)}
    (h : ∀ d : Site, run (withoutDrafts d) = Program.seen withoutDrafts id (run d)) :
    SiteHides id (.query run) := by
  refine .query_of_commutes (fun d => ?_) (fun _ => rfl) h
  exact congrArg (fun store => { d with store := store }) d.store.withoutDrafts_twice

theorem siteRead_hides {f : Site → α} (h : ∀ d : Site, f (withoutDrafts d) = f d) :
    SiteHides id (siteRead f) := siteQuery_hides fun d => congrArg (fun a => Except.ok (_, a)) (h d)

theorem siteNow_hides : SiteHides id siteNow := .look fun _ => rfl

theorem checked_hides (x : Except Failure α) : SiteHides id (checked x) := by
  cases x with
  | ok a => exact .pure a
  | error failure => exact .throw _

theorem prepared_hides (x : Except ThrownError α) : SiteHides id (prepared x) := by
  cases x with
  | ok upload => exact .pure upload
  | error error => exact .throw _

/-- A row that is not found is refused. -/
theorem found_hides {p : SiteOperation (Option α)} (h : SiteHides id p)
    {rest : Option α → SiteOperation β} {view : β → γ} (hnone : SiteHides view (rest none))
    (hsome : ∀ a, SiteHides view (rest (some a))) : SiteHides view (p >>= rest) := by
  refine h.bindId fun found => ?_
  cases found with
  | none => exact hnone
  | some a => exact hsome a

theorem findAboutContent_hides (pick : Nat) : SiteHides id (AboutService.findAboutContent pick) :=
  siteRead_hides fun _ => rfl

theorem insertIntoAboutContent_hides (row : Nat → AboutContent) :
    SiteHides id (AboutService.insertIntoAboutContent row) := by
  refine siteQuery_hides fun d => ?_
  simp only [withoutDrafts, Store.withoutDrafts]
  cases insertRow AboutService.aboutColumns d.others.aboutContent (row d.store.clock) with
  | error constraintName => rfl
  | ok rows => rfl

/-- A call of the site hides drafts as well. -/
theorem siteOperation_hides (config : SiteConfig τ) (call : SiteCall τ)
    (hwrites : call.writesPosts = false) :
    SiteHides (unlessDrafts call.showsDrafts) (siteOperation config call) := by
  have hstore {α : Type} {p : Operation α} (h : Hides id p) (f : α → SiteAnswer τ) :
      SiteHides (unlessDrafts false) (f <$> onStore p) := hides_of_id (onStore_hides h) false f
  cases call with
  | hello => exact .pure _
  | health => exact hides_of_id siteNow_hides false _
  | service call =>
    refine Program.Agree.bind (onStore_hides (operation_hides config.api call hwrites)) ?_
    intro answer other hseen
    exact .pure (unlessDrafts_congr hseen SiteAnswer.service)
  | login loginDto => exact hstore (login_hides ..) _
  | startLogin visit => exact hstore (startLogin_hides ..) _
  | startLink => exact .pure _
  | callback visit => exact hstore (callback_hides ..) _
  | ownProfile currentUser => exact hstore (admitted_hides _) _
  | topics => exact hstore (read_hides fun _ => rfl) _
  | createTopic createTopicDto topicId => exact hstore (createTopic_hides ..) _
  | updateTopic id updateTopicDto => exact hstore (updateTopic_hides ..) _
  | removeTopic id => exact hstore (removeTopic_hides id) _
  | projects => exact hides_of_id (siteRead_hides fun _ => rfl) false _
  | projectById id =>
    have hfound : Program.Oblivious withoutDrafts (fun project => project)
        (ProjectsService.findById id) :=
      found_hides (siteRead_hides fun _ => rfl) (.throw _) fun project => .pure project
    exact hides_of_id hfound false _
  | createProject createProjectDto projectId =>
    refine hides_of_id (siteQuery_hides fun d => ?_) false _
    simp only [withoutDrafts, Store.withoutDrafts]
    cases insertProject d.others.projects
        (newProject createProjectDto projectId d.store.clock) with
    | error error => rfl
    | ok projects => rfl
  | updateProject id updateProjectDto =>
    refine hides_of_id (siteNow_hides.bindId fun updatedAt => ?_) false _
    refine found_hides (siteQuery_hides fun d => ?_) (.throw _) fun project => .pure project
    simp only [withoutDrafts, Store.withoutDrafts]
    cases findProjectById d.others.projects id with
    | none => rfl
    | some row => rfl
  | removeProject id =>
    refine hides_of_id (found_hides (siteQuery_hides fun d => rfl) (.throw _) fun project =>
      .pure project) false _
  | about rowId pick =>
    refine hides_of_id (found_hides (findAboutContent_hides pick) ?_ fun row => ?_) false _
    · exact (insertIntoAboutContent_hides _).map fun _ => rfl
    · exact .pure _
  | updateAbout updateAboutDto rowId pick =>
    refine hides_of_id (found_hides (findAboutContent_hides pick) ?_ fun row => ?_) false _
    · exact (insertIntoAboutContent_hides _).map fun _ => rfl
    · exact siteNow_hides.bindId fun updatedAt => siteQuery_hides fun _ => rfl
  | presignedUrl dto date randomUUID => exact hides_of_id (prepared_hides _) false _
  | avatarPresignedUrl userId dto randomUUID => exact hides_of_id (prepared_hides _) false _

/-- The guards look at tokens and users. -/
theorem guard_hides (config : SiteConfig τ) (accessToken : Option τ) (access : Access) :
    SiteHides id (access.guard config accessToken) := by
  have hsession : SiteHides id (onStore (AuthService.canActivate config.jwt accessToken)) :=
    onStore_hides (canActivate_hides ..)
  cases access with
  | anyone => exact .pure _
  | identified =>
    exact (onStore_hides (optionalJwtAuthGuard_hides ..)).bindId fun user => .pure _
  | session => exact hsession.bindId fun request => .pure _
  | admin =>
    refine hsession.bindId fun request => ?_
    exact (onStore_hides (admitted_hides _)).bindId fun _ => .pure _

/-- A call writes posts, or shows drafts, as its route does. -/
theorem Handles.ofDrafts {config : SiteConfig τ} {guarded : Guarded} {route : Route}
    {call : SiteCall τ} (h : Handles config guarded route call) :
    call.writesPosts = route.writesPosts ∧ call.showsDrafts = route.showsDrafts := by
  cases h <;> exact ⟨rfl, rfl⟩

/-- A request that writes no posts hides drafts, unless it shows them. -/
theorem handle_hides (config : SiteConfig τ) (request : Request τ)
    (hwrites : request.route.writesPosts = false) :
    SiteHides (unlessDrafts request.route.showsDrafts) (handle config request) := by
  refine (checked_hides _).bindId fun _ => (guard_hides ..).bindId fun guarded => ?_
  cases hhandler : request.route.handler config guarded with
  | error failure => exact .throw failure
  | ok call =>
    obtain ⟨hsame, hshows⟩ := (handler_eq_ok hhandler).ofDrafts
    rw [← hshows]
    exact siteOperation_hides config call (hsame.trans hwrites)

end Sites

section Runs

variable {τ : Type} {config : SiteConfig τ} {d e : Site}
  {labels : List (CallLabel (Request τ) Failure Nat)}
  {after : CallState Site Failure (SiteAnswer τ)}

/-- As long as nobody writes posts, two sites that differ only in drafts take the same steps and
give the same answers, except on the two routes that show drafts to admins. -/
theorem drafts_are_secret (hsame : withoutDrafts d = withoutDrafts e)
    (hwrites : ∀ id request, .start id request ∈ labels → request.route.writesPosts = false)
    (hrun : (site config).exec (.initial d) labels = some after) :
    ∃ other, (site config).exec (.initial e) labels = some other ∧
      withoutDrafts after.state = withoutDrafts other.state ∧
      ∀ id request, .start id request ∈ labels → request.route.showsDrafts = false →
        after.answers id = other.answers id := by
  have hhides (id : Nat) (request : Request τ) (hmem : .start id request ∈ labels) :
      SiteHides (unlessDrafts request.route.showsDrafts) (handle config request) :=
    handle_hides config request (hwrites id request hmem)
  have hpassing (ms : Nat) (d : Site) :
      withoutDrafts (passing ms d) = passing ms (withoutDrafts d) := rfl
  obtain ⟨other, hother, hstates, hviews⟩ := views_eq_of_oblivious hhides hpassing hsame hrun
  refine ⟨other, hother, hstates, fun id request hmem hshows => ?_⟩
  have hanswers := hviews id request hmem
  rw [hshows] at hanswers
  exact answers_eq_of_unlessDrafts hanswers

end Runs

/-- The small site with a draft of the admin, under its title. -/
def draftSite (title : String) : Site :=
  { ownersSite with store := { ownersSite.store with
      posts := [newPost ⟨bareFields, title, title, "c"⟩ "owner" "post" none 0] } }

/-- The member looks for the draft in the list and under a slug, and comments on it; the admin
looks at the dashboard. -/
def looksForDraft : List (CallLabel (Request (Option (JwtPayload × Nat))) Failure Nat) :=
  .start 0 (Route.publishedPosts.askedBy member) ::
    .start 1 (Route.askedBy (.postBySlug "first" none 0) member) ::
    .start 2 (Route.askedBy (.createComment "post" ⟨"Hello"⟩ "comment") member) ::
    .start 3 (Route.dashboardPosts.askedBy owner) ::
    [.step 0, .step 1, .step 2, .step 3, .step 2, .step 3, .step 2, .step 3, .step 2]

/-- The site with a first draft after that. -/
def lookedForDraft : CallState Site Failure (SiteAnswer (Option (JwtPayload × Nat))) :=
  (site bytesSite).run (.initial (draftSite "first")) looksForDraft (by decide +kernel)

/-- With a second draft it is the same for the member. -/
theorem drafts_are_secret_lookedForDraft : draftSite "first" ≠ draftSite "second" ∧
    ∃ other, (site bytesSite).exec (.initial (draftSite "second")) looksForDraft = some other ∧
      withoutDrafts lookedForDraft.state = withoutDrafts other.state ∧
      ∀ id request, .start id request ∈ looksForDraft → request.route.showsDrafts = false →
        lookedForDraft.answers id = other.answers id := by
  have hsame : withoutDrafts (draftSite "first") = withoutDrafts (draftSite "second") := by
    decide +kernel
  refine ⟨by decide +kernel, drafts_are_secret hsame (fun id request hmem => ?_)
    ((site bytesSite).exec_run ..)⟩
  simp only [looksForDraft, List.mem_cons, CallLabel.start.injEq, reduceCtorEq,
    List.not_mem_nil, or_false] at hmem
  rcases hmem with ⟨-, rfl⟩ | ⟨-, rfl⟩ | ⟨-, rfl⟩ | ⟨-, rfl⟩ <;> rfl

end VertexApi.App
