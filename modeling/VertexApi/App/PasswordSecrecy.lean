import VertexApi.App.Services
import VertexApi.Auth.ProviderIdentity

/-!
# Password hashes stay in the database

Two stores look alike when they are equal once the password hashes are erased. Every lookup
of a user returns rows that look alike, every write keeps the stores so, and every answer,
token and mail is made of other columns, so that no interleaving of the operations shows
which of the two stores it started from. A sign-in by password is no such operation.
-/

namespace VertexApi.App

open Auth Comments Posts Users

/-- A row without its password hash. -/
def withoutPasswordHash (user : User) : User := { user with passwordHash := "" }

@[simp] theorem withoutPasswordHash_id (user : User) : (withoutPasswordHash user).id = user.id :=
  rfl

/-- A store without the password hashes. -/
def Store.withoutPasswordHashes (s : Store) : Store :=
  { s with users := s.users.map withoutPasswordHash }

/-- An operation does the same and ends alike, up to a view of its result, in stores that differ
only in password hashes. -/
abbrev Blind {α γ : Type} (view : α → γ) (p : Operation α) : Prop :=
  p.Oblivious Store.withoutPasswordHashes view

section Tables

variable (users : List User) {p : User → Bool}

/-- Erased rows stay as they are. -/
@[simp] theorem map_withoutPasswordHash_twice :
    (users.map withoutPasswordHash).map withoutPasswordHash = users.map withoutPasswordHash := by
  rw [List.map_map]
  rfl

/-- A lookup by other columns finds the erased row. -/
theorem find?_map_withoutPasswordHash (hp : ∀ user, p (withoutPasswordHash user) = p user) :
    (users.map withoutPasswordHash).find? p = (users.find? p).map withoutPasswordHash := by
  rw [List.find?_map, show p ∘ withoutPasswordHash = p from funext hp]

/-- A selection by other columns selects the erased rows. -/
theorem filter_map_withoutPasswordHash (hp : ∀ user, p (withoutPasswordHash user) = p user) :
    (users.map withoutPasswordHash).filter p = (users.filter p).map withoutPasswordHash := by
  rw [List.filter_map, show p ∘ withoutPasswordHash = p from funext hp]

@[simp] theorem findUserById_map_withoutPasswordHash (id : String) :
    findUserById (users.map withoutPasswordHash) id =
      (findUserById users id).map withoutPasswordHash :=
  findUserById_map withoutPasswordHash_id users id

@[simp] theorem findUserByEmail_map_withoutPasswordHash (email : String) :
    findUserByEmail (users.map withoutPasswordHash) email =
      (findUserByEmail users email).map withoutPasswordHash :=
  find?_map_withoutPasswordHash users fun _ => rfl

/-- The constraints look at other columns of the rows that are there. -/
@[simp] theorem violatedColumn_map_withoutPasswordHash (row : User) :
    violatedColumn userColumns (users.map withoutPasswordHash) row =
      violatedColumn userColumns users row := by
  simp only [violatedColumn, userColumns, List.find?, List.any_map]
  rfl

/-- They look at other columns of the row that comes in. -/
@[simp] theorem violatedColumn_withoutPasswordHash (row : User) :
    violatedColumn userColumns users (withoutPasswordHash row) =
      violatedColumn userColumns users row := rfl

/-- An update of other columns updates the erased rows. -/
theorem updateWhere_map_withoutPasswordHash {f : User → User}
    (hf : ∀ user, f (withoutPasswordHash user) = withoutPasswordHash (f user)) (id : String) :
    updateWhere User.id id f (users.map withoutPasswordHash) =
      (updateWhere User.id id f users).map withoutPasswordHash := by
  simp only [updateWhere, List.map_map]
  refine List.map_congr_left fun row _ => ?_
  change (if row.id = id then f (withoutPasswordHash row) else withoutPasswordHash row) =
    withoutPasswordHash (if row.id = id then f row else row)
  split
  · exact hf row
  · rfl

end Tables

/-- Erasing a store twice is erasing it once. -/
@[simp] theorem Store.withoutPasswordHashes_twice (s : Store) :
    s.withoutPasswordHashes.withoutPasswordHashes = s.withoutPasswordHashes := by
  simp only [withoutPasswordHashes, map_withoutPasswordHash_twice]

section Statements

variable {α : Type}

/-- A statement that commutes with the erasure, and returns no user row. -/
theorem query_blind {run : Store → Except Failure (Store × α)}
    (h : ∀ s : Store, run s.withoutPasswordHashes =
      Program.seen Store.withoutPasswordHashes id (run s)) : Blind id (.query run) :=
  .query_of_commutes Store.withoutPasswordHashes_twice (fun _ => rfl) h

/-- A statement that commutes with the erasure, and may return a user row. -/
theorem queryRow_blind {run : Store → Except Failure (Store × Option User)}
    (h : ∀ s : Store, run s.withoutPasswordHashes =
      Program.seen Store.withoutPasswordHashes (Option.map withoutPasswordHash) (run s)) :
    Blind (Option.map withoutPasswordHash) (.query run) :=
  .query_of_commutes Store.withoutPasswordHashes_twice
    (fun found => by cases found <;> rfl) h

/-- A read of what the erasure keeps. -/
theorem read_blind {f : Store → α} (h : ∀ s : Store, f s.withoutPasswordHashes = f s) :
    Blind id (read f) := query_blind fun s => congrArg (fun a => Except.ok (_, a)) (h s)

/-- A read of a user row. -/
theorem readRow_blind {f : Store → Option User}
    (h : ∀ s : Store, f s.withoutPasswordHashes = (f s).map withoutPasswordHash) :
    Blind (Option.map withoutPasswordHash) (read f) :=
  queryRow_blind fun s => congrArg (fun a => Except.ok (_, a)) (h s)

/-- A write that commutes with the erasure. -/
theorem write_blind {f : Store → Store}
    (h : ∀ s : Store, f s.withoutPasswordHashes = (f s).withoutPasswordHashes) :
    Blind id (write f) := query_blind fun s => congrArg (fun t => Except.ok (t, ())) (h s)

/-- What follows a lookup may use the row that it returns up to its password hash. -/
theorem bindRow {β γ : Type} {p : Operation (Option User)}
    (h : Blind (Option.map withoutPasswordHash) p) {f : Option User → Operation β} {view : β → γ}
    (hsame : ∀ user, f (some (withoutPasswordHash user)) = f (some user))
    (hnone : Blind view (f none)) (hsome : ∀ user, Blind view (f (some user))) :
    Blind view (p >>= f) := by
  refine h.bind (fun found => ?same) fun found => ?rest
  case same =>
    cases found with
    | none => rfl
    | some user => exact hsame user
  case rest =>
    cases found with
    | none => exact hnone
    | some user => exact hsome user

theorem now_blind : Blind id now := .look fun _ => rfl

theorem admitted_blind (outcome : Except HttpException α) : Blind id (admitted outcome) := by
  cases outcome with
  | ok a => exact .pure a
  | error exception => exact .throw _

theorem findUser_blind (id : String) : Blind (Option.map withoutPasswordHash) (findUser id) :=
  readRow_blind fun s => findUserById_map_withoutPasswordHash s.users id

/-- The row that comes in keeps its hash in both stores. -/
theorem insertIntoUsers_blind (row : Nat → User) :
    Blind withoutPasswordHash (insertIntoUsers row) := by
  refine .query fun s => ?_
  simp only [Store.withoutPasswordHashes, insertUser, insertRow,
    violatedColumn_map_withoutPasswordHash]
  cases violatedColumn userColumns s.users (row s.clock) with
  | some constraintName => rfl
  | none =>
    simp only [Except.mapError, Program.seen, Store.withoutPasswordHashes, List.map_append,
      map_withoutPasswordHash_twice]

/-- An update of other columns. -/
theorem updateUsers_blind (id : String) {f : User → User}
    (hf : ∀ user, f (withoutPasswordHash user) = withoutPasswordHash (f user)) :
    Blind (Option.map withoutPasswordHash) (updateUsers id f) := by
  refine queryRow_blind fun s => ?_
  have hothers := filter_map_withoutPasswordHash s.users
    (p := fun other => other.id != id) fun _ => rfl
  have hfind := find?_map_withoutPasswordHash s.users
    (p := fun row => row.id == id) fun _ => rfl
  simp only [Store.withoutPasswordHashes, updateUser, updateRow, hfind, hothers]
  cases s.users.find? fun row => row.id == id with
  | none => rfl
  | some user =>
    simp only [Option.map_some, violatedColumn_map_withoutPasswordHash, hf user,
      violatedColumn_withoutPasswordHash, updateWhere_map_withoutPasswordHash _ hf]
    cases violatedColumn userColumns (s.users.filter fun other => other.id != id) (f user) with
    | some constraintName => rfl
    | none => rfl

/-- An insert of a code looks for the user by the id. -/
theorem insertIntoOauthExchangeCodes_blind (row : OauthExchangeCode) :
    Blind id (insertIntoOauthExchangeCodes row) := by
  refine query_blind fun s => ?_
  simp only [Store.withoutPasswordHashes, findUserById_map_withoutPasswordHash,
    Option.isNone_map]
  cases insertRow oauthExchangeCodeColumns s.oauthExchangeCodes row with
  | error constraintName => rfl
  | ok codes =>
    cases (findUserById s.users row.userId).isNone with
    | true => rfl
    | false => rfl

theorem takeOauthExchangeCode_blind (codeHash : String) :
    Blind id (takeOauthExchangeCode codeHash) := query_blind fun _ => rfl

theorem insertIntoEmailOtps_blind (row : Nat → EmailOtp) : Blind id (insertIntoEmailOtps row) := by
  refine query_blind fun s => ?_
  simp only [Store.withoutPasswordHashes]
  cases insertRow emailOtpColumns s.emailOtps (row s.clock) with
  | error constraintName => rfl
  | ok emailOtps => rfl

theorem deleteFromEmailOtps_blind (p : EmailOtp → Bool) : Blind id (deleteFromEmailOtps p) :=
  write_blind fun _ => rfl

theorem updateEmailOtps_blind (otpId : String) (f : EmailOtp → EmailOtp) :
    Blind id (updateEmailOtps otpId f) := write_blind fun _ => rfl

theorem deleteFromOauthExchangeCodes_blind (p : OauthExchangeCode → Bool) :
    Blind id (deleteFromOauthExchangeCodes p) := write_blind fun _ => rfl

theorem handOver_blind (outbound : Outbound) : Blind id (handOver outbound) :=
  write_blind fun _ => rfl

/-- A delete of objects whose failure is logged. -/
theorem handOver_or_blind (outbound : Outbound) :
    Blind id (try handOver outbound catch _ => pure ()) :=
  (handOver_blind outbound).tryCatch fun _ => .pure ()

end Statements

section Users

/-- The list is ordered by another column. -/
theorem findAll_blind : Blind id UsersService.findAll := by
  refine read_blind fun s => ?_
  have hsort := List.map_mergeSort (r := UsersService.latestFirst) (s := UsersService.latestFirst)
    (f := withoutPasswordHash) (l := s.users) fun _ _ _ _ => rfl
  simp only [Store.withoutPasswordHashes, ← hsort, List.map_map]
  rfl

theorem findOne_blind (userId : String) : Blind id (UsersService.findOne userId) := by
  refine Program.Oblivious.bindId (read_blind fun s => ?read) fun found => ?_
  case read =>
    simp only [Store.withoutPasswordHashes, findUserById_map_withoutPasswordHash, Option.map_map]
    rfl
  cases found with
  | none => exact .throw _
  | some user => exact .pure user

theorem setBanned_blind (userId : String) (isBanned : Bool) (requestingUserId : String) :
    Blind id (UsersService.setBanned userId isBanned requestingUserId) := by
  refine query_blind fun s => ?_
  simp only [Users.setBanned, Store.withoutPasswordHashes]
  by_cases hself : userId = requestingUserId
  · simp only [hself, if_true]
    rfl
  · have hupdated := updateWhere_map_withoutPasswordHash s.users
      (f := fun row => { row with isBanned := isBanned }) (fun _ => rfl) userId
    simp only [updateWhere] at hupdated
    simp only [if_neg hself, hupdated, findUserById_map_withoutPasswordHash]
    cases findUserById (s.users.map fun row : User =>
        if row.id = userId then { row with isBanned := isBanned } else row) userId with
    | none => rfl
    | some user => rfl

/-- The tables of a removal without the password hashes. -/
def withoutPasswordHashesOf (tables : AccountTables) : AccountTables :=
  { tables with users := tables.users.map withoutPasswordHash }

/-- A removal selects and returns by other columns. -/
theorem deleteUser_withoutPasswordHashes (tables : AccountTables) (userId : String) :
    deleteUserAndCascadeComments (withoutPasswordHashesOf tables) userId =
      (withoutPasswordHashesOf (deleteUserAndCascadeComments tables userId).1,
        (deleteUserAndCascadeComments tables userId).2) := by
  have hremaining := filter_map_withoutPasswordHash tables.users
    (p := fun row => row.id != userId) fun _ => rfl
  simp only [deleteUserAndCascadeComments, withoutPasswordHashesOf,
    findUserById_map_withoutPasswordHash, hremaining]
  split
  · rfl
  · cases findUserById tables.users userId with
    | none => rfl
    | some user => rfl

/-- A removal that commutes with the erasure. -/
theorem removal_blind {run : AccountTables → AccountTables × Except HttpException SafeUser}
    (h : ∀ tables, run (withoutPasswordHashesOf tables) =
      (withoutPasswordHashesOf (run tables).1, (run tables).2)) :
    Blind id (UsersService.removal run) := by
  refine query_blind fun s => ?_
  rw [show s.withoutPasswordHashes.accounts = withoutPasswordHashesOf s.accounts from rfl, h]
  cases run s.accounts with
  | mk tables answer => cases answer with
    | error exception => rfl
    | ok user => rfl

theorem remove_blind (userId requestingUserId : String) :
    Blind id (UsersService.remove userId requestingUserId) := by
  refine removal_blind fun tables => ?_
  simp only [Users.remove]
  split
  · rfl
  · exact deleteUser_withoutPasswordHashes tables userId

theorem removeSelf_blind (userId : String) : Blind id (UsersService.removeSelf userId) :=
  removal_blind fun tables => deleteUser_withoutPasswordHashes tables userId

/-- What an edit writes and deletes depends on other columns of the row that it has read. -/
theorem updateSelf_blind (publicUrlPrefix userId : String) (dto : UpdateProfileDto) :
    Blind id (UsersService.updateSelf publicUrlPrefix userId dto) := by
  refine bindRow (findUser_blind userId) (fun _ => rfl) (.throw _) fun existing => ?_
  refine now_blind.bindId fun updatedAt => ?_
  refine (updateUsers_blind userId (f := edited dto existing updatedAt) fun _ => rfl).bind
    (fun updated => by cases updated <;> rfl) fun updated => ?_
  cases afterUpdate publicUrlPrefix existing (updated.map safeReturning) with
  | done answer => cases answer with
    | updated user => exact .pure user
    | refused | crashed => exact .throw _
  | delete oldKey user => exact (handOver_or_blind _).bindId fun _ => .pure _
  | find | update => exact .throw _

end Users

section Comments

/-- The listed columns of the authors are others. -/
theorem findAllForPost_blind (postId : String) (includeAuthorEmail : Bool) :
    Blind id (CommentsService.findAllForPost postId includeAuthorEmail) := by
  refine read_blind fun s => ?_
  simp only [Comments.findAllForPost, Store.withoutPasswordHashes,
    findUserById_map_withoutPasswordHash, Option.map_map]
  rfl

theorem findAllForAuthor_blind (authorId : String) :
    Blind id (CommentsService.findAllForAuthor authorId) := read_blind fun _ => rfl

/-- An insert of a comment looks for the author by the id. -/
theorem insertIntoComments_blind (row : Nat → Comment) :
    Blind id (CommentsService.insertIntoComments row) := by
  refine query_blind fun s => ?_
  have hinsert : insertComment (s.users.map withoutPasswordHash) s.posts s.comments
      (row s.clock) = insertComment s.users s.posts s.comments (row s.clock) := by
    simp only [insertComment, findUserById_map_withoutPasswordHash, Option.isNone_map]
  simp only [Store.withoutPasswordHashes, hinsert]
  cases insertComment s.users s.posts s.comments (row s.clock) with
  | error error => rfl
  | ok comments => rfl

theorem createComment_blind (postId authorId : String) (createCommentDto : CreateCommentDto)
    (commentId : String) :
    Blind id (CommentsService.create postId authorId createCommentDto commentId) := by
  refine (read_blind fun _ => rfl).bindId fun post => ?_
  exact (admitted_blind (checkPost post)).bindId fun _ => insertIntoComments_blind _

theorem removeComment_blind (commentId requestingUserId : String) (role : UserRole) :
    Blind id (CommentsService.remove commentId requestingUserId role) := by
  refine (read_blind fun _ => rfl).bindId fun found => ?_
  cases found with
  | none => exact .throw _
  | some comment =>
    refine (admitted_blind (checkRemoval comment requestingUserId role)).bindId fun _ => ?_
    refine Program.Oblivious.bindId (write_blind fun _ => ?_) fun _ => .pure comment
    rfl

end Comments

section Posts

/-- The columns of an author are others. -/
theorem withAuthor_map_withoutPasswordHash (users : List User) (post : PostWithTopics) :
    PostsService.withAuthor (users.map withoutPasswordHash) post =
      PostsService.withAuthor users post := by
  simp only [PostsService.withAuthor, findUserById_map_withoutPasswordHash, Option.map_map]
  rfl

theorem postWithTopicsQuery_withoutPasswordHashes (s : Store) :
    PostsService.postWithTopicsQuery s.withoutPasswordHashes =
      PostsService.postWithTopicsQuery s :=
  funext fun _ => withAuthor_map_withoutPasswordHash ..

theorem findAllPublished_blind : Blind id PostsService.findAllPublished :=
  read_blind fun s => by rw [postWithTopicsQuery_withoutPasswordHashes]; rfl

theorem findAllForDashboard_blind : Blind id PostsService.findAllForDashboard :=
  read_blind fun s => by rw [postWithTopicsQuery_withoutPasswordHashes]; rfl

theorem findPublishedBySlug_blind (slug : String) (locale : Option String) (pick : Nat) :
    Blind id (PostsService.findPublishedBySlug slug locale pick) := by
  refine Program.Oblivious.bindId (read_blind fun s => ?read) fun found => ?_
  case read =>
    rw [postWithTopicsQuery_withoutPasswordHashes]
    rfl
  cases found with
  | none => exact .throw _
  | some post => exact .pure post

/-- An insert of a post looks for the author by the id. -/
theorem insertPostTransaction_blind (row : Nat → Post) (topicIds : Option (List String)) :
    Blind id (PostsService.insertPostTransaction row topicIds) := by
  refine query_blind fun s => ?_
  simp only [Store.withoutPasswordHashes, findUserById_map_withoutPasswordHash,
    Option.isNone_map, withAuthor_map_withoutPasswordHash, Store.blog]
  cases insertPost s.posts (row s.clock) with
  | error error => rfl
  | ok posts =>
    cases (findUserById s.users (row s.clock).authorId).isNone with
    | true => rfl
    | false =>
      cases createTransaction ⟨s.posts, s.topics, s.postsToTopics⟩ (row s.clock) topicIds with
      | error failure => rfl
      | ok outcome => rfl

theorem updatePostTransaction_blind (postId : String) (f : Post → Post)
    (topicIds : Option (List String)) :
    Blind id (PostsService.updatePostTransaction postId f topicIds) := by
  refine query_blind fun s => ?_
  simp only [Store.withoutPasswordHashes, withAuthor_map_withoutPasswordHash, Store.blog]
  cases updateTransaction ⟨s.posts, s.topics, s.postsToTopics⟩ postId f topicIds with
  | error failure => rfl
  | ok outcome => rfl

theorem deleteFromPosts_blind (postId : String) : Blind id (PostsService.deleteFromPosts postId) :=
  query_blind fun _ => rfl

theorem deleteMediaKeys_blind (keys : List String) :
    Blind id (PostsService.deleteMediaKeys keys) := by
  simp only [PostsService.deleteMediaKeys]
  split
  · exact handOver_or_blind _
  · exact .pure ()

theorem createPost_blind (createPostDto : CreatePostDto) (authorId postId : String) :
    Blind id (PostsService.create createPostDto authorId postId) := by
  refine now_blind.bindId fun createdAt => ?_
  exact (insertPostTransaction_blind ..).tryCatch fun _ => .throw _

theorem updatePost_blind (publicUrlPrefix postId : String) (updatePostDto : UpdatePostDto) :
    Blind id (PostsService.update publicUrlPrefix postId updatePostDto) := by
  refine (read_blind fun _ => rfl).bindId fun found => ?_
  cases found with
  | none => exact .throw _
  | some existing =>
    refine now_blind.bindId fun updatedAt => ?_
    refine ((updatePostTransaction_blind ..).tryCatch fun _ => .throw _).bindId fun updated => ?_
    exact (deleteMediaKeys_blind _).bindId fun _ => .pure updated

theorem removePost_blind (publicUrlPrefix postId : String) :
    Blind id (PostsService.remove publicUrlPrefix postId) := by
  refine (deleteFromPosts_blind postId).bindId fun found => ?_
  cases found with
  | none => exact .throw _
  | some deleted => exact (deleteMediaKeys_blind _).bindId fun _ => .pure deleted

end Posts

section Auth

variable {τ : Type}

theorem generateAccessToken_blind (jwt : JwtSigner τ) (payload : JwtPayload) :
    Blind id (AuthService.generateAccessToken jwt payload) := by
  refine now_blind.bindId fun issuedAt => ?_
  exact (handOver_blind _).bindId fun _ => .pure _

theorem register_blind (argon2 : PasswordHash) (registerDto : RegisterDto) (userId : String) :
    Blind id (AuthService.register argon2 registerDto userId) := by
  refine bindRow (readRow_blind fun s => ?read) (fun _ => rfl) ?create fun _ => .throw _
  case read => exact findUserByEmail_map_withoutPasswordHash s.users registerDto.email
  case create => exact (insertIntoUsers_blind _).bind (fun _ => rfl) fun createdUser => .pure _

theorem pruneExpired_blind : Blind id AuthService.pruneExpired :=
  now_blind.bindId fun _ => deleteFromOauthExchangeCodes_blind _

theorem createOAuthExchangeCode_blind (sha256 : String → String) (userId code : String) :
    Blind id (AuthService.createOAuthExchangeCode sha256 userId code) := by
  refine now_blind.bindId fun createdAt => ?_
  refine (insertIntoOauthExchangeCodes_blind _).bindId fun _ => ?_
  exact (pruneExpired_blind.tryCatch fun _ => .pure ()).bindId fun _ => .pure code

/-- The claims of an exchange are other columns of the row. -/
theorem exchangeOAuthCode_blind (jwt : JwtSigner τ) (sha256 : String → String) (code : String) :
    Blind id (AuthService.exchangeOAuthCode jwt sha256 code) := by
  refine (takeOauthExchangeCode_blind _).bindId fun found => ?_
  cases found with
  | none => exact .throw _
  | some entry =>
    refine now_blind.bindId fun checkedAt => ?_
    dsimp only
    split
    · exact .throw _
    · refine bindRow (findUser_blind entry.userId) (fun _ => rfl) (.throw _) fun user => ?_
      exact generateAccessToken_blind jwt (toJwtPayload user)

/-- A request without the password hash of its user. -/
def requestWithoutPasswordHash (request : GuardedRequest) : GuardedRequest :=
  { request with currentUser := request.currentUser.map withoutPasswordHash }

/-- The guard looks at the ban of the row that it hands on. -/
theorem canActivate_blind (jwt : JwtSigner τ) (accessToken : Option τ) :
    Blind requestWithoutPasswordHash (AuthService.canActivate jwt accessToken) := by
  refine now_blind.bindId fun checkedAt => ?_
  refine (admitted_blind _).bindId fun payload => ?_
  refine Program.Agree.bind (findUser_blind payload.sub) fun found other halike => ?_
  have hbanned : ∀ found : Option User,
      (found.map withoutPasswordHash).any (fun user => user.isBanned) =
        found.any fun user => user.isBanned := fun found => by cases found <;> rfl
  have hsame := congrArg (Option.any fun user => user.isBanned) halike
  rw [hbanned, hbanned] at hsame
  simp only [checkBanned, hsame]
  split
  · exact .throw _
  · exact .pure (congrArg (GuardedRequest.mk payload) halike)

/-- The profile consists of other columns. -/
theorem profile_blind (jwt : JwtSigner τ) (accessToken : Option τ) :
    Blind id (AuthService.profile jwt accessToken) := by
  refine (canActivate_blind jwt accessToken).bind (fun request => ?same)
    fun request => admitted_blind _
  case same =>
    obtain ⟨payload, currentUser⟩ := request
    cases currentUser with
    | none => rfl
    | some user => rfl

theorem requestCode_blind (sha256 : String → String) (email : String) (drawn : Fin 1000000)
    (rowId : String) : Blind id (OtpService.requestCode sha256 email drawn rowId) := by
  refine (read_blind fun _ => rfl).bindId fun existing => ?_
  refine now_blind.bindId fun checkedAt => ?_
  dsimp only
  split
  · exact .throw _
  · refine (deleteFromEmailOtps_blind _).bindId fun _ => ?_
    refine now_blind.bindId fun createdAt => ?_
    refine (insertIntoEmailOtps_blind _).bindId fun _ => ?_
    refine (handOver_blind _).tryCatch fun error => ?_
    exact (deleteFromEmailOtps_blind _).bindId fun _ => .throw error

theorem findOrCreate_blind (adminEmail : Option String) (email userId passwordHash : String) :
    Blind withoutPasswordHash
      (OtpService.findOrCreate adminEmail email userId passwordHash) := by
  refine Program.Agree.bind (readRow_blind fun s => ?read) fun found other halike => ?_
  case read => exact findUserByEmail_map_withoutPasswordHash s.users email
  cases found with
  | some user => cases other with
    | some other => exact .pure (Option.some.inj halike)
    | none => cases halike
  | none => cases other with
    | some other => cases halike
    | none => exact insertIntoUsers_blind _

/-- The claims of a sign-in are other columns of the row. -/
theorem signIn_blind (jwt : JwtSigner τ) (adminEmail : Option String)
    (email userId passwordHash : String) :
    Blind id (OtpService.signIn jwt adminEmail email userId passwordHash) := by
  refine (findOrCreate_blind ..).bind (fun _ => rfl) fun user => ?_
  dsimp only
  split
  · exact .throw _
  · exact generateAccessToken_blind jwt (otpClaims user)

theorem verifyCode_blind (config : ApiConfig τ) (email code userId passwordHash : String) :
    Blind id (OtpService.verifyCode config email code userId passwordHash) := by
  refine (read_blind fun _ => rfl).bindId fun found => ?_
  cases found with
  | none => exact .throw _
  | some entry =>
    refine now_blind.bindId fun checkedAt => ?_
    have hconsume : Blind id (do
        OtpService.deleteEntry entry.id
        OtpService.signIn config.jwt config.adminEmail email userId passwordHash) :=
      (deleteFromEmailOtps_blind _).bindId fun _ => signIn_blind ..
    cases judge config.sha256 entry email code checkedAt with
    | drop entry failure => exact (deleteFromEmailOtps_blind _).bindId fun _ => .throw _
    | count entry => exact (updateEmailOtps_blind ..).bindId fun _ => .throw _
    | find | check | consume | findUser | insertUser | done => exact hconsume

end Auth

section Strategies

variable (identity : ProviderIdentity)

/-- A lookup without an order picks by other columns. -/
theorem pickedRow_map_withoutPasswordHash (users : List User) {p : User → Bool}
    (hp : ∀ user, p (withoutPasswordHash user) = p user) (pick : Nat) :
    pickedRow (users.map withoutPasswordHash) p pick =
      (pickedRow users p pick).map withoutPasswordHash := by
  simp only [pickedRow, filter_map_withoutPasswordHash users hp, List.length_map, List.getElem?_map]

/-- Provider ids are other columns. -/
theorem linkedId_withoutPasswordHash (provider : OAuthProvider) (user : User) :
    linkedId provider (withoutPasswordHash user) = linkedId provider user := by
  cases provider with
  | google => rfl
  | github => rfl

/-- So is what a login writes, -/
theorem loggedIn_withoutPasswordHash (existing user : User) :
    loggedIn identity existing (withoutPasswordHash user) =
      withoutPasswordHash (loggedIn identity existing user) := by
  obtain ⟨provider, providerId, email, name, avatarUrl⟩ := identity
  cases provider with
  | google => rfl
  | github => rfl

/-- and what a link writes. -/
theorem linked_withoutPasswordHash (current user : User) :
    linked identity current (withoutPasswordHash user) =
      withoutPasswordHash (linked identity current user) := by
  obtain ⟨provider, providerId, email, name, avatarUrl⟩ := identity
  cases provider with
  | google => rfl
  | github => rfl

/-- A link looks at the ids of the conflicting row, and at the avatar of the current one. -/
theorem link_blind (linkUserId : String) :
    Blind id (OAuthStrategy.link identity linkUserId) := by
  refine Program.Oblivious.bind (readRow_blind fun s => ?read)
    (fun found => by cases found <;> rfl) fun conflicting => ?_
  case read =>
    exact find?_map_withoutPasswordHash s.users fun user => by rw [linkedId_withoutPasswordHash]
  dsimp only
  split
  · exact .throw _
  · refine bindRow (findUser_blind linkUserId) (fun _ => rfl) (.throw _) fun current => ?_
    have hwrite := linked_withoutPasswordHash identity current
    exact bindRow (updateUsers_blind linkUserId hwrite) (fun _ => rfl) (.throw _) fun _ => .pure _

/-- A login looks at the name and the avatar of the row that it finds. -/
theorem findOrRegister_blind (adminEmail : Option String) (userId passwordHash : String)
    (pick : Nat) : Blind (Option.map withoutPasswordHash)
      (OAuthStrategy.findOrRegister adminEmail identity userId passwordHash pick) := by
  refine bindRow (readRow_blind fun s => ?read) (fun _ => rfl) ?register fun existing => ?update
  case read =>
    refine pickedRow_map_withoutPasswordHash s.users (fun user => ?_) pick
    simp only [matchesIdentity, linkedId_withoutPasswordHash]
    rfl
  case register =>
    refine Program.Oblivious.tryCatch ?_ fun _ => .throw _
    exact (insertIntoUsers_blind _).map fun _ => rfl
  case update =>
    exact updateUsers_blind existing.id (loggedIn_withoutPasswordHash identity existing)

theorem validate_blind (config : StrategyConfig) (profile : Profile) (linkCookie : Option String)
    (userId passwordHash : String) (pick : Nat) :
    Blind id (OAuthStrategy.validate config profile linkCookie userId passwordHash pick) := by
  refine (admitted_blind _).bindId fun identity => ?_
  cases getVerifiedLinkUserId config.signer linkCookie with
  | some linkUserId => exact (link_blind identity linkUserId).tryCatch fun _ => .throw _
  | none =>
    have hfound := findOrRegister_blind identity config.adminEmail userId passwordHash pick
    exact bindRow (hfound.tryCatch fun _ => .throw _) (fun _ => rfl) (.throw _) fun _ => .pure _

end Strategies

section Runs

variable {τ : Type} (config : ApiConfig τ)

/-- Every operation is blind to the password hashes. -/
theorem operation_blind (call : Call τ) : Blind id (operation config call) := by
  cases call with
  | findAllUsers => exact findAll_blind.map fun _ => rfl
  | findUser => exact (findOne_blind ..).map fun _ => rfl
  | setBanned => exact (setBanned_blind ..).map fun _ => rfl
  | removeUser => exact (remove_blind ..).map fun _ => rfl
  | removeSelf => exact (removeSelf_blind ..).map fun _ => rfl
  | updateSelf => exact (updateSelf_blind ..).map fun _ => rfl
  | commentsOfPost => exact (findAllForPost_blind ..).map fun _ => rfl
  | commentsOfAuthor => exact (findAllForAuthor_blind ..).map fun _ => rfl
  | createComment => exact (createComment_blind ..).map fun _ => rfl
  | removeComment => exact (removeComment_blind ..).map fun _ => rfl
  | createPost => exact (createPost_blind ..).map fun _ => rfl
  | publishedPosts => exact findAllPublished_blind.map fun _ => rfl
  | dashboardPosts => exact findAllForDashboard_blind.map fun _ => rfl
  | postBySlug => exact (findPublishedBySlug_blind ..).map fun _ => rfl
  | updatePost => exact (updatePost_blind ..).map fun _ => rfl
  | removePost => exact (removePost_blind ..).map fun _ => rfl
  | register => exact (register_blind ..).map fun _ => rfl
  | generateAccessToken => exact (generateAccessToken_blind ..).map fun _ => rfl
  | createOAuthExchangeCode => exact (createOAuthExchangeCode_blind ..).map fun _ => rfl
  | exchangeOAuthCode => exact (exchangeOAuthCode_blind ..).map fun _ => rfl
  | profile => exact (profile_blind ..).map fun _ => rfl
  | requestCode => exact (requestCode_blind ..).map fun _ => rfl
  | verifyCode => exact (verifyCode_blind ..).map fun _ => rfl
  | validate => exact (validate_blind ..).map fun _ => rfl

/-- What the calls have returned or thrown, and what was handed over: the signed payloads, the
mails, and the deleted keys. -/
def observed (s : CallState Store Failure (Answer τ)) :
    (Nat → Option (Except Failure (Answer τ))) × List Outbound := (s.answers, s.state.outbound)

/-- Whatever calls run in whatever order, two databases that differ only in password hashes give
the same answers, and the same payloads to sign. -/
theorem observed_eq_of_withoutPasswordHashes {s t : Store}
    (h : s.withoutPasswordHashes = t.withoutPasswordHashes)
    (labels : List (CallLabel (Call τ) Failure Nat)) :
    ((api config).exec (.initial s) labels).map observed =
      ((api config).exec (.initial t) labels).map observed := by
  refine answers_eq_of_oblivious (operation_blind config) ?outside ?view h labels
  case outside => exact fun _ _ => rfl
  case view => exact fun _ => rfl

end Runs

/-- A deployment whose tokens are their claims and whose codes are stored as they are. -/
def bytesApi : ApiConfig (Option (JwtPayload × Nat)) :=
  { bytesStrategies with jwt := claimsSigner, sha256 := id, publicUrlPrefix := "" }

/-- One user, with a password hash. -/
def aliceStore (passwordHash : String) : Store where
  clock := 0
  users := [newOtpUser none "alice@example.com" "alice" passwordHash 0]
  emailOtps := []
  oauthExchangeCodes := []
  posts := []
  topics := []
  postsToTopics := []
  comments := []
  outbound := []

/-- The claims of the user's tokens. -/
def aliceClaims : JwtPayload := ⟨"alice", "alice@example.com", .user, none, none⟩

/-- An exchange code is issued and spent, and the token shows the profile. -/
def exchangeAndProfile : List (CallLabel (Call (Option (JwtPayload × Nat))) Failure Nat) :=
  [.start 0 (.createOAuthExchangeCode "alice" "code"), .step 0, .step 0, .outside 1000, .step 0,
    .step 0, .start 1 (.exchangeOAuthCode "code"), .step 1, .step 1, .step 1,
    .start 2 (.profile (some (some (aliceClaims, 0)))), .step 2, .step 1, .step 1, .step 2]

/-- Such a run signs the claims, whatever the password hash is. -/
theorem observed_eq_of_withoutPasswordHashes_exchangeAndProfile :
    aliceStore "first" ≠ aliceStore "second" ∧
    ((api bytesApi).exec (.initial (aliceStore "first")) exchangeAndProfile).map
        (fun after => after.state.outbound) = some [.signed aliceClaims] ∧
    ((api bytesApi).exec (.initial (aliceStore "first")) exchangeAndProfile).map observed =
      ((api bytesApi).exec (.initial (aliceStore "second")) exchangeAndProfile).map observed :=
  ⟨by decide, by decide +kernel,
    observed_eq_of_withoutPasswordHashes bytesApi (by decide) exchangeAndProfile⟩

/-- The sign-in by password tells the stores apart. -/
example : login bytesApi.argon2 (aliceStore "first").users ⟨"alice@example.com", "first"⟩ ≠
    login bytesApi.argon2 (aliceStore "second").users ⟨"alice@example.com", "first"⟩ := by
  decide +kernel

end VertexApi.App
