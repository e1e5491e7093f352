import VertexApi.App.Store
import VertexApi.Auth.Callbacks

/-!
# The operations of the services

Each operation is the program of its statements, so that any number of them may run
interleaved. What an operation draws at random, and the row that a lookup without an order
returns, are arguments of the call.
-/

namespace VertexApi.App

open Auth Comments Posts Uploads Users

/-- What the services take from their surroundings. -/
structure ApiConfig (τ : Type) extends StrategyConfig where
  jwt : JwtSigner τ
  sha256 : String → String
  publicUrlPrefix : String

namespace UsersService

/-- The columns of a lookup, listed apart from those that a write returns. -/
def safeColumns (user : User) : SafeUser where
  id := user.id
  email := user.email
  name := user.name
  displayName := user.displayName
  avatarUrl := user.avatarUrl
  githubId := user.githubId
  googleId := user.googleId
  role := user.role
  isBanned := user.isBanned
  createdAt := user.createdAt

/-- The order of the list: the latest first. -/
def latestFirst (a b : User) : Bool := b.createdAt ≤ a.createdAt

/-- `findAll`. -/
def findAll : Operation (List SafeUser) :=
  read fun s => (s.users.mergeSort latestFirst).map safeColumns

/-- `findOne`. -/
def findOne (id : String) : Operation SafeUser := do
  let some user ← read fun s => (findUserById s.users id).map safeColumns
    | throw (.refused userNotFound)
  return user

/-- `setBanned`. -/
def setBanned (id : String) (isBanned : Bool) (requestingUserId : String) : Operation SafeUser :=
  .query fun s =>
    match Users.setBanned s.users id isBanned requestingUserId with
    | (_, .error exception) => .error (.refused exception)
    | (users, .ok user) => .ok ({ s with users := users }, user)

/-- The transaction of a removal. -/
def removal (run : AccountTables → AccountTables × Except HttpException SafeUser) :
    Operation SafeUser := .query fun s =>
  match run s.accounts with
  | (_, .error exception) => .error (.refused exception)
  | (tables, .ok user) => .ok (s.withAccounts tables, user)

/-- `remove`. -/
def remove (id requestingUserId : String) : Operation SafeUser :=
  removal fun tables => Users.remove tables id requestingUserId

/-- `removeSelf`. -/
def removeSelf (id : String) : Operation SafeUser :=
  removal fun tables => Users.removeSelf tables id

/-- `updateSelf`, whose delete of the old avatar may fail. -/
def updateSelf (publicUrlPrefix id : String) (dto : UpdateProfileDto) :
    Operation (Option SafeUser) := do
  let some existing ← findUser id | throw (.refused userNotFound)
  let updatedAt ← now
  let updated ← updateUsers id (edited dto existing updatedAt)
  match afterUpdate publicUrlPrefix existing (updated.map safeReturning) with
  | .done (.updated user) => return user
  | .delete oldKey user =>
    try handOver (.deletedFiles [oldKey]) catch _ => pure ()
    return some user
  | _ => throw .typeError

end UsersService

namespace CommentsService

/-- `findAllForPost`. -/
def findAllForPost (postId : String) (includeAuthorEmail : Bool) :
    Operation (List CommentWithAuthor) :=
  read fun s => Comments.findAllForPost s.users s.comments postId includeAuthorEmail

/-- `findAllForAuthor`. -/
def findAllForAuthor (authorId : String) : Operation (List CommentWithPost) :=
  read fun s => Comments.findAllForAuthor s.posts s.comments authorId

/-- `insert(comments)`. -/
def insertIntoComments (row : Nat → Comment) : Operation Comment := .query fun s =>
  match insertComment s.users s.posts s.comments (row s.clock) with
  | .error error => .error (.thrown error)
  | .ok comments => .ok ({ s with comments := comments }, row s.clock)

/-- `create`. -/
def create (postId authorId : String) (createCommentDto : CreateCommentDto) (commentId : String) :
    Operation Comment := do
  let post ← read fun s => findPostById s.posts postId
  admitted (checkPost post)
  insertIntoComments (newComment createCommentDto postId authorId commentId)

/-- `remove`. -/
def remove (commentId requestingUserId : String) (role : UserRole) : Operation Comment := do
  let some comment ← read fun s => findCommentById s.comments commentId
    | throw (.refused commentNotFound)
  admitted (checkRemoval comment requestingUserId role)
  write fun s => { s with comments := withoutComment s.comments commentId }
  return comment

end CommentsService

namespace PostsService

/-- The columns of the author that a post is read with. -/
structure PostAuthor where
  id : String
  name : Option String
  displayName : Option String
  avatarUrl : Option String
  deriving DecidableEq, Repr

/-- A post with its topics and its author. -/
structure PostWithAuthor extends PostWithTopics where
  author : Option PostAuthor
  deriving DecidableEq, Repr

/-- The columns of an author. -/
def postAuthor (user : User) : PostAuthor where
  id := user.id
  name := user.name
  displayName := user.displayName
  avatarUrl := user.avatarUrl

/-- The author of `postWithTopicsQuery`, with what else the query returns. -/
def withAuthor (users : List User) (post : PostWithTopics) : PostWithAuthor where
  toPostWithTopics := post
  author := (findUserById users post.post.authorId).map postAuthor

/-- `postWithTopicsQuery` of a post. -/
def postWithTopicsQuery (s : Store) (post : Post) : PostWithAuthor :=
  withAuthor s.users (withFlattenedTopics s.blog post)

/-- `rethrowFriendlySlugConflict`, whatever has thrown. -/
def rethrowFriendlySlugConflict : Failure → Failure
  | .thrown error => .ofPost (Posts.rethrowFriendlySlugConflict (.thrown error))
  | failure => failure

/-- The transaction of a new post, whose author must be there. -/
def insertPostTransaction (row : Nat → Post) (topicIds : Option (List String)) :
    Operation PostWithAuthor := .query fun s =>
  match insertPost s.posts (row s.clock) with
  | .error error => .error (.thrown error)
  | .ok _ =>
    if (findUserById s.users (row s.clock).authorId).isNone then
      .error (.thrown (foreignKeyViolation "posts_author_id_users_id_fk"))
    else
      match createTransaction s.blog (row s.clock) topicIds with
      | .error failure => .error (.ofPost failure)
      | .ok (tables, post) => .ok (s.withBlog tables, withAuthor s.users post)

/-- The transaction of an edit. -/
def updatePostTransaction (id : String) (f : Post → Post) (topicIds : Option (List String)) :
    Operation PostWithAuthor := .query fun s =>
  match updateTransaction s.blog id f topicIds with
  | .error failure => .error (.ofPost failure)
  | .ok (tables, post) => .ok (s.withBlog tables, withAuthor s.users post)

/-- `delete(posts)` of the post with an id, which takes its links and comments along. -/
def deleteFromPosts (id : String) : Operation (Option Post) := .query fun s =>
  let remaining := s.withBlog (s.blog.withoutPost id)
  .ok ({ remaining with comments := s.comments.filter fun comment => comment.postId != id },
    findPostById s.posts id)

/-- `deleteMediaKeys`: a failure is logged and changes nothing. -/
def deleteMediaKeys (keys : List String) : Operation Unit := do
  if keys ≠ [] then
    try handOver (.deletedFiles keys) catch _ => pure ()

/-- `create`. -/
def create (createPostDto : CreatePostDto) (authorId postId : String) :
    Operation PostWithAuthor := do
  let createdAt ← now
  let row := newPost createPostDto authorId postId (createdPublishedAt createPostDto createdAt)
  try insertPostTransaction row createPostDto.topicIds
  catch error => throw (rethrowFriendlySlugConflict error)

/-- `findAllPublished`. -/
def findAllPublished : Operation (List PostWithAuthor) :=
  read fun s => (Posts.findAllPublished s.posts).map (postWithTopicsQuery s)

/-- The order of the dashboard: the latest first. -/
def latestFirst (a b : Post) : Bool := b.createdAt ≤ a.createdAt

/-- `findAllForDashboard`. -/
def findAllForDashboard : Operation (List PostWithAuthor) :=
  read fun s => (s.posts.mergeSort latestFirst).map (postWithTopicsQuery s)

/-- `findPublishedBySlug`. -/
def findPublishedBySlug (slug : String) (locale : Option String) (pick : Nat) :
    Operation PostWithAuthor := do
  let some post ← read fun s =>
      (pickedRow s.posts (isPublishedUnder slug locale) pick).map (postWithTopicsQuery s)
    | throw (.refused postNotFound)
  return post

/-- `update`. -/
def update (publicUrlPrefix id : String) (updatePostDto : UpdatePostDto) :
    Operation PostWithAuthor := do
  let some existing ← read fun s => findPostById s.posts id | throw (.refused postNotFound)
  let updatedAt ← now
  let updated ←
    try updatePostTransaction id (postEdit existing updatePostDto updatedAt) updatePostDto.topicIds
    catch error => throw (rethrowFriendlySlugConflict error)
  deleteMediaKeys (removedMediaKeys publicUrlPrefix existing updated.post)
  return updated

/-- `remove`. -/
def remove (publicUrlPrefix id : String) : Operation Post := do
  let some deleted ← deleteFromPosts id | throw (.refused postNotFound)
  deleteMediaKeys (collectMediaKeys publicUrlPrefix deleted)
  return deleted

end PostsService

namespace AuthService

variable {τ : Type}

/-- `generateAccessToken`. -/
def generateAccessToken (jwt : JwtSigner τ) (payload : JwtPayload) : Operation τ := do
  let issuedAt ← now
  handOver (.signed payload)
  return jwt.sign payload (issuedAt / 1000)

/-- `register`. -/
def register (argon2 : PasswordHash) (registerDto : RegisterDto) (userId : String) :
    Operation (String × String) := do
  let existingUser ← read fun s => findUserByEmail s.users registerDto.email
  if existingUser.isSome then throw (.refused emailInUse)
  let createdUser ← insertIntoUsers (registeredUser argon2 registerDto userId)
  return (createdUser.id, createdUser.email)

/-- The housekeeping: the delete of the codes that have expired before a cutoff. -/
def pruneExpired : Operation Unit := do
  let cutoff ← now
  deleteFromOauthExchangeCodes fun row => decide (row.expiresAt < cutoff)

/-- `createOAuthExchangeCode`, whose housekeeping may fail. -/
def createOAuthExchangeCode (sha256 : String → String) (userId code : String) :
    Operation String := do
  let createdAt ← now
  insertIntoOauthExchangeCodes ⟨sha256 code, userId, createdAt + oauthExchangeCodeTtlMs⟩
  try pruneExpired catch _ => pure ()
  return code

/-- `exchangeOAuthCode`. -/
def exchangeOAuthCode (jwt : JwtSigner τ) (sha256 : String → String) (code : String) :
    Operation τ := do
  let some entry ← takeOauthExchangeCode (sha256 code) | throw (.refused invalidExchangeCode)
  let checkedAt ← now
  if entry.expiresAt < checkedAt then throw (.refused invalidExchangeCode)
  let some user ← findUser entry.userId | throw (.refused invalidExchangeCode)
  generateAccessToken jwt (toJwtPayload user)

/-- The public shape of a user. -/
structure UserProfile where
  sub : String
  email : String
  role : UserRole
  name : Option String
  displayName : Option String
  avatarUrl : Option String
  githubId : Option String
  googleId : Option String
  deriving DecidableEq, Repr

/-- `toProfile`. -/
def toProfile : Option User → Except HttpException UserProfile
  | none => .error userNotFound
  | some user => .ok {
      sub := user.id
      email := user.email
      role := user.role
      name := user.name
      displayName := user.displayName
      avatarUrl := user.avatarUrl
      githubId := user.githubId
      googleId := user.googleId }

/-- `JwtAuthGuard.canActivate`, with the request that it leaves. -/
def canActivate (jwt : JwtSigner τ) (accessToken : Option τ) : Operation GuardedRequest := do
  let checkedAt ← now
  let payload ← admitted (verifyCookie jwt accessToken checkedAt)
  let user ← findUser payload.sub
  admitted (checkBanned payload user)

/-- The guard, and then `toProfile` of the row that it leaves. -/
def profile (jwt : JwtSigner τ) (accessToken : Option τ) : Operation UserProfile := do
  let request ← canActivate jwt accessToken
  admitted (toProfile request.currentUser)

end AuthService

namespace OtpService

variable {τ : Type}

/-- `requestCode`, which takes its row back when the mail fails. -/
def requestCode (sha256 : String → String) (email : String) (drawn : Fin 1000000)
    (rowId : String) : Operation Unit := do
  let existing ← read fun s => findOtpByEmail s.emailOtps email
  let checkedAt ← now
  if existing.any fun row => coolingDown row checkedAt then throw (.refused otpCooldown)
  let code := otpCode drawn
  deleteFromEmailOtps fun row => row.email == email
  let createdAt ← now
  insertIntoEmailOtps (newOtp sha256 email code rowId (createdAt + otpTtlMs))
  try handOver (.mailed email code)
  catch error =>
    deleteFromEmailOtps fun row => row.email == email
    throw error

/-- `deleteEntry`. -/
def deleteEntry (id : String) : Operation Unit := deleteFromEmailOtps fun row => row.id == id

/-- The write of an attempt count. -/
def setAttempts (id : String) (attempts : Nat) : Operation Unit :=
  updateEmailOtps id fun row => { row with attempts := attempts }

/-- The row of an address, found or made. -/
def findOrCreate (adminEmail : Option String) (email userId passwordHash : String) :
    Operation User := do
  match ← read fun s => findUserByEmail s.users email with
  | some user => return user
  | none => insertIntoUsers (newOtpUser adminEmail email userId passwordHash)

/-- The sign-in after a right code. -/
def signIn (jwt : JwtSigner τ) (adminEmail : Option String)
    (email userId passwordHash : String) : Operation τ := do
  let user ← findOrCreate adminEmail email userId passwordHash
  if user.isBanned then throw (.refused userBanned)
  AuthService.generateAccessToken jwt (otpClaims user)

/-- `verifyCode`. -/
def verifyCode (config : ApiConfig τ) (email code userId passwordHash : String) :
    Operation τ := do
  let some entry ← read fun s => findOtpByEmail s.emailOtps email | throw (.refused otpInvalid)
  let checkedAt ← now
  match judge config.sha256 entry email code checkedAt with
  | .drop entry failure =>
    deleteEntry entry.id
    throw (.refused failure)
  | .count entry =>
    setAttempts entry.id (entry.attempts + 1)
    throw (.refused otpInvalid)
  | _ =>
    deleteEntry entry.id
    signIn config.jwt config.adminEmail email userId passwordHash

end OtpService

namespace OAuthStrategy

/-- A strategy reports an error, or lets it through. -/
def rethrown (error : Failure) : CallbackAnswer → Failure
  | .rejected exception => .refused exception
  | _ => error

/-- The handler of `linkToExistingUser`: its own rejections pass. -/
def linkError (provider : OAuthProvider) : Failure → Failure
  | .refused exception =>
    if exception = alreadyLinked provider ∨ exception.status = 401 then .refused exception
    else rethrown (.refused exception) (linkFailed provider)
  | error => rethrown error (linkFailed provider)

/-- The handler of an insert. -/
def insertError (provider : OAuthProvider) : Failure → Failure
  | .thrown error => rethrown (.thrown error) (insertFailed error provider)
  | error => error

/-- The handler of a login: the conflict of an insert passes. -/
def loginError (provider : OAuthProvider) (error : Failure) : Failure :=
  if error = .refused githubEmailConflict then error else rethrown error (loginFailed provider)

/-- The statements of a link. -/
def link (identity : ProviderIdentity) (linkUserId : String) : Operation JwtPayload := do
  let conflicting ← read fun s => s.users.find? fun user =>
    linkedId identity.provider user == some identity.providerId
  if conflicting.any fun user => user.id != linkUserId then
    throw (.refused (alreadyLinked identity.provider))
  let some current ← findUser linkUserId
    | throw (.refused (linkUserNotFound identity.provider))
  let some updated ← updateUsers linkUserId (linked identity current) | throw .typeError
  return toJwtPayload updated

/-- `linkToExistingUser`. -/
def linkToExistingUser (identity : ProviderIdentity) (linkUserId : String) :
    Operation JwtPayload := do
  try link identity linkUserId
  catch error => throw (linkError identity.provider error)

/-- The insert of a first login. -/
def register (adminEmail : Option String) (identity : ProviderIdentity)
    (userId passwordHash : String) : Operation (Option User) := do
  try some <$> insertIntoUsers (newProviderUser adminEmail identity userId passwordHash)
  catch error => throw (insertError identity.provider error)

/-- The lookup of a login, and its update or insert. -/
def findOrRegister (adminEmail : Option String) (identity : ProviderIdentity)
    (userId passwordHash : String) (pick : Nat) : Operation (Option User) := do
  match ← read fun s => pickedRow s.users (matchesIdentity identity) pick with
  | some existing => updateUsers existing.id (loggedIn identity existing)
  | none => register adminEmail identity userId passwordHash

/-- `loginOrRegister`. -/
def loginOrRegister (adminEmail : Option String) (identity : ProviderIdentity)
    (userId passwordHash : String) (pick : Nat) : Operation JwtPayload := do
  let user ←
    try findOrRegister adminEmail identity userId passwordHash pick
    catch error => throw (loginError identity.provider error)
  match user with
  | some user => return toJwtPayload user
  | none => throw .typeError

/-- `validate` of either strategy. -/
def validate (config : StrategyConfig) (profile : Profile) (linkCookie : Option String)
    (userId passwordHash : String) (pick : Nat) : Operation JwtPayload := do
  let identity ← admitted (identityOf profile)
  match getVerifiedLinkUserId config.signer linkCookie with
  | some linkUserId => linkToExistingUser identity linkUserId
  | none => loginOrRegister config.adminEmail identity userId passwordHash pick

end OAuthStrategy

section Machine

variable (τ : Type)

/-- The calls of the operations, except for `login`. -/
inductive Call where
  | findAllUsers
  | findUser (id : String)
  | setBanned (id : String) (isBanned : Bool) (requestingUserId : String)
  | removeUser (id requestingUserId : String)
  | removeSelf (id : String)
  | updateSelf (id : String) (dto : UpdateProfileDto)
  | commentsOfPost (postId : String) (includeAuthorEmail : Bool)
  | commentsOfAuthor (authorId : String)
  | createComment (postId authorId : String) (createCommentDto : CreateCommentDto)
    (commentId : String)
  | removeComment (commentId requestingUserId : String) (role : UserRole)
  | createPost (createPostDto : CreatePostDto) (authorId postId : String)
  | publishedPosts
  | dashboardPosts
  | postBySlug (slug : String) (locale : Option String) (pick : Nat)
  | updatePost (id : String) (updatePostDto : UpdatePostDto)
  | removePost (id : String)
  | register (registerDto : RegisterDto) (userId : String)
  | generateAccessToken (payload : JwtPayload)
  | createOAuthExchangeCode (userId code : String)
  | exchangeOAuthCode (code : String)
  | profile (accessToken : Option τ)
  | requestCode (email : String) (drawn : Fin 1000000) (rowId : String)
  | verifyCode (email code userId passwordHash : String)
  | validate (profile : Profile) (linkCookie : Option String) (userId passwordHash : String)
    (pick : Nat)

/-- What an operation returns. -/
inductive Answer where
  | users (users : List SafeUser)
  | user (user : SafeUser)
  /-- The row of an edit, or `undefined`. -/
  | edited (user : Option SafeUser)
  | commentsOfPost (comments : List CommentWithAuthor)
  | commentsOfAuthor (comments : List CommentWithPost)
  | comment (comment : Comment)
  | posts (posts : List PostsService.PostWithAuthor)
  | post (post : PostsService.PostWithAuthor)
  | removedPost (post : Post)
  | registered (user : String × String)
  | exchangeCode (code : String)
  | accessToken (token : τ)
  | profile (profile : AuthService.UserProfile)
  | codeSent
  | claims (payload : JwtPayload)
  deriving DecidableEq, Repr

variable {τ}

/-- The program of a call. -/
def operation (config : ApiConfig τ) : Call τ → Operation (Answer τ)
  | .findAllUsers => .users <$> UsersService.findAll
  | .findUser id => .user <$> UsersService.findOne id
  | .setBanned id isBanned requestingUserId =>
    .user <$> UsersService.setBanned id isBanned requestingUserId
  | .removeUser id requestingUserId => .user <$> UsersService.remove id requestingUserId
  | .removeSelf id => .user <$> UsersService.removeSelf id
  | .updateSelf id dto => .edited <$> UsersService.updateSelf config.publicUrlPrefix id dto
  | .commentsOfPost postId includeAuthorEmail =>
    .commentsOfPost <$> CommentsService.findAllForPost postId includeAuthorEmail
  | .commentsOfAuthor authorId => .commentsOfAuthor <$> CommentsService.findAllForAuthor authorId
  | .createComment postId authorId createCommentDto commentId =>
    .comment <$> CommentsService.create postId authorId createCommentDto commentId
  | .removeComment commentId requestingUserId role =>
    .comment <$> CommentsService.remove commentId requestingUserId role
  | .createPost createPostDto authorId postId =>
    .post <$> PostsService.create createPostDto authorId postId
  | .publishedPosts => .posts <$> PostsService.findAllPublished
  | .dashboardPosts => .posts <$> PostsService.findAllForDashboard
  | .postBySlug slug locale pick => .post <$> PostsService.findPublishedBySlug slug locale pick
  | .updatePost id updatePostDto =>
    .post <$> PostsService.update config.publicUrlPrefix id updatePostDto
  | .removePost id => .removedPost <$> PostsService.remove config.publicUrlPrefix id
  | .register registerDto userId =>
    .registered <$> AuthService.register config.argon2 registerDto userId
  | .generateAccessToken payload =>
    .accessToken <$> AuthService.generateAccessToken config.jwt payload
  | .createOAuthExchangeCode userId code =>
    .exchangeCode <$> AuthService.createOAuthExchangeCode config.sha256 userId code
  | .exchangeOAuthCode code =>
    .accessToken <$> AuthService.exchangeOAuthCode config.jwt config.sha256 code
  | .profile accessToken => .profile <$> AuthService.profile config.jwt accessToken
  | .requestCode email drawn rowId =>
    (fun _ => .codeSent) <$> OtpService.requestCode config.sha256 email drawn rowId
  | .verifyCode email code userId passwordHash =>
    .accessToken <$> OtpService.verifyCode config email code userId passwordHash
  | .validate profile linkCookie userId passwordHash pick =>
    .claims <$> OAuthStrategy.validate config.toStrategyConfig profile linkCookie userId
      passwordHash pick

/-- The services over their database; time passes outside of the calls. -/
def api (config : ApiConfig τ) :
    Machine (CallState Store Failure (Answer τ)) (CallLabel (Call τ) Failure Nat) :=
  callMachine (operation config) fun ms s => { s with clock := s.clock + ms }

end Machine

end VertexApi.App
