import VertexApi.App.Site
import VertexApi.Auth.AuthDto
import VertexApi.Common.EdgeOriginGuard

/-!
# Routes

A request passes the guards of every route, those of its own route, and the validation of its
body, in this order, and its controller then makes one call. Any number of requests run
interleaved, statement by statement, and any statement may fail.
-/

namespace VertexApi.App

open About Auth Comments Common Posts Projects Topics Uploads Users

/-- The guards in front of a controller. -/
inductive Access where
  | anyone
  /-- `OptionalJwtAuthGuard`. -/
  | identified
  /-- `JwtAuthGuard`. -/
  | session
  /-- `JwtAuthGuard`, and then `AdminGuard`. -/
  | admin
  deriving DecidableEq, Repr

/-- What a request asks for, with its parameters, its body, and what is drawn for it. -/
inductive Route where
  | hello
  | health
  | publishedPosts
  | postBySlug (slug : String) (locale : Option String) (pick : Nat)
  | createPost (body : PostInput) (postId : String)
  | updatePost (id : String) (body : PostInput)
  | removePost (id : String)
  | dashboardPosts
  | topics
  | createTopic (body : CreateTopicDto) (topicId : String)
  | updateTopic (id : String) (body : CreateTopicDto)
  | removeTopic (id : String)
  | projects
  | projectById (id : String)
  | createProject (body : ProjectInput) (projectId : String)
  | updateProject (id : String) (body : ProjectInput)
  | removeProject (id : String)
  | about (rowId : String) (pick : Nat)
  | updateAbout (body : UpdateAboutDto) (rowId : String) (pick : Nat)
  | users
  | user (id : String)
  | setBanned (id : String) (isBanned : Bool)
  | updateSelf (body : UpdateProfileInput)
  | removeSelf
  | removeUser (id : String)
  | commentsOfPost (postId : String)
  | commentsOfAuthor (userId : String)
  | createComment (postId : String) (body : CreateCommentDto) (commentId : String)
  | removeComment (commentId : String)
  | presignedUrl (fileName contentType : String) (date : LocalDate) (randomUUID : Uuid)
  | avatarPresignedUrl (fileName contentType : String) (randomUUID : Uuid)
  | register (body : RegisterDto) (userId : String)
  | login (body : LoginDto)
  | exchange (code : String)
  | requestOtp (email : String) (drawn : Fin 1000000) (rowId : String)
  | verifyOtp (email code userId passwordHash : String)
  | profile
  | startLogin (visit : CallbackVisit)
  | startLink (provider : OAuthProvider)
  | callback (visit : CallbackVisit)

/-- The guards of a route. -/
def Route.access : Route → Access
  | .createPost .. | .updatePost .. | .removePost .. | .dashboardPosts | .createTopic .. |
    .updateTopic .. | .removeTopic .. | .createProject .. | .updateProject .. |
    .removeProject .. | .updateAbout .. | .users | .user .. | .setBanned .. | .removeUser .. |
    .commentsOfAuthor .. | .presignedUrl .. => .admin
  | .updateSelf .. | .removeSelf | .createComment .. | .removeComment .. |
    .avatarPresignedUrl .. | .profile | .startLink .. => .session
  | .commentsOfPost .. => .identified
  | .hello | .health | .publishedPosts | .postBySlug .. | .topics | .projects | .projectById .. |
    .about .. | .register .. | .login .. | .exchange .. | .requestOtp .. | .verifyOtp .. |
    .startLogin .. | .callback .. => .anyone

/-- What the guards leave in a request. -/
structure Guarded where
  user : Option JwtPayload
  currentUser : Option User
  deriving DecidableEq, Repr

section Schemas

/-- `createCommentSchema`. -/
def createCommentSchema (body : CreateCommentDto) : Option CreateCommentDto :=
  if body.content = "" then none else some body

/-- `generatePresignedUrlSchema`. -/
def generatePresignedUrlSchema (fileName contentType : String) : Option GeneratePresignedUrlDto :=
  if h : fileName = "" then none
  else ([.jpeg, .png, .webp].find? fun type : ImageContentType => type.text == contentType).map
    fun type => ⟨fileName, h, type⟩

end Schemas

/-- The rejection of a body; the response lists the issues. -/
def validationFailed : HttpException := badRequestException "Bad Request Exception" none

/-- `ZodValidationPipe`. -/
def validated {β : Type} : Option β → Except Failure β
  | none => .error (.refused validationFailed)
  | some dto => .ok dto

/-- `request.user!`. -/
def Guarded.required (request : Guarded) : Except Failure JwtPayload :=
  match request.user with
  | none => .error .typeError
  | some user => .ok user

section Handlers

variable {τ : Type} (config : SiteConfig τ)

/-- The call that the controller of a route makes, or an answer that takes none. -/
def Route.handler (request : Guarded) : Route → Except Failure (SiteCall τ)
  | .hello => return .hello
  | .health => return .health
  | .publishedPosts => return .service .publishedPosts
  | .postBySlug slug locale pick => return .service (.postBySlug slug locale pick)
  | .createPost body postId => do
    let createPostDto ← validated (createPostSchema config.parseUrl config.isUuid body)
    return .service (.createPost createPostDto (← request.required).sub postId)
  | .updatePost id body => do
    let updatePostDto ← validated (updatePostSchema config.parseUrl config.isUuid body)
    return .service (.updatePost id updatePostDto)
  | .removePost id => return .service (.removePost id)
  | .dashboardPosts => return .service .dashboardPosts
  | .topics => return .topics
  | .createTopic body topicId => return .createTopic (← validated (createTopicSchema body)) topicId
  | .updateTopic id body => return .updateTopic id (← validated (createTopicSchema body))
  | .removeTopic id => return .removeTopic id
  | .projects => return .projects
  | .projectById id => return .projectById id
  | .createProject body projectId =>
    return .createProject (← validated (createProjectSchema config.parseUrl body)) projectId
  | .updateProject id body =>
    return .updateProject id (← validated (updateProjectSchema config.parseUrl body))
  | .removeProject id => return .removeProject id
  | .about rowId pick => return .about rowId pick
  | .updateAbout body rowId pick =>
    return .updateAbout (← validated (updateAboutSchema body)) rowId pick
  | .users => return .service .findAllUsers
  | .user id => return .service (.findUser id)
  | .setBanned id isBanned => return .service (.setBanned id isBanned (← request.required).sub)
  | .updateSelf body => do
    let dto ← validated (updateProfileSchema config.parseUrl body)
    return .service (.updateSelf (← request.required).sub dto)
  | .removeSelf => return .service (.removeSelf (← request.required).sub)
  | .removeUser id => return .service (.removeUser id (← request.required).sub)
  | .commentsOfPost postId => return .service (.commentsOfPost postId (isAdmin request.user))
  | .commentsOfAuthor userId => return .service (.commentsOfAuthor userId)
  | .createComment postId body commentId => do
    let createCommentDto ← validated (createCommentSchema body)
    return .service (.createComment postId (← request.required).sub createCommentDto commentId)
  | .removeComment commentId => do
    let user ← request.required
    return .service (.removeComment commentId user.sub user.role)
  | .presignedUrl fileName contentType date randomUUID => do
    let dto ← validated (generatePresignedUrlSchema fileName contentType)
    return .presignedUrl dto date randomUUID
  | .avatarPresignedUrl fileName contentType randomUUID => do
    let dto ← validated (generatePresignedUrlSchema fileName contentType)
    return .avatarPresignedUrl (← request.required).sub dto randomUUID
  | .register body userId =>
    return .service (.register (← validated (registerSchema config.isEmail body)) userId)
  | .login body => return .login (← validated (loginSchema config.isEmail body))
  | .exchange code => return .service (.exchangeOAuthCode (← validated (exchangeSchema code)))
  | .requestOtp email drawn rowId => do
    let email ← validated (requestOtpSchema config.isEmail config.toLowerCase email)
    return .service (.requestCode email drawn rowId)
  | .verifyOtp email code userId passwordHash => do
    let (email, code) ← validated (verifyOtpSchema config.isEmail config.toLowerCase email code)
    return .service (.verifyCode email code userId passwordHash)
  | .profile => return .ownProfile request.currentUser
  | .startLogin visit => return .startLogin visit
  | .startLink provider => return .startLink provider (← request.required).sub
  | .callback visit => return .callback visit

/-- The guards of a route. -/
def Access.guard (accessToken : Option τ) : Access → SiteOperation Guarded
  | .anyone => return ⟨none, none⟩
  | .identified => do
    let user ← onStore (OptionalJwtAuthGuard.canActivate config.jwt accessToken)
    return ⟨user, none⟩
  | .session => do
    let request ← onStore (AuthService.canActivate config.jwt accessToken)
    return ⟨some request.user, request.currentUser⟩
  | .admin => do
    let request ← onStore (AuthService.canActivate config.jwt accessToken)
    onStore (admitted (adminGuard (some request.user)))
    return ⟨some request.user, request.currentUser⟩

/-- A request. -/
structure Request (τ : Type) where
  route : Route
  headers : Headers
  /-- The cookie of the session, if there is one that is not empty. -/
  accessToken : Option τ
  /-- What the throttler counts. -/
  withinLimit : Bool

/-- The rejection of a request above the limit. -/
def tooManyRequests : HttpException := ⟨429, "ThrottlerException: Too Many Requests", none⟩

/-- The guards of every route: the secret of the edge, and the throttler. -/
def globalGuards (request : Request τ) : Except Failure Unit :=
  match EdgeOriginGuard.canActivate config.edgeSharedSecret request.headers with
  | .ok true => if request.withinLimit then .ok () else .error (.refused tooManyRequests)
  | .ok false => .error (.refused ⟨403, "Forbidden resource", none⟩)
  | .error (.forbidden message) => .error (.refused ⟨403, message, none⟩)
  | .error (.rangeError _) => .error .typeError

/-- What a check on a request admits. -/
def checked {α : Type} : Except Failure α → SiteOperation α
  | .ok a => pure a
  | .error failure => throw failure

/-- A request, from the first guard to its answer. -/
def handle (request : Request τ) : SiteOperation (SiteAnswer τ) := do
  checked (globalGuards config request)
  let guarded ← request.route.access.guard config request.accessToken
  let call ← checked (request.route.handler config guarded)
  siteOperation config call

/-- Time passes on the site. -/
def passing (ms : Nat) (d : Site) : Site :=
  { d with store := { d.store with clock := d.store.clock + ms } }

/-- The site under any number of requests. -/
def site : Machine (CallState Site Failure (SiteAnswer τ)) (CallLabel (Request τ) Failure Nat) :=
  callMachine (handle config) passing

end Handlers

end VertexApi.App
