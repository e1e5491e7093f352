import VertexApi.App.SiteSteps

/-!
# The calls of the controllers

Which call a route makes, for what the guards have left in the request and for a body that is
valid. Only the routes behind the guard of admins make the calls that edit the content of the
site.
-/

namespace VertexApi.App

open About Auth Comments Posts Projects Topics Uploads Users

variable {τ : Type}

/-- The call that the controller of a route makes. -/
inductive Handles (config : SiteConfig τ) (guarded : Guarded) : Route → SiteCall τ → Prop where
  | hello : Handles config guarded .hello .hello
  | health : Handles config guarded .health .health
  | publishedPosts : Handles config guarded .publishedPosts (.service .publishedPosts)
  | postBySlug {slug : String} {locale : Option String} {pick : Nat} :
    Handles config guarded (.postBySlug slug locale pick) (.service (.postBySlug slug locale pick))
  | createPost {body : PostInput} {createPostDto : CreatePostDto} {postId : String}
    {user : JwtPayload}
    (hbody : createPostSchema config.parseUrl config.isUuid body = some createPostDto)
    (huser : guarded.user = some user) :
    Handles config guarded (.createPost body postId)
      (.service (.createPost createPostDto user.sub postId))
  | updatePost {id : String} {body : PostInput} {updatePostDto : UpdatePostDto}
    (hbody : updatePostSchema config.parseUrl config.isUuid body = some updatePostDto) :
    Handles config guarded (.updatePost id body) (.service (.updatePost id updatePostDto))
  | removePost {id : String} : Handles config guarded (.removePost id) (.service (.removePost id))
  | dashboardPosts : Handles config guarded .dashboardPosts (.service .dashboardPosts)
  | topics : Handles config guarded .topics .topics
  | createTopic {body createTopicDto : CreateTopicDto} {topicId : String}
    (hbody : createTopicSchema body = some createTopicDto) :
    Handles config guarded (.createTopic body topicId) (.createTopic createTopicDto topicId)
  | updateTopic {id : String} {body updateTopicDto : CreateTopicDto}
    (hbody : createTopicSchema body = some updateTopicDto) :
    Handles config guarded (.updateTopic id body) (.updateTopic id updateTopicDto)
  | removeTopic {id : String} : Handles config guarded (.removeTopic id) (.removeTopic id)
  | projects : Handles config guarded .projects .projects
  | projectById {id : String} : Handles config guarded (.projectById id) (.projectById id)
  | createProject {body : ProjectInput} {createProjectDto : CreateProjectDto} {projectId : String}
    (hbody : createProjectSchema config.parseUrl body = some createProjectDto) :
    Handles config guarded (.createProject body projectId)
      (.createProject createProjectDto projectId)
  | updateProject {id : String} {body : ProjectInput} {updateProjectDto : UpdateProjectDto}
    (hbody : updateProjectSchema config.parseUrl body = some updateProjectDto) :
    Handles config guarded (.updateProject id body) (.updateProject id updateProjectDto)
  | removeProject {id : String} : Handles config guarded (.removeProject id) (.removeProject id)
  | about {rowId : String} {pick : Nat} :
    Handles config guarded (.about rowId pick) (.about rowId pick)
  | updateAbout {body updateAboutDto : UpdateAboutDto} {rowId : String} {pick : Nat}
    (hbody : updateAboutSchema body = some updateAboutDto) :
    Handles config guarded (.updateAbout body rowId pick) (.updateAbout updateAboutDto rowId pick)
  | users : Handles config guarded .users (.service .findAllUsers)
  | user {id : String} : Handles config guarded (.user id) (.service (.findUser id))
  | setBanned {id : String} {isBanned : Bool} {user : JwtPayload}
    (huser : guarded.user = some user) :
    Handles config guarded (.setBanned id isBanned) (.service (.setBanned id isBanned user.sub))
  | updateSelf {body : UpdateProfileInput} {dto : UpdateProfileDto} {user : JwtPayload}
    (hbody : updateProfileSchema config.parseUrl body = some dto)
    (huser : guarded.user = some user) :
    Handles config guarded (.updateSelf body) (.service (.updateSelf user.sub dto))
  | removeSelf {user : JwtPayload} (huser : guarded.user = some user) :
    Handles config guarded .removeSelf (.service (.removeSelf user.sub))
  | removeUser {id : String} {user : JwtPayload} (huser : guarded.user = some user) :
    Handles config guarded (.removeUser id) (.service (.removeUser id user.sub))
  | commentsOfPost {postId : String} :
    Handles config guarded (.commentsOfPost postId)
      (.service (.commentsOfPost postId (isAdmin guarded.user)))
  | commentsOfAuthor {userId : String} :
    Handles config guarded (.commentsOfAuthor userId) (.service (.commentsOfAuthor userId))
  | createComment {postId commentId : String} {body createCommentDto : CreateCommentDto}
    {user : JwtPayload} (hbody : createCommentSchema body = some createCommentDto)
    (huser : guarded.user = some user) :
    Handles config guarded (.createComment postId body commentId)
      (.service (.createComment postId user.sub createCommentDto commentId))
  | removeComment {commentId : String} {user : JwtPayload} (huser : guarded.user = some user) :
    Handles config guarded (.removeComment commentId)
      (.service (.removeComment commentId user.sub user.role))
  | presignedUrl {fileName contentType : String} {dto : GeneratePresignedUrlDto}
    {date : LocalDate} {randomUUID : Uuid}
    (hbody : generatePresignedUrlSchema fileName contentType = some dto) :
    Handles config guarded (.presignedUrl fileName contentType date randomUUID)
      (.presignedUrl dto date randomUUID)
  | avatarPresignedUrl {fileName contentType : String} {dto : GeneratePresignedUrlDto}
    {randomUUID : Uuid} {user : JwtPayload}
    (hbody : generatePresignedUrlSchema fileName contentType = some dto)
    (huser : guarded.user = some user) :
    Handles config guarded (.avatarPresignedUrl fileName contentType randomUUID)
      (.avatarPresignedUrl user.sub dto randomUUID)
  | register {body registerDto : RegisterDto} {userId : String}
    (hbody : registerSchema config.isEmail body = some registerDto) :
    Handles config guarded (.register body userId) (.service (.register registerDto userId))
  | login {body loginDto : LoginDto} (hbody : loginSchema config.isEmail body = some loginDto) :
    Handles config guarded (.login body) (.login loginDto)
  | exchange {body code : String} (hbody : exchangeSchema body = some code) :
    Handles config guarded (.exchange body) (.service (.exchangeOAuthCode code))
  | requestOtp {body email rowId : String} {drawn : Fin 1000000}
    (hbody : requestOtpSchema config.isEmail config.toLowerCase body = some email) :
    Handles config guarded (.requestOtp body drawn rowId)
      (.service (.requestCode email drawn rowId))
  | verifyOtp {body bodyCode email code userId passwordHash : String}
    (hbody : verifyOtpSchema config.isEmail config.toLowerCase body bodyCode =
      some (email, code)) :
    Handles config guarded (.verifyOtp body bodyCode userId passwordHash)
      (.service (.verifyCode email code userId passwordHash))
  | profile : Handles config guarded .profile (.ownProfile guarded.currentUser)
  | startLogin {visit : CallbackVisit} :
    Handles config guarded (.startLogin visit) (.startLogin visit)
  | startLink {provider : OAuthProvider} {user : JwtPayload} (huser : guarded.user = some user) :
    Handles config guarded (.startLink provider) (.startLink provider user.sub)
  | callback {visit : CallbackVisit} : Handles config guarded (.callback visit) (.callback visit)

section Inversion

variable {config : SiteConfig τ} {guarded : Guarded} {call : SiteCall τ}

/-- A body is valid. -/
theorem validated_bind_eq_ok {α β : Type} {body : Option α} {rest : α → Except Failure β} {b : β}
    (h : (validated body >>= rest) = .ok b) : ∃ dto, body = some dto ∧ rest dto = .ok b := by
  cases body with
  | none => cases h
  | some dto => exact ⟨dto, rfl, h⟩

/-- A guard has left a user. -/
theorem required_bind_eq_ok {β : Type} {rest : JwtPayload → Except Failure β} {b : β}
    (h : (guarded.required >>= rest) = .ok b) :
    ∃ user, guarded.user = some user ∧ rest user = .ok b := by
  rw [Guarded.required] at h
  cases huser : guarded.user with
  | none =>
    rw [huser] at h
    cases h
  | some user =>
    rw [huser] at h
    exact ⟨user, rfl, h⟩

/-- The handler of a route makes no other call. -/
theorem handler_eq_ok {route : Route} (h : route.handler config guarded = .ok call) :
    Handles config guarded route call := by
  cases route with
  | hello => exact Except.ok.inj h ▸ .hello
  | health => exact Except.ok.inj h ▸ .health
  | publishedPosts => exact Except.ok.inj h ▸ .publishedPosts
  | postBySlug => exact Except.ok.inj h ▸ .postBySlug
  | removePost => exact Except.ok.inj h ▸ .removePost
  | dashboardPosts => exact Except.ok.inj h ▸ .dashboardPosts
  | topics => exact Except.ok.inj h ▸ .topics
  | removeTopic => exact Except.ok.inj h ▸ .removeTopic
  | projects => exact Except.ok.inj h ▸ .projects
  | projectById => exact Except.ok.inj h ▸ .projectById
  | removeProject => exact Except.ok.inj h ▸ .removeProject
  | about => exact Except.ok.inj h ▸ .about
  | users => exact Except.ok.inj h ▸ .users
  | user => exact Except.ok.inj h ▸ .user
  | commentsOfPost => exact Except.ok.inj h ▸ .commentsOfPost
  | commentsOfAuthor => exact Except.ok.inj h ▸ .commentsOfAuthor
  | profile => exact Except.ok.inj h ▸ .profile
  | startLogin => exact Except.ok.inj h ▸ .startLogin
  | callback => exact Except.ok.inj h ▸ .callback
  | createPost body postId =>
    obtain ⟨createPostDto, hbody, hrest⟩ := validated_bind_eq_ok h
    obtain ⟨user, huser, hcall⟩ := required_bind_eq_ok hrest
    exact Except.ok.inj hcall ▸ .createPost hbody huser
  | updatePost id body =>
    obtain ⟨updatePostDto, hbody, hcall⟩ := validated_bind_eq_ok h
    exact Except.ok.inj hcall ▸ .updatePost hbody
  | createTopic body topicId =>
    obtain ⟨createTopicDto, hbody, hcall⟩ := validated_bind_eq_ok h
    exact Except.ok.inj hcall ▸ .createTopic hbody
  | updateTopic id body =>
    obtain ⟨updateTopicDto, hbody, hcall⟩ := validated_bind_eq_ok h
    exact Except.ok.inj hcall ▸ .updateTopic hbody
  | createProject body projectId =>
    obtain ⟨createProjectDto, hbody, hcall⟩ := validated_bind_eq_ok h
    exact Except.ok.inj hcall ▸ .createProject hbody
  | updateProject id body =>
    obtain ⟨updateProjectDto, hbody, hcall⟩ := validated_bind_eq_ok h
    exact Except.ok.inj hcall ▸ .updateProject hbody
  | updateAbout body rowId pick =>
    obtain ⟨updateAboutDto, hbody, hcall⟩ := validated_bind_eq_ok h
    exact Except.ok.inj hcall ▸ .updateAbout hbody
  | setBanned id isBanned =>
    obtain ⟨user, huser, hcall⟩ := required_bind_eq_ok h
    exact Except.ok.inj hcall ▸ .setBanned huser
  | updateSelf body =>
    obtain ⟨dto, hbody, hrest⟩ := validated_bind_eq_ok h
    obtain ⟨user, huser, hcall⟩ := required_bind_eq_ok hrest
    exact Except.ok.inj hcall ▸ .updateSelf hbody huser
  | removeSelf =>
    obtain ⟨user, huser, hcall⟩ := required_bind_eq_ok h
    exact Except.ok.inj hcall ▸ .removeSelf huser
  | removeUser id =>
    obtain ⟨user, huser, hcall⟩ := required_bind_eq_ok h
    exact Except.ok.inj hcall ▸ .removeUser huser
  | createComment postId body commentId =>
    obtain ⟨createCommentDto, hbody, hrest⟩ := validated_bind_eq_ok h
    obtain ⟨user, huser, hcall⟩ := required_bind_eq_ok hrest
    exact Except.ok.inj hcall ▸ .createComment hbody huser
  | removeComment commentId =>
    obtain ⟨user, huser, hcall⟩ := required_bind_eq_ok h
    exact Except.ok.inj hcall ▸ .removeComment huser
  | presignedUrl fileName contentType date randomUUID =>
    obtain ⟨dto, hbody, hcall⟩ := validated_bind_eq_ok h
    exact Except.ok.inj hcall ▸ .presignedUrl hbody
  | avatarPresignedUrl fileName contentType randomUUID =>
    obtain ⟨dto, hbody, hrest⟩ := validated_bind_eq_ok h
    obtain ⟨user, huser, hcall⟩ := required_bind_eq_ok hrest
    exact Except.ok.inj hcall ▸ .avatarPresignedUrl hbody huser
  | register body userId =>
    obtain ⟨registerDto, hbody, hcall⟩ := validated_bind_eq_ok h
    exact Except.ok.inj hcall ▸ .register hbody
  | login body =>
    obtain ⟨loginDto, hbody, hcall⟩ := validated_bind_eq_ok h
    exact Except.ok.inj hcall ▸ .login hbody
  | exchange body =>
    obtain ⟨code, hbody, hcall⟩ := validated_bind_eq_ok h
    exact Except.ok.inj hcall ▸ .exchange hbody
  | requestOtp body drawn rowId =>
    obtain ⟨email, hbody, hcall⟩ := validated_bind_eq_ok h
    exact Except.ok.inj hcall ▸ .requestOtp hbody
  | verifyOtp body bodyCode userId passwordHash =>
    obtain ⟨⟨email, code⟩, hbody, hcall⟩ := validated_bind_eq_ok h
    exact Except.ok.inj hcall ▸ .verifyOtp hbody
  | startLink provider =>
    obtain ⟨user, huser, hcall⟩ := required_bind_eq_ok h
    exact Except.ok.inj hcall ▸ .startLink huser

end Inversion

section Tokens

variable {config : SiteConfig τ} {R : Rely Store} {s m t : Store} {request : Request τ}
  {guarded : Guarded} {call : SiteCall τ} {payload : JwtPayload}

/-- The guard of a session let a request pass between two states: it verified the token, with
these claims, and then found no banned row of their subject. -/
def Verified (config : SiteConfig τ) (R : Rely Store) (s : Store) (request : Request τ)
    (t : Store) (payload : JwtPayload) : Prop :=
  ∃ m currentUser, R.grows m t ∧
    Admits R config.jwt request.accessToken s m ⟨payload, currentUser⟩

/-- The token of a request that passed is valid. -/
theorem Verified.token (h : Verified config R s request t payload) :
    ∃ m, R.grows s m ∧ R.grows m t ∧
      verifyCookie config.jwt request.accessToken m.clock = .ok payload := by
  obtain ⟨n, currentUser, hn, hadmits⟩ := h
  obtain ⟨m, hm, hmn, hverified⟩ := hadmits.verified
  exact ⟨m, hm, R.trans hmn hn, hverified⟩

/-- A request that passed carries a token of its claims. -/
theorem Verified.accessToken (h : Verified config R s request t payload) :
    ∃ issuedAt, request.accessToken = some (config.jwt.sign payload issuedAt) := by
  obtain ⟨m, -, -, hcookie⟩ := h.token
  obtain ⟨issuedAt, htoken, -⟩ := verifyCookie_eq_ok.mp hcookie
  exact ⟨issuedAt, htoken⟩

/-- The subject of a request that passed had no banned row. -/
theorem Verified.unbanned (h : Verified config R s request t payload) :
    ∃ m, R.grows s m ∧ R.grows m t ∧
      ∀ row, findUserById m.users payload.sub = some row → row.isBanned = false := by
  obtain ⟨n, currentUser, hn, hadmits⟩ := h
  obtain ⟨m, hm, hmn, hfound⟩ := hadmits.found
  exact ⟨m, hm, R.trans hmn hn, fun row hrow => hadmits.unbanned row (hfound.trans hrow)⟩

namespace Entered

/-- The user of a request is that of its token. -/
theorem verified (h : Entered config R s request m guarded call)
    (huser : guarded.user = some payload) (ht : R.grows m t) :
    Verified config R s request t payload := by
  have hauthorized := h.authorized
  generalize request.route.access = access at hauthorized
  cases hauthorized with
  | anyone => cases huser
  | identified hall =>
    obtain ⟨currentUser, hadmits⟩ := hall payload huser
    exact ⟨m, currentUser, ht, hadmits⟩
  | session hadmits | admin hadmits =>
    obtain rfl := Option.some.inj huser
    exact ⟨m, _, ht, hadmits⟩

/-- The user of a request to an admin's route claims the role. -/
theorem role (h : Entered config R s request m guarded call)
    (haccess : request.route.access = .admin) (huser : guarded.user = some payload) :
    payload.role = .admin := by
  have hauthorized := h.authorized
  rw [haccess] at hauthorized
  cases hauthorized with
  | admin hadmits hrole =>
    obtain rfl := Option.some.inj huser
    exact hrole

/-- A request to a route that needs a session has a user. -/
theorem exists_user (h : Entered config R s request m guarded call)
    (haccess : request.route.access = .session ∨ request.route.access = .admin) :
    ∃ payload, guarded.user = some payload := by
  have hauthorized := h.authorized
  generalize request.route.access = access at hauthorized haccess
  cases hauthorized with
  | anyone | identified => rcases haccess with haccess | haccess <;> cases haccess
  | session | admin => exact ⟨_, rfl⟩

end Entered

end Tokens

end VertexApi.App
