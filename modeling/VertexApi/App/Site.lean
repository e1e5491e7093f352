import VertexApi.About.AboutService
import VertexApi.App.AccountRemoval
import VertexApi.App.CommentEmails
import VertexApi.App.LinkIntent
import VertexApi.Core.Conduct
import VertexApi.Projects.ProjectsService
import VertexApi.Topics.TopicsService
import VertexApi.Uploads.RoundTrip

/-!
# The whole site

The database of the site has the tables of the services and two more, of the projects and of
the about page. The remaining services run over it, each statement at once, and the calls of
all services are programs over it.
-/

namespace VertexApi.App

open About Auth Comments Posts Projects Topics Uploads Users

/-- The tables that the other services do not name. -/
structure SiteTables where
  projects : List Project
  aboutContent : List AboutContent
  deriving DecidableEq, Repr

/-- The database of the site. -/
abbrev Site := Database SiteTables

/-- A program of the site. -/
abbrev SiteOperation := Program Site Failure

/-- An operation on the tables of the services. -/
def onStore {α : Type} (p : Operation α) : SiteOperation α :=
  p.zoom Database.store fun d s => { d with store := s }

/-- What the site takes from its surroundings. -/
structure SiteConfig (τ : Type) extends OAuthRoutesConfig where
  jwt : JwtSigner τ
  publicUrlPrefix : String
  normalizeNfd : String → String
  toLowerCase : String → String
  /-- How the database orders texts. -/
  collation : String → String → Bool
  isEmail : String → Bool
  isUuid : String → Bool
  parseUrl : String → Option String
  createPresignedUploadUrl : String → String → Except ThrownError String
  /-- `process.env.EDGE_SHARED_SECRET`. -/
  edgeSharedSecret : Option String

/-- The part that the services see; exchange codes and emailed codes have the same digest. -/
def SiteConfig.api {τ : Type} (config : SiteConfig τ) : ApiConfig τ where
  toStrategyConfig := config.toStrategyConfig
  jwt := config.jwt
  sha256 := config.hashExchangeCode
  publicUrlPrefix := config.publicUrlPrefix

namespace TopicsService

variable (normalizeNfd toLowerCase : String → String)

/-- `create`. -/
def create (createTopicDto : CreateTopicDto) (topicId : String) : Operation Topic := .query fun s =>
  let row := newTopic normalizeNfd toLowerCase createTopicDto topicId s.clock
  match insertTopic s.topics row with
  | .error error => .error (.thrown error)
  | .ok topics => .ok ({ s with topics := topics }, row)

/-- `findAll`. -/
def findAll (collation : String → String → Bool) : Operation (List Topic) :=
  read fun s => s.topics.mergeSort (byName collation)

/-- `update(topics)` of the row with an id, with the row that it returns. -/
def updateTopics (id : String) (f : Topic → Topic) : Operation (Option Topic) := .query fun s =>
  match updateTopic s.topics id f with
  | .error error => .error (.thrown error)
  | .ok (topics, topic) => .ok ({ s with topics := topics }, topic)

/-- `update`. -/
def update (id : String) (updateTopicDto : CreateTopicDto) : Operation Topic := do
  let some updatedTopic ← updateTopics id (renamed normalizeNfd toLowerCase updateTopicDto)
    | throw (.refused topicNotFound)
  return updatedTopic

/-- `delete(topics)` of the topic with an id, which takes its links along. -/
def deleteFromTopics (id : String) : Operation (Option Topic) := .query fun s =>
  match findTopicById s.topics id with
  | none => .ok (s, none)
  | some topic => .ok (s.withBlog (withoutTopic s.blog id), some topic)

/-- `remove`. -/
def remove (id : String) : Operation Topic := do
  let some deletedTopic ← deleteFromTopics id | throw (.refused topicNotFound)
  return deletedTopic

end TopicsService

/-- `login` of the authentication service. -/
def AuthService.login {τ : Type} (argon2 : PasswordHash) (jwt : JwtSigner τ) (loginDto : LoginDto) :
    Operation τ := do
  let some user ← read fun s => findUserByEmail s.users loginDto.email
    | throw (.refused invalidCredentials)
  if argon2.verify user.passwordHash loginDto.password then
    AuthService.generateAccessToken jwt (toJwtPayload user)
  else throw (.refused invalidCredentials)

/-- `Date.now()`. -/
def siteNow : SiteOperation Nat := .look fun d => d.store.clock

/-- A statement that only reads. -/
def siteRead {α : Type} (f : Site → α) : SiteOperation α := .query fun d => .ok (d, f d)

/-- The database after a write to the projects. -/
def Database.withProjects (d : Site) (projects : List Project) : Site :=
  { d with others := { d.others with projects := projects } }

/-- The database after a write to the about page. -/
def Database.withAboutContent (d : Site) (rows : List AboutContent) : Site :=
  { d with others := { d.others with aboutContent := rows } }

namespace ProjectsService

/-- `create`. -/
def create (createProjectDto : CreateProjectDto) (projectId : String) : SiteOperation Project :=
  .query fun d =>
    let row := newProject createProjectDto projectId d.store.clock
    match insertProject d.others.projects row with
    | .error error => .error (.thrown error)
    | .ok projects => .ok (d.withProjects projects, row)

/-- `findAll`. -/
def findAll : SiteOperation (List Project) :=
  siteRead fun d => d.others.projects.mergeSort Projects.latestFirst

/-- `findById`. -/
def findById (id : String) : SiteOperation Project := do
  let some project ← siteRead fun d => findProjectById d.others.projects id
    | throw (.refused projectNotFound)
  return project

/-- `update(projects)` of the row with an id, with the row that it returns. -/
def updateProjects (id : String) (f : Project → Project) : SiteOperation (Option Project) :=
  .query fun d =>
    match findProjectById d.others.projects id with
    | none => .ok (d, none)
    | some row => .ok (d.withProjects (updateWhere Project.id id f d.others.projects), some (f row))

/-- `update`. -/
def update (id : String) (updateProjectDto : UpdateProjectDto) : SiteOperation Project := do
  let updatedAt ← siteNow
  let some updatedProject ← updateProjects id (editedProject updateProjectDto updatedAt)
    | throw (.refused projectNotFound)
  return updatedProject

/-- `delete(projects)` of the row with an id, with the row that it returns. -/
def deleteFromProjects (id : String) : SiteOperation (Option Project) := .query fun d =>
  .ok (d.withProjects (d.others.projects.filter fun project => project.id != id),
    findProjectById d.others.projects id)

/-- `remove`. -/
def remove (id : String) : SiteOperation Project := do
  let some deletedProject ← deleteFromProjects id | throw (.refused projectNotFound)
  return deletedProject

end ProjectsService

namespace AboutService

/-- The unique column of `about_content`. -/
def aboutColumns : List (String × (AboutContent → Option String)) :=
  [("about_content_pkey", fun row => some row.id)]

/-- `findFirst` on `about_content`, without an order. -/
def findAboutContent (pick : Nat) : SiteOperation (Option AboutContent) :=
  siteRead fun d => pickedRow d.others.aboutContent (fun _ => true) pick

/-- `insert(aboutContent)`. -/
def insertIntoAboutContent (row : Nat → AboutContent) : SiteOperation AboutContent :=
  .query fun d =>
    match insertRow aboutColumns d.others.aboutContent (row d.store.clock) with
    | .error constraintName => .error (.thrown (uniqueViolation constraintName))
    | .ok rows => .ok (d.withAboutContent rows, row d.store.clock)

/-- `update(aboutContent)` of the row with an id, with the row that it returns. -/
def updateAboutContent (id : String) (f : AboutContent → AboutContent) :
    SiteOperation (Option AboutContent) := .query fun d =>
  let rows := updateWhere AboutContent.id id f d.others.aboutContent
  .ok (d.withAboutContent rows, rows.find? fun row => row.id == id)

/-- `get`, which makes an empty row when there is none. -/
def get (rowId : String) (pick : Nat) : SiteOperation (Option AboutContent) := do
  match ← findAboutContent pick with
  | some existing => return some existing
  | none => some <$> insertIntoAboutContent fun now => AboutOperation.newRow rowId now .get

/-- `update`, with `undefined` when the row has gone that it read. -/
def update (updateAboutDto : UpdateAboutDto) (rowId : String) (pick : Nat) :
    SiteOperation (Option AboutContent) := do
  match ← findAboutContent pick with
  | none =>
    some <$> insertIntoAboutContent fun now => AboutOperation.newRow rowId now
      (.update updateAboutDto)
  | some existing =>
    let updatedAt ← siteNow
    updateAboutContent existing.id (written updateAboutDto updatedAt)

end AboutService

/-- `getAvatarPresignedUrl`, with the id that it draws. -/
def getAvatarPresignedUrl {ε : Type} (createPresignedUploadUrl : String → String → Except ε String)
    (userId : String) (randomUUID : Uuid) (fileName contentType : String) :
    Except ε PresignedUpload := do
  let fileKey := avatarFileKey userId randomUUID.text fileName
  let presignedUrl ← createPresignedUploadUrl fileKey contentType
  return ⟨presignedUrl, fileKey⟩

section Calls

variable (τ : Type)

/-- The calls that the controllers make. -/
inductive SiteCall where
  | hello
  | health
  | service (call : Call τ)
  | login (loginDto : LoginDto)
  /-- A visit of a start route. -/
  | startLogin (visit : CallbackVisit)
  | startLink (provider : OAuthProvider) (userId : String)
  | callback (visit : CallbackVisit)
  | ownProfile (currentUser : Option User)
  | topics
  | createTopic (createTopicDto : CreateTopicDto) (topicId : String)
  | updateTopic (id : String) (updateTopicDto : CreateTopicDto)
  | removeTopic (id : String)
  | projects
  | projectById (id : String)
  | createProject (createProjectDto : CreateProjectDto) (projectId : String)
  | updateProject (id : String) (updateProjectDto : UpdateProjectDto)
  | removeProject (id : String)
  | about (rowId : String) (pick : Nat)
  | updateAbout (updateAboutDto : UpdateAboutDto) (rowId : String) (pick : Nat)
  | presignedUrl (dto : GeneratePresignedUrlDto) (date : LocalDate) (randomUUID : Uuid)
  | avatarPresignedUrl (userId : String) (dto : GeneratePresignedUrlDto) (randomUUID : Uuid)

/-- What the site answers. -/
inductive SiteAnswer where
  | hello (text : String)
  /-- The time of the check. -/
  | health (timestamp : Nat)
  | service (answer : Answer τ)
  /-- The token goes into the cookie of the session. -/
  | loggedIn (token : τ)
  /-- The redirect to the provider, unless the visit has brought a code along. -/
  | started (cookies : List CookieChange) (reply : Option Reply)
  /-- The redirect to the start route of the provider. -/
  | linkStarted (cookies : List CookieChange) (provider : OAuthProvider)
  | callback (response : Response)
  | topics (topics : List Topic)
  | topic (topic : Topic)
  | projects (projects : List Project)
  | project (project : Project)
  | about (row : Option AboutContent)
  | upload (upload : PresignedUpload)

variable {τ}

/-- `googleAuth` and `githubAuth` behind their guard. -/
def startLogin (config : OAuthRoutesConfig) (visit : CallbackVisit) :
    Operation (List CookieChange × Option Reply) := do
  let options ← admitted (getAuthenticateOptions config visit).1
  let user ← authenticate config visit
  return ((getAuthenticateOptions config visit).2,
    if user.isSome then none else some (.consent options))

/-- The upload that is prepared, or the error of the storage. -/
def prepared {α : Type} : Except ThrownError α → SiteOperation α
  | .ok upload => pure upload
  | .error error => throw (.thrown error)

/-- The program of a call. -/
def siteOperation (config : SiteConfig τ) : SiteCall τ → SiteOperation (SiteAnswer τ)
  | .hello => return .hello "Hello World!"
  | .health => .health <$> siteNow
  | .service call => .service <$> onStore (operation config.api call)
  | .login loginDto => .loggedIn <$> onStore (AuthService.login config.argon2 config.jwt loginDto)
  | .startLogin visit => (fun (cookies, reply) => .started cookies reply) <$>
      onStore (startLogin config.toOAuthRoutesConfig visit)
  | .startLink provider userId =>
    return .linkStarted (rememberLinkIntent config.toOAuthRoutesConfig userId) provider
  | .callback visit => .callback <$> onStore (callback config.toOAuthRoutesConfig visit)
  | .ownProfile currentUser =>
    (fun profile => .service (.profile profile)) <$>
      onStore (admitted (AuthService.toProfile currentUser))
  | .topics => .topics <$> onStore (TopicsService.findAll config.collation)
  | .createTopic createTopicDto topicId => .topic <$> onStore
      (TopicsService.create config.normalizeNfd config.toLowerCase createTopicDto topicId)
  | .updateTopic id updateTopicDto => .topic <$> onStore
      (TopicsService.update config.normalizeNfd config.toLowerCase id updateTopicDto)
  | .removeTopic id => .topic <$> onStore (TopicsService.remove id)
  | .projects => .projects <$> ProjectsService.findAll
  | .projectById id => .project <$> ProjectsService.findById id
  | .createProject createProjectDto projectId =>
    .project <$> ProjectsService.create createProjectDto projectId
  | .updateProject id updateProjectDto => .project <$> ProjectsService.update id updateProjectDto
  | .removeProject id => .project <$> ProjectsService.remove id
  | .about rowId pick => .about <$> AboutService.get rowId pick
  | .updateAbout updateAboutDto rowId pick =>
    .about <$> AboutService.update updateAboutDto rowId pick
  | .presignedUrl dto date randomUUID => .upload <$> prepared (getPresignedUrl
      config.createPresignedUploadUrl date randomUUID dto.fileName dto.contentType.text)
  | .avatarPresignedUrl userId dto randomUUID => .upload <$> prepared (getAvatarPresignedUrl
      config.createPresignedUploadUrl userId randomUUID dto.fileName dto.contentType.text)

end Calls

end VertexApi.App
