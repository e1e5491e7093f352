import VertexApi.Core.Table
import VertexApi.Common.ErrorCodes
import VertexApi.Database.Errors
import VertexApi.Posts.PostDto

/-!
# Projects

The projects of the portfolio. A new project starts with an empty list of techniques unless
the body names them; an edit writes the fields that its body names and leaves the others.
-/

namespace VertexApi.Projects

open Posts

/-- A row of `projects`. -/
structure Project where
  id : String
  title : String
  description : String
  techStack : List String
  link : Option String
  createdAt : Nat
  updatedAt : Nat
  deriving DecidableEq, Repr

/-- A request body, before validation. -/
structure ProjectInput where
  title : Option String
  description : Option String
  techStack : Option (List String)
  link : Option String
  deriving DecidableEq, Repr

/-- The validated body of a new project. -/
structure CreateProjectDto where
  title : String
  description : String
  techStack : List String
  link : Option String
  deriving DecidableEq, Repr

/-- The validated body of an edit. -/
structure UpdateProjectDto where
  title : Option String
  description : Option String
  techStack : Option (List String)
  link : Option String
  deriving DecidableEq, Repr

/-- The validation of an edit, which has no default for the techniques. -/
def updateProjectSchema (parseUrl : String → Option String) (input : ProjectInput) :
    Option UpdateProjectDto := do
  let title ← filledText input.title
  let description ← filledText input.description
  let link ← urlText parseUrl input.link
  return { title, description, techStack := input.techStack, link }

/-- The validation of a new project: the title and the description must be there. -/
def createProjectSchema (parseUrl : String → Option String) (input : ProjectInput) :
    Option CreateProjectDto := do
  let dto ← updateProjectSchema parseUrl input
  let title ← dto.title
  let description ← dto.description
  return { title, description, techStack := dto.techStack.getD [], link := dto.link }

/-- The rejection of a project that is not there. -/
def projectNotFound : HttpException := notFoundException "Project not found"

/-- The unique column of `projects`. -/
def projectColumns : List (String × (Project → Option String)) :=
  [("projects_pkey", fun project => some project.id)]

/-- The row of a new project. -/
def newProject (createProjectDto : CreateProjectDto) (projectId : String) (now : Nat) :
    Project where
  id := projectId
  title := createProjectDto.title
  description := createProjectDto.description
  techStack := createProjectDto.techStack
  link := createProjectDto.link
  createdAt := now
  updatedAt := now

/-- The write of an edit to a row: the fields that it names. -/
def editedProject (updateProjectDto : UpdateProjectDto) (now : Nat) (row : Project) : Project :=
  { row with
    title := updateProjectDto.title.getD row.title
    description := updateProjectDto.description.getD row.description
    techStack := updateProjectDto.techStack.getD row.techStack
    link := updateProjectDto.link.or row.link
    updatedAt := now }

/-- `findFirst` on `projects` by primary key. -/
def findProjectById (projects : List Project) (id : String) : Option Project :=
  projects.find? fun project => project.id == id

/-- A delete of a project that is not there removes nothing. -/
theorem filter_of_findProjectById {projects : List Project} {id : String}
    (h : findProjectById projects id = none) :
    (projects.filter fun project => project.id != id) = projects := by
  refine List.filter_eq_self.mpr fun project hproject => bne_iff_ne.mpr fun he => ?_
  exact List.find?_eq_none.mp h project hproject (beq_iff_eq.mpr he)

/-- An insert. -/
def insertProject (projects : List Project) (row : Project) : Except ThrownError (List Project) :=
  (insertRow projectColumns projects row).mapError uniqueViolation

/-- The order of the list: the latest first. -/
def latestFirst (a b : Project) : Bool := b.createdAt ≤ a.createdAt

end VertexApi.Projects
