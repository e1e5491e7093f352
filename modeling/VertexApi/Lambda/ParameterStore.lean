import VertexApi.Common.JsString

/-!
# Configuration from the parameter store

The parameters under a path come page by page. Each one is stored in the environment under
the last segment of its name, unless the environment has a value for it.
-/

namespace VertexApi.Lambda

/-- `process.env`. -/
abbrev ProcessEnv := List (String × String)

/-- A parameter of the store. -/
structure Parameter where
  name : Option String
  value : Option String
  deriving DecidableEq, Repr

/-- A page of parameters. -/
structure ParameterPage where
  parameters : Option (List Parameter)
  nextToken : Option String
  deriving DecidableEq, Repr

/-- `parameter.Name?.split('/').pop()`, when it is not empty. -/
def Parameter.variable (parameter : Parameter) : Option String :=
  JsString.truthy (parameter.name.bind fun name => (JsString.split name '/').getLast?)

/-- `process.env[name]`: the names that every object inherits have a value as well. -/
def envValue (env : ProcessEnv) (name : String) : Option String :=
  (env.lookup name).or (JsString.inheritedProperty name)

/-- The variable that a parameter sets, when the environment has no value for it. -/
def newVariable (env : ProcessEnv) (parameter : Parameter) : Option (String × String) :=
  match parameter.variable, parameter.value with
  | some name, some value => if (envValue env name).isSome then none else some (name, value)
  | _, _ => none

/-- Store one parameter. -/
def loadParameter (env : ProcessEnv) (parameter : Parameter) : ProcessEnv :=
  match newVariable env parameter with
  | some entry => env ++ [entry]
  | none => env

/-- Store the parameters of a page. -/
def loadPage (env : ProcessEnv) (page : ParameterPage) : ProcessEnv :=
  (page.parameters.getD []).foldl loadParameter env

/-- The path of the parameters, when one is configured. -/
def configParameterPath (env : ProcessEnv) : Option String :=
  JsString.truthy (env.lookup "CONFIG_PARAMETER_PREFIX")

/-- What the environment has stays when a parameter is loaded. -/
theorem lookup_loadParameter {env : ProcessEnv} {name value : String}
    (h : env.lookup name = some value) (parameter : Parameter) :
    (loadParameter env parameter).lookup name = some value := by
  simp only [loadParameter]
  split
  · rw [List.lookup_append, h, Option.some_or]
  · exact h

/-- What the environment has stays when a page is loaded. -/
theorem lookup_loadPage {env : ProcessEnv} {name value : String}
    (h : env.lookup name = some value) (page : ParameterPage) :
    (loadPage env page).lookup name = some value := by
  unfold loadPage
  induction page.parameters.getD [] generalizing env with
  | nil => exact h
  | cons parameter parameters ih => exact ih (lookup_loadParameter h parameter)

end VertexApi.Lambda
