import VertexApi.Lambda.ParameterStore

/-!
# Loading the configuration

The loop that asks for page after page, and what it leaves. The environment and the names that
are returned depend on the list of the parameters only, not on the pages that it comes in.
-/

namespace VertexApi.Lambda

open JsString

/-- A request for a page. -/
structure GetParametersByPath where
  path : String
  recursive : Bool
  withDecryption : Bool
  nextToken : Option String

/-- The environment and the names that have been set in it. -/
structure Loading where
  env : ProcessEnv
  loaded : List String

/-- One parameter of a page. -/
def loadInto (state : Loading) (parameter : Parameter) : Loading :=
  match newVariable state.env parameter with
  | some entry => { env := state.env ++ [entry], loaded := state.loaded ++ [entry.1] }
  | none => state

section Loop

variable (send : Nat → GetParametersByPath → ParameterPage)

/-- The answer to a request, the first one with number zero. -/
def pageAt (path : String) (request : Nat) (nextToken : Option String) : ParameterPage :=
  send request
    { path := path, recursive := true, withDecryption := true, nextToken := nextToken }

/-- The loop over the pages, for at most so many of them. -/
def loadPages (path : String) : Nat → Nat → Option String → Loading → Option Loading
  | 0, _, _, _ => none
  | fuel + 1, request, nextToken, state =>
    let page := pageAt send path request nextToken
    let state := (page.parameters.getD []).foldl loadInto state
    match truthy page.nextToken with
    | some next => loadPages path fuel (request + 1) (some next) state
    | none => some state

/-- Fill the environment from the store, and return the names that have been set. -/
def loadConfigFromParameterStore (fuel : Nat) (env : ProcessEnv) :
    Option (ProcessEnv × List String) :=
  match configParameterPath env with
  | none => some (env, [])
  | some path =>
    (loadPages send path fuel 0 none ⟨env, []⟩).map fun state => (state.env, sort state.loaded)

/-- The pages that the store answers with, from a request on: each but the last has a token for
the next. -/
inductive Paginates (path : String) : Nat → Option String → List ParameterPage → Prop where
  | last {request : Nat} {nextToken : Option String}
    (h : truthy (pageAt send path request nextToken).nextToken = none) :
    Paginates path request nextToken [pageAt send path request nextToken]
  | more {request : Nat} {nextToken : Option String} {next : String} {pages : List ParameterPage}
    (h : truthy (pageAt send path request nextToken).nextToken = some next)
    (hrest : Paginates path (request + 1) (some next) pages) :
    Paginates path request nextToken (pageAt send path request nextToken :: pages)

end Loop

/-- The parameters of some pages. -/
def parameterList (pages : List ParameterPage) : List Parameter :=
  pages.flatMap fun page => page.parameters.getD []

@[simp] theorem parameterList_nil : parameterList [] = [] := rfl

@[simp] theorem parameterList_cons (page : ParameterPage) (pages : List ParameterPage) :
    parameterList (page :: pages) = page.parameters.getD [] ++ parameterList pages := rfl

/-- The value of the first parameter with a value that is for a variable. -/
def firstValue (name : String) (parameters : List Parameter) : Option String :=
  parameters.findSome? fun parameter =>
    if parameter.variable = some name then parameter.value else none

/-- A name with a value that the environment has none for is added. -/
theorem envValue_append {env : ProcessEnv} {name : String} (h : envValue env name = none)
    (value other : String) : envValue (env ++ [(name, value)]) other =
      (envValue env other).or (if name = other then some value else none) := by
  obtain ⟨hlookup, hinherited⟩ := Option.or_eq_none_iff.mp h
  by_cases hother : name = other
  · subst hother
    simp [envValue, List.lookup_append, hlookup, hinherited]
  · have hne : (other == name) = false := beq_false_of_ne (Ne.symm hother)
    simp [envValue, List.lookup_append, List.lookup_cons, hne, hother]

/-- A parameter is added, or it changes nothing: it has no name or no value, or its variable has
one. -/
theorem loadInto_cases (state : Loading) (parameter : Parameter) :
    (∃ name value, parameter.variable = some name ∧ parameter.value = some value ∧
      envValue state.env name = none ∧ loadInto state parameter =
        { env := state.env ++ [(name, value)], loaded := state.loaded ++ [name] }) ∨
    loadInto state parameter = state ∧ ∀ name value, parameter.variable = some name →
      parameter.value = some value → (envValue state.env name).isSome := by
  cases hname : parameter.variable with
  | none => exact .inr ⟨by simp [loadInto, newVariable, hname], by simp⟩
  | some name =>
    cases hvalue : parameter.value with
    | none => exact .inr ⟨by simp [loadInto, newVariable, hname, hvalue], by simp⟩
    | some value =>
      cases henv : envValue state.env name with
      | none =>
        exact .inl ⟨name, value, rfl, rfl, henv,
          by simp [loadInto, newVariable, hname, hvalue, henv]⟩
      | some old =>
        exact .inr ⟨by simp [loadInto, newVariable, hname, hvalue, henv], by simp [henv]⟩

/-- The variables after one parameter. -/
theorem envValue_loadInto (state : Loading) (parameter : Parameter) (name : String) :
    envValue (loadInto state parameter).env name =
      (envValue state.env name).or (firstValue name [parameter]) := by
  rcases loadInto_cases state parameter with
    ⟨other, value, hname, hvalue, henv, hload⟩ | ⟨hload, hsome⟩
  · simp [hload, envValue_append henv, firstValue, hname, hvalue]
  · rw [hload]
    by_cases hname : parameter.variable = some name
    · cases hvalue : parameter.value with
      | none => simp [firstValue, hvalue]
      | some value =>
        obtain ⟨old, hold⟩ := Option.isSome_iff_exists.mp (hsome name value hname hvalue)
        rw [hold, Option.some_or]
    · simp [firstValue, hname]

/-- The first parameter for a variable comes first. -/
theorem firstValue_cons (name : String) (parameter : Parameter) (parameters : List Parameter) :
    firstValue name (parameter :: parameters) =
      (firstValue name [parameter]).or (firstValue name parameters) := by
  cases hfirst : (if parameter.variable = some name then parameter.value else none) <;>
    simp [firstValue, hfirst]

/-- The variables after some parameters. -/
theorem envValue_foldl_loadInto (parameters : List Parameter) (state : Loading) (name : String) :
    envValue (parameters.foldl loadInto state).env name =
      (envValue state.env name).or (firstValue name parameters) := by
  induction parameters generalizing state with
  | nil => simp [firstValue]
  | cons parameter parameters ih =>
    rw [List.foldl_cons, ih, envValue_loadInto, firstValue_cons name parameter parameters,
      Option.or_assoc]

/-- The names set by one parameter. -/
theorem mem_loadInto_loaded (state : Loading) (parameter : Parameter) (name : String) :
    name ∈ (loadInto state parameter).loaded ↔ name ∈ state.loaded ∨
      envValue state.env name = none ∧ (firstValue name [parameter]).isSome := by
  rcases loadInto_cases state parameter with
    ⟨other, value, hname, hvalue, henv, hload⟩ | ⟨hload, hsome⟩
  · by_cases hother : other = name
    · subst hother
      simp [hload, firstValue, hname, hvalue, henv]
    · simp [hload, firstValue, hname, hother, Ne.symm hother]
  · rw [hload]
    refine (or_iff_left ?_).symm
    rintro ⟨hnone, hfirst⟩
    by_cases hname : parameter.variable = some name
    · cases hvalue : parameter.value with
      | none => simp [firstValue, hvalue] at hfirst
      | some value => exact absurd (hsome name value hname hvalue) (by simp [hnone])
    · simp [firstValue, hname] at hfirst

/-- The names that are returned are set in the environment, and each is there once. -/
structure NamesSet (state : Loading) : Prop where
  nodup : state.loaded.Nodup
  isSome : ∀ name ∈ state.loaded, (envValue state.env name).isSome

/-- A parameter keeps it so. -/
theorem NamesSet.loadInto {state : Loading} (h : NamesSet state) (parameter : Parameter) :
    NamesSet (loadInto state parameter) := by
  constructor
  · rcases loadInto_cases state parameter with
      ⟨name, value, -, -, henv, hload⟩ | ⟨hload, -⟩
    · rw [hload]
      refine List.nodup_append.mpr ⟨h.nodup, List.nodup_cons.mpr (by simp), ?_⟩
      rintro other hmem _ hname rfl
      rw [List.mem_singleton.mp hname] at hmem
      exact absurd (h.isSome name hmem) (by simp [henv])
    · rw [hload]
      exact h.nodup
  · intro name hname
    rw [envValue_loadInto]
    rcases (mem_loadInto_loaded state parameter name).mp hname with hmem | ⟨hnone, hfirst⟩
    · rw [Option.isSome_or, h.isSome name hmem, Bool.true_or]
    · rw [hnone, Option.none_or, hfirst]

/-- Some parameters keep it so. -/
theorem NamesSet.foldl_loadInto {state : Loading} (h : NamesSet state)
    (parameters : List Parameter) : NamesSet (parameters.foldl Lambda.loadInto state) := by
  induction parameters generalizing state with
  | nil => exact h
  | cons parameter parameters ih => exact ih (h.loadInto parameter)

/-- The names set by some parameters. -/
theorem mem_foldl_loadInto_loaded (parameters : List Parameter) (state : Loading)
    (name : String) : name ∈ (parameters.foldl loadInto state).loaded ↔ name ∈ state.loaded ∨
      envValue state.env name = none ∧ (firstValue name parameters).isSome := by
  induction parameters generalizing state with
  | nil => simp [firstValue]
  | cons parameter parameters ih =>
    rw [List.foldl_cons, ih, mem_loadInto_loaded, envValue_loadInto, Option.or_eq_none_iff,
      firstValue_cons name parameter parameters, Option.isSome_or]
    cases firstValue name [parameter] <;> simp

/-- The environment alone is loaded as in the bootstrap. -/
theorem env_foldl_loadInto (pages : List ParameterPage) (state : Loading) :
    ((parameterList pages).foldl loadInto state).env = pages.foldl loadPage state.env := by
  have hone : ∀ (state : Loading) (parameter : Parameter),
      (loadInto state parameter).env = loadParameter state.env parameter := by
    intro state parameter
    rw [loadInto, loadParameter]
    cases newVariable state.env parameter <;> rfl
  have hparameters : ∀ (parameters : List Parameter) (state : Loading),
      (parameters.foldl loadInto state).env = parameters.foldl loadParameter state.env := by
    intro parameters
    induction parameters with
    | nil => exact fun _ => rfl
    | cons parameter parameters ih => exact fun state => by rw [List.foldl_cons, ih, hone]; rfl
  induction pages generalizing state with
  | nil => rfl
  | cons page pages ih =>
    rw [parameterList_cons, List.foldl_append, ih, hparameters]
    rfl

/-- With fuel for all the pages, the loop goes through all their parameters. -/
theorem loadPages_eq {send : Nat → GetParametersByPath → ParameterPage} {path : String}
    {request : Nat} {nextToken : Option String} {pages : List ParameterPage}
    (h : Paginates send path request nextToken pages) {fuel : Nat} (hfuel : pages.length ≤ fuel)
    (state : Loading) : loadPages send path fuel request nextToken state =
      some ((parameterList pages).foldl loadInto state) := by
  induction h generalizing fuel state with
  | last hlast =>
    obtain ⟨fuel, rfl⟩ := Nat.exists_eq_add_of_le' hfuel
    simp only [List.length_cons, List.length_nil, loadPages, hlast, parameterList_cons,
      parameterList_nil, List.append_nil]
  | more hmore _ ih =>
    obtain ⟨fuel, rfl⟩ := Nat.exists_eq_succ_of_ne_zero
      (Nat.pos_iff_ne_zero.mp (Nat.lt_of_lt_of_le (Nat.succ_pos _) hfuel))
    simp only [loadPages, hmore]
    rw [ih (Nat.le_of_succ_le_succ hfuel), parameterList_cons, List.foldl_append]

/-- Every page is loaded. What the environment had stays, a variable without a value gets that of
the first parameter for it, nothing else changes, the names that are returned are those that have
been set, and other pages with the same parameters give the same. -/
theorem loadConfigFromParameterStore_by_list
    {send : Nat → GetParametersByPath → ParameterPage} {env : ProcessEnv} {path : String}
    {pages : List ParameterPage} (hpath : configParameterPath env = some path)
    (hpages : Paginates send path 0 none pages) :
    ∃ final loaded,
      (∀ fuel, pages.length ≤ fuel →
        loadConfigFromParameterStore send fuel env = some (final, loaded)) ∧
      final = pages.foldl loadPage env ∧
      (∀ name value, envValue env name = some value → envValue final name = some value) ∧
      (∀ name, envValue env name = none →
        envValue final name = firstValue name (parameterList pages)) ∧
      loaded.Nodup ∧
      (∀ name, name ∈ loaded ↔ envValue env name = none ∧ envValue final name ≠ none) ∧
      ∀ send' pages', Paginates send' path 0 none pages' →
        parameterList pages' = parameterList pages → ∀ fuel, pages'.length ≤ fuel →
          loadConfigFromParameterStore send' fuel env = some (final, loaded) := by
  let state := (parameterList pages).foldl loadInto ⟨env, []⟩
  have hrun : ∀ send' pages', Paginates send' path 0 none pages' →
      parameterList pages' = parameterList pages → ∀ fuel, pages'.length ≤ fuel →
        loadConfigFromParameterStore send' fuel env = some (state.env, sort state.loaded) := by
    intro send' pages' hpages' hlist fuel hfuel
    rw [loadConfigFromParameterStore, hpath]
    simp only [loadPages_eq hpages' hfuel, hlist, Option.map_some, state]
  have hvalue : ∀ name, envValue state.env name =
      (envValue env name).or (firstValue name (parameterList pages)) :=
    envValue_foldl_loadInto (parameterList pages) ⟨env, []⟩
  have hnames : NamesSet state :=
    NamesSet.foldl_loadInto ⟨List.nodup_nil, by simp⟩ (parameterList pages)
  have hsorted : (sort state.loaded).Perm state.loaded := List.mergeSort_perm ..
  refine ⟨state.env, sort state.loaded, hrun send pages hpages rfl,
    env_foldl_loadInto pages ⟨env, []⟩, fun name value hold => ?_, fun name hnone => ?_,
    hsorted.nodup_iff.mpr hnames.nodup, fun name => ?_, hrun⟩
  · rw [hvalue, hold, Option.some_or]
  · rw [hvalue, hnone, Option.none_or]
  · rw [hsorted.mem_iff, mem_foldl_loadInto_loaded, hvalue]
    cases envValue env name <;> simp [Option.isSome_iff_ne_none]

/-- A page with a parameter of an address and one without a value. -/
def firstPage : ParameterPage where
  parameters := some [⟨some "/vertex-api/DATABASE_URL", some "postgres://somewhere"⟩,
    ⟨some "/vertex-api/JWT_SECRET", none⟩]
  nextToken := some "more"

/-- A page with another address. -/
def lastPage : ParameterPage where
  parameters := some [⟨some "/vertex-api/old/DATABASE_URL", some "postgres://elsewhere"⟩]
  nextToken := none

/-- Two pages with the same name give the value of the first one. -/
theorem loadConfigFromParameterStore_two_pages :
    ∃ final loaded, loadConfigFromParameterStore
        (fun request _ => if request = 0 then firstPage else lastPage) 2
        [("CONFIG_PARAMETER_PREFIX", "/vertex-api/")] = some (final, loaded) ∧
      envValue final "DATABASE_URL" = some "postgres://somewhere" := by
  obtain ⟨final, loaded, hrun, -, -, hset, -⟩ := @loadConfigFromParameterStore_by_list
    (fun request _ => if request = 0 then firstPage else lastPage)
    [("CONFIG_PARAMETER_PREFIX", "/vertex-api/")] "/vertex-api/" [firstPage, lastPage]
    (by decide) (.more rfl (.last rfl))
  refine ⟨final, loaded, hrun 2 (Nat.le_refl 2), ?_⟩
  rw [hset "DATABASE_URL" (by decide)]
  decide +kernel

end VertexApi.Lambda
