import Mathlib.Logic.Function.Basic
import VertexApi.Core.Machine
import VertexApi.Lambda.ParameterStore

/-!
# The cached bootstrap of the function

The promise of the first build is cached for the life of an execution environment, and every
invocation awaits it. So one build serves all invocations, also the ones that arrive while it
runs. Its rejection is cached as well: after a build has failed, no invocation starts another.
-/

namespace VertexApi.Lambda

/-- Where a build stands. -/
inductive BuildPhase (ε : Type) where
  /-- A page of parameters is awaited, the first one or the one after a token. -/
  | loading (nextToken : Option String)
  /-- The application is imported, created, configured and started. -/
  | starting
  | ready
  | failed (error : ε)
  deriving DecidableEq, Repr

/-- Where an invocation stands. -/
inductive Invocation (ε : Type) where
  | awaiting (build : Nat)
  /-- The handler of a build takes over. -/
  | served (build : Nat)
  | failed (error : ε)
  deriving DecidableEq, Repr

/-- An execution environment: its builds in the order of their starts. -/
structure EnvironmentState (ε : Type) where
  env : ProcessEnv
  /-- The build whose promise is cached. -/
  bootstrapping : Option Nat
  builds : List (BuildPhase ε)
  invocations : Nat → Option (Invocation ε)

/-- The steps of a run. -/
inductive EnvironmentLabel (ε : Type) where
  | invoke (id : Nat)
  /-- The store answers a request for a page. -/
  | page (build : Nat) (answer : Except ε ParameterPage)
  /-- The application has started, or has failed to. -/
  | start (build : Nat) (answer : Except ε Unit)
  /-- The promise that an invocation awaits has settled. -/
  | resume (id : Nat)

section Steps

variable {ε : Type}

/-- The start of a build; without a path nothing is loaded. -/
def startBuild (env : ProcessEnv) : BuildPhase ε :=
  match configParameterPath env with
  | none => .starting
  | some _ => .loading none

namespace EnvironmentState

/-- A new execution environment. -/
def initial (env : ProcessEnv) : EnvironmentState ε where
  env := env
  bootstrapping := none
  builds := []
  invocations _ := none

/-- `bootstrapping ??= build()`, with the build whose promise is cached then. -/
def bootstrap (s : EnvironmentState ε) : EnvironmentState ε × Nat :=
  match s.bootstrapping with
  | some build => (s, build)
  | none => ({ s with
      bootstrapping := some s.builds.length
      builds := s.builds ++ [startBuild s.env] }, s.builds.length)

/-- The arrival of an invocation. -/
def invoke (s : EnvironmentState ε) (id : Nat) : EnvironmentState ε :=
  { s.bootstrap.1 with
    invocations := Function.update s.invocations id (some (.awaiting s.bootstrap.2)) }

/-- A page arrives in the environment, or its request fails the build. -/
def page (s : EnvironmentState ε) (build : Nat) : Except ε ParameterPage → EnvironmentState ε
  | .error error => { s with builds := s.builds.set build (.failed error) }
  | .ok page => { s with
      env := loadPage s.env page
      builds := s.builds.set build
        (match JsString.truthy page.nextToken with
        | none => .starting
        | some token => .loading (some token)) }

/-- The end of a build. -/
def start (s : EnvironmentState ε) (build : Nat) : Except ε Unit → EnvironmentState ε
  | .error error => { s with builds := s.builds.set build (.failed error) }
  | .ok () => { s with builds := s.builds.set build .ready }

/-- An invocation goes on. -/
def setInvocation (s : EnvironmentState ε) (id : Nat) (invocation : Invocation ε) :
    EnvironmentState ε :=
  { s with invocations := Function.update s.invocations id (some invocation) }

end EnvironmentState

/-- Builds and invocations of one execution environment. -/
def environment : Machine (EnvironmentState ε) (EnvironmentLabel ε) where
  step s
    | .invoke id => if (s.invocations id).isSome then none else some (s.invoke id)
    | .page build answer =>
      match s.builds[build]? with
      | some (.loading _) => some (s.page build answer)
      | _ => none
    | .start build answer =>
      match s.builds[build]? with
      | some .starting => some (s.start build answer)
      | _ => none
    | .resume id =>
      match s.invocations id with
      | some (.awaiting build) =>
        match s.builds[build]? with
        | some .ready => some (s.setInvocation id (.served build))
        | some (.failed error) => some (s.setInvocation id (.failed error))
        | _ => none
      | _ => none

/-- A new invocation arrives at any time. -/
theorem step_invoke {s : EnvironmentState ε} {id : Nat} (hnew : s.invocations id = none) :
    environment.step s (.invoke id) = some (s.invoke id) :=
  if_neg (by rw [hnew]; exact Bool.false_ne_true)

/-- A build that has not settled. -/
def BuildPhase.inFlight : BuildPhase ε → Bool
  | .loading _ | .starting => true
  | .ready | .failed _ => false

/-- A step starts an invocation, moves a build in flight, or resumes an invocation whose build
has settled. -/
theorem environment_step_cases {s t : EnvironmentState ε} {label : EnvironmentLabel ε}
    (h : environment.step s label = some t) :
    (∃ id, label = .invoke id ∧ s.invocations id = none ∧ t = s.invoke id) ∨
    (∃ build phase next env, (∀ id, label ≠ .invoke id) ∧ s.builds[build]? = some phase ∧
      phase.inFlight = true ∧ (∀ name value, s.env.lookup name = some value →
        env.lookup name = some value) ∧
      t = { s with env := env, builds := s.builds.set build next }) ∨
    ∃ id build phase invocation, label = .resume id ∧ s.invocations id = some (.awaiting build) ∧
      s.builds[build]? = some phase ∧
      (phase = .ready ∧ invocation = .served build ∨
        ∃ error, phase = .failed error ∧ invocation = .failed error) ∧
      t = s.setInvocation id invocation := by
  cases label with
  | invoke id =>
    obtain ⟨hnew, ht⟩ := Option.ite_none_left_eq_some.mp h
    exact Or.inl ⟨id, rfl, Option.not_isSome_iff_eq_none.mp hnew, (Option.some.inj ht).symm⟩
  | page build answer =>
    refine Or.inr (Or.inl ?_)
    simp only [environment] at h
    split at h
    · next token hphase =>
      obtain rfl := Option.some.inj h
      cases answer with
      | error error =>
        exact ⟨build, _, .failed error, s.env, fun _ => by simp only [ne_eq, reduceCtorEq,
          not_false_eq_true], hphase, rfl, fun _ _ h => h, rfl⟩
      | ok page =>
        exact ⟨build, _, _, loadPage s.env page, fun _ => by simp only [ne_eq, reduceCtorEq,
          not_false_eq_true], hphase, rfl, fun _ _ h => lookup_loadPage h page, rfl⟩
    · cases h
  | start build answer =>
    refine Or.inr (Or.inl ?_)
    simp only [environment] at h
    split at h
    · next hphase =>
      obtain rfl := Option.some.inj h
      cases answer with
      | error error =>
        exact ⟨build, _, .failed error, s.env, fun _ => by simp only [ne_eq, reduceCtorEq,
          not_false_eq_true], hphase, rfl, fun _ _ h => h, rfl⟩
      | ok =>
        exact ⟨build, _, .ready, s.env, fun _ => by simp only [ne_eq, reduceCtorEq,
          not_false_eq_true], hphase, rfl, fun _ _ h => h, rfl⟩
    · cases h
  | resume id =>
    refine Or.inr (Or.inr ?_)
    simp only [environment] at h
    split at h
    · next build hinvocation =>
      split at h
      · next hphase =>
        exact ⟨id, build, .ready, _, rfl, hinvocation, hphase, Or.inl ⟨rfl, rfl⟩,
          (Option.some.inj h).symm⟩
      · next error hphase =>
        exact ⟨id, build, .failed error, _, rfl, hinvocation, hphase, Or.inr ⟨error, rfl, rfl⟩,
          (Option.some.inj h).symm⟩
      · cases h
    · cases h

/-- What an invocation says of the build that it has awaited. -/
def Invocation.Fits (invocation : Invocation ε) (phase : BuildPhase ε) : Prop :=
  match invocation with
  | .awaiting build => build = 0
  | .served build => build = 0 ∧ phase = .ready
  | .failed error => phase = .failed error

/-- Nothing has been invoked, or there is one build, whose promise is cached and which all
invocations have awaited. -/
inductive OneBuild (s : EnvironmentState ε) : Prop where
  | idle (hbootstrapping : s.bootstrapping = none) (hbuilds : s.builds = [])
    (hinvocations : ∀ id, s.invocations id = none) : OneBuild s
  | cached (phase : BuildPhase ε) (hbootstrapping : s.bootstrapping = some 0)
    (hbuilds : s.builds = [phase])
    (hinvocations : ∀ id invocation, s.invocations id = some invocation → invocation.Fits phase) :
    OneBuild s

namespace OneBuild

variable {s t : EnvironmentState ε} {label : EnvironmentLabel ε}

/-- The build that a number stands for is the only one. -/
theorem eq_of_getElem? {build : Nat} {phase : BuildPhase ε} (h : OneBuild s)
    (hbuild : s.builds[build]? = some phase) : build = 0 ∧ s.builds = [phase] := by
  cases h with
  | idle _ hbuilds _ =>
    rw [hbuilds] at hbuild
    cases hbuild
  | cached only _ hbuilds _ =>
    rw [hbuilds] at hbuild ⊢
    rw [List.getElem?_singleton] at hbuild
    obtain ⟨rfl, hphase⟩ := Option.ite_none_right_eq_some.mp hbuild
    exact ⟨rfl, by rw [Option.some.inj hphase]⟩

/-- The builds of an environment in which nothing was invoked, or of one with a build. -/
theorem builds_cases (h : OneBuild s) : s.builds = [] ∨ ∃ phase, s.builds = [phase] := by
  cases h with
  | idle _ hbuilds _ => exact Or.inl hbuilds
  | cached phase _ hbuilds _ => exact Or.inr ⟨phase, hbuilds⟩

/-- A new environment has no build. -/
theorem initial (env : ProcessEnv) : OneBuild (.initial env : EnvironmentState ε) :=
  .idle rfl rfl fun _ => rfl

/-- An arriving invocation awaits the one build, which it starts if there is none. -/
theorem invoke (h : OneBuild s) (id : Nat) : OneBuild (s.invoke id) ∧
    (s.invoke id).invocations id = some (.awaiting 0) ∧
    (s.builds ≠ [] → (s.invoke id).builds = s.builds) := by
  cases h with
  | idle hbootstrapping hbuilds hinvocations =>
    have hstarted : s.bootstrap = ({ s with
        bootstrapping := some 0, builds := [startBuild s.env] }, 0) := by
      simp only [EnvironmentState.bootstrap, hbootstrapping, hbuilds, List.length_nil,
        List.nil_append]
    simp only [EnvironmentState.invoke, hstarted, Function.update_self, hbuilds, ne_eq, not_true,
      false_implies, and_true]
    refine .cached (startBuild s.env) rfl rfl fun other invocation hother => ?_
    rcases update_eq_some_iff.mp hother with ⟨-, rfl⟩ | ⟨-, hold⟩
    · rfl
    · rw [hinvocations] at hold
      cases hold
  | cached phase hbootstrapping hbuilds hinvocations =>
    have hcached : s.bootstrap = (s, 0) := by
      simp only [EnvironmentState.bootstrap, hbootstrapping]
    simp only [EnvironmentState.invoke, hcached, Function.update_self, implies_true, and_true]
    refine .cached phase hbootstrapping hbuilds fun other invocation hother => ?_
    rcases update_eq_some_iff.mp hother with ⟨-, rfl⟩ | ⟨-, hold⟩
    · rfl
    · exact hinvocations other invocation hold

/-- The one build moves. -/
theorem set (h : OneBuild s) {build : Nat} {phase : BuildPhase ε}
    (hbuild : s.builds[build]? = some phase) (hphase : phase.inFlight = true) (env : ProcessEnv)
    (next : BuildPhase ε) :
    OneBuild { s with env := env, builds := s.builds.set build next } := by
  obtain ⟨rfl, hbuilds⟩ := h.eq_of_getElem? hbuild
  cases h with
  | idle _ hnone _ =>
    rw [hnone] at hbuilds
    cases hbuilds
  | cached only hbootstrapping honly hinvocations =>
    obtain rfl : only = phase := List.singleton_inj.mp (honly.symm.trans hbuilds)
    refine .cached next hbootstrapping (by rw [hbuilds, List.set_cons_zero]) ?_
    intro id invocation hinvocation
    have hfits := hinvocations id invocation hinvocation
    cases invocation with
    | awaiting build => exact hfits
    | served build =>
      obtain ⟨-, rfl⟩ := hfits
      cases hphase
    | failed error =>
      obtain rfl : only = .failed error := hfits
      cases hphase

/-- An invocation goes on after the one build. -/
theorem resume (h : OneBuild s) {id build : Nat} {phase : BuildPhase ε} {invocation : Invocation ε}
    (hbuild : s.builds[build]? = some phase)
    (hresumed : phase = .ready ∧ invocation = .served build ∨
      ∃ error, phase = .failed error ∧ invocation = .failed error) :
    OneBuild (s.setInvocation id invocation) := by
  obtain ⟨rfl, hbuilds⟩ := h.eq_of_getElem? hbuild
  cases h with
  | idle _ hnone _ =>
    rw [hnone] at hbuilds
    cases hbuilds
  | cached only hbootstrapping honly hinvocations =>
    obtain rfl : only = phase := List.singleton_inj.mp (honly.symm.trans hbuilds)
    refine .cached only hbootstrapping honly fun other found hfound => ?_
    rcases update_eq_some_iff.mp hfound with ⟨-, rfl⟩ | ⟨-, hold⟩
    · rcases hresumed with ⟨rfl, rfl⟩ | ⟨error, rfl, rfl⟩
      · exact ⟨rfl, rfl⟩
      · rfl
    · exact hinvocations other found hold

/-- Every step keeps to one build, and none starts beside it. -/
theorem step (h : OneBuild s) (hstep : environment.step s label = some t) :
    OneBuild t ∧ (s.builds ≠ [] → t.builds.length = s.builds.length) := by
  rcases environment_step_cases hstep with ⟨id, -, -, rfl⟩ |
    ⟨build, phase, next, env, -, hbuild, hphase, -, rfl⟩ |
    ⟨id, build, phase, invocation, -, -, hbuild, hresumed, rfl⟩
  · obtain ⟨hone, -, hsame⟩ := h.invoke id
    exact ⟨hone, fun hbuilds => congrArg List.length (hsame hbuilds)⟩
  · exact ⟨h.set hbuild hphase env next, fun _ => List.length_set ..⟩
  · exact ⟨h.resume hbuild hresumed, fun _ => rfl⟩

/-- A build that is ready stays so. -/
theorem ready_step (h : OneBuild s) (hready : s.builds = [.ready])
    (hstep : environment.step s label = some t) : t.builds = [.ready] := by
  rcases environment_step_cases hstep with ⟨id, -, -, rfl⟩ |
    ⟨build, phase, next, env, -, hbuild, hphase, -, rfl⟩ |
    ⟨id, build, phase, invocation, -, -, -, -, rfl⟩
  · exact ((h.invoke id).2.2 (by rw [hready]; exact List.cons_ne_nil _ _)).trans hready
  · obtain ⟨-, hbuilds⟩ := h.eq_of_getElem? hbuild
    obtain rfl : phase = .ready := List.singleton_inj.mp (hbuilds.symm.trans hready)
    cases hphase
  · exact hready

end OneBuild

/-- No two builds are in flight after the step, and none starts after one was ready. -/
def BuildsOnce (s : EnvironmentState ε) (label : EnvironmentLabel ε) : Prop :=
  ∀ t, environment.step s label = some t →
    (t.builds.filter BuildPhase.inFlight).length ≤ 1 ∧
      (.ready ∈ s.builds → t.builds.length = s.builds.length)

/-- Builds were started, and all of them have failed. -/
def HasFailed (s : EnvironmentState ε) : Prop :=
  s.builds ≠ [] ∧ ∀ phase ∈ s.builds, ∃ error, phase = .failed error

/-- An invocation that arrives after failed builds starts a new one. -/
def Retries (s : EnvironmentState ε) (label : EnvironmentLabel ε) : Prop :=
  ∀ id t, label = .invoke id → environment.step s label = some t → HasFailed s →
    t.builds.length = s.builds.length + 1

/-- No invocation arrives after a build has failed. -/
def ArrivesBeforeFailure (s : EnvironmentState ε) (label : EnvironmentLabel ε) : Prop :=
  ∀ id, label = .invoke id → s.invocations id = none → ∀ error, .failed error ∉ s.builds

/-- An invocation that arrives when a build is ready is served by it, or is about to be. -/
def ServesArrivals (env : ProcessEnv) (labels : List (EnvironmentLabel ε)) : Prop :=
  ∀ before id after m t build, labels = before ++ .invoke id :: after →
    environment.exec (.initial env) before = some m → m.builds[build]? = some .ready →
    environment.exec (.initial env) labels = some t →
    t.invocations id = some (.served build) ∨ t.invocations id = some (.awaiting build) ∧
      ∃ later, environment.step t (.resume id) = some later ∧
        later.invocations id = some (.served build)

variable {env : ProcessEnv} {labels : List (EnvironmentLabel ε)}

/-- No run has a second build. -/
theorem oneBuild_of_exec {t : EnvironmentState ε}
    (h : environment.exec (.initial env) labels = some t) : OneBuild t :=
  environment.exec_invariant (OneBuild.initial env) (fun _ _ _ hm hstep => (hm.step hstep).1) h

/-- What the environment has stays, so a value that is set wins over the parameters of all
builds, and those of a failed build over later ones. -/
theorem lookup_env_of_exec {s t : EnvironmentState ε} {name value : String}
    (hvalue : s.env.lookup name = some value) (h : environment.exec s labels = some t) :
    t.env.lookup name = some value := by
  refine environment.exec_invariant (P := fun s => s.env.lookup name = some value) hvalue ?_ h
  intro m label n hm hstep
  rcases environment_step_cases hstep with ⟨id, -, -, rfl⟩ | ⟨_, _, _, env, -, -, -, hkeeps, rfl⟩ |
    ⟨_, _, _, _, -, -, -, -, rfl⟩
  · have hbootstrap : m.bootstrap.1.env = m.env := by
      unfold EnvironmentState.bootstrap
      split
      · rfl
      · rfl
    exact (congrArg (List.lookup name) hbootstrap).trans hm
  · exact hkeeps name value hm
  · exact hm

/-- A step next to one build starts no second one. -/
theorem OneBuild.buildsOnce {s : EnvironmentState ε} (h : OneBuild s)
    (label : EnvironmentLabel ε) : BuildsOnce s label := by
  intro t hstep
  obtain ⟨hone, hlength⟩ := h.step hstep
  refine ⟨?_, fun hready => hlength (List.ne_nil_of_mem hready)⟩
  have hfilter : (t.builds.filter BuildPhase.inFlight).length ≤ t.builds.length :=
    List.length_filter_le ..
  rcases hone.builds_cases with hbuilds | ⟨phase, hbuilds⟩
  · rw [hbuilds] at hfilter ⊢
    exact Nat.le_succ_of_le hfilter
  · rw [hbuilds] at hfilter ⊢
    exact hfilter

/-- An invocation is answered by a new build unless it arrives after a failure. -/
theorem OneBuild.arrivesBeforeFailure_iff {s : EnvironmentState ε} (h : OneBuild s)
    (label : EnvironmentLabel ε) : ArrivesBeforeFailure s label ↔ Retries s label := by
  constructor
  · rintro harrives id t rfl hstep ⟨hbuilds, hfailed⟩
    obtain ⟨phase, hphase⟩ := List.exists_mem_of_ne_nil _ hbuilds
    obtain ⟨error, rfl⟩ := hfailed phase hphase
    obtain ⟨hnew, -⟩ := Option.ite_none_left_eq_some.mp hstep
    exact absurd hphase (harrives id rfl (Option.not_isSome_iff_eq_none.mp hnew) error)
  · rintro hretries id rfl hnew error hmem
    have hstep := step_invoke hnew
    have hbuilds : s.builds = [.failed error] := by
      rcases h.builds_cases with hbuilds | ⟨phase, hbuilds⟩
      · rw [hbuilds] at hmem
        cases hmem
      · rw [hbuilds] at hmem ⊢
        rw [List.mem_singleton.mp hmem]
    have hfailed : HasFailed s := by
      rw [HasFailed, hbuilds]
      exact ⟨List.cons_ne_nil _ _, fun phase hphase => ⟨error, List.mem_singleton.mp hphase⟩⟩
    have hmore := hretries id _ rfl hstep hfailed
    have hsame := (h.step hstep).2 hfailed.1
    omega

/-- Every invocation that arrives when a build is ready is served. -/
theorem servesArrivals (env : ProcessEnv) (labels : List (EnvironmentLabel ε)) :
    ServesArrivals env labels := by
  rintro before id after m t build rfl hm hbuild ht
  have hone := oneBuild_of_exec hm
  obtain ⟨rfl, hready⟩ := hone.eq_of_getElem? hbuild
  obtain ⟨m', hm', hafter⟩ := environment.exec_append_some.mp ht
  obtain rfl := Option.some.inj (hm.symm.trans hm')
  obtain ⟨arrived, harrived, hrest⟩ := Option.bind_eq_some_iff.mp hafter
  obtain ⟨-, hinvoke⟩ := Option.ite_none_left_eq_some.mp harrived
  obtain rfl := Option.some.inj hinvoke
  obtain ⟨hinvoked, hawaiting, -⟩ := hone.invoke id
  have hstill := hone.ready_step hready harrived
  -- From the arrival on, the build stays ready and the invocation is there.
  have hlast := environment.exec_invariant (P := fun s => OneBuild s ∧ s.builds = [.ready] ∧
      ∃ invocation, s.invocations id = some invocation) ⟨hinvoked, hstill, _, hawaiting⟩ ?step hrest
  case step =>
    rintro s label next ⟨hs, hbuilds, invocation, hinvocation⟩ hstep
    refine ⟨(hs.step hstep).1, hs.ready_step hbuilds hstep, ?_⟩
    rcases environment_step_cases hstep with ⟨other, -, hnew, rfl⟩ | ⟨_, _, _, _, -, -, -, -, rfl⟩ |
      ⟨other, _, _, resumed, -, -, -, -, rfl⟩
    · have hne : id ≠ other := by
        rintro rfl
        rw [hnew] at hinvocation
        cases hinvocation
      exact ⟨invocation, (Function.update_of_ne hne ..).trans hinvocation⟩
    · exact ⟨invocation, hinvocation⟩
    · by_cases he : id = other
      · subst he
        exact ⟨resumed, Function.update_self ..⟩
      · exact ⟨invocation, (Function.update_of_ne he ..).trans hinvocation⟩
  obtain ⟨honeLast, hbuilds, invocation, hinvocation⟩ := hlast
  cases honeLast with
  | idle _ hnone _ =>
    rw [hnone] at hbuilds
    cases hbuilds
  | cached phase _ hphase hfits =>
    obtain rfl : phase = .ready := List.singleton_inj.mp (hphase.symm.trans hbuilds)
    have hfit := hfits id invocation hinvocation
    cases invocation with
    | awaiting build =>
      obtain rfl : build = 0 := hfit
      refine Or.inr ⟨hinvocation, t.setInvocation id (.served 0), ?_, Function.update_self ..⟩
      simp only [environment, hinvocation, hbuilds, List.getElem?_cons_zero]
    | served build =>
      obtain ⟨rfl, -⟩ := hfit
      exact Or.inl hinvocation
    | failed error => cases hfit

end Steps

/-- In every run no two builds are in flight, none starts after one was ready, and the invocations
that arrive then are served by it. All invocations that arrive after a failure start a new build
exactly if no invocation arrives after one. -/
theorem bootstrap_recovers_iff {ε : Type} (env : ProcessEnv) (labels : List (EnvironmentLabel ε)) :
    environment.Meets BuildsOnce (.initial env) labels ∧ ServesArrivals env labels ∧
      (environment.Meets ArrivesBeforeFailure (.initial env) labels ↔
        environment.Meets Retries (.initial env) labels) := by
  have hstep (m : EnvironmentState ε) (label : EnvironmentLabel ε) (t : EnvironmentState ε)
      (hm : OneBuild m) (ht : environment.step m label = some t) : OneBuild t := (hm.step ht).1
  refine ⟨?once, servesArrivals env labels, ?retries⟩
  case once =>
    exact environment.meets_of_invariant hstep (fun _ label hm => hm.buildsOnce label)
      (OneBuild.initial env) labels
  case retries =>
    exact environment.meets_iff_of_invariant (fun m label t hm _ ht => hstep m label t hm ht)
      (fun _ label hm => hm.arrivesBeforeFailure_iff label) (OneBuild.initial env) labels

/-- An environment with a path of parameters. -/
def configured : ProcessEnv := [("CONFIG_PARAMETER_PREFIX", "/vertex-api/")]

/-- The store refuses the first request of an environment, whose invocation fails with that. -/
def throttledOnce : List (EnvironmentLabel String) :=
  [.invoke 0, .page 0 (.error "throttled"), .resume 0]

/-- Where the environment is then. -/
def throttled : EnvironmentState String :=
  environment.run (.initial configured) throttledOnce (by decide +kernel)

/-- A second invocation arrives, and its promise has settled. -/
def invokedAgain : EnvironmentState String :=
  environment.run throttled [.invoke 1, .resume 1] (by decide +kernel)

/-- The second invocation starts no build, and fails with the error of the first one. -/
theorem not_retries_throttled :
    invokedAgain.builds = [.failed "throttled"] ∧
    invokedAgain.invocations 1 = some (.failed "throttled") ∧
    ¬ environment.Meets Retries (.initial configured)
      (throttledOnce ++ [.invoke 1, .resume 1]) := by
  refine ⟨by decide +kernel, by decide +kernel, fun hmeets => ?_⟩
  have hretries : Retries throttled (.invoke 1) := hmeets.at (environment.exec_run ..)
  have hbuilds : throttled.builds = [.failed "throttled"] := by decide +kernel
  have hfailed : HasFailed throttled := by
    rw [HasFailed, hbuilds]
    exact ⟨List.cons_ne_nil _ _, fun phase hphase => ⟨_, List.mem_singleton.mp hphase⟩⟩
  have hnew : throttled.invocations 1 = none := by decide +kernel
  have hmore := hretries 1 _ rfl (step_invoke hnew) hfailed
  have hone : (throttled.invoke 1).builds.length = 1 := by decide +kernel
  rw [hone, hbuilds, List.length_singleton] at hmore
  omega

end VertexApi.Lambda
