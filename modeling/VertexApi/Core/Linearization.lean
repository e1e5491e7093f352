import VertexApi.Core.Conduct
import VertexApi.Core.Turns

/-!
# Programs that take effect at one moment

A program has one moment when its statements change nothing, up to one that is its last, and what
that one does and returns belongs together. Then, in a run of calls, each step of the program
leaves the state as it is, or returns with the effect that it should have in the state that it
meets. A program of one statement does there what it does when it runs alone.
-/

namespace VertexApi

universe u v w x y z

namespace Program

section Moments

variable {σ : Type u} {ε : Type v} {α β : Type w}

/-- A program that has ended between two states: what it has returned belongs to them, and what
it has thrown changed nothing. -/
inductive Settles (W : σ → σ → α → Prop) (s t : σ) : Program σ ε α → Prop where
  | done {a : α} (h : W s t a) : Settles W s t (.done a)
  | thrown (error : ε) (hsame : t = s) : Settles W s t (.thrown error)

/-- From a state on, the program changes nothing up to one statement, with which it ends. -/
inductive Linearizes (R : Rely σ) (W : σ → σ → α → Prop) : σ → Program σ ε α → Prop where
  | done {s : σ} {a : α} (h : W s s a) : Linearizes R W s (.done a)
  | thrown {s : σ} (error : ε) : Linearizes R W s (.thrown error)
  | sample {s : σ} {next : σ → Program σ ε α}
    (h : ∀ t, R.grows s t → Linearizes R W t (next t)) : Linearizes R W s (.sample next)
  | quiet {s : σ} {effect : σ → σ} {next : Except ε σ → Program σ ε α}
    (heffect : ∀ t, R.grows s t → effect t = t)
    (hnext : ∀ t, R.grows s t → Linearizes R W t (next (.ok t)))
    (hfail : ∀ error, Linearizes R W s (next (.error error))) :
    Linearizes R W s (.statement effect next)
  | commit {s : σ} {effect : σ → σ} {next : Except ε σ → Program σ ε α}
    (hnext : ∀ t, R.grows s t → Settles W t (effect t) (next (.ok t)))
    (hfail : ∀ error, Linearizes R W s (next (.error error))) :
    Linearizes R W s (.statement effect next)

/-- The program has one moment, in which it does what it does alone. -/
def AtOnce (p : Program σ ε α) : Prop :=
  ∀ s, p.Linearizes .any (fun t u a => p.run [] t = ⟨u, [], .ok a⟩) s

variable {R Q : Rely σ} {W V : σ → σ → α → Prop} {W' : σ → σ → β → Prop} {s t : σ}
  {p : Program σ ε α}

namespace Settles

/-- What has ended without a change has its moment. -/
theorem linearizes (h : p.Settles W s s) : p.Linearizes R W s := by
  cases h with
  | done h => exact .done h
  | thrown error => exact .thrown error

/-- Less may be asked for. -/
theorem mono (h : p.Settles W s t) (hW : ∀ a, W s t a → V s t a) : p.Settles V s t := by
  cases h with
  | done h => exact .done (hW _ h)
  | thrown error hsame => exact .thrown error hsame

/-- What follows an end, and ends at once. -/
theorem bind {rest : α → Program σ ε β} (h : p.Settles W s t)
    (hrest : ∀ a, W s t a → (rest a).Settles W' s t) : (p >>= rest).Settles W' s t := by
  cases h with
  | done h => exact hrest _ h
  | thrown error hsame => exact .thrown error hsame

end Settles

namespace Linearizes

/-- Less may have happened in between. -/
theorem anti (h : p.Linearizes R W s) (hgrows : ∀ a b, Q.grows a b → R.grows a b) :
    p.Linearizes Q W s := by
  induction h with
  | done h => exact .done h
  | thrown error => exact .thrown error
  | sample _ ih => exact .sample fun t ht => ih t (hgrows _ t ht)
  | quiet heffect _ _ ihNext ihFail =>
    exact .quiet (fun t ht => heffect t (hgrows _ t ht)) (fun t ht => ihNext t (hgrows _ t ht))
      ihFail
  | commit hnext _ ihFail => exact .commit (fun t ht => hnext t (hgrows _ t ht)) ihFail

/-- Less may be asked for. -/
theorem mono (h : p.Linearizes R W s) (hW : ∀ t u a, W t u a → V t u a) :
    p.Linearizes R V s := by
  induction h with
  | done h => exact .done (hW _ _ _ h)
  | thrown error => exact .thrown error
  | sample _ ih => exact .sample ih
  | quiet heffect _ _ ihNext ihFail => exact .quiet heffect ihNext ihFail
  | commit hnext _ ihFail => exact .commit (fun t ht => (hnext t ht).mono fun a => hW _ _ a) ihFail

/-- The moment comes after the start. -/
theorem since {former : σ} (h : p.Linearizes R W s) (hs : R.grows former s) :
    p.Linearizes R (fun t u a => R.grows former t ∧ W t u a) s := by
  induction h with
  | done h => exact .done ⟨hs, h⟩
  | thrown error => exact .thrown error
  | sample _ ih => exact .sample fun t ht => ih t ht (R.trans hs ht)
  | quiet heffect _ _ ihNext ihFail =>
    exact .quiet heffect (fun t ht => ihNext t ht (R.trans hs ht)) fun error => ihFail error hs
  | commit hnext _ ihFail =>
    exact .commit (fun t ht => (hnext t ht).mono fun _ ha => ⟨R.trans hs ht, ha⟩) fun error =>
      ihFail error hs

/-- What follows a program and ends at once. -/
theorem bind {rest : α → Program σ ε β} (h : p.Linearizes R W s)
    (hrest : ∀ t u a, W t u a → (rest a).Settles W' t u) : (p >>= rest).Linearizes R W' s := by
  induction h with
  | done h => exact (hrest _ _ _ h).linearizes
  | thrown error => exact .thrown error
  | sample _ ih => exact .sample ih
  | quiet heffect _ _ ihNext ihFail => exact .quiet heffect ihNext ihFail
  | commit hnext _ ihFail =>
    exact .commit (fun t ht => (hnext t ht).bind fun a ha => hrest _ _ a ha) ihFail

/-- A program that only looks may run before. -/
theorem after {A : σ → σ → Prop} {V : σ → α → Prop} {rest : α → Program σ ε β}
    (h : p.Behaves R A V s) (hA : ∀ t u, A t u → t = u)
    (hrest : ∀ t a, V t a → (rest a).Linearizes R W' t) : (p >>= rest).Linearizes R W' s := by
  induction h with
  | done h => exact hrest _ _ h
  | thrown error => exact .thrown error
  | sample _ ih => exact .sample ih
  | statement heffect _ _ ihNext ihFail =>
    exact .quiet (fun t ht => (hA _ _ (heffect t ht)).symm) ihNext ihFail

end Linearizes

namespace AtOnce

theorem pure (a : α) : AtOnce (Pure.pure a : Program σ ε α) := fun _ => .done rfl

theorem throw (error : ε) : AtOnce (throwThe ε error : Program σ ε α) := fun _ => .thrown error

/-- One look. -/
theorem look (f : σ → α) : AtOnce (.look f : Program σ ε α) := fun _ =>
  .sample fun _ _ => .done rfl

/-- One statement. -/
theorem query (run : σ → Except ε (σ × α)) : AtOnce (.query run) := by
  refine fun s => .commit (fun t _ => ?_) fun error => .thrown error
  change Settles _ t (stateAfter t (run t)) (ofOutcome (run t))
  cases hrun : run t with
  | ok outcome => exact .done (by rw [run_query_nil, hrun]; rfl)
  | error error => exact .thrown error rfl

/-- What follows and ends at once; what it throws, it throws in front of no change. -/
theorem bind {rest : α → Program σ ε β} (h : AtOnce p)
    (hrest : ∀ t u a, p.run [] t = ⟨u, [], .ok a⟩ →
      (∃ b, rest a = .done b) ∨ ∃ error, rest a = .thrown error ∧ u = t) :
    AtOnce (p >>= rest) := by
  refine fun s => (h s).bind fun t u a ha => ?_
  rcases hrest t u a ha with ⟨b, hb⟩ | ⟨error, herror, rfl⟩
  · rw [hb]
    refine .done ?_
    rw [run_bind, ha, Ending.andThen_ok, hb]
    rfl
  · rw [herror]
    exact .thrown error rfl

/-- One statement that changes nothing when it finds nothing. -/
theorem found {run : σ → Except ε (σ × Option α)} {rest : Option α → Program σ ε β} {error : ε}
    (hnone : rest none = .thrown error) (hsome : ∀ a, ∃ b, rest (some a) = .done b)
    (hsame : ∀ t u, run t = .ok (u, none) → u = t) : AtOnce (.query run >>= rest) := by
  refine (AtOnce.query run).bind fun t u a ha => ?_
  cases a with
  | some a => exact Or.inl (hsome a)
  | none =>
    refine Or.inr ⟨error, hnone, ?_⟩
    rw [run_query_nil] at ha
    cases hrun : run t with
    | error error =>
      rw [hrun] at ha
      cases ha
    | ok outcome =>
      rw [hrun] at ha
      obtain ⟨v, a⟩ := outcome
      obtain ⟨rfl, -, ha⟩ := Ending.mk.inj ha
      obtain rfl := Except.ok.inj ha
      exact hsame t v hrun

/-- A statement that only reads, and may find nothing. -/
theorem find {f : σ → Option α} {rest : Option α → Program σ ε β} {error : ε}
    (hnone : rest none = .thrown error) (hsome : ∀ a, ∃ b, rest (some a) = .done b) :
    AtOnce (.query (fun s => .ok (s, f s)) >>= rest) := by
  refine found hnone hsome fun t u hrun => ?_
  exact (Prod.mk.inj (Except.ok.inj hrun)).1.symm

/-- A function of the result. -/
theorem map {f : α → β} (h : AtOnce p) : AtOnce (f <$> p) :=
  h.bind fun _ _ a _ => Or.inl ⟨f a, rfl⟩

/-- Wherever the program is started. -/
theorem linearizes (h : AtOnce p) (R : Rely σ) (s : σ) :
    p.Linearizes R (fun t u a => R.grows s t ∧ p.run [] t = ⟨u, [], .ok a⟩) s :=
  ((h s).anti fun _ _ _ => trivial).since (R.refl s)

end AtOnce

end Moments

section Zoom

variable {σ : Type u} {τ : Type v} {ε : Type w} {α : Type x} {get : σ → τ} {set : σ → τ → σ}
  {p : Program τ ε α} (hget : ∀ s t, get (set s t) = t) (hset : ∀ s, set s (get s) = s)
  (hsets : ∀ s t t', set (set s t) t' = set s t')

include hset in
/-- On a part of the state, the moment is the same. -/
theorem Linearizes.zoom {R : Rely τ} {W : τ → τ → α → Prop} {V : σ → σ → α → Prop} {s : σ}
    (h : p.Linearizes R W (get s)) (hW : ∀ s t a, W (get s) t a → V s (set s t) a) :
    (p.zoom get set).Linearizes (R.comap get) V s := by
  generalize hs : get s = t at h
  induction h generalizing s with
  | done h =>
    subst hs
    exact .done (by simpa only [hset] using hW s _ _ h)
  | thrown error => exact .thrown error
  | sample _ ih => exact .sample fun r hr => ih (get r) (hs ▸ hr) rfl
  | quiet heffect _ _ ihNext ihFail =>
    refine .quiet (fun r hr => ?_) (fun r hr => ihNext (get r) (hs ▸ hr) rfl) fun error =>
      ihFail error hs
    rw [heffect (get r) (hs ▸ hr), hset]
  | @commit _ effect next hnext _ ihFail =>
    refine .commit (fun r hr => ?_) fun error => ihFail error hs
    have hend := hnext (get r) (hs ▸ hr)
    change Settles V r (set r (effect (get r))) ((next (.ok (get r))).zoom get set)
    generalize next (.ok (get r)) = q at hend ⊢
    cases hend with
    | done h => exact .done (hW r _ _ h)
    | thrown error hsame => exact .thrown error (by rw [hsame, hset])

include hget hset hsets in
/-- A run on a part of the state. -/
theorem run_zoom (s : σ) : (p.zoom get set).run [] s =
    ⟨set s (p.run [] (get s)).state, [], (p.run [] (get s)).result⟩ := by
  induction p generalizing s with
  | done a | thrown error => simp only [Program.zoom, run, hset]
  | sample next ih => exact ih (get s) s
  | statement effect next ih =>
    have hnext := ih (.ok (get s)) (set s (effect (get s)))
    rw [hget, hsets] at hnext
    exact hnext

include hget hset hsets in
theorem AtOnce.zoom (h : AtOnce p) : AtOnce (p.zoom get set) := by
  refine fun s => ((h (get s)).zoom hset fun r t a ha => ?_).anti fun _ _ _ => trivial
  rw [run_zoom hget hset hsets, ha]

end Zoom

end Program

section Runs

variable {σ : Type u} {τ : Type z} {ε : Type v} {α : Type w} {κ : Type x} {ω : Type y}
  {program : κ → Program σ ε α} {outside : ω → σ → σ} {get : σ → τ}
  {W : Rely τ → σ → κ → σ → σ → α → Prop} {init started : σ} {call : κ} {id : Nat}
  {labels : List (CallLabel κ ε ω)} {s t : CallState σ ε α} {label : CallLabel κ ε ω}
  {p : Program σ ε α}

/-- A moment of a call: a position of the run, behind the start of the call, at which the call
does nothing, or makes a step. -/
structure Moment (M : Machine (CallState σ ε α) (CallLabel κ ε ω)) (init : σ)
    (labels : List (CallLabel κ ε ω)) (id : Nat) (call : κ) (started : σ)
    (former : List (CallLabel κ ε ω)) (m u : σ) : Prop where
  started : Started M init former id call started
  position : ∃ rest reached, labels = former ++ rest ∧ M.exec (.initial init) former = some reached ∧
    reached.state = m ∧ (u = m ∨ ∃ later next, rest = .step id :: later ∧
      M.step reached (.step id) = some next ∧ next.state = u)

/-- A moment stays one when the run goes on. -/
theorem Moment.append {M : Machine (CallState σ ε α) (CallLabel κ ε ω)}
    {former : List (CallLabel κ ε ω)} {m u : σ}
    (h : Moment M init labels id call started former m u) (label : CallLabel κ ε ω) :
    Moment M init (labels ++ [label]) id call started former m u := by
  obtain ⟨rest, reached, rfl, hreached, hm, hu⟩ := h.position
  refine ⟨h.started, rest ++ [label], reached, List.append_assoc .., hreached, hm,
    hu.imp_right ?_⟩
  rintro ⟨later, next, rfl, hnext⟩
  exact ⟨later ++ [label], next, rfl, hnext⟩

/-- Where a call stands: from its last look on, it changes nothing up to its moment, whatever the
run shows from there on; or it has returned at its moment. -/
inductive Stands (program : κ → Program σ ε α) (outside : ω → σ → σ) (get : σ → τ)
    (W : Rely τ → σ → κ → σ → σ → α → Prop) (init : σ) (labels : List (CallLabel κ ε ω)) (id : Nat)
    (call : κ) (started : σ) : Program σ ε α → Prop where
  | before {p : Program σ ε α} {former : List (CallLabel κ ε ω)} {known : σ}
    (hknown : Moment (callMachine program outside) init labels id call started former known known)
    (hp : ∀ R : Rely τ, (∀ a b, (metSince (callMachine program outside) init former id get).grows
      a b → R.grows a b) → p.Linearizes (R.comap get) (W R started call) known) :
    Stands program outside get W init labels id call started p
  | behind {a : α} {former : List (CallLabel κ ε ω)} {m u : σ}
    (hmoment : Moment (callMachine program outside) init labels id call started former m u)
    (hW : W (metSince (callMachine program outside) init former id get) started call m u a) :
    Stands program outside get W init labels id call started (.done a)

/-- A run has shown the state in which it ends. -/
theorem Started.met {M : Machine (CallState σ ε α) (CallLabel κ ε ω)}
    (hstarted : Started M init labels id call started)
    (hrun : M.exec (.initial init) labels = some s) (a : τ) :
    (metSince M init labels id get).grows a (get s.state) := by
  obtain ⟨before, after, m, rfl, -, -⟩ := hstarted
  exact Or.inr ⟨before, call, after, [], s, by rw [List.append_nil], hrun, rfl⟩

/-- The end of a run is a moment of a call that does nothing there. -/
theorem Started.moment {M : Machine (CallState σ ε α) (CallLabel κ ε ω)}
    (hstarted : Started M init labels id call started)
    (hrun : M.exec (.initial init) labels = some s) :
    Moment M init labels id call started labels s.state s.state :=
  ⟨hstarted, [], s, (List.append_nil _).symm, hrun, rfl, Or.inl rfl⟩

section Steps

variable (hrun : (callMachine program outside).exec (.initial init) labels = some s)
  (hstarted : Started (callMachine program outside) init labels id call started)
include hrun hstarted

/-- A label leaves a call where it stands, or is its moment. -/
theorem Stands.moves (hp : Stands program outside get W init labels id call started p)
    (hcall : s.calls id = some p)
    (h : (callMachine program outside).step s label = some t) : ∃ q, t.calls id = some q ∧
      Stands program outside get W init (labels ++ [label]) id call started q ∧
      (label = .step id → t.state = s.state ∨ ∃ a, q = .done a ∧
        W (metSince (callMachine program outside) init labels id get) started call s.state t.state
          a) := by
  obtain ⟨q, hq, hmoves⟩ := callMoves hcall h
  refine ⟨q, hq, ?_⟩
  cases hp with
  | behind hmoment hW =>
    cases hmoves with
    | stays hother =>
      exact ⟨.behind (hmoment.append label) hW, fun hstep => absurd hstep hother⟩
  | @before _ former known hknown hp =>
    -- What has been met by now, the call may rely on from here on.
    have hmet {R : Rely τ} (hR : ∀ a b, (metSince (callMachine program outside) init labels id
        get).grows a b → R.grows a b) : p.Linearizes (R.comap get) (W R started call) known ∧
          R.grows (get known) (get s.state) := by
      obtain ⟨rest, -, hlabels, -⟩ := hknown.position
      exact ⟨hp R fun a b hab => hR a b (hlabels ▸ metSince_append hab rest),
        hR _ _ (hstarted.met hrun _)⟩
    have hnow := (hstarted.moment hrun).append label
    cases hmoves with
    | stays hother =>
      exact ⟨.before (hknown.append label) hp, fun hstep => absurd hstep hother⟩
    | sample hsame =>
      refine ⟨.before hnow fun R hR => ?_, fun _ => Or.inl hsame⟩
      obtain ⟨hsample, hgrows⟩ := hmet hR
      cases hsample with
      | sample hnext => exact hnext _ hgrows
    | failed =>
      refine ⟨.before (hknown.append _) fun R hR => ?_, nofun⟩
      cases hp R hR with
      | quiet _ _ hfail | commit _ hfail => exact hfail _
    | @statement effect next hstate =>
      obtain ⟨hstatement, hgrows⟩ := hmet fun _ _ hab => hab
      cases hstatement with
      | quiet heffect hnext =>
        have hsame : effect s.state = s.state := heffect _ hgrows
        refine ⟨.before hnow fun R hR => ?_, fun _ => Or.inl (hstate.trans hsame)⟩
        obtain ⟨hstatement, hgrows⟩ := hmet hR
        cases hstatement with
        | quiet _ hnext => exact hnext _ hgrows
        | commit hnext =>
          have hend := hnext _ hgrows
          rw [hsame] at hend
          exact hend.linearizes
      | commit hnext =>
        have hend := hnext _ hgrows
        rw [← hstate] at hend
        generalize next (.ok s.state) = r at hend ⊢
        cases hend with
        | done hW =>
          have hmoment : Moment (callMachine program outside) init (labels ++ [.step id]) id call
              started labels s.state t.state :=
            ⟨hstarted, [.step id], s, rfl, hrun, rfl, Or.inr ⟨[], t, rfl, h, rfl⟩⟩
          exact ⟨.behind hmoment hW, fun _ => Or.inr ⟨_, rfl, hW⟩⟩
        | thrown error hsame =>
          exact ⟨.before hnow fun _ _ => .thrown error, fun _ => Or.inl hsame⟩

end Steps

variable (hlinearizes : ∀ R : Rely τ, (program call).Linearizes (R.comap get) (W R started call)
    started)
include hlinearizes

/-- In a run, a call that has one moment stands before it or behind it. -/
theorem stands_of_exec
    (hrun : (callMachine program outside).exec (.initial init) labels = some s)
    (hstarted : Started (callMachine program outside) init labels id call started) :
    ∃ q, s.calls id = some q ∧ Stands program outside get W init labels id call started q := by
  induction labels using List.reverseRecOn generalizing s with
  | nil =>
    obtain ⟨before, after, m, hnil, -, -⟩ := hstarted
    cases before <;> cases hnil
  | append_singleton labels label ih =>
    obtain ⟨m, hm, hstep⟩ := (callMachine program outside).exec_snoc.mp hrun
    rcases hstarted.of_append with hold | ⟨former, rest, reached, hlabel, hreached, rfl⟩
    · obtain ⟨p, hcall, hp⟩ := ih hm hold
      obtain ⟨q, hq, hstands, -⟩ := hp.moves hm hold hcall hstep
      exact ⟨q, hq, hstands⟩
    · -- The label starts the call.
      obtain ⟨rfl, he⟩ := List.append_eq_singleton_iff.mp hlabel.symm |>.resolve_right nofun
      obtain ⟨rfl, rfl⟩ := List.cons.inj he
      rw [List.append_nil] at hreached
      obtain rfl := Option.some.inj (hm.symm.trans hreached)
      obtain ⟨-, hnew⟩ := Option.ite_none_left_eq_some.mp hstep
      obtain rfl := Option.some.inj hnew
      exact ⟨program call, update_eq_some_iff.mpr (Or.inl ⟨rfl, rfl⟩),
        .before (hstarted.moment hrun) fun R _ => hlinearizes R⟩

variable (hrun : (callMachine program outside).exec (.initial init) labels = some s)
  (hstarted : Started (callMachine program outside) init labels id call started)
include hrun hstarted

/-- What such a call has returned belongs to a moment of it, over what the run had met by then. -/
theorem answered_at_once {a : α} (ha : s.answers id = some (.ok a)) : ∃ former m u,
    Moment (callMachine program outside) init labels id call started former m u ∧
    W (metSince (callMachine program outside) init former id get) started call m u a := by
  obtain ⟨q, hq, hstands⟩ := stands_of_exec hlinearizes hrun hstarted
  obtain ⟨r, hr, ha⟩ := Option.bind_eq_some_iff.mp ha
  obtain rfl := Option.some.inj (hq.symm.trans hr)
  cases hstands with
  | behind hmoment hW =>
    obtain rfl := Except.ok.inj (Option.some.inj ha)
    exact ⟨_, _, _, hmoment, hW⟩
  | before hknown hp =>
    cases hp _ fun _ _ hab => hab with
    | done hW =>
      obtain rfl := Except.ok.inj (Option.some.inj ha)
      exact ⟨_, _, _, hknown, hW⟩
    | thrown | sample | quiet | commit => cases ha

/-- Each of its steps changes nothing, or returns what belongs to it. -/
theorem stepped_at_once (hstep : (callMachine program outside).step s (.step id) = some t) :
    t.state = s.state ∨ ∃ a, t.answers id = some (.ok a) ∧
      W (metSince (callMachine program outside) init labels id get) started call s.state t.state
        a := by
  obtain ⟨q, hq, hstands⟩ := stands_of_exec hlinearizes hrun hstarted
  obtain ⟨r, hr, -, hmoment⟩ := hstands.moves hrun hstarted hq hstep
  refine (hmoment rfl).imp_right ?_
  rintro ⟨a, rfl, hW⟩
  exact ⟨a, by rw [CallState.answers, hr]; rfl, hW⟩

end Runs

end VertexApi
