import VertexApi.Core.Program

/-!
# What programs do while others run

The steps of all programs and the outside make the state grow, in the sense of some preorder.
A program behaves when each of its statements does what it may, wherever the state has grown
since its statement before, and when it returns what it should. This follows the structure of
the program, so that it is proved statement by statement. In a run of calls that behave, every
change of the state is one that a call started before may make.

What the calls may make are often the steps of another machine. The run then refines that
machine: the statements that change something are its labels.
-/

namespace VertexApi

universe u v w x y z

/-- How the state may have changed when a program goes on. -/
structure Rely (σ : Type u) where
  grows : σ → σ → Prop
  refl : ∀ s, grows s s
  trans : ∀ {s m t}, grows s m → grows m t → grows s t

namespace Rely

variable {σ : Type u} {τ : Type v}

/-- A property of states stays. -/
def keeps (I : σ → Prop) : Rely σ where
  grows s t := I s → I t
  refl _ h := h
  trans hsm hmt h := hmt (hsm h)

/-- Anything may have happened. -/
def any : Rely σ where
  grows _ _ := True
  refl _ := trivial
  trans _ _ := trivial

/-- The growth of a part of the state. -/
def comap (R : Rely σ) (get : τ → σ) : Rely τ where
  grows s t := R.grows (get s) (get t)
  refl _ := R.refl _
  trans := R.trans

end Rely

namespace Program

/-- From a state on, every statement of a program does to the state that it meets what it may,
and the program returns what it should in the state that it met last. -/
inductive Behaves {σ : Type u} {ε : Type v} {α : Type w} (R : Rely σ) (A : σ → σ → Prop)
    (V : σ → α → Prop) : σ → Program σ ε α → Prop where
  | done {s : σ} {a : α} (h : V s a) : Behaves R A V s (.done a)
  | thrown {s : σ} (error : ε) : Behaves R A V s (.thrown error)
  | sample {s : σ} {next : σ → Program σ ε α}
    (h : ∀ t, R.grows s t → Behaves R A V t (next t)) : Behaves R A V s (.sample next)
  | statement {s : σ} {effect : σ → σ} {next : Except ε σ → Program σ ε α}
    (heffect : ∀ t, R.grows s t → A t (effect t))
    (hnext : ∀ t, R.grows s t → Behaves R A V t (next (.ok t)))
    (hfail : ∀ error, Behaves R A V s (next (.error error))) :
    Behaves R A V s (.statement effect next)

namespace Behaves

section Rules

variable {σ : Type u} {ε : Type v} {α β : Type w} {R : Rely σ} {A B : σ → σ → Prop}
  {V V' : σ → α → Prop} {W : σ → β → Prop} {s : σ} {p : Program σ ε α}

theorem pure {a : α} (h : V s a) : Behaves R A V s (Pure.pure a : Program σ ε α) := .done h

theorem throw (error : ε) : Behaves R A V s (throwThe ε error : Program σ ε α) := .thrown error

/-- A sequence behaves when its first part does, and what follows does on its results. -/
theorem bind {rest : α → Program σ ε β} (h : Behaves R A V s p)
    (hrest : ∀ t a, V t a → Behaves R A W t (rest a)) : Behaves R A W s (p >>= rest) := by
  induction h with
  | done h => exact hrest _ _ h
  | thrown error => exact .thrown error
  | sample _ ih => exact .sample ih
  | statement heffect _ _ ihNext ihFail => exact .statement heffect ihNext ihFail

/-- More may be allowed, and less asked for. -/
theorem mono (h : Behaves R A V s p) (hA : ∀ s t, A s t → B s t)
    (hV : ∀ t a, V t a → V' t a) : Behaves R B V' s p := by
  induction h with
  | done h => exact .done (hV _ _ h)
  | thrown error => exact .thrown error
  | sample _ ih => exact .sample ih
  | statement heffect _ _ ihNext ihFail =>
    exact .statement (fun t ht => hA _ _ (heffect t ht)) ihNext ihFail

/-- A function of the result. -/
theorem map {f : α → β} (h : Behaves R A V s p) (hV : ∀ t a, V t a → W t (f a)) :
    Behaves R A W s (f <$> p) := h.bind fun _ _ ha => .pure (hV _ _ ha)

/-- What its statements may do, they do in states that have grown. -/
theorem since {former : σ} (h : Behaves R A V s p) (hs : R.grows former s) :
    Behaves R (fun t u => R.grows former t ∧ A t u) V s p := by
  induction h with
  | done h => exact .done h
  | thrown error => exact .thrown error
  | sample _ ih => exact .sample fun t ht => ih t ht (R.trans hs ht)
  | statement heffect _ _ ihNext ihFail =>
    exact .statement (fun t ht => ⟨R.trans hs ht, heffect t ht⟩)
      (fun t ht => ihNext t ht (R.trans hs ht)) fun error => ihFail error hs

/-- The handler of an error goes on from the last state that is known for sure: the one in
front of the program. -/
theorem tryCatch {handler : ε → Program σ ε α} (h : Behaves R A V s p)
    (hhandler : ∀ t error, R.grows s t → Behaves R A V t (handler error)) :
    Behaves R A V s (tryCatchThe ε p handler) := by
  induction h with
  | done h => exact .done h
  | thrown error => exact hhandler _ error (R.refl _)
  | sample _ ih =>
    exact .sample fun t ht => ih t ht fun m error hm => hhandler m error (R.trans ht hm)
  | statement heffect _ _ ihNext ihFail =>
    exact .statement heffect
      (fun t ht => ihNext t ht fun m error hm => hhandler m error (R.trans ht hm))
      fun error => ihFail error hhandler

/-- One statement, which may throw in its own right and then changes nothing. -/
theorem query {run : σ → Except ε (σ × α)} (hA : ∀ t, A t t)
    (h : ∀ t u a, R.grows s t → run t = .ok (u, a) → A t u ∧ V t a) :
    Behaves R A V s (.query run) := by
  refine .statement (fun t ht => ?effect) (fun t ht => ?next) fun error => .thrown error
  case effect =>
    cases hrun : run t with
    | ok outcome => exact (h t _ _ ht hrun).1
    | error error => exact hA t
  case next =>
    change Behaves R A V t (ofOutcome (run t))
    cases hrun : run t with
    | ok outcome => exact .done (h t _ _ ht hrun).2
    | error error => exact .thrown error

/-- One look. -/
theorem look {f : σ → α} (h : ∀ t, R.grows s t → V t (f t)) :
    Behaves R A V s (.look f : Program σ ε α) := .sample fun t ht => .done (h t ht)

end Rules

end Behaves

section Zoom

variable {σ : Type u} {τ : Type v} {ε : Type w} {α β : Type x}

/-- A program over a part of the state. -/
def zoom (get : τ → σ) (set : τ → σ → τ) : Program σ ε α → Program τ ε α
  | .done result => .done result
  | .thrown error => .thrown error
  | .sample next => .sample fun t => (next (get t)).zoom get set
  | .statement effect next =>
    .statement (fun t => set t (effect (get t))) fun outcome =>
      (next (outcome.map get)).zoom get set

variable {get : τ → σ} {set : τ → σ → τ}

/-- It behaves as on the part. -/
theorem Behaves.zoom {R : Rely σ} {Q : Rely τ} {A : σ → σ → Prop} {B : τ → τ → Prop}
    {V : σ → α → Prop} {t : τ} {p : Program σ ε α} (h : Behaves R A V (get t) p)
    (hgrows : ∀ t u, Q.grows t u → R.grows (get t) (get u))
    (hB : ∀ t s, A (get t) s → B t (set t s)) :
    Behaves Q B (fun t => V (get t)) t (p.zoom get set) := by
  generalize hs : get t = s at h
  induction h generalizing t with
  | done h =>
    subst hs
    exact .done h
  | thrown error => exact .thrown error
  | sample _ ih => exact .sample fun u hu => ih (get u) (hs ▸ hgrows t u hu) rfl
  | statement heffect _ _ ihNext ihFail =>
    exact .statement (fun u hu => hB u _ (heffect (get u) (hs ▸ hgrows t u hu)))
      (fun u hu => ihNext (get u) (hs ▸ hgrows t u hu) rfl) fun error => ihFail error hs

end Zoom

end Program

section Runs

variable {σ : Type u} {ε : Type v} {α : Type w} {κ : Type x} {ω : Type y}

/-- A run has started a call, in a state. -/
def Started (M : Machine (CallState σ ε α) (CallLabel κ ε ω)) (init : σ)
    (labels : List (CallLabel κ ε ω)) (id : Nat) (call : κ) (s : σ) : Prop :=
  ∃ before after started, labels = before ++ .start id call :: after ∧
    M.exec (.initial init) before = some started ∧ started.state = s

/-- A condition on the calls that are started, and on the states in which they are. -/
def StartsOnly (C : σ → κ → Prop) (s : CallState σ ε α) (label : CallLabel κ ε ω) : Prop :=
  ∀ id call, label = .start id call → C s.state call

variable {M : Machine (CallState σ ε α) (CallLabel κ ε ω)} {init : σ}
  {labels : List (CallLabel κ ε ω)}

/-- A call stays started. -/
theorem Started.append {id : Nat} {call : κ} {s : σ} (h : Started M init labels id call s)
    (later : List (CallLabel κ ε ω)) : Started M init (labels ++ later) id call s := by
  obtain ⟨before, after, started, rfl, hstarted, hs⟩ := h
  exact ⟨before, after ++ later, started, by rw [List.append_assoc, List.cons_append], hstarted, hs⟩

/-- The last label has started its call. -/
theorem Started.last {id : Nat} {call : κ} {started : CallState σ ε α}
    (h : M.exec (.initial init) labels = some started) :
    Started M init (labels ++ [.start id call]) id call started.state :=
  ⟨labels, [], started, rfl, h, rfl⟩

/-- A condition that the started calls meet in every state. -/
theorem meets_startsOnly {C : σ → κ → Prop} {s : CallState σ ε α}
    (h : ∀ id call, .start id call ∈ labels → ∀ t, C t call) :
    M.Meets (StartsOnly C) s labels := by
  refine (M.meets_of_forall (p := fun label => label ∈ labels) fun _ hmem => hmem).imp ?_
  rintro t label hmem id call rfl
  exact h id call hmem t.state

/-- What the calls of a run rely on and what they may do. A call that is started in a state
behaves there, and what it may do from there on makes the state grow, as the outside does. -/
structure Conduct (program : κ → Program σ ε α) (outside : ω → σ → σ) (R : Rely σ)
    (C : σ → κ → Prop) (A : σ → κ → σ → σ → Prop) (V : σ → κ → σ → α → Prop) (init : σ) :
    Prop where
  behaves : ∀ {s call}, R.grows init s → C s call →
    (program call).Behaves R (A s call) (V s call) s
  grows : ∀ {s call t u}, R.grows init s → C s call → R.grows s t → A s call t u → R.grows t u
  outside : ∀ change {s}, R.grows init s → R.grows s (outside change s)

variable {program : κ → Program σ ε α} {outside : ω → σ → σ} {R : Rely σ} {C : σ → κ → Prop}
  {A : σ → κ → σ → σ → Prop} {V : σ → κ → σ → α → Prop}

/-- Where a run stands: the state has grown, and each call behaves from a state on since which
it has. -/
structure Conducted (program : κ → Program σ ε α) (outside : ω → σ → σ) (R : Rely σ)
    (C : σ → κ → Prop) (A : σ → κ → σ → σ → Prop) (V : σ → κ → σ → α → Prop) (init : σ)
    (labels : List (CallLabel κ ε ω)) (s : CallState σ ε α) : Prop where
  state : R.grows init s.state
  calls : ∀ {id p}, s.calls id = some p → ∃ call started known,
    Started (callMachine program outside) init labels id call started ∧ C started call ∧
    R.grows init started ∧ R.grows started known ∧ R.grows known s.state ∧
    p.Behaves R (A started call) (V started call) known

section Steps

variable {s t : CallState σ ε α} {label : CallLabel κ ε ω} {id : Nat} {p : Program σ ε α}

/-- A label changes the state as its outside does, or in a step of a call, or not at all. -/
theorem callMachine_state (h : (callMachine program outside).step s label = some t) :
    t.state = s.state ∨ (∃ change, label = .outside change ∧ t.state = outside change s.state) ∨
      ∃ id, label = .step id := by
  cases label with
  | outside change => exact Or.inr (Or.inl ⟨change, rfl, by rw [← Option.some.inj h]⟩)
  | start id call =>
    obtain ⟨-, ht⟩ := Option.ite_none_left_eq_some.mp h
    exact Or.inl (by rw [← Option.some.inj ht]; rfl)
  | step id => exact Or.inr (Or.inr ⟨id, rfl⟩)
  | fail id error =>
    obtain ⟨p, -, hp⟩ := Option.bind_eq_some_iff.mp h
    obtain ⟨rest, -, ht⟩ := Option.map_eq_some_iff.mp hp
    exact Or.inl (by rw [← ht]; rfl)

/-- A call that is new was started by the label. -/
theorem start_of_new (h : (callMachine program outside).step s label = some t)
    (hnone : s.calls id = none) (hp : t.calls id = some p) :
    ∃ call, label = .start id call ∧ p = program call ∧ t.state = s.state := by
  have hold {state : σ} {other : Nat} {q r : Program σ ε α} (hr : s.calls other = some r)
      (ht : s.setCall other state q = t) : False := by
    rw [← ht] at hp
    rcases update_eq_some_iff.mp hp with ⟨rfl, -⟩ | ⟨-, hcall⟩
    · rw [hnone] at hr
      cases hr
    · rw [hnone] at hcall
      cases hcall
  cases label with
  | outside change =>
    obtain rfl := Option.some.inj h
    have hcall : s.calls id = some p := hp
    rw [hnone] at hcall
    cases hcall
  | start other call =>
    obtain ⟨-, ht⟩ := Option.ite_none_left_eq_some.mp h
    obtain rfl := Option.some.inj ht
    rcases update_eq_some_iff.mp hp with ⟨rfl, rfl⟩ | ⟨-, hcall⟩
    · exact ⟨call, rfl, rfl, rfl⟩
    · rw [hnone] at hcall
      cases hcall
  | step other =>
    obtain ⟨r, hr, hafter⟩ := Option.bind_eq_some_iff.mp h
    obtain ⟨after, -, ht⟩ := Option.map_eq_some_iff.mp hafter
    exact (hold hr ht).elim
  | fail other error =>
    obtain ⟨r, hr, hafter⟩ := Option.bind_eq_some_iff.mp h
    obtain ⟨rest, -, ht⟩ := Option.map_eq_some_iff.mp hafter
    exact (hold hr ht).elim

/-- A call that was started stays. -/
theorem calls_isSome_of_exec (hcall : (s.calls id).isSome = true)
    (hrun : (callMachine program outside).exec s labels = some t) : (t.calls id).isSome = true := by
  refine (callMachine program outside).exec_invariant
    (P := fun s : CallState σ ε α => (s.calls id).isSome = true) hcall ?_ hrun
  have hset {m : CallState σ ε α} {other : Nat} {state : σ} {q : Program σ ε α}
      (hm : (m.calls id).isSome = true) : ((m.setCall other state q).calls id).isSome = true := by
    simp only [CallState.setCall, Function.update_apply]
    split
    · rfl
    · exact hm
  intro m label t hm hstep
  cases label with
  | outside change =>
    obtain rfl := Option.some.inj hstep
    exact hm
  | start other call =>
    obtain ⟨-, ht⟩ := Option.ite_none_left_eq_some.mp hstep
    exact Option.some.inj ht ▸ hset hm
  | step other =>
    obtain ⟨r, -, hmap⟩ := Option.bind_eq_some_iff.mp hstep
    obtain ⟨after, -, rfl⟩ := Option.map_eq_some_iff.mp hmap
    exact hset hm
  | fail other error =>
    obtain ⟨r, -, hmap⟩ := Option.bind_eq_some_iff.mp hstep
    obtain ⟨rest, -, rfl⟩ := Option.map_eq_some_iff.mp hmap
    exact hset hm

/-- No call is started again. -/
theorem not_start_again {before middle after : List (CallLabel κ ε ω)} {call call' : κ}
    (hrun : (callMachine program outside).exec (.initial init)
      (before ++ .start id call :: (middle ++ .start id call' :: after)) = some s) : False := by
  rw [← List.cons_append, ← List.append_assoc] at hrun
  obtain ⟨m, hm, hafter⟩ := (callMachine program outside).exec_append_some.mp hrun
  obtain ⟨n, hn, hmiddle⟩ := (callMachine program outside).exec_append_some.mp hm
  obtain ⟨o, ho, hmiddle⟩ := Option.bind_eq_some_iff.mp hmiddle
  obtain ⟨-, hnew⟩ := Option.ite_none_left_eq_some.mp ho
  have hcall : (n.setCall id n.state (program call)).calls id = some (program call) :=
    update_eq_some_iff.mpr (Or.inl ⟨rfl, rfl⟩)
  have hstarted : (o.calls id).isSome = true := by
    rw [← Option.some.inj hnew, hcall]
    rfl
  obtain ⟨q, hq, -⟩ := Option.bind_eq_some_iff.mp hafter
  obtain ⟨hnone, -⟩ := Option.ite_none_left_eq_some.mp hq
  exact hnone (calls_isSome_of_exec hstarted hmiddle)

/-- A call is started once, in one state. -/
theorem Started.unique {call call' : κ} {started started' : σ}
    (hrun : (callMachine program outside).exec (.initial init) labels = some s)
    (h : Started (callMachine program outside) init labels id call started)
    (h' : Started (callMachine program outside) init labels id call' started') :
    call = call' ∧ started = started' := by
  obtain ⟨before, after, m, hlabels, hm, rfl⟩ := h
  obtain ⟨before', after', m', hlabels', hm', rfl⟩ := h'
  subst hlabels
  rcases List.append_eq_append_iff.mp hlabels' with ⟨middle, rfl, hrest⟩ | ⟨middle, rfl, hrest⟩
  · cases middle with
    | nil =>
      rw [List.append_nil] at hm'
      obtain ⟨he, -⟩ := List.cons.inj hrest
      obtain rfl := Option.some.inj (hm.symm.trans hm')
      cases he
      exact ⟨rfl, rfl⟩
    | cons first middle =>
      obtain ⟨rfl, rfl⟩ := List.cons.inj hrest
      exact (not_start_again hrun).elim
  · cases middle with
    | nil =>
      rw [List.append_nil] at hm
      obtain ⟨he, -⟩ := List.cons.inj hrest
      obtain rfl := Option.some.inj (hm.symm.trans hm')
      cases he
      exact ⟨rfl, rfl⟩
    | cons first middle =>
      obtain ⟨rfl, rfl⟩ := List.cons.inj hrest
      rw [List.append_assoc] at hrun
      exact (not_start_again hrun).elim

/-- What a label makes of a call that is there, between two states. -/
inductive CallMoves (id : Nat) (s t : σ) :
    CallLabel κ ε ω → Program σ ε α → Program σ ε α → Prop where
  /-- The label is of another call, or of the outside. -/
  | stays {label : CallLabel κ ε ω} {p : Program σ ε α} (hother : label ≠ .step id) :
    CallMoves id s t label p p
  | sample {next : σ → Program σ ε α} (hstate : t = s) :
    CallMoves id s t (.step id) (.sample next) (next s)
  | statement {effect : σ → σ} {next : Except ε σ → Program σ ε α} (hstate : t = effect s) :
    CallMoves id s t (.step id) (.statement effect next) (next (.ok s))
  | failed {effect : σ → σ} {next : Except ε σ → Program σ ε α} {error : ε} (hstate : t = s) :
    CallMoves id s t (.fail id error) (.statement effect next) (next (.error error))

/-- A call that is there stays, or goes on with its next statement. -/
theorem callMoves (hcall : s.calls id = some p)
    (h : (callMachine program outside).step s label = some t) :
    ∃ q, t.calls id = some q ∧ CallMoves id s.state t.state label p q := by
  have hother {state : σ} {other : Nat} {q : Program σ ε α} (hne : id ≠ other)
      (ht : s.setCall other state q = t) : t.calls id = some p := by
    rw [← ht]
    exact update_eq_some_iff.mpr (Or.inr ⟨hne, hcall⟩)
  have hself {state : σ} {q : Program σ ε α} (ht : s.setCall id state q = t) :
      t.calls id = some q ∧ t.state = state := by
    rw [← ht]
    exact ⟨update_eq_some_iff.mpr (Or.inl ⟨rfl, rfl⟩), rfl⟩
  cases label with
  | outside change =>
    obtain rfl := Option.some.inj h
    exact ⟨p, hcall, .stays nofun⟩
  | start other call =>
    obtain ⟨hnew, ht⟩ := Option.ite_none_left_eq_some.mp h
    have hne : id ≠ other := by
      rintro rfl
      rw [hcall] at hnew
      exact hnew rfl
    exact ⟨p, hother hne (Option.some.inj ht), .stays nofun⟩
  | step other =>
    obtain ⟨r, hr, hmap⟩ := Option.bind_eq_some_iff.mp h
    obtain ⟨⟨state, rest⟩, hafter, ht⟩ := Option.map_eq_some_iff.mp hmap
    by_cases hne : id = other
    · subst hne
      obtain rfl := Option.some.inj (hcall.symm.trans hr)
      obtain ⟨hq, hstate⟩ := hself ht
      cases p with
      | done | thrown => cases hafter
      | sample next =>
        obtain ⟨rfl, rfl⟩ := Prod.mk.inj (Option.some.inj hafter)
        exact ⟨_, hq, .sample hstate⟩
      | statement effect next =>
        obtain ⟨rfl, rfl⟩ := Prod.mk.inj (Option.some.inj hafter)
        exact ⟨_, hq, .statement hstate⟩
    · exact ⟨p, hother hne ht, .stays fun he => hne (CallLabel.step.inj he).symm⟩
  | fail other error =>
    obtain ⟨r, hr, hmap⟩ := Option.bind_eq_some_iff.mp h
    obtain ⟨rest, hafter, ht⟩ := Option.map_eq_some_iff.mp hmap
    by_cases hne : id = other
    · subst hne
      obtain rfl := Option.some.inj (hcall.symm.trans hr)
      obtain ⟨hq, hstate⟩ := hself ht
      cases p with
      | done | thrown | sample => cases hafter
      | statement effect next =>
        obtain rfl := Option.some.inj hafter
        exact ⟨_, hq, .failed hstate⟩
    · exact ⟨p, hother hne ht, .stays nofun⟩

/-- A call that stands somewhere behaves on from where a label leaves it. -/
theorem Program.Behaves.moves {A : σ → σ → Prop} {V : σ → α → Prop} {known : σ}
    (hp : p.Behaves R A V known) (hcall : s.calls id = some p) (hknown : R.grows known s.state)
    (h : (callMachine program outside).step s label = some t) (hgrows : R.grows s.state t.state) :
    ∃ q later, t.calls id = some q ∧ q.Behaves R A V later ∧ R.grows known later ∧
      R.grows later t.state := by
  have hlater : R.grows known t.state := R.trans hknown hgrows
  obtain ⟨q, hq, hmoves⟩ := callMoves hcall h
  cases hmoves with
  | stays => exact ⟨p, known, hq, hp, R.refl _, hlater⟩
  | sample =>
    cases hp with
    | sample hnext => exact ⟨_, s.state, hq, hnext _ hknown, hknown, hgrows⟩
  | statement =>
    cases hp with
    | statement _ hnext _ => exact ⟨_, s.state, hq, hnext _ hknown, hknown, hgrows⟩
  | failed =>
    cases hp with
    | statement _ _ hfail => exact ⟨_, known, hq, hfail _, R.refl _, hlater⟩

/-- What a step of a call does to the state is what the call may do. -/
theorem Program.Behaves.attributed {A : σ → σ → Prop} {V : σ → α → Prop} {known : σ}
    (hp : p.Behaves R A V known) (hcall : s.calls id = some p) (hknown : R.grows known s.state)
    (h : (callMachine program outside).step s (.step id) = some t) :
    s.state = t.state ∨ A s.state t.state := by
  obtain ⟨q, -, hmoves⟩ := callMoves hcall h
  cases hmoves with
  | stays hother => exact absurd rfl hother
  | sample hstate => exact Or.inl hstate.symm
  | statement hstate =>
    cases hp with
    | statement heffect _ _ => exact Or.inr (hstate ▸ heffect _ hknown)

/-- What a call has returned is what it should. -/
theorem Program.Behaves.answered {A : σ → σ → Prop} {V : σ → α → Prop} {known : σ} {a : α}
    (hp : p.Behaves R A V known) (hcall : s.calls id = some p)
    (ha : s.answers id = some (.ok a)) : V known a := by
  obtain ⟨r, hr, ha⟩ := Option.bind_eq_some_iff.mp ha
  obtain rfl := Option.some.inj (hcall.symm.trans hr)
  cases hp with
  | done hV =>
    obtain rfl := Except.ok.inj (Option.some.inj ha)
    exact hV
  | thrown | sample | statement => cases ha

end Steps

section Guarantees

variable (hconduct : Conduct program outside R C A V init)
include hconduct

/-- In a step of a run whose calls behave, the state grows. -/
theorem Conduct.grows_of_step {s t : CallState σ ε α} {label : CallLabel κ ε ω}
    (h : Conducted program outside R C A V init labels s)
    (hstep : (callMachine program outside).step s label = some t) : R.grows s.state t.state := by
  rcases callMachine_state hstep with hsame | ⟨change, -, ht⟩ | ⟨id, rfl⟩
  · exact hsame ▸ R.refl _
  · exact ht ▸ hconduct.outside change h.state
  · obtain ⟨p, hcall, -⟩ := Option.bind_eq_some_iff.mp hstep
    obtain ⟨call, started, known, -, hstart, hinit, hstarted, hknown, hp⟩ := h.calls hcall
    rcases hp.attributed hcall hknown hstep with hsame | hA
    · exact hsame ▸ R.refl _
    · exact hconduct.grows hinit hstart (R.trans hstarted hknown) hA

/-- One step of a run whose calls behave. -/
theorem Conduct.step {s t : CallState σ ε α} {label : CallLabel κ ε ω}
    (hrun : (callMachine program outside).exec (.initial init) labels = some s)
    (h : Conducted program outside R C A V init labels s) (hC : StartsOnly C s label)
    (hstep : (callMachine program outside).step s label = some t) :
    Conducted program outside R C A V init (labels ++ [label]) t := by
  have hgrows := hconduct.grows_of_step h hstep
  refine ⟨R.trans h.state hgrows, fun {id p} hp => ?_⟩
  cases hcall : s.calls id with
  | none =>
    obtain ⟨call, rfl, rfl, hsame⟩ := start_of_new hstep hcall hp
    have hstart := hC id call rfl
    exact ⟨call, s.state, s.state, .last hrun, hstart, h.state, R.refl _, hgrows,
      hconduct.behaves h.state hstart⟩
  | some q =>
    obtain ⟨call, started, known, hstarted, hstart, hinit, hknown, hstate, hq⟩ := h.calls hcall
    obtain ⟨r, later, hr, hbehaves, hlater, ht⟩ := hq.moves hcall hstate hstep hgrows
    obtain rfl := Option.some.inj (hp.symm.trans hr)
    exact ⟨call, started, later, hstarted.append _, hstart, hinit, R.trans hknown hlater, ht,
      hbehaves⟩

/-- The run rule. -/
theorem Conduct.conducted {s : CallState σ ε α}
    (hC : (callMachine program outside).Meets (StartsOnly C) (.initial init) labels)
    (hrun : (callMachine program outside).exec (.initial init) labels = some s) :
    Conducted program outside R C A V init labels s :=
  (callMachine program outside).exec_induction
    (P := fun labels s => (callMachine program outside).exec (.initial init) labels = some s ∧
      Conducted program outside R C A V init labels s)
    ⟨rfl, { state := R.refl _, calls := fun hcall => nomatch hcall }⟩
    (fun _ _ _ _ hm h ha hstep => ⟨(Machine.exec_snoc _).mpr ⟨_, hm, hstep⟩,
      hconduct.step hm h.2 ha hstep⟩) hC hrun |>.2

/-- The state grows from each state of a run on. -/
theorem Conduct.grows_of_exec {s m : CallState σ ε α} {later : List (CallLabel κ ε ω)}
    (hC : (callMachine program outside).Meets (StartsOnly C) (.initial init) (labels ++ later))
    (hm : (callMachine program outside).exec (.initial init) labels = some m)
    (hrun : (callMachine program outside).exec (.initial init) (labels ++ later) = some s) :
    R.grows m.state s.state := by
  induction later using List.reverseRecOn generalizing s with
  | nil =>
    rw [List.append_nil] at hrun
    obtain rfl := Option.some.inj (hm.symm.trans hrun)
    exact R.refl _
  | append_singleton later label ih =>
    rw [← List.append_assoc] at hC hrun
    obtain ⟨n, hn, hstep⟩ := (callMachine program outside).exec_snoc.mp hrun
    have hconducted := hconduct.conducted hC.of_append hn
    exact R.trans (ih hC.of_append hn) (hconduct.grows_of_step hconducted hstep)

/-- What a step of a call does is what the call may do, from the state on in which it was
started. -/
theorem Conduct.attributed {s t : CallState σ ε α} {id : Nat}
    (hC : (callMachine program outside).Meets (StartsOnly C) (.initial init) labels)
    (hrun : (callMachine program outside).exec (.initial init) labels = some s)
    (hstep : (callMachine program outside).step s (.step id) = some t) :
    s.state = t.state ∨ ∃ call started,
      Started (callMachine program outside) init labels id call started ∧ C started call ∧
      R.grows init started ∧ R.grows started s.state ∧ A started call s.state t.state := by
  obtain ⟨p, hcall, -⟩ := Option.bind_eq_some_iff.mp hstep
  obtain ⟨call, started, known, hstarted, hstart, hinit, hknown, hstate, hp⟩ :=
    (hconduct.conducted hC hrun).calls hcall
  refine (hp.attributed hcall hstate hstep).imp_right fun hA => ?_
  exact ⟨call, started, hstarted, hstart, hinit, R.trans hknown hstate, hA⟩

/-- What a call has returned is what it should, in a state between its start and now. -/
theorem Conduct.answered {s : CallState σ ε α} {id : Nat} {a : α}
    (hC : (callMachine program outside).Meets (StartsOnly C) (.initial init) labels)
    (hrun : (callMachine program outside).exec (.initial init) labels = some s)
    (ha : s.answers id = some (.ok a)) : ∃ call started known,
      Started (callMachine program outside) init labels id call started ∧ C started call ∧
      R.grows init started ∧ R.grows started known ∧ R.grows known s.state ∧
      V started call known a := by
  obtain ⟨p, hcall, -⟩ := Option.bind_eq_some_iff.mp ha
  obtain ⟨call, started, known, hstarted, hstart, hinit, hknown, hstate, hp⟩ :=
    (hconduct.conducted hC hrun).calls hcall
  exact ⟨call, started, known, hstarted, hstart, hinit, hknown, hstate, hp.answered hcall ha⟩

/-- A call that is started from some state on is started in a state that has grown since. -/
theorem Conduct.started_after {s m : CallState σ ε α} {later : List (CallLabel κ ε ω)} {id : Nat}
    {call : κ}
    (hC : (callMachine program outside).Meets (StartsOnly C) (.initial init) (labels ++ later))
    (hm : (callMachine program outside).exec (.initial init) labels = some m)
    (hrun : (callMachine program outside).exec (.initial init) (labels ++ later) = some s)
    (hmem : .start id call ∈ later) : ∃ started,
      Started (callMachine program outside) init (labels ++ later) id call started ∧
      R.grows m.state started := by
  obtain ⟨first, last, rfl⟩ := List.append_of_mem hmem
  rw [← List.append_assoc] at hC hrun ⊢
  obtain ⟨started, hstarted, -⟩ := (callMachine program outside).exec_append_some.mp hrun
  exact ⟨started.state, ⟨labels ++ first, last, started, rfl, hstarted, rfl⟩,
    hconduct.grows_of_exec hC.of_append hm hstarted⟩

/-- What a step of a call that was started does is what it may do. -/
theorem Conduct.attributed_to {s t : CallState σ ε α} {id : Nat} {call : κ} {started : σ}
    (hC : (callMachine program outside).Meets (StartsOnly C) (.initial init) labels)
    (hrun : (callMachine program outside).exec (.initial init) labels = some s)
    (hstarted : Started (callMachine program outside) init labels id call started)
    (hstep : (callMachine program outside).step s (.step id) = some t) :
    s.state = t.state ∨ (R.grows started s.state ∧ A started call s.state t.state) := by
  refine (hconduct.attributed hC hrun hstep).imp_right ?_
  rintro ⟨call', started', hstarted', -, -, hgrows, hA⟩
  obtain ⟨rfl, rfl⟩ := hstarted.unique hrun hstarted'
  exact ⟨hgrows, hA⟩

/-- What a call that was started has returned is what it should. -/
theorem Conduct.answered_to {s : CallState σ ε α} {id : Nat} {call : κ} {started : σ} {a : α}
    (hC : (callMachine program outside).Meets (StartsOnly C) (.initial init) labels)
    (hrun : (callMachine program outside).exec (.initial init) labels = some s)
    (hstarted : Started (callMachine program outside) init labels id call started)
    (ha : s.answers id = some (.ok a)) : ∃ known, R.grows started known ∧
      R.grows known s.state ∧ V started call known a := by
  obtain ⟨call', started', known, hstarted', -, -, hknown, hs, hV⟩ := hconduct.answered hC hrun ha
  obtain ⟨rfl, rfl⟩ := hstarted.unique hrun hstarted'
  exact ⟨known, hknown, hs, hV⟩

end Guarantees

section Since

variable {τ : Type z} {get : σ → τ} {id : Nat} {s : CallState σ ε α} {p : Program σ ε α}

/-- What a run has shown since it started a call. -/
def metSince (M : Machine (CallState σ ε α) (CallLabel κ ε ω)) (init : σ)
    (labels : List (CallLabel κ ε ω)) (id : Nat) (get : σ → τ) : Rely τ where
  grows a b := a = b ∨ ∃ before call middle after reached,
    labels = before ++ .start id call :: (middle ++ after) ∧
    M.exec (.initial init) (before ++ .start id call :: middle) = some reached ∧
    get reached.state = b
  refl _ := Or.inl rfl
  trans h h' := by
    rcases h' with rfl | h'
    · exact h
    · exact Or.inr h'

/-- What a run has shown stays shown when it goes on. -/
theorem metSince_append {M : Machine (CallState σ ε α) (CallLabel κ ε ω)} {a b : τ}
    (h : (metSince M init labels id get).grows a b) (later : List (CallLabel κ ε ω)) :
    (metSince M init (labels ++ later) id get).grows a b := by
  refine h.imp_right ?_
  rintro ⟨before, call, middle, after, reached, rfl, hreached, hb⟩
  exact ⟨before, call, middle, after ++ later, reached, by simp only [List.append_assoc,
    List.cons_append], hreached, hb⟩

/-- A state that was met since a call was started is one that the run has reached. -/
theorem Started.reached {M : Machine (CallState σ ε α) (CallLabel κ ε ω)} {call : κ} {started : σ}
    {b : τ} (hstarted : Started M init labels id call started)
    (h : (metSince M init labels id get).grows (get started) b) :
    ∃ before after reached, labels = before ++ after ∧
      M.exec (.initial init) before = some reached ∧ get reached.state = b := by
  rcases h with rfl | ⟨before, other, middle, after, reached, rfl, hreached, hb⟩
  · obtain ⟨before, after, m, rfl, hm, rfl⟩ := hstarted
    exact ⟨before, _, m, rfl, hm, rfl⟩
  · exact ⟨before ++ .start id other :: middle, after, reached, by simp only [List.append_assoc,
      List.cons_append], hreached, hb⟩

/-- A call was started in the first part of a run, or in the second one. -/
theorem Started.of_append {M : Machine (CallState σ ε α) (CallLabel κ ε ω)} {call : κ}
    {started : σ} {later : List (CallLabel κ ε ω)}
    (h : Started M init (labels ++ later) id call started) :
    Started M init labels id call started ∨ ∃ former rest reached,
      later = former ++ .start id call :: rest ∧
        M.exec (.initial init) (labels ++ former) = some reached ∧ reached.state = started := by
  obtain ⟨before, after, m, hlabels, hm, rfl⟩ := h
  rcases List.append_eq_append_iff.mp hlabels with ⟨former, rfl, rfl⟩ | ⟨middle, rfl, hlater⟩
  · exact Or.inr ⟨former, after, m, rfl, hm, rfl⟩
  · cases middle with
    | nil =>
      rw [List.append_nil]
      exact Or.inr ⟨[], after, m, hlater.symm, by rwa [List.append_nil], rfl⟩
    | cons first middle =>
      obtain ⟨rfl, -⟩ := List.cons.inj hlater
      exact Or.inl ⟨before, middle, m, rfl, hm, rfl⟩

/-- A call that is there was started. -/
theorem exists_start (hrun : (callMachine program outside).exec (.initial init) labels = some s)
    (hcall : s.calls id = some p) : ∃ before call after started,
      labels = before ++ .start id call :: after ∧
      (callMachine program outside).exec (.initial init) before = some started := by
  induction labels using List.reverseRecOn generalizing s p with
  | nil =>
    obtain rfl := Option.some.inj hrun
    cases hcall
  | append_singleton labels label ih =>
    obtain ⟨m, hm, hstep⟩ := (callMachine program outside).exec_snoc.mp hrun
    cases hold : m.calls id with
    | none =>
      obtain ⟨call, rfl, -, -⟩ := start_of_new hstep hold hcall
      exact ⟨labels, call, [], m, rfl, hm⟩
    | some q =>
      obtain ⟨before, call, after, started, rfl, hstarted⟩ := ih hm hold
      exact ⟨before, call, after ++ [label], started, by simp only [List.append_assoc,
        List.cons_append], hstarted⟩

/-- What the steps of a run keep of a call holds of it from its start on. -/
theorem follow_since (get : σ → τ) {call : κ} {started : σ} {I : Program σ ε α → σ → Prop}
    (hrun : (callMachine program outside).exec (.initial init) labels = some s)
    (hstarted : Started (callMachine program outside) init labels id call started)
    (hstart : I (program call) started)
    (hmoves : ∀ {r t : CallState σ ε α} {label : CallLabel κ ε ω} {q : Program σ ε α},
      r.calls id = some q → I q r.state →
      (callMachine program outside).step r label = some t →
      (metSince (callMachine program outside) init labels id get).grows (get r.state)
        (get t.state) → ∃ u, t.calls id = some u ∧ I u t.state) :
    ∃ q, s.calls id = some q ∧ I q s.state := by
  obtain ⟨before, after, first, rfl, hfirst, rfl⟩ := hstarted
  obtain ⟨m, hm, hrest⟩ := (callMachine program outside).exec_append_some.mp hrun
  obtain rfl := Option.some.inj (hfirst.symm.trans hm)
  obtain ⟨n, hn, hrest⟩ := Option.bind_eq_some_iff.mp hrest
  -- The induction is on how much of the rest of the run has been taken.
  have hfollow : after <+: after → ∃ q, s.calls id = some q ∧ I q s.state := by
    refine (callMachine program outside).exec_induction (C := fun _ _ => True)
      (P := fun middle r => middle <+: after → ∃ q, r.calls id = some q ∧ I q r.state)
      ?start ?step ((callMachine program outside).meets_of_forall fun _ _ => trivial) hrest
    case start =>
      intro _
      obtain ⟨-, hnew⟩ := Option.ite_none_left_eq_some.mp hn
      obtain rfl := Option.some.inj hnew
      exact ⟨program call, update_eq_some_iff.mpr (Or.inl ⟨rfl, rfl⟩), hstart⟩
    case step =>
      intro middle r label t hr ih _ hstep hprefix
      obtain ⟨rest, hafter⟩ := hprefix
      rw [List.append_assoc] at hafter
      obtain ⟨q, hq, hI⟩ := ih ⟨[label] ++ rest, hafter⟩
      refine hmoves hq hI hstep (Or.inr ⟨before, call, middle ++ [label], rest, t, ?_, ?_, rfl⟩)
      · rw [List.append_assoc, hafter]
      · refine (callMachine program outside).exec_append_some.mpr ⟨first, hfirst, ?_⟩
        exact Option.bind_eq_some_iff.mpr ⟨n, hn, Machine.exec_snoc _ |>.mpr ⟨r, hr, hstep⟩⟩
  exact hfollow List.prefix_rfl

variable {A : Rely τ → σ → κ → σ → σ → Prop} {V : Rely τ → σ → κ → σ → α → Prop}
  (hbehaves : ∀ (R : Rely τ) {s call}, C s call →
    (program call).Behaves (R.comap get) (A R s call) (V R s call) s)
include hbehaves

/-- Whatever a call relies on, it behaves on from a state that was met since it was started. -/
theorem behaves_since
    (hC : (callMachine program outside).Meets (StartsOnly C) (.initial init) labels)
    (hrun : (callMachine program outside).exec (.initial init) labels = some s)
    (hcall : s.calls id = some p) : ∃ call started known,
      Started (callMachine program outside) init labels id call started ∧ C started call ∧
      (metSince (callMachine program outside) init labels id get).grows (get known)
        (get s.state) ∧
      p.Behaves ((metSince (callMachine program outside) init labels id get).comap get)
        (A (metSince (callMachine program outside) init labels id get) started call)
        (V (metSince (callMachine program outside) init labels id get) started call) known := by
  obtain ⟨before, call, after, started, rfl, hstarted⟩ := exists_start hrun hcall
  have hstart : C started.state call := hC.at hstarted id call rfl
  have hthere : Started (callMachine program outside) init (before ++ .start id call :: after) id
    call started.state := ⟨before, after, started, rfl, hstarted, rfl⟩
  generalize hR : metSince (callMachine program outside) init
    (before ++ .start id call :: after) id get = R
  have hfollow : ∃ q, s.calls id = some q ∧ ∃ known, R.grows (get known) (get s.state) ∧
      q.Behaves (R.comap get) (A R started.state call) (V R started.state call) known := by
    refine follow_since get (I := fun q r => ∃ known, R.grows (get known) (get r) ∧
      q.Behaves (R.comap get) (A R started.state call) (V R started.state call) known) hrun hthere
      ⟨started.state, R.refl _, hbehaves R hstart⟩ ?_
    rintro r t label q hq ⟨known, hknown, hp⟩ hstep hgrows
    obtain ⟨u, later, hu, hbehaves, -, ht⟩ := hp.moves hq hknown hstep (hR ▸ hgrows)
    exact ⟨u, hu, later, ht, hbehaves⟩
  obtain ⟨q, hq, known, hknown, hp⟩ := hfollow
  obtain rfl := Option.some.inj (hcall.symm.trans hq)
  exact ⟨call, started.state, known, hthere, hstart, hknown, hp⟩

/-- What a step of a call does is what the call may do, over what was met since it was started. -/
theorem attributed_since {t : CallState σ ε α}
    (hC : (callMachine program outside).Meets (StartsOnly C) (.initial init) labels)
    (hrun : (callMachine program outside).exec (.initial init) labels = some s)
    (hstep : (callMachine program outside).step s (.step id) = some t) :
    s.state = t.state ∨ ∃ call started,
      Started (callMachine program outside) init labels id call started ∧ C started call ∧
      A (metSince (callMachine program outside) init labels id get) started call s.state
        t.state := by
  obtain ⟨p, hcall, -⟩ := Option.bind_eq_some_iff.mp hstep
  obtain ⟨call, started, known, hstarted, hstart, hknown, hp⟩ :=
    behaves_since hbehaves hC hrun hcall
  exact (hp.attributed hcall hknown hstep).imp_right fun hA => ⟨call, started, hstarted, hstart, hA⟩

end Since

end Runs

namespace Machine

variable {σ : Type u} {ι : Type v}

/-- Nothing happens, or one label that is allowed in the state. -/
def Performs (M : Machine σ ι) (P : σ → ι → Prop) (s t : σ) : Prop :=
  s = t ∨ ∃ a, P s a ∧ M.step s a = some t

variable {M : Machine σ ι} {P Q : σ → ι → Prop} {s t : σ}

theorem Performs.nothing : M.Performs P s s := Or.inl rfl

theorem Performs.label {a : ι} (ha : P s a) (h : M.step s a = some t) : M.Performs P s t :=
  Or.inr ⟨a, ha, h⟩

/-- More labels may be allowed. -/
theorem Performs.mono (h : M.Performs P s t) (hP : ∀ a, P s a → Q s a) : M.Performs Q s t :=
  h.imp_right fun ⟨a, ha, hstep⟩ => ⟨a, hP a ha, hstep⟩

end Machine

section Refinement

variable {σ : Type u} {ε : Type v} {α : Type w} {κ : Type x} {ω : Type y} {ι τ : Type z}
  {program : κ → Program σ ε α} {outside : ω → σ → σ} {C : σ → κ → Prop}
  {P : Rely τ → σ → κ → σ → ι → Prop} {V : Rely τ → σ → κ → σ → α → Prop} {get : σ → τ} {init : σ}
  {labels : List (CallLabel κ ε ω)} {M : Machine σ ι}

/-- What causes a label of a refined run: the outside, or a step of a call that may make it, over
what was met since the call was started. -/
def CausedIn (program : κ → Program σ ε α) (outside : ω → σ → σ) (get : σ → τ)
    (P : Rely τ → σ → κ → σ → ι → Prop) (ofOutside : ω → ι) (init : σ)
    (labels : List (CallLabel κ ε ω)) (s : σ) (a : ι) : Prop :=
  (∃ change, a = ofOutside change) ∨ ∃ before id after reached call started,
    labels = before ++ .step id :: after ∧
    (callMachine program outside).exec (.initial init) before = some reached ∧
    reached.state = s ∧ Started (callMachine program outside) init before id call started ∧
    P (metSince (callMachine program outside) init before id get) started call s a

/-- A cause stays one when the run goes on. -/
theorem CausedIn.append {ofOutside : ω → ι} {s : σ} {a : ι}
    (h : CausedIn program outside get P ofOutside init labels s a) (later : CallLabel κ ε ω) :
    CausedIn program outside get P ofOutside init (labels ++ [later]) s a := by
  refine h.imp_right ?_
  rintro ⟨before, id, after, reached, call, started, rfl, hrest⟩
  exact ⟨before, id, after ++ [later], reached, call, started, by rw [List.append_assoc,
    List.cons_append], hrest⟩

/-- The refinement rule for steps: when every step of a call is a label that the call may cause, or
leaves the state alone, and the outside makes such labels, then every run is a run of the
machine. -/
theorem refines_of_attributed {ofOutside : ω → ι}
    (houtside : ∀ change s, M.step s (ofOutside change) = some (outside change s))
    (hattributed : ∀ {before : List (CallLabel κ ε ω)} {id : Nat} {m s : CallState σ ε α},
      (callMachine program outside).Meets (StartsOnly C) (.initial init) before →
      (callMachine program outside).exec (.initial init) before = some m →
      (callMachine program outside).step m (.step id) = some s → s.state = m.state ∨
        ∃ call started a, Started (callMachine program outside) init before id call started ∧
          P (metSince (callMachine program outside) init before id get) started call m.state a ∧
          M.step m.state a = some s.state) {s : CallState σ ε α}
    (hC : (callMachine program outside).Meets (StartsOnly C) (.initial init) labels)
    (hrun : (callMachine program outside).exec (.initial init) labels = some s) :
    ∃ as, M.exec init as = some s.state ∧
      M.Meets (CausedIn program outside get P ofOutside init labels) init as := by
  induction labels using List.reverseRecOn generalizing s with
  | nil =>
    obtain rfl := Option.some.inj hrun
    exact ⟨[], rfl, trivial⟩
  | append_singleton labels label ih =>
    obtain ⟨m, hm, hstep⟩ := (callMachine program outside).exec_snoc.mp hrun
    obtain ⟨as, has, hmeets⟩ := ih hC.of_append hm
    have hcaused : M.Meets (CausedIn program outside get P ofOutside init (labels ++ [label]))
        init as := hmeets.imp fun s a ha => ha.append label
    -- A label that leaves the state alone adds no step.
    have hstay (hstate : s.state = m.state) : ∃ as, M.exec init as = some s.state ∧
        M.Meets (CausedIn program outside get P ofOutside init (labels ++ [label])) init as :=
      ⟨as, hstate ▸ has, hcaused⟩
    have hgo {a : ι} (ha : CausedIn program outside get P ofOutside init (labels ++ [label])
        m.state a) (hnext : M.step m.state a = some s.state) :
        ∃ as, M.exec init as = some s.state ∧
          M.Meets (CausedIn program outside get P ofOutside init (labels ++ [label])) init as := by
      refine ⟨as ++ [a], M.exec_snoc.mpr ⟨_, has, hnext⟩, hcaused.append has ⟨ha, ?_⟩⟩
      rw [hnext]
      trivial
    rcases callMachine_state hstep with hsame | ⟨change, -, hchange⟩ | ⟨id, rfl⟩
    · exact hstay hsame
    · exact hgo (Or.inl ⟨change, rfl⟩) (hchange ▸ houtside change m.state)
    · rcases hattributed hC.of_append hm hstep with
        hsame | ⟨call, started, a, hstarted, ha, hnext⟩
      · exact hstay hsame
      · exact hgo (Or.inr ⟨labels, id, [], m, call, started, rfl, hm, rfl, hstarted, ha⟩) hnext

/-- The refinement rule for calls: when the calls make steps of a machine only, and the outside
makes such steps, then every run is a run of that machine. -/
theorem refines_since
    (hbehaves : ∀ (R : Rely τ) {s call}, C s call → (program call).Behaves (R.comap get)
      (M.Performs (P R s call)) (V R s call) s) {ofOutside : ω → ι}
    (houtside : ∀ change s, M.step s (ofOutside change) = some (outside change s))
    {s : CallState σ ε α}
    (hC : (callMachine program outside).Meets (StartsOnly C) (.initial init) labels)
    (hrun : (callMachine program outside).exec (.initial init) labels = some s) :
    ∃ as, M.exec init as = some s.state ∧
      M.Meets (CausedIn program outside get P ofOutside init labels) init as := by
  refine refines_of_attributed houtside (fun hC hrun hstep => ?_) hC hrun
  rcases attributed_since hbehaves hC hrun hstep with
    hsame | ⟨call, started, hstarted, -, hsame | ⟨a, ha, hnext⟩⟩
  · exact Or.inl hsame.symm
  · exact Or.inl hsame.symm
  · exact Or.inr ⟨call, started, a, hstarted, ha, hnext⟩

end Refinement

end VertexApi
