import VertexApi.Core.Conduct

/-!
# Programs that commit once

A program commits when a statement of it changes a part of the state. It commits once when
nothing that follows changes the part again, and what follows ends with errors of some kind
only. Programs are read in states with an invariant, as every state is that a run reaches. So
a call that answers with another error has left the part alone.
-/

namespace VertexApi

universe u v w x y z

namespace Program

variable {σ : Type u} {ε : Type v} {α β : Type w} {δ : Type x}

/-- A program leaves a part of the state alone, throws certain errors only, and returns certain
results only. -/
inductive Quiet (I : σ → Prop) (part : σ → δ) (E : ε → Prop) (V : α → Prop) :
    Program σ ε α → Prop where
  | done {a : α} (h : V a) : Quiet I part E V (.done a)
  | thrown {error : ε} (h : E error) : Quiet I part E V (.thrown error)
  | sample {next : σ → Program σ ε α} (h : ∀ s, I s → Quiet I part E V (next s)) :
    Quiet I part E V (.sample next)
  | statement {effect : σ → σ} {next : Except ε σ → Program σ ε α}
    (heffect : ∀ s, I s → part (effect s) = part s)
    (hnext : ∀ s, I s → Quiet I part E V (next (.ok s)))
    (hfail : ∀ error, Quiet I part E V (next (.error error))) :
    Quiet I part E V (.statement effect next)

/-- A program is quiet from its first change of a part of the state on. -/
inductive Commits (I : σ → Prop) (part : σ → δ) (E : ε → Prop) (V : α → Prop) :
    Program σ ε α → Prop where
  | done (a : α) : Commits I part E V (.done a)
  | thrown (error : ε) : Commits I part E V (.thrown error)
  | sample {next : σ → Program σ ε α} (h : ∀ s, I s → Commits I part E V (next s)) :
    Commits I part E V (.sample next)
  | statement {effect : σ → σ} {next : Except ε σ → Program σ ε α}
    (hstay : ∀ s, I s → part (effect s) = part s → Commits I part E V (next (.ok s)))
    (hmove : ∀ s, I s → part (effect s) ≠ part s → Quiet I part E V (next (.ok s)))
    (hfail : ∀ error, Commits I part E V (next (.error error))) :
    Commits I part E V (.statement effect next)

section Rules

variable {I : σ → Prop} {part : σ → δ} {E E' : ε → Prop} {V V' : α → Prop} {W : β → Prop}
  {p : Program σ ε α}

namespace Quiet

theorem pure {a : α} (h : V a) : Quiet I part E V (Pure.pure a : Program σ ε α) := .done h

theorem bind {rest : α → Program σ ε β} (h : Quiet I part E V p)
    (hrest : ∀ a, V a → Quiet I part E W (rest a)) : Quiet I part E W (p >>= rest) := by
  induction h with
  | done h => exact hrest _ h
  | thrown h => exact .thrown h
  | sample _ ih => exact .sample ih
  | statement heffect _ _ ihNext ihFail => exact .statement heffect ihNext ihFail

theorem mono (h : Quiet I part E V p) (hE : ∀ error, E error → E' error)
    (hV : ∀ a, V a → V' a) : Quiet I part E' V' p := by
  induction h with
  | done h => exact .done (hV _ h)
  | thrown h => exact .thrown (hE _ h)
  | sample _ ih => exact .sample ih
  | statement heffect _ _ ihNext ihFail => exact .statement heffect ihNext ihFail

/-- The errors of a program are those of its handler. -/
theorem tryCatch {handler : ε → Program σ ε α} (h : Quiet I part E V p)
    (hhandler : ∀ error, E error → Quiet I part E' V (handler error)) :
    Quiet I part E' V (tryCatchThe ε p handler) := by
  induction h with
  | done h => exact .done h
  | thrown h => exact hhandler _ h
  | sample _ ih => exact .sample ih
  | statement heffect _ _ ihNext ihFail => exact .statement heffect ihNext ihFail

/-- A quiet program has nothing to commit. -/
theorem commits (h : Quiet I part E V p) : Commits I part E' V' p := by
  induction h with
  | done => exact .done _
  | thrown => exact .thrown _
  | sample _ ih => exact .sample ih
  | statement heffect _ _ ihNext ihFail =>
    exact .statement (fun s hs _ => ihNext s hs) (fun s hs hne => absurd (heffect s hs) hne) ihFail

end Quiet

namespace Commits

theorem pure (a : α) : Commits I part E V (Pure.pure a : Program σ ε α) := .done a

theorem throw (error : ε) : Commits I part E V (throwThe ε error : Program σ ε α) := .thrown error

/-- What follows commits when the first part may not have, and is quiet when it has. -/
theorem bind {rest : α → Program σ ε β} (h : Commits I part E V p)
    (hrest : ∀ a, Commits I part E W (rest a))
    (hquiet : ∀ a, V a → Quiet I part E W (rest a)) : Commits I part E W (p >>= rest) := by
  induction h with
  | done a => exact hrest a
  | thrown error => exact .thrown error
  | sample _ ih => exact .sample ih
  | statement _ hmove _ ihStay ihFail =>
    exact .statement ihStay (fun s hs hne => (hmove s hs hne).bind hquiet) ihFail

/-- A first part that never commits leaves everything to what follows. -/
theorem after {rest : α → Program σ ε β} (h : Commits I part E (fun _ => False) p)
    (hrest : ∀ a, Commits I part E W (rest a)) : Commits I part E W (p >>= rest) :=
  h.bind hrest fun _ => False.elim

/-- What follows is quiet wherever the first part has been left. -/
theorem before {rest : α → Program σ ε β} (h : Commits I part E (fun _ => True) p)
    (hquiet : ∀ a, Quiet I part E W (rest a)) : Commits I part E W (p >>= rest) :=
  h.bind (fun a => (hquiet a).commits) fun a _ => hquiet a

theorem map {f : α → β} (h : Commits I part E V p) (hW : ∀ a, V a → W (f a)) :
    Commits I part E W (f <$> p) :=
  h.bind (fun a => .pure (f a)) fun a ha => .pure (hW a ha)

theorem mono (h : Commits I part E V p) (hE : ∀ error, E error → E' error)
    (hV : ∀ a, V a → V' a) : Commits I part E' V' p := by
  induction h with
  | done a => exact .done a
  | thrown error => exact .thrown error
  | sample _ ih => exact .sample ih
  | statement _ hmove _ ihStay ihFail =>
    exact .statement ihStay (fun s hs hne => (hmove s hs hne).mono hE hV) ihFail

/-- The handler meets the errors of a program that has not committed, and those that it may
throw when it has. -/
theorem tryCatch {handler : ε → Program σ ε α} (h : Commits I part E V p)
    (hhandler : ∀ error, Commits I part E' V (handler error))
    (hquiet : ∀ error, E error → Quiet I part E' V (handler error)) :
    Commits I part E' V (tryCatchThe ε p handler) := by
  induction h with
  | done a => exact .done a
  | thrown error => exact hhandler error
  | sample _ ih => exact .sample ih
  | statement _ hmove _ ihStay ihFail =>
    exact .statement ihStay (fun s hs hne => (hmove s hs hne).tryCatch hquiet) ihFail

/-- One statement, which changes the part where its result says so. -/
theorem query {run : σ → Except ε (σ × α)}
    (h : ∀ s t a, I s → run s = .ok (t, a) → part t = part s ∨ V a) :
    Commits I part E V (.query run) := by
  refine .statement (fun s hs hstay => ?stay) (fun s hs hne => ?move) fun error => .thrown error
  case stay =>
    change Commits I part E V (ofOutcome (run s))
    cases run s with
    | ok outcome => exact .done _
    | error error => exact .thrown error
  case move =>
    change Quiet I part E V (ofOutcome (run s))
    cases hrun : run s with
    | ok outcome =>
      refine .done ((h s outcome.1 outcome.2 hs hrun).resolve_left fun he => hne ?_)
      rw [hrun]
      exact he
    | error error =>
      refine absurd ?_ hne
      rw [hrun]
      rfl

/-- A look changes nothing. -/
theorem look {f : σ → α} : Commits I part E V (.look f) := .sample fun _ _ => .done _

/-- What goes on when nothing is found may commit, since nothing was committed then. -/
theorem found {q : Program σ ε (Option α)} {rest : Option α → Program σ ε β}
    (h : Commits I part E (fun found => found.isSome = true) q)
    (hnone : Commits I part E W (rest none)) (hsome : ∀ a, Quiet I part E W (rest (some a))) :
    Commits I part E W (q >>= rest) := by
  refine h.bind (fun found => ?_) fun found hfound => ?_
  · cases found with
    | none => exact hnone
    | some found => exact (hsome found).commits
  · cases found with
    | none => cases hfound
    | some found => exact hsome found

end Commits

/-- One statement that leaves the part alone, and may fail. -/
theorem Quiet.query {run : σ → Except ε (σ × α)} (hE : ∀ error, E error)
    (h : ∀ s t a, I s → run s = .ok (t, a) → part t = part s ∧ V a) :
    Quiet I part E V (.query run) := by
  refine .statement (fun s hs => ?effect) (fun s hs => ?next) fun error => .thrown (hE error)
  case effect =>
    cases hrun : run s with
    | ok outcome => exact (h s _ _ hs hrun).1
    | error error => rfl
  case next =>
    change Quiet I part E V (ofOutcome (run s))
    cases hrun : run s with
    | ok outcome => exact .done (h s _ _ hs hrun).2
    | error error => exact .thrown (hE error)

theorem Quiet.look {f : σ → α} (h : ∀ s, I s → V (f s)) : Quiet I part E V (.look f) :=
  .sample fun s hs => .done (h s hs)

end Rules

section Zoom

variable {τ : Type y} {η : Type z} {get : τ → σ} {set : τ → σ → τ} {I : σ → Prop}
  {part : σ → δ} {J : τ → Prop} {whole : τ → η} {E : ε → Prop} {V : α → Prop} {p : Program σ ε α}

/-- A quiet program over a part of the state is quiet on the state. -/
theorem Quiet.zoom (h : Quiet I part E V p) (hI : ∀ t, J t → I (get t))
    (hpart : ∀ t s, J t → part s = part (get t) → whole (set t s) = whole t) :
    Quiet J whole E V (p.zoom get set) := by
  induction h with
  | done h => exact .done h
  | thrown h => exact .thrown h
  | sample _ ih => exact .sample fun t ht => ih (get t) (hI t ht)
  | statement heffect _ _ ihNext ihFail =>
    exact .statement (fun t ht => hpart t _ ht (heffect (get t) (hI t ht)))
      (fun t ht => ihNext (get t) (hI t ht)) ihFail

/-- A program that commits once over a part of the state does so on the state. -/
theorem Commits.zoom (h : Commits I part E V p) (hI : ∀ t, J t → I (get t))
    (hpart : ∀ t s, J t → (whole (set t s) = whole t ↔ part s = part (get t))) :
    Commits J whole E V (p.zoom get set) := by
  induction h with
  | done a => exact .done a
  | thrown error => exact .thrown error
  | sample _ ih => exact .sample fun t ht => ih (get t) (hI t ht)
  | statement _ hmove _ ihStay ihFail =>
    refine .statement (fun t ht hstay => ihStay (get t) (hI t ht) ((hpart t _ ht).mp hstay))
      (fun t ht hne => ?_) ihFail
    have hmoved := hmove (get t) (hI t ht) fun he => hne ((hpart t _ ht).mpr he)
    exact hmoved.zoom hI fun t s ht => (hpart t s ht).mpr

end Zoom

end Program

section Runs

open Program

variable {σ : Type u} {ε : Type v} {α : Type w} {κ : Type x} {ω : Type y} {δ : Type z}
  {program : κ → Program σ ε α} {outside : ω → σ → σ} {I : σ → Prop} {part : σ → δ}
  {E : ε → Prop} {V : α → Prop} {s t : CallState σ ε α} {label : CallLabel κ ε ω} {id : Nat}
  {p q : Program σ ε α} {init : σ} {labels : List (CallLabel κ ε ω)}

/-- A quiet call stays quiet, and leaves the part alone. -/
theorem Program.Quiet.moves {a b : σ} (hp : p.Quiet I part E V) (ha : I a)
    (h : CallMoves id a b label p q) :
    q.Quiet I part E V ∧ (label = .step id → part b = part a) := by
  cases h with
  | stays hother => exact ⟨hp, fun he => absurd he hother⟩
  | sample hstate =>
    cases hp with
    | sample hnext => exact ⟨hnext _ ha, fun _ => by rw [hstate]⟩
  | statement hstate =>
    cases hp with
    | statement heffect hnext _ => exact ⟨hnext _ ha, fun _ => by rw [hstate, heffect _ ha]⟩
  | failed =>
    cases hp with
    | statement _ _ hfail => exact ⟨hfail _, nofun⟩

/-- A call that commits once goes on to, and is quiet when it has. -/
theorem Program.Commits.moves {a b : σ} (hp : p.Commits I part E V) (ha : I a)
    (h : CallMoves id a b label p q) :
    q.Commits I part E V ∧ (label = .step id → part b ≠ part a → q.Quiet I part E V) := by
  cases h with
  | stays hother => exact ⟨hp, fun he => absurd he hother⟩
  | sample hstate =>
    cases hp with
    | sample hnext => exact ⟨hnext _ ha, fun _ hne => absurd (by rw [hstate]) hne⟩
  | @statement effect next hstate =>
    cases hp with
    | statement hstay hmove _ =>
      subst hstate
      refine ⟨?_, fun _ hne => hmove _ ha hne⟩
      by_cases he : part (effect a) = part a
      · exact hstay _ ha he
      · exact (hmove _ ha he).commits
  | failed =>
    cases hp with
    | statement _ _ hfail => exact ⟨hfail _, nofun⟩

/-- A call that is there was started, and commits once from where it stands. -/
theorem commits_of_exec {E : κ → ε → Prop} {V : κ → α → Prop}
    (hcommits : ∀ call, (program call).Commits I part (E call) (V call))
    (hI : ∀ labels s, (callMachine program outside).exec (.initial init) labels = some s →
      I s.state)
    (hrun : (callMachine program outside).exec (.initial init) labels = some s)
    (hcall : s.calls id = some p) : ∃ call started,
      Started (callMachine program outside) init labels id call started ∧
      p.Commits I part (E call) (V call) := by
  induction labels using List.reverseRecOn generalizing s p with
  | nil =>
    obtain rfl := Option.some.inj hrun
    cases hcall
  | append_singleton labels label ih =>
    obtain ⟨m, hm, hstep⟩ := (callMachine program outside).exec_snoc.mp hrun
    cases hold : m.calls id with
    | none =>
      obtain ⟨call, rfl, rfl, -⟩ := start_of_new hstep hold hcall
      exact ⟨call, m.state, .last hm, hcommits call⟩
    | some r =>
      obtain ⟨call, started, hstarted, hr⟩ := ih hm hold
      obtain ⟨q, hq, hmoves⟩ := callMoves hold hstep
      obtain rfl := Option.some.inj (hcall.symm.trans hq)
      exact ⟨call, started, hstarted.append _, (hr.moves (hI labels m hm) hmoves).1⟩

/-- A quiet call stays quiet in every run. -/
theorem quiet_of_exec {m : CallState σ ε α} {later : List (CallLabel κ ε ω)}
    (hI : ∀ labels s, (callMachine program outside).exec (.initial init) labels = some s →
      I s.state)
    (hm : (callMachine program outside).exec (.initial init) labels = some m)
    (hcall : m.calls id = some p) (hp : p.Quiet I part E V)
    (hrun : (callMachine program outside).exec m later = some s) :
    ∃ q, s.calls id = some q ∧ q.Quiet I part E V := by
  refine (callMachine program outside).exec_induction (C := fun _ _ => True)
    (P := fun _ s => ∃ q, s.calls id = some q ∧ q.Quiet I part E V) ⟨p, hcall, hp⟩
    (fun later n label t hn ⟨q, hq, hquiet⟩ _ hstep => ?_)
    ((callMachine program outside).meets_of_forall fun _ _ => trivial) hrun
  obtain ⟨r, hr, hmoves⟩ := callMoves hq hstep
  have hreached := (callMachine program outside).exec_append_some.mpr ⟨m, hm, hn⟩
  exact ⟨r, hr, (hquiet.moves (hI _ n hreached) hmoves).1⟩

/-- The run rule: once a call has changed the part, it never does again, and ends as it may end
then. -/
theorem commits_once {E : κ → ε → Prop} {V : κ → α → Prop} {after : CallState σ ε α}
    {later : List (CallLabel κ ε ω)} {call : κ} {started : σ}
    (hcommits : ∀ call, (program call).Commits I part (E call) (V call))
    (hI : ∀ labels s, (callMachine program outside).exec (.initial init) labels = some s →
      I s.state)
    (hrun : (callMachine program outside).exec (.initial init) labels = some s)
    (hstarted : Started (callMachine program outside) init labels id call started)
    (hstep : (callMachine program outside).step s (.step id) = some after)
    (hchange : part after.state ≠ part s.state)
    (hlater : (callMachine program outside).exec after later = some t) :
    (∀ u, (callMachine program outside).step t (.step id) = some u →
      part u.state = part t.state) ∧
    (∀ error, t.answers id = some (.error error) → E call error) ∧
    ∀ a, t.answers id = some (.ok a) → V call a := by
  obtain ⟨p, hcall, -⟩ := Option.bind_eq_some_iff.mp hstep
  obtain ⟨call', started', hstarted', hp⟩ := commits_of_exec hcommits hI hrun hcall
  obtain ⟨rfl, -⟩ := hstarted.unique hrun hstarted'
  obtain ⟨q, hq, hmoves⟩ := callMoves hcall hstep
  have hquiet := (hp.moves (hI labels s hrun) hmoves).2 rfl hchange
  have hafter := (callMachine program outside).exec_snoc.mpr ⟨s, hrun, hstep⟩
  obtain ⟨r, hr, hquiet⟩ := quiet_of_exec hI hafter hq hquiet hlater
  have hreached := (callMachine program outside).exec_append_some.mpr ⟨after, hafter, hlater⟩
  refine ⟨fun u hu => ?_, fun error herror => ?_, fun a ha => ?_⟩
  · obtain ⟨r', -, hmoves'⟩ := callMoves hr hu
    exact (hquiet.moves (hI _ t hreached) hmoves').2 rfl
  · obtain ⟨r', hr', herror⟩ := Option.bind_eq_some_iff.mp herror
    obtain rfl := Option.some.inj (hr.symm.trans hr')
    cases hquiet with
    | thrown h =>
      obtain rfl := Except.error.inj (Option.some.inj herror)
      exact h
    | done | sample | statement => cases herror
  · obtain ⟨r', hr', ha⟩ := Option.bind_eq_some_iff.mp ha
    obtain rfl := Option.some.inj (hr.symm.trans hr')
    cases hquiet with
    | done h =>
      obtain rfl := Except.ok.inj (Option.some.inj ha)
      exact h
    | thrown | sample | statement => cases ha

end Runs

end VertexApi
