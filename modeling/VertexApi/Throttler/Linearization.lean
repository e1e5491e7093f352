import VertexApi.Core.Text
import VertexApi.Throttler.Chain

/-!
# The storage linearizes the window machine

While no item is deleted, the stored state of a key is the fold of the decision over the
clock samples of the calls that were counted on it, in the order of their writes, and
every such call returns the record of its own step. Calls on other keys leave no trace:
without them, the run is still a run, with the same item and the same answers.
-/

namespace VertexApi.Throttler

/-- The call was started for this throttler and key. -/
def State.belongs (s : State) (throttlerName key : String) (id : Nat) : Bool :=
  (s.calls id).any fun call => call.args.throttlerName == throttlerName && call.args.key == key

/-- The label is a step of the clock, of this item, or of one of these calls. -/
def Label.concerns (itemKey : String) (mine : Nat → Bool) : Label → Bool
  | .tick _ => true
  | .call id _ => mine id
  | .get id => mine id
  | .sample id => mine id
  | .put id => mine id
  | .error id => mine id
  | .expire other => other == itemKey

/-- Every started call is found under its number with the arguments it was started with. -/
theorem calls_args_of_exec {clock : Nat} {labels : List Label} {s : State}
    (hrun : storage.exec (State.initial clock) labels = some s) {id : Nat} {args : Increment}
    (h : .call id args ∈ labels) : ∃ phase seen, s.calls id = some ⟨args, phase, seen⟩ := by
  refine storage.exec_induction (C := fun _ _ => True)
    (P := fun labels s => .call id args ∈ labels →
      ∃ phase seen, s.calls id = some ⟨args, phase, seen⟩)
    (fun h => nomatch h) ?_ (storage.meets_of_forall fun _ _ => trivial) hrun h
  intro labels m label t _ ih _ hstep hmem
  rcases List.mem_append.mp hmem with hmem | hmem
  · exact calls_args_step (ih hmem) hstep
  · rw [← List.mem_singleton.mp hmem] at hstep
    obtain ⟨_, rfl⟩ := step_call.mp hstep
    exact ⟨_, _, State.setCall_calls_self ..⟩

/-- Every call of a run was started by one of its labels. -/
theorem mem_labels_of_call {clock : Nat} {labels : List Label} {s : State}
    (hrun : storage.exec (State.initial clock) labels = some s) {id : Nat} {args : Increment}
    {phase : Phase} {seen : Nat} (hcall : s.calls id = some ⟨args, phase, seen⟩) :
    .call id args ∈ labels := by
  refine storage.exec_induction (C := fun _ _ => True)
    (P := fun labels s => ∀ phase seen, s.calls id = some ⟨args, phase, seen⟩ →
      .call id args ∈ labels)
    (fun _ _ h => by cases h) ?_ (storage.meets_of_forall fun _ _ => trivial) hrun phase seen hcall
  intro labels m label t _ ih _ hstep phase seen hcall
  cases hm : m.calls id with
  | none =>
    rcases calls_step id hstep with hsame | ⟨args', rfl⟩ | hown
    · rw [hsame, hm] at hcall
      cases hcall
    · obtain ⟨_, rfl⟩ := step_call.mp hstep
      rw [State.setCall_calls_self, Option.some.injEq] at hcall
      obtain rfl : args' = args := congrArg Call.args hcall
      exact List.mem_append_right _ (List.mem_singleton_self _)
    · have hnone : storage.step m label = none := by
        rcases hown with rfl | rfl | rfl | rfl
        all_goals exact congrArg (Option.bind · _) hm
      rw [hnone] at hstep
      cases hstep
  | some found =>
    obtain ⟨args', phase', seen'⟩ := found
    obtain ⟨phase'', seen'', hkept⟩ := calls_args_step ⟨phase', seen', hm⟩ hstep
    rw [hkept, Option.some.injEq] at hcall
    obtain rfl : args' = args := congrArg Call.args hcall
    exact List.mem_append_left _ (ih phase' seen' hm)

/-- A condition only looks at the item under its own key. -/
theorem send_congr {put : PutItem} {table other : Table}
    (h : other put.itemKey = table put.itemKey) :
    (put.send other).map (fun after => after put.itemKey) =
      (put.send table).map fun after => after put.itemKey := by
  unfold PutItem.send
  rw [h]
  split
  · simp only [Option.map_some, Function.update_self]
  · rfl

/-- An applied write changes the item under its own key only. -/
theorem send_of_ne {put : PutItem} {table after : Table} (hsend : put.send table = some after)
    {itemKey : String} (h : put.itemKey ≠ itemKey) : after itemKey = table itemKey := by
  unfold PutItem.send at hsend
  split at hsend
  · rw [← Option.some.inj hsend, Function.update_of_ne (Ne.symm h)]
  · cases hsend

/-- Two states that agree on the clock, on one item and its writes, and on its calls. -/
structure SameOn (itemKey : String) (mine : Nat → Bool) (s t : State) : Prop where
  clock : t.clock = s.clock
  table : t.table itemKey = s.table itemKey
  commits : t.commitsOn itemKey = s.commitsOn itemKey
  calls : ∀ id, mine id = true → t.calls id = s.calls id
  /-- The calls in question are those on the item. -/
  keys : ∀ {id args phase seen}, s.calls id = some ⟨args, phase, seen⟩ →
    (mine id = true ↔ args.itemKey = itemKey)

namespace SameOn

variable {itemKey : String} {mine : Nat → Bool} {s t : State}

/-- The same step of a call on the item in both states. -/
theorem setCall (h : SameOn itemKey mine s t) (id : Nat) (call : Call)
    (hmine : mine id = true ↔ call.args.itemKey = itemKey) :
    SameOn itemKey mine (s.setCall id call) (t.setCall id call) where
  clock := h.clock
  table := h.table
  commits := h.commits
  calls other hother := by
    by_cases he : other = id
    · rw [he, State.setCall_calls_self, State.setCall_calls_self]
    · rw [State.setCall_calls_of_ne _ _ _ he, State.setCall_calls_of_ne _ _ _ he]
      exact h.calls other hother
  keys {other _ _ _} hfound := by
    rcases State.of_setCall _ _ _ hfound with ⟨rfl, rfl⟩ | ⟨-, hold⟩
    · exact hmine
    · exact h.keys hold

/-- A step of a call on another item in one of the states. -/
theorem setCall_left (h : SameOn itemKey mine s t) {id : Nat} {call : Call}
    (hmine : mine id = true ↔ call.args.itemKey = itemKey) (hother : mine id = false) :
    SameOn itemKey mine (s.setCall id call) t where
  clock := h.clock
  table := h.table
  commits := h.commits
  calls other hmem := by
    have he : other ≠ id := fun he => Bool.false_ne_true (hother.symm.trans (he ▸ hmem))
    rw [State.setCall_calls_of_ne _ _ _ he]
    exact h.calls other hmem
  keys := (h.setCall id call hmine).keys

/-- The same applied write on the item in both states. -/
theorem commit (h : SameOn itemKey mine s t) {table other : Table}
    (htable : other itemKey = table itemKey) (commit : Commit) :
    SameOn itemKey mine (s.commit table commit) (t.commit other commit) where
  clock := h.clock
  table := htable
  commits := by rw [State.commitsOn_commit, State.commitsOn_commit, h.commits]
  calls := h.calls
  keys := h.keys

/-- An applied write on another item in one of the states. -/
theorem commit_left (h : SameOn itemKey mine s t) {table : Table}
    (htable : table itemKey = s.table itemKey) {commit : Commit}
    (hne : commit.args.itemKey ≠ itemKey) : SameOn itemKey mine (s.commit table commit) t where
  clock := h.clock
  table := h.table.trans htable.symm
  commits := by rw [State.commitsOn_commit, if_neg hne, List.append_nil, h.commits]
  calls := h.calls
  keys := h.keys

/-- A label that concerns the item is the same step in both states. -/
theorem step_keep (h : SameOn itemKey mine s t) {label : Label} {s' : State}
    (hstart : ∀ id args, label = .call id args → (mine id = true ↔ args.itemKey = itemKey))
    (hconcerns : label.concerns itemKey mine = true) (hstep : storage.step s label = some s') :
    ∃ t', storage.step t label = some t' ∧ SameOn itemKey mine s' t' := by
  cases label with
  | tick ms =>
    obtain rfl : _ = s' := Option.some.inj hstep
    exact ⟨_, rfl, { h with clock := congrArg (· + ms) h.clock }⟩
  | call id args =>
    obtain ⟨hnone, rfl⟩ := step_call.mp hstep
    exact ⟨_, step_call.mpr ⟨(h.calls id hconcerns).trans hnone, rfl⟩,
      h.setCall id _ (hstart id args rfl)⟩
  | get id =>
    obtain ⟨args, attempt, seen, hcall, rfl⟩ := step_get.mp hstep
    have hkey := h.keys hcall
    have hread : read t.table args.itemKey = read s.table args.itemKey := by
      rw [hkey.mp hconcerns, read, read, h.table]
    refine ⟨_, step_get.mpr ⟨args, attempt, seen, (h.calls id hconcerns).trans hcall, rfl⟩, ?_⟩
    rw [hread, hkey.mp hconcerns, h.commits]
    exact h.setCall id _ hkey
  | sample id =>
    obtain ⟨args, attempt, current, seen, hcall, rfl⟩ := step_sample.mp hstep
    refine ⟨_, step_sample.mpr
      ⟨args, attempt, current, seen, (h.calls id hconcerns).trans hcall, rfl⟩, ?_⟩
    rw [h.clock]
    exact h.setCall id _ (h.keys hcall)
  | put id =>
    obtain ⟨args, attempt, current, now, seen, hcall, hput⟩ := step_put.mp hstep
    have hkey := h.keys hcall
    have hcall' := (h.calls id hconcerns).trans hcall
    have hitem : (args.put current now).itemKey = itemKey := hkey.mp hconcerns
    have hsame : t.table (args.put current now).itemKey =
        s.table (args.put current now).itemKey := by rw [hitem, h.table]
    have hsend := send_congr hsame
    rcases hput with ⟨table, happlied, rfl⟩ | ⟨hlost, rfl⟩
    · rw [happlied, Option.map_some, Option.map_eq_some_iff] at hsend
      obtain ⟨other, happlied', hother⟩ := hsend
      rw [hitem] at hother
      exact ⟨_, step_put.mpr ⟨args, attempt, current, now, seen, hcall',
        Or.inl ⟨other, happlied', rfl⟩⟩, (h.commit hother _).setCall id _ hkey⟩
    · rw [hlost, Option.map_none, Option.map_eq_none_iff] at hsend
      exact ⟨_, step_put.mpr ⟨args, attempt, current, now, seen, hcall', Or.inr ⟨hsend, rfl⟩⟩,
        h.setCall id _ hkey⟩
  | error id =>
    obtain ⟨args, phase, seen, hcall, hphase, rfl⟩ := step_error.mp hstep
    exact ⟨_, step_error.mpr
      ⟨args, phase, seen, (h.calls id hconcerns).trans hcall, hphase, rfl⟩,
      h.setCall id _ (h.keys hcall)⟩
  | expire other =>
    obtain ⟨item, hitem, hdue, rfl⟩ := step_expire.mp hstep
    obtain rfl : other = itemKey := beq_iff_eq.mp hconcerns
    refine ⟨_, step_expire.mpr ⟨item, h.table.trans hitem, h.clock ▸ hdue, rfl⟩, ?_⟩
    exact { h with table := by simp only [Function.update_self] }

/-- A label that does not concern the item leaves no trace on it. -/
theorem step_drop (h : SameOn itemKey mine s t) {label : Label} {s' : State}
    (hstart : ∀ id args, label = .call id args → (mine id = true ↔ args.itemKey = itemKey))
    (hconcerns : label.concerns itemKey mine = false) (hstep : storage.step s label = some s') :
    SameOn itemKey mine s' t := by
  cases label with
  | tick ms => cases hconcerns
  | call id args =>
    obtain ⟨_, rfl⟩ := step_call.mp hstep
    exact h.setCall_left (hstart id args rfl) hconcerns
  | get id =>
    obtain ⟨_, _, _, hcall, rfl⟩ := step_get.mp hstep
    exact h.setCall_left (h.keys hcall) hconcerns
  | sample id =>
    obtain ⟨_, _, _, _, hcall, rfl⟩ := step_sample.mp hstep
    exact h.setCall_left (h.keys hcall) hconcerns
  | put id =>
    obtain ⟨args, attempt, current, now, seen, hcall, hput⟩ := step_put.mp hstep
    have hkey := h.keys hcall
    have hne : args.itemKey ≠ itemKey := fun he =>
      Bool.false_ne_true (hconcerns.symm.trans (hkey.mpr he))
    rcases hput with ⟨table, happlied, rfl⟩ | ⟨_, rfl⟩
    · exact (h.commit_left (send_of_ne happlied hne) hne).setCall_left hkey hconcerns
    · exact h.setCall_left hkey hconcerns
  | error id =>
    obtain ⟨_, _, _, hcall, _, rfl⟩ := step_error.mp hstep
    exact h.setCall_left (h.keys hcall) hconcerns
  | expire other =>
    obtain ⟨_, _, _, rfl⟩ := step_expire.mp hstep
    have hne : itemKey ≠ other := fun he => by
      simp only [Label.concerns, he, beq_self_eq_true, Bool.true_eq_false] at hconcerns
    exact { h with table := h.table.trans (Function.update_of_ne hne ..).symm }

end SameOn

/-- The calls of one throttler and key run as if no other call existed. -/
theorem exec_alone {clock : Nat} {labels : List Label} {s : State}
    (hrun : storage.exec (State.initial clock) labels = some s) {throttlerName key : String}
    (hkey : ':' ∉ key.toList) (hkeys : ∀ id args, .call id args ∈ labels → ':' ∉ args.key.toList) :
    ∃ t, storage.exec (State.initial clock) (labels.filter (Label.concerns
        (throttlerName ++ ":" ++ key) (s.belongs throttlerName key))) = some t ∧
      SameOn (throttlerName ++ ":" ++ key) (s.belongs throttlerName key) s t := by
  have hstart : ∀ label ∈ labels, ∀ id args, label = .call id args →
      (s.belongs throttlerName key id = true ↔ args.itemKey = throttlerName ++ ":" ++ key) := by
    rintro label hmem id args rfl
    obtain ⟨phase, seen, hcall⟩ := calls_args_of_exec hrun hmem
    simp only [State.belongs, hcall, Option.any_some, Bool.and_eq_true, beq_iff_eq]
    exact (colon_append_inj (hkeys id args hmem) hkey).symm
  refine storage.exec_filter_simulates storage _ _ (fun _ _ _ _ h hs hp hstep => ?_)
    (fun _ _ _ _ h hs hp hstep => ?_) ?_ (storage.meets_of_forall hstart) hrun
  · exact h.step_keep hs hp hstep
  · exact h.step_drop hs hp hstep
  · exact ⟨rfl, rfl, rfl, fun _ _ => rfl, fun h => nomatch h⟩

/-- Every run without deletions linearizes: the item is the fold of the decision over the
applied writes, each of which is one counted call's own step, at nondecreasing times and
undisturbed by the calls on other keys. -/
theorem increments_linearize {clock : Nat} {labels : List Label} {s : State}
    (hrun : storage.exec (State.initial clock) labels = some s)
    (hkeep : ∀ itemKey, .expire itemKey ∉ labels) :
    (∀ itemKey, (read s.table itemKey).map Versioned.value =
        foldLog Commit.apply (s.commitsOn itemKey) ∧
      (read s.table itemKey).elim 0 Versioned.version = (s.commitsOn itemKey).length ∧
      (s.commitsOn itemKey).Pairwise fun a b => a.now ≤ b.now) ∧
    (s.history.map Commit.call).Nodup ∧
    (∀ commit ∈ s.history, ∃ record seen,
      s.calls commit.call = some ⟨commit.args, .done (.counted record), seen⟩) ∧
    (∀ id args record seen, s.calls id = some ⟨args, .done (.counted record), seen⟩ →
      ∃ pre now post, s.commitsOn args.itemKey = pre ++ ⟨id, args, now⟩ :: post ∧
        record = (args.advance (foldLog Commit.apply pre) now).record) ∧
    ∀ throttlerName key, ':' ∉ key.toList →
      (∀ id args, .call id args ∈ labels → ':' ∉ args.key.toList) →
      ∃ t, storage.exec (State.initial clock) (labels.filter (Label.concerns
          (throttlerName ++ ":" ++ key) (s.belongs throttlerName key))) = some t ∧
        SameOn (throttlerName ++ ":" ++ key) (s.belongs throttlerName key) s t := by
  have h := chained_of_exec hrun hkeep
  refine ⟨fun itemKey => ?_, h.once, h.owned, fun id args record seen hcall => ?_,
    fun throttlerName key hkey hkeys => exec_alone hrun hkey hkeys⟩
  · rw [read_of_snapshot (h.table_eq itemKey)]
    exact ⟨snapshot_value .., snapshot_version .., h.sorted itemKey⟩
  · exact h.placed id _ hcall

/-- Two calls on one key and one on another: the second one loses its first write. -/
def lostRace : List Label :=
  let args : Increment := ⟨"a", 60000, 5, 60000, "default"⟩
  [.call 0 args, .call 1 args, .call 2 { args with key := "b" }, .get 0, .get 1, .sample 0,
    .tick 7, .sample 1, .get 2, .put 0, .put 1, .sample 2, .get 1, .sample 1, .put 2, .put 1]

/-- The linearization of a lost race: both calls are counted, and the call on the other
key can be left out. -/
theorem increments_linearize_lostRace :
    ∃ s, storage.exec (State.initial 1000) lostRace = some s ∧
      (read s.table "default:a").map Versioned.value =
        foldLog Commit.apply (s.commitsOn "default:a") ∧
      (read s.table "default:a").elim 0 Versioned.version = (s.commitsOn "default:a").length ∧
      ∃ t, storage.exec (State.initial 1000) (lostRace.filter
          (Label.concerns ("default" ++ ":" ++ "a") (s.belongs "default" "a"))) = some t ∧
        SameOn ("default" ++ ":" ++ "a") (s.belongs "default" "a") s t := by
  have h := increments_linearize (storage.exec_run (State.initial 1000) lostRace (by decide))
    (by simp only [lostRace, List.mem_cons, reduceCtorEq, List.not_mem_nil, or_false,
      not_false_eq_true, implies_true])
  have hcolon : ∀ id args, Label.call id args ∈ lostRace → ':' ∉ args.key.toList := by
    simp only [lostRace, List.mem_cons, Label.call.injEq, reduceCtorEq, List.not_mem_nil,
      or_false]
    rintro id args (⟨rfl, rfl⟩ | ⟨rfl, rfl⟩ | ⟨rfl, rfl⟩) <;> decide
  exact ⟨_, storage.exec_run .., (h.1 "default:a").1, (h.1 "default:a").2.1,
    h.2.2.2.2 "default" "a" (by decide) hcolon⟩

/-- The same race, evaluated: the item holds two hits at version two. -/
example : (storage.exec (State.initial 1000) lostRace).map
    (fun s => read s.table "default:a") = some (some ⟨⟨2, 61000, 0⟩, 2⟩) := by decide

end VertexApi.Throttler
