import VertexApi.Core.OneShot

/-!
# Histories of bindings

A history binds keys to values, and drops values. A key is bound to a value when some entry
says so and no later entry drops the value. The history is stable when no entry binds a key
that is bound to another value.
-/

namespace VertexApi

universe u v

/-- An entry of a history of bindings. -/
inductive BindingEvent (κ : Type u) (ν : Type v) where
  | bound (key : κ) (value : ν)
  | dropped (value : ν)
  deriving DecidableEq, Repr

variable {κ : Type u} {ν : Type v} {log : List (BindingEvent κ ν)} {key other : κ}
  {value former : ν}

/-- The key was bound to the value, which was not dropped since. -/
def Bound (log : List (BindingEvent κ ν)) (key : κ) (value : ν) : Prop :=
  ∃ before after, log = before ++ .bound key value :: after ∧ .dropped value ∉ after

/-- Every entry binds its key to the value that it is bound to, if it is. -/
def StableBindings (log : List (BindingEvent κ ν)) : Prop :=
  ∀ before after key value former, log = before ++ .bound key value :: after →
    Bound before key former → value = former

/-- No key is bound at the start. -/
theorem not_bound_nil : ¬ Bound ([] : List (BindingEvent κ ν)) key value := by
  rintro ⟨before, after, hlog, -⟩
  simp at hlog

/-- A last entry binds its key, and leaves the bindings before it. -/
theorem bound_append_bound : Bound (log ++ [.bound other former]) key value ↔
    (key = other ∧ value = former) ∨ Bound log key value := by
  constructor
  · rintro ⟨before, after, hlog, hafter⟩
    rcases append_cons_eq_concat hlog.symm with ⟨-, hlast, -⟩ | ⟨rest, rfl, rfl⟩
    · exact Or.inl (BindingEvent.bound.inj hlast)
    · exact Or.inr ⟨before, rest, rfl, fun hmem => hafter (List.mem_append_left _ hmem)⟩
  · rintro (⟨rfl, rfl⟩ | ⟨before, after, rfl, hafter⟩)
    · exact ⟨log, [], rfl, List.not_mem_nil⟩
    · refine ⟨before, after ++ [.bound other former], by simp, ?_⟩
      simpa only [List.mem_append, List.mem_singleton, reduceCtorEq, or_false] using hafter

/-- A dropped value is bound no more. -/
theorem bound_append_dropped : Bound (log ++ [.dropped former]) key value ↔
    Bound log key value ∧ value ≠ former := by
  constructor
  · rintro ⟨before, after, hlog, hafter⟩
    rcases append_cons_eq_concat hlog.symm with ⟨-, hlast, -⟩ | ⟨rest, rfl, rfl⟩
    · cases hlast
    · refine ⟨⟨before, rest, rfl, fun hmem => hafter (List.mem_append_left _ hmem)⟩, ?_⟩
      rintro rfl
      exact hafter (List.mem_append_right _ (List.mem_singleton.mpr rfl))
  · rintro ⟨⟨before, after, rfl, hafter⟩, hne⟩
    refine ⟨before, after ++ [.dropped former], by simp, ?_⟩
    simp only [List.mem_append, List.mem_singleton, BindingEvent.dropped.injEq]
    exact not_or.mpr ⟨hafter, hne⟩

namespace StableBindings

/-- The empty history is stable. -/
theorem nil : StableBindings ([] : List (BindingEvent κ ν)) := by
  intro before after key value former hlog
  simp at hlog

/-- A binding comes in whose key is bound to no other value. -/
theorem append_bound (h : StableBindings log)
    (hkey : ∀ former, Bound log key former → value = former) :
    StableBindings (log ++ [.bound key value]) := by
  intro before after other next former hlog hbound
  rcases append_cons_eq_concat hlog.symm with ⟨rfl, hlast, -⟩ | ⟨rest, -, rfl⟩
  · obtain ⟨rfl, rfl⟩ := BindingEvent.bound.inj hlast
    exact hkey former hbound
  · exact h before rest other next former rfl hbound

/-- Values may be dropped. -/
theorem append_dropped (h : StableBindings log) : StableBindings (log ++ [.dropped value]) := by
  intro before after other next former hlog hbound
  rcases append_cons_eq_concat hlog.symm with ⟨-, hlast, -⟩ | ⟨rest, -, rfl⟩
  · cases hlast
  · exact h before rest other next former rfl hbound

end StableBindings

end VertexApi
