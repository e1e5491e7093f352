import Mathlib.Data.List.Basic

/-!
# Tables with references

The rows of a table refer to the keys of another. Rows that refer may go at any time. The
rows that they refer to may go together with them, which is a cascade, or when nothing
refers to them, which is what a restriction checks.
-/

namespace VertexApi

universe u v w

/-- Every row refers to a key that is there. -/
def RefersTo {ρ : Type u} {κ : Type v} (column : ρ → κ) (rows : List ρ) (keys : List κ) : Prop :=
  ∀ row ∈ rows, column row ∈ keys

instance decidableRefersTo {ρ : Type u} {κ : Type v} [DecidableEq κ] (column : ρ → κ)
    (rows : List ρ) (keys : List κ) : Decidable (RefersTo column rows keys) :=
  inferInstanceAs (Decidable (∀ row ∈ rows, column row ∈ keys))

/-- Some row refers to one of the keys: what restricts their delete. -/
def isReferenced {ρ : Type u} {κ : Type v} [DecidableEq κ] (column : ρ → κ) (rows : List ρ)
    (keys : List κ) : Bool := rows.any fun row => keys.contains (column row)

/-- The rows that refer to none of the keys: what a cascade leaves. -/
def withoutReferences {ρ : Type u} {κ : Type v} [DecidableEq κ] (column : ρ → κ) (rows : List ρ)
    (keys : List κ) : List ρ := rows.filter fun row => !keys.contains (column row)

/-- No row refers to any of the keys. -/
theorem isReferenced_eq_false {ρ : Type u} {κ : Type v} [DecidableEq κ] {column : ρ → κ}
    {rows : List ρ} {keys : List κ} :
    isReferenced column rows keys = false ↔ ∀ row ∈ rows, column row ∉ keys := by
  simp only [isReferenced, List.any_eq_false, List.contains_iff_mem]

namespace RefersTo

variable {ρ : Type u} {κ : Type v} {υ : Type w} {column : ρ → κ} {rows : List ρ}

/-- A part of the table refers to what the table does. -/
theorem filter {keys : List κ} (h : RefersTo column rows keys) (p : ρ → Bool) :
    RefersTo column (rows.filter p) keys :=
  fun row hrow => h row (List.mem_of_mem_filter hrow)

/-- A row joins the table that refers to a key that is there. -/
theorem append {keys : List κ} (h : RefersTo column rows keys) {row : ρ}
    (hrow : column row ∈ keys) : RefersTo column (rows ++ [row]) keys := by
  intro other hother
  rcases List.mem_append.mp hother with hother | hother
  · exact h other hother
  · rw [List.mem_singleton.mp hother]
    exact hrow

/-- Keys may be added. -/
theorem subset {keys later : List κ} (h : RefersTo column rows keys) (hkeys : keys ⊆ later) :
    RefersTo column rows later := fun row hrow => hkeys (h row hrow)

/-- Only the values of the column matter. -/
theorem of_map_eq {keys : List κ} {later : List ρ} (h : RefersTo column rows keys)
    (hmap : later.map column = rows.map column) : RefersTo column later keys := by
  intro row hrow
  have hvalue : column row ∈ rows.map column := hmap ▸ List.mem_map_of_mem hrow
  obtain ⟨other, hother, he⟩ := List.mem_map.mp hvalue
  exact he ▸ h other hother

variable {key : υ → κ} {table : List υ}

/-- Rows may go to which nothing refers. -/
theorem remaining (h : RefersTo column rows (table.map key)) {p : υ → Bool}
    (hfree : ∀ row ∈ rows, column row ∉ (table.filter p).map key) :
    RefersTo column rows ((table.filter fun target => !p target).map key) := by
  intro row hrow
  obtain ⟨target, htarget, hkey⟩ := List.mem_map.mp (h row hrow)
  refine List.mem_map.mpr ⟨target, List.mem_filter.mpr ⟨htarget, ?_⟩, hkey⟩
  cases hp : p target with
  | false => rfl
  | true =>
    have hgone : column row ∈ (table.filter p).map key :=
      List.mem_map.mpr ⟨target, List.mem_filter.mpr ⟨htarget, hp⟩, hkey⟩
    exact absurd hgone (hfree row hrow)

variable [DecidableEq κ] {p : υ → Bool}

/-- A restriction lets them go. -/
theorem restrict (h : RefersTo column rows (table.map key))
    (hfree : isReferenced column rows ((table.filter p).map key) = false) :
    RefersTo column rows ((table.filter fun target => !p target).map key) :=
  h.remaining (isReferenced_eq_false.mp hfree)

/-- A cascade takes along what refers to them. -/
theorem cascade (h : RefersTo column rows (table.map key)) :
    RefersTo column (withoutReferences column rows ((table.filter p).map key))
      ((table.filter fun target => !p target).map key) := by
  refine (h.filter _).remaining fun row hrow hgone => ?_
  have hnot := (List.mem_filter.mp hrow).2
  rw [List.contains_iff_mem.mpr hgone] at hnot
  cases hnot

end RefersTo

end VertexApi
