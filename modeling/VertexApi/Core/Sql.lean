/-!
# Conditions over columns without values

A column may have no value. A comparison with it is neither true nor false, the connectives carry
that on where the outcome depends on it, and a query keeps the rows whose condition is true.
-/

namespace VertexApi.Sql

universe u

/-- The truth value of a condition, none when it is unknown. -/
abbrev Truth := Option Bool

variable {α : Type u}

/-- `a = b`. -/
def eq [DecidableEq α] : Option α → Option α → Truth
  | some a, some b => some (decide (a = b))
  | _, _ => none

/-- `a is null`. -/
def isNull (a : Option α) : Truth := some a.isNone

/-- `p and q`. -/
def and : Truth → Truth → Truth
  | some true, q => q
  | some false, _ => some false
  | none, some false => some false
  | none, _ => none

/-- `p or q`. -/
def or : Truth → Truth → Truth
  | some true, _ => some true
  | some false, q => q
  | none, some true => some true
  | none, _ => none

/-- The condition is true. -/
def holds (p : Truth) : Bool := p == some true

@[simp] theorem holds_eq [DecidableEq α] (a : Option α) (b : α) :
    holds (eq a (some b)) = decide (a = some b) := by
  cases a with
  | none => rfl
  | some a => by_cases h : a = b <;> simp [eq, holds, h]

@[simp] theorem holds_isNull (a : Option α) : holds (isNull a) = a.isNone := by
  cases a <;> rfl

@[simp] theorem holds_and (p q : Truth) : holds (and p q) = (holds p && holds q) := by
  rcases p with - | - | - <;> rcases q with - | - | - <;> rfl

@[simp] theorem holds_or (p q : Truth) : holds (or p q) = (holds p || holds q) := by
  rcases p with - | - | - <;> rcases q with - | - | - <;> rfl

/-- A comparison of a column, with that of another column in the lack of a value, compares the
first value that there is. -/
theorem holds_coalesce [DecidableEq α] (column : Option α) (fallback value : α) :
    holds (or (eq column (some value)) (and (isNull column) (eq (some fallback) (some value)))) =
      decide (column.getD fallback = value) := by
  cases column <;> simp

end VertexApi.Sql
