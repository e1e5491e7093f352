/-!
# Database errors

The error of the driver carries the code and the constraint; the query builder throws an
error of its own, with the driver's as its cause.
-/

namespace VertexApi

/-- The code of a unique violation. -/
def postgresUniqueViolation : String := "23505"

/-- An error of the driver. -/
structure PostgresError where
  code : String
  constraintName : Option String
  deriving DecidableEq, Repr

/-- An error that a statement throws: its own code, which a wrapper does not have, and its cause. -/
structure ThrownError where
  code : Option String
  cause : Option PostgresError
  deriving DecidableEq, Repr

/-- The error around an error of the driver. -/
def wrapped (error : PostgresError) : ThrownError where
  code := none
  cause := some error

/-- The error of a statement that violates a unique constraint. -/
def uniqueViolation (constraintName : String) : ThrownError :=
  wrapped ⟨postgresUniqueViolation, some constraintName⟩

/-- A statement succeeds in the builder exactly when it does in the driver. -/
theorem mapError_eq_ok {ε ε' α : Type} {x : Except ε α} {g : ε → ε'} {a : α} :
    x.mapError g = .ok a ↔ x = .ok a := by
  cases x with
  | error e =>
    constructor
    · intro h
      cases h
    · intro h
      cases h
  | ok b =>
    constructor
    · intro h
      rw [Except.ok.inj h]
    · intro h
      rw [← Except.ok.inj h]
      rfl

end VertexApi
