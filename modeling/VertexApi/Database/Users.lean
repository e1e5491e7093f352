import VertexApi.Core.Table
import VertexApi.Database.Errors
import VertexApi.Database.Schema

/-!
# Writes to the users table

The table has four unique columns, of which the provider ids may be absent. An insert or an
update that would repeat a value throws and changes nothing; an update of a row that is gone
returns nothing.
-/

namespace VertexApi

/-- The unique columns of `users`, under the names of their constraints. -/
def userColumns : List (String × (User → Option String)) :=
  [("users_pkey", fun user => some user.id), ("users_email_unique", fun user => some user.email),
    ("users_github_id_unique", User.githubId), ("users_google_id_unique", User.googleId)]

/-- The unique constraints of `users`. -/
def UniqueUsers (users : List User) : Prop := UniqueColumns userColumns users

/-- An insert. -/
def insertUser (users : List User) (row : User) : Except ThrownError (List User) :=
  (insertRow userColumns users row).mapError uniqueViolation

/-- An update of the row with an id, with the row that it returns. -/
def updateUser (users : List User) (id : String) (f : User → User) :
    Except ThrownError (List User × Option User) :=
  (updateRow userColumns User.id users id f).mapError uniqueViolation

section Statements

variable {users later : List User} {id : String} {f : User → User} {row : User}

/-- An insert that succeeds appends a row that repeats no unique value. -/
theorem insertUser_eq_ok : insertUser users row = .ok later ↔
    violatedColumn userColumns users row = none ∧ later = users ++ [row] :=
  mapError_eq_ok.trans insertRow_eq_ok

/-- An update that returns a row replaced it. -/
theorem updateUser_eq_ok_some : updateUser users id f = .ok (later, some row) ↔
    ∃ old, findUserById users id = some old ∧
      violatedColumn userColumns (users.filter fun other => other.id != id) (f old) = none ∧
      later = updateWhere User.id id f users ∧ row = f old :=
  mapError_eq_ok.trans updateRow_eq_ok_some

/-- An update that returns no row changes nothing. -/
theorem updateUser_eq_ok_none : updateUser users id f = .ok (later, none) ↔
    findUserById users id = none ∧ later = users :=
  mapError_eq_ok.trans updateRow_eq_ok_none

end Statements

namespace UniqueUsers

variable {users : List User}

theorem id (h : UniqueUsers users) : UniqueOn (fun user => some user.id) users :=
  h _ (List.mem_cons_self ..)

theorem email (h : UniqueUsers users) : UniqueOn (fun user => some user.email) users :=
  h _ (List.mem_cons_of_mem _ (List.mem_cons_self ..))

theorem githubId (h : UniqueUsers users) : UniqueOn User.githubId users :=
  h _ (List.mem_cons_of_mem _ (List.mem_cons_of_mem _ (List.mem_cons_self ..)))

theorem googleId (h : UniqueUsers users) : UniqueOn User.googleId users :=
  h _ (List.mem_cons_of_mem _ (List.mem_cons_of_mem _ (List.mem_cons_of_mem _
    (List.mem_cons_self ..))))

/-- Rows with one id are one row. -/
theorem eq_of_id (h : UniqueUsers users) {row other : User} (hrow : row ∈ users)
    (hother : other ∈ users) (hid : row.id = other.id) : row = other :=
  h.id.eq_of_mem hrow hother rfl (congrArg some hid.symm)

/-- Ids are unique, so a row is found by its id. -/
theorem findUserById (h : UniqueUsers users) {row : User} (hrow : row ∈ users) :
    findUserById users row.id = some row := by
  cases hfind : VertexApi.findUserById users row.id with
  | none => exact absurd rfl (findUserById_eq_none.mp hfind row hrow)
  | some found =>
    have hfound := List.mem_of_find?_eq_some hfind
    exact congrArg some (h.eq_of_id hfound hrow (id_of_findUserById hfind))

/-- An update that returns a row keeps the unique columns. -/
theorem updateUser (h : UniqueUsers users) {i : String} {f : User → User} {later : List User}
    {row : User} (hupdate : updateUser users i f = .ok (later, some row)) : UniqueUsers later := by
  obtain ⟨old, hold, hfree, rfl, -⟩ := updateUser_eq_ok_some.mp hupdate
  exact UniqueColumns.updateWhere h h.id (List.mem_of_find?_eq_some hold) (id_of_findUserById hold)
    hfree

/-- A write outside of the unique columns keeps them. -/
theorem updateWhere_of_eq (h : UniqueUsers users) {i : String} {f : User → User}
    (hf : ∀ row, (f row).id = row.id ∧ (f row).email = row.email ∧
      (f row).githubId = row.githubId ∧ (f row).googleId = row.googleId) :
    UniqueUsers (updateWhere User.id i f users) := by
  refine UniqueColumns.updateWhere_of_eq h ?_
  simp only [userColumns, List.forall_mem_cons, List.not_mem_nil, false_implies, implies_true,
    and_true, Option.some.injEq]
  exact ⟨fun row => (hf row).1, fun row => (hf row).2.1, fun row => (hf row).2.2.1,
    fun row => (hf row).2.2.2⟩

end UniqueUsers

end VertexApi
