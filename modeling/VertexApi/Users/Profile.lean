import Mathlib.Logic.Function.Basic
import VertexApi.Common.ErrorCodes
import VertexApi.Core.Machine
import VertexApi.Database.Schema
import VertexApi.Uploads.Keys

/-!
# Self-service profile edits

An edit reads the user, writes the fields it names over what it read, and deletes the
object of an avatar that it replaced. Each statement is one step, so a run interleaves any
number of edits with any other changes to the users. The key lists passed to the bucket
are kept for statements only.
-/

namespace VertexApi.Users

open Uploads

/-- The rejection of an edit of a user who is gone. -/
def userNotFound : HttpException := notFoundException "User not found"

/-- A request body, before validation. -/
structure UpdateProfileInput where
  name : Option String
  displayName : Option String
  avatarUrl : Option String
  deriving DecidableEq, Repr

/-- A validated body. -/
structure UpdateProfileDto where
  name : Option String
  displayName : Option String
  /-- Empty to clear the avatar. -/
  avatarUrl : Option String
  deriving DecidableEq, Repr

/-- `z.string().trim().max(bound).optional()`. -/
def trimmedText (bound : Nat) : Option String → Option (Option String)
  | none => some none
  | some text =>
    if JsString.length (JsString.trim text) ≤ bound then some (some (JsString.trim text)) else none

/-- `z.union([z.string().url(), z.literal('')]).optional()`, over the URL check. -/
def urlOrEmpty (parseUrl : String → Option String) : Option String → Option (Option String)
  | none => some none
  | some text =>
    match parseUrl text with
    | some url => some (some url)
    | none => if text = "" then some (some "") else none

/-- The validation of a body. -/
def updateProfileSchema (parseUrl : String → Option String) (input : UpdateProfileInput) :
    Option UpdateProfileDto := do
  let name ← trimmedText 100 input.name
  let displayName ← trimmedText 50 input.displayName
  let avatarUrl ← urlOrEmpty parseUrl input.avatarUrl
  return { name := name, displayName := displayName, avatarUrl := avatarUrl }

/-- The columns of a user that are returned. -/
structure SafeUser where
  id : String
  email : String
  name : Option String
  displayName : Option String
  avatarUrl : Option String
  githubId : Option String
  googleId : Option String
  role : UserRole
  isBanned : Bool
  createdAt : Nat
  deriving DecidableEq, Repr

/-- The returned columns of a row. -/
def safeReturning (user : User) : SafeUser where
  id := user.id
  email := user.email
  name := user.name
  displayName := user.displayName
  avatarUrl := user.avatarUrl
  githubId := user.githubId
  googleId := user.googleId
  role := user.role
  isBanned := user.isBanned
  createdAt := user.createdAt

/-- The avatar that an edit stores. -/
def nextAvatarUrl (dto : UpdateProfileDto) (existing : User) : Option String :=
  if dto.avatarUrl = some "" then none else dto.avatarUrl.or existing.avatarUrl

/-- The write of an edit to a row, over what the edit has read. -/
def edited (dto : UpdateProfileDto) (existing : User) (now : Nat) (row : User) : User :=
  { row with
    name := dto.name.or existing.name
    displayName := dto.displayName.or existing.displayName
    avatarUrl := nextAvatarUrl dto existing
    updatedAt := now }

/-- How an edit ends. -/
inductive EditAnswer where
  /-- The returned row, or `undefined` when the update met none. -/
  | updated (user : Option SafeUser)
  | refused (failure : HttpException)
  /-- The read of a field of `undefined`. -/
  | crashed
  deriving DecidableEq, Repr

/-- Where an `updateSelf` call stands. -/
inductive EditPhase where
  /-- Before the read of the user. -/
  | find
  /-- Before the update, over the row that was read. -/
  | update (existing : User)
  /-- Before the delete of the replaced avatar's object. -/
  | delete (oldKey : String) (updated : SafeUser)
  | done (answer : EditAnswer)
  deriving DecidableEq, Repr

/-- One `updateSelf` call. -/
structure Edit where
  userId : String
  dto : UpdateProfileDto
  phase : EditPhase
  deriving DecidableEq, Repr

/-- What follows the update: the delete of the old object, or the answer. -/
def afterUpdate (publicUrlPrefix : String) (existing : User) (updated : Option SafeUser) :
    EditPhase :=
  if existing.avatarUrl.all (· == "") then .done (.updated updated)
  else
    match updated with
    | none => .done .crashed
    | some user =>
      if existing.avatarUrl = user.avatarUrl then .done (.updated (some user))
      else
        match extractBucketKeyFromUrl publicUrlPrefix existing.avatarUrl with
        | none => .done (.updated (some user))
        | some oldKey =>
          if oldKey = "" then .done (.updated (some user)) else .delete oldKey user

/-- The database, the edits, and the key lists passed to the bucket. -/
structure ProfileState where
  clock : Nat
  users : List User
  edits : Nat → Option Edit
  /-- On whose behalf, and which keys. -/
  deleted : List (String × List String)

namespace ProfileState

/-- A table of users and no edits. -/
def initial (clock : Nat) (users : List User) : ProfileState where
  clock := clock
  users := users
  edits _ := none
  deleted := []

/-- Replace one edit. -/
def setEdit (s : ProfileState) (id : Nat) (edit : Edit) : ProfileState :=
  { s with edits := Function.update s.edits id (some edit) }

/-- The read of the user. -/
def find (s : ProfileState) (id : Nat) (edit : Edit) : Option ProfileState :=
  match edit.phase with
  | .find =>
    match findUserById s.users edit.userId with
    | none => some (s.setEdit id { edit with phase := .done (.refused userNotFound) })
    | some existing => some (s.setEdit id { edit with phase := .update existing })
  | _ => none

/-- The update of the row, which returns it. -/
def update (publicUrlPrefix : String) (s : ProfileState) (id : Nat) (edit : Edit) :
    Option ProfileState :=
  match edit.phase with
  | .update existing =>
    let users := s.users.map fun row =>
      if row.id = edit.userId then edited edit.dto existing s.clock row else row
    let updated := (findUserById users edit.userId).map safeReturning
    some ({ s with users := users }.setEdit id { edit with
      phase := afterUpdate publicUrlPrefix existing updated })
  | _ => none

/-- The delete of the old object; its failure is logged and changes nothing. -/
def delete (s : ProfileState) (id : Nat) (edit : Edit) : Option ProfileState :=
  match edit.phase with
  | .delete oldKey updated =>
    some ({ s with deleted := s.deleted ++ [(edit.userId, [oldKey])] }.setEdit id { edit with
      phase := .done (.updated (some updated)) })
  | _ => none

end ProfileState

/-- The steps of a run. -/
inductive ProfileLabel where
  | tick (ms : Nat)
  /-- The removal of a user. -/
  | remove (userId : String)
  /-- Any other operation on the users table. -/
  | users (users : List User)
  | edit (id : Nat) (userId : String) (input : UpdateProfileInput)
  | find (id : Nat)
  | update (id : Nat)
  | delete (id : Nat)
  deriving DecidableEq, Repr

/-- Edits and other user changes as one machine. -/
def profiles (publicUrlPrefix : String) (parseUrl : String → Option String) :
    Machine ProfileState ProfileLabel where
  step s
    | .tick ms => some { s with clock := s.clock + ms }
    | .remove userId => some { s with users := s.users.filter fun user => user.id != userId }
    | .users users => some { s with users := users }
    | .edit id userId input =>
      if (s.edits id).isSome then none
      else (updateProfileSchema parseUrl input).map fun dto => s.setEdit id ⟨userId, dto, .find⟩
    | .find id => (s.edits id).bind (s.find id)
    | .update id => (s.edits id).bind (s.update publicUrlPrefix id)
    | .delete id => (s.edits id).bind (s.delete id)

section Inversion

variable {publicUrlPrefix : String} {parseUrl : String → Option String} {s t : ProfileState}
  {id : Nat}

/-- What the start of an edit does. -/
theorem step_edit {userId : String} {input : UpdateProfileInput} :
    (profiles publicUrlPrefix parseUrl).step s (.edit id userId input) = some t ↔
      s.edits id = none ∧ ∃ dto, updateProfileSchema parseUrl input = some dto ∧
        t = s.setEdit id ⟨userId, dto, .find⟩ := by
  simp only [profiles, Option.ite_none_left_eq_some, Option.not_isSome_iff_eq_none,
    Option.map_eq_some_iff, eq_comm (b := t)]

/-- What the read does: it rejects, or it goes on to the update. -/
theorem step_find : (profiles publicUrlPrefix parseUrl).step s (.find id) = some t ↔
    ∃ userId dto, s.edits id = some ⟨userId, dto, .find⟩ ∧
      ((findUserById s.users userId = none ∧
        t = s.setEdit id ⟨userId, dto, .done (.refused userNotFound)⟩) ∨
      ∃ existing, findUserById s.users userId = some existing ∧
        t = s.setEdit id ⟨userId, dto, .update existing⟩) := by
  simp only [profiles, Option.bind_eq_some_iff, ProfileState.find]
  constructor
  · rintro ⟨⟨userId, dto, phase⟩, hedit, hstep⟩
    cases phase with
    | find =>
      refine ⟨userId, dto, hedit, ?_⟩
      cases huser : findUserById s.users userId with
      | none =>
        simp only [huser] at hstep
        exact Or.inl ⟨rfl, (Option.some.inj hstep).symm⟩
      | some existing =>
        simp only [huser] at hstep
        exact Or.inr ⟨existing, rfl, (Option.some.inj hstep).symm⟩
    | update | delete | done => cases hstep
  · rintro ⟨userId, dto, hedit, ⟨huser, rfl⟩ | ⟨existing, huser, rfl⟩⟩
    · exact ⟨_, hedit, by simp only [huser]⟩
    · exact ⟨_, hedit, by simp only [huser]⟩

/-- What the update does. -/
theorem step_update : (profiles publicUrlPrefix parseUrl).step s (.update id) = some t ↔
    ∃ userId dto existing users, s.edits id = some ⟨userId, dto, .update existing⟩ ∧
      users = (s.users.map fun row =>
        if row.id = userId then edited dto existing s.clock row else row) ∧
      t = { s with users := users }.setEdit id ⟨userId, dto,
        afterUpdate publicUrlPrefix existing ((findUserById users userId).map safeReturning)⟩ := by
  simp only [profiles, Option.bind_eq_some_iff, ProfileState.update]
  constructor
  · rintro ⟨⟨userId, dto, phase⟩, hedit, hstep⟩
    cases phase with
    | update existing =>
      exact ⟨userId, dto, existing, _, hedit, rfl, (Option.some.inj hstep).symm⟩
    | find | delete | done => cases hstep
  · rintro ⟨userId, dto, existing, users, hedit, rfl, rfl⟩
    exact ⟨_, hedit, rfl⟩

/-- What the delete does. -/
theorem step_delete : (profiles publicUrlPrefix parseUrl).step s (.delete id) = some t ↔
    ∃ userId dto oldKey updated, s.edits id = some ⟨userId, dto, .delete oldKey updated⟩ ∧
      t = { s with deleted := s.deleted ++ [(userId, [oldKey])] }.setEdit id
        ⟨userId, dto, .done (.updated (some updated))⟩ := by
  simp only [profiles, Option.bind_eq_some_iff, ProfileState.delete]
  constructor
  · rintro ⟨⟨userId, dto, phase⟩, hedit, hstep⟩
    cases phase with
    | delete oldKey updated =>
      exact ⟨userId, dto, oldKey, updated, hedit, (Option.some.inj hstep).symm⟩
    | find | update | done => cases hstep
  · rintro ⟨userId, dto, oldKey, updated, hedit, rfl⟩
    exact ⟨_, hedit, rfl⟩

/-- After the update comes the answer, or the delete of the avatar that was read. -/
theorem afterUpdate_cases (publicUrlPrefix : String) (existing : User) (updated : Option SafeUser) :
    (∃ answer, afterUpdate publicUrlPrefix existing updated = .done answer) ∨
    ∃ oldKey user, afterUpdate publicUrlPrefix existing updated = .delete oldKey user ∧
      extractBucketKeyFromUrl publicUrlPrefix existing.avatarUrl = some oldKey ∧ oldKey ≠ "" ∧
      updated = some user ∧ existing.avatarUrl ≠ user.avatarUrl := by
  simp only [afterUpdate]
  split
  · exact Or.inl ⟨_, rfl⟩
  · cases updated with
    | none => exact Or.inl ⟨_, rfl⟩
    | some user =>
      by_cases hsame : existing.avatarUrl = user.avatarUrl
      · exact Or.inl ⟨_, if_pos hsame⟩
      · simp only [if_neg hsame]
        cases hkey : extractBucketKeyFromUrl publicUrlPrefix existing.avatarUrl with
        | none => exact Or.inl ⟨_, rfl⟩
        | some oldKey =>
          by_cases hempty : oldKey = ""
          · exact Or.inl ⟨_, if_pos hempty⟩
          · exact Or.inr ⟨oldKey, user, if_neg hempty, rfl, hempty, rfl, hsame⟩

end Inversion

end VertexApi.Users
