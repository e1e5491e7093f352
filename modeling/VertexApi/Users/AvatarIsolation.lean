import VertexApi.Users.Profile

/-!
# Whose objects an edit deletes

The key that an edit deletes is whatever follows the public prefix in the avatar URL that
an earlier operation stored. It lies in the user's own folder as long as every stored URL
of the bucket does, which no check on the way ensures.
-/

namespace VertexApi.Users

open Uploads

/-- The key lies in the user's own folder. -/
def InOwnFolder (userId key : String) : Prop := ∃ rest, key = avatarFolder userId ++ rest

/-- The URL, when it is one of the bucket, leads into the user's own folder. -/
def OwnAvatar (publicUrlPrefix userId : String) (url : Option String) : Prop :=
  ∀ key, extractBucketKeyFromUrl publicUrlPrefix url = some key → InOwnFolder userId key

/-- The step stores no avatar of the bucket outside of its user's own folder. -/
def StoresOwn (publicUrlPrefix : String) (parseUrl : String → Option String) :
    ProfileLabel → Prop
  | .edit _ userId input => ∀ dto, updateProfileSchema parseUrl input = some dto →
      OwnAvatar publicUrlPrefix userId dto.avatarUrl
  | .users users => ∀ user ∈ users, OwnAvatar publicUrlPrefix user.id user.avatarUrl
  | _ => True

/-- The phases of an edit hold avatars and keys of its user only. -/
def EditIsolated (publicUrlPrefix : String) (edit : Edit) : Prop :=
  OwnAvatar publicUrlPrefix edit.userId edit.dto.avatarUrl ∧
  match edit.phase with
  | .find => True
  | .update existing => OwnAvatar publicUrlPrefix edit.userId existing.avatarUrl
  | .delete oldKey _ => InOwnFolder edit.userId oldKey
  | .done _ => True

/-- Every stored avatar is its user's own, and so is every key on its way to the bucket. -/
structure Isolated (publicUrlPrefix : String) (s : ProfileState) : Prop where
  users : ∀ user ∈ s.users, OwnAvatar publicUrlPrefix user.id user.avatarUrl
  edits : ∀ id edit, s.edits id = some edit → EditIsolated publicUrlPrefix edit
  deleted : ∀ userId keys, (userId, keys) ∈ s.deleted → ∀ key ∈ keys, InOwnFolder userId key

section Steps

variable {publicUrlPrefix : String} {parseUrl : String → Option String} {s t : ProfileState}

/-- An uploaded avatar is its user's own. -/
theorem ownAvatar_avatarFileKey (userId uuid fileName : String) :
    OwnAvatar publicUrlPrefix userId
      (some (publicUrlPrefix ++ avatarFileKey userId uuid fileName)) := by
  intro key hkey
  rw [extractBucketKeyFromUrl_eq_some, String.append_right_inj] at hkey
  exact ⟨uuid ++ "-" ++ fileName, hkey.symm⟩

/-- No avatar is nobody else's. -/
theorem ownAvatar_none (userId : String) : OwnAvatar publicUrlPrefix userId none := by
  rintro key ⟨⟩

/-- An edit stores an avatar that it was given or that it read. -/
theorem ownAvatar_nextAvatarUrl {userId : String} {dto : UpdateProfileDto} {existing : User}
    (hdto : OwnAvatar publicUrlPrefix userId dto.avatarUrl)
    (hexisting : OwnAvatar publicUrlPrefix userId existing.avatarUrl) :
    OwnAvatar publicUrlPrefix userId (nextAvatarUrl dto existing) := by
  simp only [nextAvatarUrl]
  split
  · exact ownAvatar_none userId
  · cases hurl : dto.avatarUrl with
    | none => exact hexisting
    | some url =>
      rw [hurl] at hdto
      exact hdto

namespace Isolated

/-- A table of own avatars is isolated at the start. -/
theorem initial (clock : Nat) {users : List User}
    (h : ∀ user ∈ users, OwnAvatar publicUrlPrefix user.id user.avatarUrl) :
    Isolated publicUrlPrefix (.initial clock users) where
  users := h
  edits _ _ hnone := nomatch hnone
  deleted _ _ hnone := nomatch hnone

/-- A step of one edit keeps the isolation when it leaves the edit isolated. -/
theorem setEdit (h : Isolated publicUrlPrefix s) {id : Nat} {edit : Edit}
    (hedit : EditIsolated publicUrlPrefix edit) : Isolated publicUrlPrefix (s.setEdit id edit) where
  users := h.users
  edits other found hfound := by
    rcases update_eq_some_iff.mp hfound with ⟨-, rfl⟩ | ⟨-, hold⟩
    · exact hedit
    · exact h.edits other found hold
  deleted := h.deleted

/-- The table after the update of one edit. -/
theorem update (h : Isolated publicUrlPrefix s) {id : Nat} {userId : String}
    {dto : UpdateProfileDto} {existing : User}
    (hedit : s.edits id = some ⟨userId, dto, .update existing⟩) :
    Isolated publicUrlPrefix { s with
      users := s.users.map fun row =>
        if row.id = userId then edited dto existing s.clock row else row } where
  users user huser := by
    obtain ⟨row, hrow, rfl⟩ := List.mem_map.mp huser
    obtain ⟨hdto, hexisting⟩ := h.edits id _ hedit
    split
    · next he => exact he ▸ ownAvatar_nextAvatarUrl hdto hexisting
    · exact h.users row hrow
  edits := h.edits
  deleted := h.deleted

/-- What follows an update keeps to the keys of its user. -/
theorem afterUpdate {userId : String} {dto : UpdateProfileDto} {existing : User}
    (h : EditIsolated publicUrlPrefix ⟨userId, dto, .update existing⟩) (updated : Option SafeUser) :
    EditIsolated publicUrlPrefix
      ⟨userId, dto, Users.afterUpdate publicUrlPrefix existing updated⟩ := by
  rcases afterUpdate_cases publicUrlPrefix existing updated with
    ⟨answer, hdone⟩ | ⟨oldKey, user, hdelete, hkey, -⟩
  · rw [hdone]
    exact ⟨h.1, trivial⟩
  · rw [hdelete]
    exact ⟨h.1, h.2 oldKey hkey⟩

/-- A step that stores only own avatars keeps the isolation. -/
theorem step (h : Isolated publicUrlPrefix s) {label : ProfileLabel}
    (hown : StoresOwn publicUrlPrefix parseUrl label)
    (hstep : (profiles publicUrlPrefix parseUrl).step s label = some t) :
    Isolated publicUrlPrefix t := by
  cases label with
  | tick ms =>
    obtain rfl := Option.some.inj hstep
    exact ⟨h.users, h.edits, h.deleted⟩
  | remove userId =>
    obtain rfl := Option.some.inj hstep
    exact ⟨fun user huser => h.users user (List.mem_filter.mp huser).1, h.edits, h.deleted⟩
  | users users =>
    obtain rfl := Option.some.inj hstep
    exact ⟨hown, h.edits, h.deleted⟩
  | edit id userId input =>
    obtain ⟨-, dto, hdto, rfl⟩ := step_edit.mp hstep
    exact h.setEdit ⟨hown dto hdto, trivial⟩
  | find id =>
    obtain ⟨userId, dto, hedit, ⟨-, rfl⟩ | ⟨existing, huser, rfl⟩⟩ := step_find.mp hstep
    · exact h.setEdit ⟨(h.edits id _ hedit).1, trivial⟩
    · refine h.setEdit ⟨(h.edits id _ hedit).1, ?_⟩
      have hstored := h.users existing (List.mem_of_find?_eq_some huser)
      rwa [id_of_findUserById huser] at hstored
  | update id =>
    obtain ⟨userId, dto, existing, users, hedit, rfl, rfl⟩ := step_update.mp hstep
    exact (h.update hedit).setEdit (afterUpdate (h.edits id _ hedit) _)
  | delete id =>
    obtain ⟨userId, dto, oldKey, updated, hedit, rfl⟩ := step_delete.mp hstep
    obtain ⟨hdto, hkey⟩ := h.edits id _ hedit
    have hdeleted : Isolated publicUrlPrefix
        { s with deleted := s.deleted ++ [(userId, [oldKey])] } := by
      refine ⟨h.users, h.edits, fun other keys hmem key hkey' => ?_⟩
      rcases List.mem_append.mp hmem with hmem | hmem
      · exact h.deleted other keys hmem key hkey'
      · obtain ⟨rfl, rfl⟩ := Prod.mk.inj (List.mem_singleton.mp hmem)
        exact List.mem_singleton.mp hkey' ▸ hkey
    exact hdeleted.setEdit ⟨hdto, trivial⟩

end Isolated

/-- While only own avatars are stored, every deleted key lies in the folder of the user on
whose behalf it is deleted: it is no medium of the blog, and no avatar of another user. -/
theorem deleted_inOwnFolder {clock : Nat} {users : List User} {labels : List ProfileLabel}
    (h : (profiles publicUrlPrefix parseUrl).exec (.initial clock users) labels = some s)
    (husers : ∀ user ∈ users, OwnAvatar publicUrlPrefix user.id user.avatarUrl)
    (hown : ∀ label ∈ labels, StoresOwn publicUrlPrefix parseUrl label)
    {userId : String} {keys : List String} (hdeleted : (userId, keys) ∈ s.deleted) :
    ∀ key ∈ keys, InOwnFolder userId key ∧ (∀ rest, key ≠ mediaFolder ++ rest) ∧
      ∀ other, '/' ∉ userId.toList → '/' ∉ other.toList → InOwnFolder other key →
        userId = other := by
  intro key hkey
  have hisolated : Isolated publicUrlPrefix s :=
    (profiles publicUrlPrefix parseUrl).exec_invariant_of_meets (.initial clock husers)
      (fun _ _ _ hm hlabel hstep => hm.step hlabel hstep)
      ((profiles publicUrlPrefix parseUrl).meets_of_forall hown) h
  obtain ⟨rest, rfl⟩ := hisolated.deleted userId keys hdeleted key hkey
  refine ⟨⟨rest, rfl⟩, avatarFolder_ne_mediaFolder userId rest, ?_⟩
  rintro other hid hother ⟨rest', he⟩
  exact avatarFolder_inj hid hother he

end Steps

/-- The public prefix of a bucket. -/
def samplePublicUrlPrefix : String := s3PublicUrlPrefix "blog" "us-east-1"

/-- A URL check that knows one scheme. -/
def sampleParseUrl (text : String) : Option String :=
  if JsString.startsWith text "https://" then some text else none

/-- A reader without an avatar. -/
def reader : User where
  id := "c6a5b0f2-1d7e-4c9b-8a3f-0e5d4c3b2a19"
  email := "ada@example.com"
  passwordHash := ""
  name := none
  displayName := some "ada"
  avatarUrl := none
  githubId := none
  googleId := none
  isBanned := false
  role := .user
  createdAt := 0
  updatedAt := 0

/-- The body that stores an avatar, or clears it. -/
def avatarOnly (url : String) : UpdateProfileInput where
  name := none
  displayName := none
  avatarUrl := some url

/-- An avatar is stored by one edit and cleared by the next one. -/
def storedAndCleared (url : String) : List ProfileLabel :=
  [.edit 0 reader.id (avatarOnly url), .find 0, .update 0, .edit 1 reader.id (avatarOnly ""),
    .find 1, .update 1, .delete 1]

/-- A key that an avatar upload returns. -/
def readerFileKey : String :=
  avatarFileKey reader.id "5e8f8c9a-77b1-4f0e-9d55-2f1c3b4a6d70" "me.png"

/-- The reader's uploaded avatar was stored and cleared. -/
def avatarCleared : ProfileState :=
  (profiles samplePublicUrlPrefix sampleParseUrl).run (.initial 1000 [reader])
    (storedAndCleared (samplePublicUrlPrefix ++ readerFileKey)) (by decide +kernel)

/-- An uploaded avatar is deleted from the reader's own folder. -/
theorem deleted_inOwnFolder_uploaded : ∃ s,
    (profiles samplePublicUrlPrefix sampleParseUrl).exec (.initial 1000 [reader])
      (storedAndCleared (samplePublicUrlPrefix ++ readerFileKey)) = some s ∧
    (reader.id, [readerFileKey]) ∈ s.deleted ∧ InOwnFolder reader.id readerFileKey := by
  have hrun : (profiles samplePublicUrlPrefix sampleParseUrl).exec (.initial 1000 [reader])
      (storedAndCleared (samplePublicUrlPrefix ++ readerFileKey)) = some avatarCleared :=
    Machine.exec_run ..
  have hdeleted : (reader.id, [readerFileKey]) ∈ avatarCleared.deleted := by decide +kernel
  have hstored : updateProfileSchema sampleParseUrl
      (avatarOnly (samplePublicUrlPrefix ++ readerFileKey)) =
        some ⟨none, none, some (samplePublicUrlPrefix ++ readerFileKey)⟩ := by
    decide +kernel
  have hcleared : updateProfileSchema sampleParseUrl (avatarOnly "") =
      some ⟨none, none, some ""⟩ := by
    decide +kernel
  refine ⟨avatarCleared, hrun, hdeleted, (deleted_inOwnFolder hrun ?_ ?_ hdeleted readerFileKey
    List.mem_cons_self).1⟩
  · simp only [List.mem_singleton, forall_eq]
    exact ownAvatar_none _
  · simp only [storedAndCleared, List.mem_cons, List.not_mem_nil, or_false, forall_eq_or_imp,
      forall_eq, StoresOwn, hstored, hcleared, Option.some.injEq, forall_eq', and_true, true_and]
    refine ⟨ownAvatar_avatarFileKey _ _ _, fun key hkey => ?_⟩
    rw [extractBucketKeyFromUrl_eq_some] at hkey
    have hlength := congrArg (fun text => text.toList.length) hkey
    simp [samplePublicUrlPrefix, s3PublicUrlPrefix] at hlength

/-- The reader stored the URL of a cover image of the blog as an avatar, and cleared it. -/
def coverCleared : ProfileState :=
  (profiles samplePublicUrlPrefix sampleParseUrl).run (.initial 1000 [reader])
    (storedAndCleared (samplePublicUrlPrefix ++ (mediaFolder ++ "2026-01/cover.png")))
    (by decide +kernel)

/-- A reader stores the URL of a cover image of the blog as an avatar, clears it, and so
has the cover deleted. -/
theorem cover_deleted : ∃ s key,
    (profiles samplePublicUrlPrefix sampleParseUrl).exec (.initial 1000 [reader])
      (storedAndCleared (samplePublicUrlPrefix ++ key)) = some s ∧
    (reader.id, [key]) ∈ s.deleted ∧ key = mediaFolder ++ "2026-01/cover.png" ∧
    ¬InOwnFolder reader.id key := by
  refine ⟨coverCleared, _, Machine.exec_run .., by decide +kernel, rfl, ?_⟩
  rintro ⟨rest, he⟩
  exact avatarFolder_ne_mediaFolder reader.id rest _ he.symm

end VertexApi.Users
