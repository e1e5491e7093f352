import VertexApi.App.Services
import VertexApi.Auth.ProviderIdentity
import VertexApi.Core.Turns

/-!
# The row that a login uses

The comment on the lookup says that the provider id matches first. The lookup is one
condition for the provider id or the address, without an order: where they match two
different rows, the database may return the row of the address, and the write of the
provider id to it then violates the unique column of the other row.
-/

namespace VertexApi.App

open Auth Users

/-- A login signs in as the row with an id; it creates no row and leaves the others. -/
structure SignsInAs (s : Store) (id : String) (ending : Ending Store Failure JwtPayload) :
    Prop where
  signedIn : ∃ user ∈ ending.state.users, user.id = id ∧ ending.result = .ok (toJwtPayload user)
  ids : ending.state.users.map User.id = s.users.map User.id
  others : ending.state.users.filter (fun user => user.id != id) =
    s.users.filter fun user => user.id != id

/-- A login prefers the row of the provider id to the row of the address, and that one to a new
row. -/
structure ProviderIdFirst (identity : ProviderIdentity) (userId : String) (s : Store)
    (ending : Ending Store Failure JwtPayload) : Prop where
  byProviderId : ∀ row ∈ s.users,
    linkedId identity.provider row = some identity.providerId → SignsInAs s row.id ending
  byEmail : (∀ user ∈ s.users, linkedId identity.provider user ≠ some identity.providerId) →
    ∀ row ∈ s.users, row.email = identity.email → SignsInAs s row.id ending
  created : (∀ user ∈ s.users, matchesIdentity identity user = false) →
    (∀ user ∈ s.users, user.id ≠ userId) →
    ∃ user, ending.state.users = s.users ++ [user] ∧ user.id = userId ∧
      linkedId identity.provider user = some identity.providerId ∧
      user.email = identity.email ∧ ending.result = .ok (toJwtPayload user)

/-- No row of the address is another than the row of the provider id. -/
def MatchOneRow (users : List User) (identity : ProviderIdentity) : Prop :=
  ∀ row ∈ users, ∀ other ∈ users,
    linkedId identity.provider row = some identity.providerId →
      other.email = identity.email → other = row

section Logins

variable {adminEmail : Option String} {identity : ProviderIdentity} {userId passwordHash : String}
  {pick : Nat} {s : Store} {existing : User}

/-- A row matches by its provider id or by its address. -/
theorem matchesIdentity_eq_true {user : User} : matchesIdentity identity user = true ↔
    linkedId identity.provider user = some identity.providerId ∨
      user.email = identity.email := by
  simp only [matchesIdentity, Bool.or_eq_true, beq_iff_eq]

/-- The run of a login that has found a row. -/
theorem run_loginOrRegister_found
    (h : pickedRow s.users (matchesIdentity identity) pick = some existing) :
    (OAuthStrategy.loginOrRegister adminEmail identity userId passwordHash pick).run [] s =
      match updateUser s.users existing.id (loggedIn identity existing) with
      | .ok (users, some user) => ⟨{ s with users := users }, [], .ok (toJwtPayload user)⟩
      | .ok (users, none) => ⟨{ s with users := users }, [], .error .typeError⟩
      | .error error =>
        ⟨s, [], .error (OAuthStrategy.loginError identity.provider (.thrown error))⟩ := by
  simp only [OAuthStrategy.loginOrRegister, Program.run_bind, Program.run_tryCatch,
    OAuthStrategy.findOrRegister, read, Program.run_query_nil, Ending.ofOutcome_ok,
    Ending.andThen_ok, h, updateUsers]
  cases updateUser s.users existing.id (loggedIn identity existing) with
  | error error => rfl
  | ok outcome =>
    obtain ⟨users, user⟩ := outcome
    cases user with
    | none => rfl
    | some user => rfl

/-- The run of a login that has found none, when the new row violates nothing. -/
theorem run_loginOrRegister_absent {users : List User}
    (h : pickedRow s.users (matchesIdentity identity) pick = none)
    (hinsert : insertUser s.users
      (newProviderUser adminEmail identity userId passwordHash s.clock) = .ok users) :
    (OAuthStrategy.loginOrRegister adminEmail identity userId passwordHash pick).run [] s =
      ⟨{ s with users := users }, [],
        .ok (toJwtPayload (newProviderUser adminEmail identity userId passwordHash s.clock))⟩ := by
  simp only [OAuthStrategy.loginOrRegister, Program.run_bind, Program.run_tryCatch,
    OAuthStrategy.findOrRegister, OAuthStrategy.register, Program.run_map, read, insertIntoUsers,
    Program.run_query_nil, Ending.ofOutcome_ok, Ending.andThen_ok, h, hinsert, Program.run_pure,
    Ending.orElse_ok]

/-- An update that succeeds signs in as the row that it finds. -/
theorem signsInAs_of_updateUser {users : List User} {user : User}
    (hupdate : updateUser s.users existing.id (loggedIn identity existing) =
      .ok (users, some user)) :
    SignsInAs s existing.id ⟨{ s with users := users }, [], .ok (toJwtPayload user)⟩ := by
  obtain ⟨old, hold, -, rfl, rfl⟩ := updateUser_eq_ok_some.mp hupdate
  have hkeepsId : ∀ row : User, (loggedIn identity existing row).id = row.id :=
    (writesIdentity_loggedIn identity existing).id_eq
  have holdId := id_of_findUserById hold
  refine ⟨⟨_, ?mem, (hkeepsId old).trans holdId, rfl⟩, ?ids, ?others⟩
  case mem =>
    exact mem_updateWhere.mpr (Or.inl ⟨old, List.mem_of_find?_eq_some hold, holdId, rfl⟩)
  case ids => exact map_updateWhere_of_eq hkeepsId
  case others => exact filter_updateWhere_ne hkeepsId

/-- A login that finds a row signs in as that row, unless another one carries the provider id. -/
theorem signsInAs_of_found (hunique : UniqueUsers s.users)
    (h : pickedRow s.users (matchesIdentity identity) pick = some existing)
    (hmem : existing ∈ s.users)
    (hcarries : ∀ row ∈ s.users,
      linkedId identity.provider row = some identity.providerId → existing = row) :
    SignsInAs s existing.id
      ((OAuthStrategy.loginOrRegister adminEmail identity userId passwordHash pick).run [] s) := by
  have hfree := violatedColumn_eq_none_of_new hunique (writesIdentity_loggedIn identity existing)
    hmem fun row hrow hne hlinked => hne (congrArg User.id (hcarries row hrow hlinked)).symm
  have hupdate := updateUser_eq_ok_some.mpr
    ⟨existing, hunique.findUserById hmem, hfree, rfl, rfl⟩
  rw [run_loginOrRegister_found h, hupdate]
  exact signsInAs_of_updateUser hupdate

/-- A new row violates nothing when no row has its id, its address or its provider id. -/
theorem insertUser_newProviderUser {now : Nat}
    (hnone : ∀ user ∈ s.users, matchesIdentity identity user = false)
    (hid : ∀ user ∈ s.users, user.id ≠ userId) :
    insertUser s.users (newProviderUser adminEmail identity userId passwordHash now) =
      .ok (s.users ++ [newProviderUser adminEmail identity userId passwordHash now]) := by
  refine insertUser_eq_ok.mpr ⟨?_, rfl⟩
  rw [violatedColumn_userColumns_eq_none]
  intro other hother
  have hmatches : ¬ (linkedId identity.provider other = some identity.providerId ∨
      other.email = identity.email) := by
    rw [← matchesIdentity_eq_true, hnone other hother]
    exact Bool.false_ne_true
  rw [not_or] at hmatches
  refine ⟨?id, ?email, ?linked⟩
  case id => simpa only [newProviderUser, withLinkedId_id] using hid other hother
  case email => simpa only [newProviderUser, withLinkedId_email] using hmatches.2
  case linked =>
    intro provider providerId hcarries
    by_cases hprovider : provider = identity.provider
    · subst hprovider
      rw [newProviderUser, linkedId_withLinkedId] at hcarries
      rw [← hcarries]
      exact hmatches.1
    · rw [newProviderUser, linkedId_withLinkedId_of_ne hprovider] at hcarries
      cases provider <;> cases hcarries

/-- When the rows of the provider id and of the address are one row, the provider id comes
first, whichever row the database returns. -/
theorem providerIdFirst_of_matchOneRow (hunique : UniqueUsers s.users)
    (h : MatchOneRow s.users identity) : ProviderIdFirst identity userId s
      ((OAuthStrategy.loginOrRegister adminEmail identity userId passwordHash pick).run [] s) := by
  have hpicks : Picks s.users (matchesIdentity identity)
      (pickedRow s.users (matchesIdentity identity) pick) := picks_iff_pickedRow.mpr ⟨pick, rfl⟩
  cases hfound : pickedRow s.users (matchesIdentity identity) pick with
  | some existing =>
    rw [hfound] at hpicks
    obtain ⟨hmem, hmatches⟩ := hpicks
    have hby := matchesIdentity_eq_true.mp hmatches
    have hcarries : ∀ row ∈ s.users,
        linkedId identity.provider row = some identity.providerId → existing = row := by
      intro row hrow hlinked
      rcases hby with hbyId | hbyEmail
      · exact (uniqueOn_linkedId hunique _).eq_of_mem hmem hrow hbyId hlinked
      · exact h row hrow existing hmem hlinked hbyEmail
    have hsigned : SignsInAs s existing.id
        ((OAuthStrategy.loginOrRegister adminEmail identity userId passwordHash pick).run [] s) :=
      signsInAs_of_found hunique hfound hmem hcarries
    refine ⟨?byProviderId, ?byEmail, ?created⟩
    case byProviderId =>
      intro row hrow hlinked
      rw [← hcarries row hrow hlinked]
      exact hsigned
    case byEmail =>
      intro hnone row hrow hemail
      have hexisting : existing.email = identity.email := hby.resolve_left (hnone existing hmem)
      obtain rfl : existing = row :=
        hunique.email.eq_of_mem hmem hrow rfl (congrArg some (hemail.trans hexisting.symm))
      exact hsigned
    case created =>
      intro hnone
      rw [hnone existing hmem] at hmatches
      cases hmatches
  | none =>
    rw [hfound] at hpicks
    have hnot : ∀ user ∈ s.users, ¬ (linkedId identity.provider user = some identity.providerId ∨
        user.email = identity.email) := by
      intro user huser
      rw [← matchesIdentity_eq_true, hpicks user huser]
      exact Bool.false_ne_true
    refine ⟨?byProviderId, ?byEmail, ?created⟩
    case byProviderId => exact fun row hrow hlinked => absurd (Or.inl hlinked) (hnot row hrow)
    case byEmail => exact fun _ row hrow hemail => absurd (Or.inr hemail) (hnot row hrow)
    case created =>
      intro hnone hid
      rw [run_loginOrRegister_absent hfound (insertUser_newProviderUser hnone hid)]
      exact ⟨_, rfl, withLinkedId_id, linkedId_withLinkedId, withLinkedId_email, rfl⟩

/-- The provider id comes before the address, whichever row the database returns, exactly when
the two never match two different rows. -/
theorem providerIdFirst_iff_matchOneRow (hunique : UniqueUsers s.users) :
    (∀ pick, ProviderIdFirst identity userId s
      ((OAuthStrategy.loginOrRegister adminEmail identity userId passwordHash pick).run [] s)) ↔
    MatchOneRow s.users identity := by
  constructor
  · intro h row hrow other hother hlinked hemail
    by_contra hne
    have hid : row.id ≠ other.id := fun heq => hne (hunique.eq_of_id hrow hother heq).symm
    -- The database may return the row of the address.
    obtain ⟨pick, hpick⟩ := picks_iff_pickedRow.mp (show Picks s.users (matchesIdentity identity)
      (some other) from ⟨hother, matchesIdentity_eq_true.mpr (Or.inr hemail)⟩)
    obtain ⟨⟨user, -, -, hresult⟩, -, -⟩ := (h pick).byProviderId row hrow hlinked
    rw [run_loginOrRegister_found hpick] at hresult
    cases hupdate : updateUser s.users other.id (loggedIn identity other) with
    | error error =>
      rw [hupdate] at hresult
      cases hresult
    | ok outcome =>
      obtain ⟨users, updated⟩ := outcome
      rw [hupdate] at hresult
      cases updated with
      | none => cases hresult
      | some updated =>
        -- The write would repeat the provider id of the other row.
        obtain ⟨old, -, hfree, -, -⟩ := updateUser_eq_ok_some.mp hupdate
        have hmem : row ∈ s.users.filter fun user => user.id != other.id :=
          List.mem_filter.mpr ⟨hrow, bne_iff_ne.mpr hid⟩
        exact (violatedColumn_userColumns_eq_none.mp hfree row hmem).2.2 _ _
          ((writesIdentity_loggedIn identity other).carries old) hlinked
  · exact fun h pick => providerIdFirst_of_matchOneRow hunique h

end Logins

/-- A user of a provider, under an address. -/
def providerUser (provider : OAuthProvider) (id providerId email : String) : User :=
  newProviderUser none ⟨provider, providerId, email, "Ada", none⟩ id "hash" 0

/-- The account with a provider id has an address of its own, and so has another one. -/
def knownUser (provider : OAuthProvider) : Store :=
  { Store.empty with users := [providerUser provider "v" "h" "c@example.com",
      providerUser provider "u" "g" "a@example.com"] }

/-- Of either provider, a login with the provider id and another address signs in as that account,
whichever row the database returns. -/
theorem providerIdFirst_iff_matchOneRow_knownUser :
    (∀ pick, ProviderIdFirst ⟨.google, "g", "b@example.com", "Ada", none⟩ "w" (knownUser .google)
      ((OAuthStrategy.loginOrRegister none ⟨.google, "g", "b@example.com", "Ada", none⟩ "w" "hash"
        pick).run [] (knownUser .google))) ∧
    ∀ pick, ProviderIdFirst ⟨.github, "g", "b@example.com", "Ada", none⟩ "w" (knownUser .github)
      ((OAuthStrategy.loginOrRegister none ⟨.github, "g", "b@example.com", "Ada", none⟩ "w" "hash"
        pick).run [] (knownUser .github)) := by
  have hunique : ∀ provider, UniqueUsers (knownUser provider).users := by
    intro provider
    refine UniqueColumns.append (UniqueColumns.singleton _) ?_
    cases provider <;> decide +kernel
  have hmatch : ∀ provider, MatchOneRow (knownUser provider).users
      ⟨provider, "g", "b@example.com", "Ada", none⟩ := by
    intro provider
    unfold MatchOneRow
    cases provider <;> decide +kernel
  exact ⟨(providerIdFirst_iff_matchOneRow (hunique .google)).mpr (hmatch .google),
    (providerIdFirst_iff_matchOneRow (hunique .github)).mpr (hmatch .github)⟩

/-- Two accounts: one has the provider id, the other one the address. -/
def splitUsers (provider : OAuthProvider) : Store :=
  { Store.empty with users := [providerUser provider "u" "g" "a@example.com",
      providerUser provider "v" "h" "b@example.com"] }

/-- The login fails when the database returns the row of the address. -/
theorem loginFails_splitUsers (provider : OAuthProvider) :
    UniqueUsers (splitUsers provider).users ∧
    ¬ ∀ pick, ProviderIdFirst ⟨provider, "g", "b@example.com", "Ada", none⟩ "w"
      (splitUsers provider)
      ((OAuthStrategy.loginOrRegister none ⟨provider, "g", "b@example.com", "Ada", none⟩ "w" "hash"
        pick).run [] (splitUsers provider)) := by
  have hunique : UniqueUsers (splitUsers provider).users := by
    refine UniqueColumns.append (UniqueColumns.singleton _) ?_
    cases provider <;> decide +kernel
  have hfailed : ((OAuthStrategy.loginOrRegister none ⟨provider, "g", "b@example.com", "Ada", none⟩
      "w" "hash" 1).run [] (splitUsers provider)).result.isOk = false := by
    cases provider <;> decide +kernel
  refine ⟨hunique, fun h => ?_⟩
  obtain ⟨⟨user, -, -, hresult⟩, -, -⟩ :=
    (h 1).byProviderId _ (List.mem_cons_self ..) linkedId_withLinkedId
  rw [hresult] at hfailed
  cases hfailed

/-- The account with the provider id does not always come first, with either provider. -/
theorem not_providerIdFirst_splitUsers :
    (UniqueUsers (splitUsers .google).users ∧
      ¬ ∀ pick, ProviderIdFirst ⟨.google, "g", "b@example.com", "Ada", none⟩ "w"
        (splitUsers .google) ((OAuthStrategy.loginOrRegister none
          ⟨.google, "g", "b@example.com", "Ada", none⟩ "w" "hash" pick).run []
            (splitUsers .google))) ∧
    UniqueUsers (splitUsers .github).users ∧
      ¬ ∀ pick, ProviderIdFirst ⟨.github, "g", "b@example.com", "Ada", none⟩ "w"
        (splitUsers .github) ((OAuthStrategy.loginOrRegister none
          ⟨.github, "g", "b@example.com", "Ada", none⟩ "w" "hash" pick).run []
            (splitUsers .github)) :=
  ⟨loginFails_splitUsers .google, loginFails_splitUsers .github⟩

end VertexApi.App
