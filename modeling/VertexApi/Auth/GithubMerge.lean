import VertexApi.Auth.ProviderIdentity

/-!
# Which accounts a GitHub login opens

A GitHub login that knows no row by its id takes over the row with the address that it
looks up. That address is the primary entry's, or the first one's, or made up from the id;
whether GitHub has verified it is never asked, and a registration with a password proves
nothing about its address either.
-/

namespace VertexApi.Auth

/-- GitHub has verified the address. -/
def Verified (profile : GithubProfile) (address : String) : Prop :=
  ∃ entry ∈ profile.emails.getD [], entry.value = address ∧ entry.verified = some true

/-- The steps of a login that finds a row. -/
def mergeLabels (linkCookie : Option String) (profile : GithubProfile) (row : User) :
    List StrategyLabel :=
  [.validate 0 linkCookie (.github profile), .callback 0 (.findUser (some row)),
    .callback 0 .updateUser]

/-- A login finds a row that does not carry its id, and leaves the id there. -/
def Attaches (config : StrategyConfig) (clock : Nat) (users : List User)
    (linkCookie : Option String) (profile : GithubProfile) (row : User) : Prop :=
  row.githubId ≠ some profile.id ∧
  ∃ t, (strategies config).exec (.initial clock users) (mergeLabels linkCookie profile row) =
      some t ∧
    ∃ after ∈ t.users, after.id = row.id ∧ after.githubId = some profile.id

section Merge

variable {config : StrategyConfig} {clock : Nat} {users : List User} {linkCookie : Option String}
  {profile : GithubProfile} {row : User}

/-- A profile with an id has an identity. -/
theorem githubIdentity_eq_ok {identity : ProviderIdentity} :
    githubIdentity profile = .ok identity → profile.id ≠ "" ∧ identity.provider = .github ∧
      identity.providerId = profile.id ∧ identity.email = githubEmail profile := by
  intro h
  simp only [githubIdentity] at h
  split at h
  · cases h
  · next hid =>
    obtain rfl := Except.ok.inj h
    exact ⟨hid, rfl, rfl, rfl⟩

/-- A profile without an id makes no statement. -/
theorem not_attaches_of_id_eq (h : profile.id = "") :
    ¬ Attaches config clock users linkCookie profile row := by
  rintro ⟨-, t, hrun, -⟩
  simp [mergeLabels, strategies, StrategyState.initial, identityOf, githubIdentity, h] at hrun

/-- A login that has found a row. -/
def foundRow (clock : Nat) (users : List User) (identity : ProviderIdentity) (row : User) :
    StrategyState :=
  (StrategyState.initial clock users).setCallback 0 ⟨identity, .updateUser row⟩

/-- A login finds the rows that match, and goes on with the update. -/
theorem exec_mergeLabels {identity : ProviderIdentity}
    (hlink : getVerifiedLinkUserId config.signer linkCookie = none)
    (hidentity : githubIdentity profile = .ok identity) :
    (strategies config).exec (.initial clock users) (mergeLabels linkCookie profile row) =
      if row ∈ users ∧ matchesIdentity identity row = true then
        (foundRow clock users identity row).callbackStep config 0
          ⟨identity, .updateUser row⟩ .updateUser
      else none := by
  have hstart : (strategies config).step (.initial clock users)
      (.validate 0 linkCookie (.github profile)) =
      some ((StrategyState.initial clock users).setCallback 0 ⟨identity, .findUser⟩) := by
    simp only [strategies, StrategyState.initial, Option.isSome_none, Bool.false_eq_true, if_false,
      identityOf, hidentity, startCallback, hlink]
  have hfind : (strategies config).step
      ((StrategyState.initial clock users).setCallback 0 ⟨identity, .findUser⟩)
      (.callback 0 (.findUser (some row))) =
      if row ∈ users ∧ matchesIdentity identity row = true then
        some (foundRow clock users identity row) else none := by
    simp only [strategies, StrategyState.callbackStep, Picks, foundRow, StrategyState.setCallback,
      StrategyState.initial, Function.update_self, Function.update_idem, Option.bind_some]
  simp only [mergeLabels, Machine.exec_cons, Machine.exec_nil, hstart, hfind, Option.bind_some]
  split
  · simp only [Option.bind_some, strategies, foundRow, StrategyState.setCallback_callbacks_self,
      Option.bind_fun_some]
  · rfl

/-- The update of a login that has found a row leaves its provider id there, when the row has
it, or when no row does. -/
theorem exists_after_foundRow (config : StrategyConfig) (clock : Nat)
    {identity : ProviderIdentity} (h : UniqueUsers users) (hrow : row ∈ users)
    (hlinked : linkedId identity.provider row ≠ some identity.providerId) :
    (∃ t, (foundRow clock users identity row).callbackStep config 0 ⟨identity, .updateUser row⟩
        .updateUser = some t ∧ ∃ after ∈ t.users, after.id = row.id ∧
        linkedId identity.provider after = some identity.providerId) ↔
      ∀ other ∈ users, linkedId identity.provider other ≠ some identity.providerId := by
  have hwrites := writesIdentity_loggedIn identity row
  constructor
  · rintro ⟨t, hstep, after, hafter, hid, hcarries⟩ other hother hcarried
    obtain ⟨m, phase, hmoves, rfl⟩ := moves_of_callbackStep hstep
    cases hmoves with
    | vanished | refused =>
      obtain rfl := h.eq_of_id hafter hrow hid
      exact hlinked hcarries
    | @updated existing user later hphase hupdate =>
      obtain rfl := CallbackPhase.updateUser.inj hphase
      obtain ⟨old, hold, hfree, rfl, -⟩ := updateUser_eq_ok_some.mp hupdate
      by_cases hne : other.id = row.id
      · obtain rfl := h.eq_of_id hother hrow hne
        exact hlinked hcarried
      · have hmem : other ∈ users.filter fun other => other.id != row.id :=
          List.mem_filter.mpr ⟨hother, bne_iff_ne.mpr hne⟩
        have hothers := violatedColumn_userColumns_eq_none.mp hfree other hmem
        exact hothers.2.2 _ _ (hwrites.carries old)
          hcarried
  · intro hnew
    have hfree := violatedColumn_eq_none_of_new h hwrites hrow fun other hother _ =>
      hnew other hother
    have hupdate := updateUser_eq_ok_some.mpr ⟨row, h.findUserById hrow, hfree, rfl, rfl⟩
    have hstep : ∃ t, (foundRow clock users identity row).callbackStep config 0
        ⟨identity, .updateUser row⟩ .updateUser = some t ∧
        t.users = updateWhere User.id row.id (loggedIn identity row) users := by
      simp only [StrategyState.callbackStep, foundRow, StrategyState.setCallback,
        StrategyState.initial, hupdate]
      exact ⟨_, rfl, rfl⟩
    obtain ⟨t, hstep, husers⟩ := hstep
    have hmem : loggedIn identity row row ∈ t.users := by
      rw [husers]
      exact mem_updateWhere.mpr (Or.inl ⟨row, hrow, rfl, rfl⟩)
    exact ⟨t, hstep, _, hmem, hwrites.id_eq row, hwrites.carries row⟩

/-- A login attaches its id to the row with its address, when no row carries the id. -/
theorem attaches_iff (clock : Nat) (h : UniqueUsers users)
    (hlink : getVerifiedLinkUserId config.signer linkCookie = none) :
    Attaches config clock users linkCookie profile row ↔
      profile.id ≠ "" ∧ row ∈ users ∧ row.email = githubEmail profile ∧
        ∀ other ∈ users, other.githubId ≠ some profile.id := by
  cases hidentity : githubIdentity profile with
  | error failure =>
    have hid : profile.id = "" := by
      by_contra hid
      simp only [githubIdentity, hid, if_false, reduceCtorEq] at hidentity
    simp only [hid, ne_eq, not_true, false_and, iff_false]
    exact not_attaches_of_id_eq hid
  | ok identity =>
    obtain ⟨hid, hprovider, hproviderId, hemail⟩ := githubIdentity_eq_ok hidentity
    have hlinkedId : linkedId identity.provider = User.githubId := by
      rw [hprovider]
      rfl
    have hmatches : row.githubId ≠ some profile.id →
        (matchesIdentity identity row = true ↔ row.email = githubEmail profile) := by
      intro hne
      simp only [matchesIdentity, hlinkedId, hproviderId, hemail, Bool.or_eq_true, beq_iff_eq, hne,
        false_or]
    have hafter (hrow : row ∈ users)
        (hne : linkedId identity.provider row ≠ some identity.providerId) :=
      exists_after_foundRow config clock h hrow hne
    rw [hlinkedId, hproviderId] at hafter
    constructor
    · rintro ⟨hne, t, hrun, hcarries⟩
      rw [exec_mergeLabels hlink hidentity] at hrun
      obtain ⟨⟨hrow, hmatch⟩, hstep⟩ := Option.ite_none_right_eq_some.mp hrun
      exact ⟨hid, hrow, (hmatches hne).mp hmatch, (hafter hrow hne).mp ⟨t, hstep, hcarries⟩⟩
    · rintro ⟨-, hrow, haddress, hnew⟩
      have hne := hnew row hrow
      obtain ⟨t, hstep, hcarries⟩ := (hafter hrow hne).mpr hnew
      refine ⟨hne, t, ?_, hcarries⟩
      rw [exec_mergeLabels hlink hidentity]
      exact Option.ite_none_right_eq_some.mpr ⟨⟨hrow, (hmatches hne).mpr haddress⟩, hstep⟩

end Merge

/-- A GitHub login attaches its id to rows with verified addresses only, exactly if it has no
id, its address is verified or no row's, or some row carries its id already. -/
theorem merges_verified_iff (config : StrategyConfig) (clock : Nat) (users : List User)
    (hunique : UniqueUsers users) (linkCookie : Option String)
    (hlink : getVerifiedLinkUserId config.signer linkCookie = none) (profile : GithubProfile) :
    (∀ row, Attaches config clock users linkCookie profile row → Verified profile row.email) ↔
      profile.id = "" ∨ Verified profile (githubEmail profile) ∨
        (∀ row ∈ users, row.email ≠ githubEmail profile) ∨
        ∃ row ∈ users, row.githubId = some profile.id := by
  constructor
  · intro h
    by_contra hnot
    push Not at hnot
    obtain ⟨hid, hverified, ⟨row, hrow, haddress⟩, hnew⟩ := hnot
    have hattaches := (attaches_iff clock hunique hlink).mpr ⟨hid, hrow, haddress, hnew⟩
    exact hverified (haddress ▸ h row hattaches)
  · rintro h row hattaches
    obtain ⟨hid, hrow, haddress, hnew⟩ := (attaches_iff clock hunique hlink).mp hattaches
    rcases h with hid' | hverified | hnone | ⟨other, hother, hcarries⟩
    · exact absurd hid' hid
    · exact haddress ▸ hverified
    · exact absurd haddress (hnone row hrow)
    · exact absurd hcarries (hnew other hother)

/-- A user who registered with an address and a password. -/
def registered (email : String) : User :=
  registeredUser bytesStrategies.argon2 ⟨email, "password"⟩ "u" 0

/-- The users after one registration. -/
theorem uniqueUsers_registered (email : String) : UniqueUsers [registered email] :=
  UniqueColumns.singleton _

/-- A login with the registered address opens the account. -/
theorem attaches_registered {email : String} {profile : GithubProfile} (hid : profile.id ≠ "")
    (haddress : email = githubEmail profile) :
    Attaches bytesStrategies 0 [registered email] none profile (registered email) := by
  refine (attaches_iff 0 (uniqueUsers_registered email) rfl).mpr
    ⟨hid, List.mem_singleton.mpr rfl, haddress, fun other hother => ?_⟩
  rw [List.mem_singleton.mp hother]
  rintro ⟨⟩

/-- A GitHub profile with one primary address. -/
def primaryProfile (address : String) (verified : Bool) : GithubProfile :=
  ⟨"1", none, none, some [⟨address, some true, some verified⟩], none⟩

/-- A verified address opens the account that was registered with it. -/
theorem merges_verified_iff_primary :
    Verified (primaryProfile "a@example.com" true) (registered "a@example.com").email := by
  have hattaches : Attaches bytesStrategies 0 [registered "a@example.com"] none
      (primaryProfile "a@example.com" true) (registered "a@example.com") :=
    attaches_registered (by decide) rfl
  have hverified : Verified (primaryProfile "a@example.com" true)
      (githubEmail (primaryProfile "a@example.com" true)) :=
    ⟨_, List.mem_singleton.mpr rfl, rfl, rfl⟩
  exact (merges_verified_iff bytesStrategies 0 _ (uniqueUsers_registered "a@example.com") none rfl
    _).mpr (Or.inr (Or.inl hverified)) _ hattaches

/-- A GitHub profile without addresses. -/
def addresslessProfile : GithubProfile := ⟨"1", none, none, none, none⟩

/-- An address that is made up, and one that is not verified, open the accounts that were
registered with them. -/
theorem not_verified_registered :
    register bytesStrategies.argon2 [] ⟨"github-1@guest.local", "password"⟩ "u" 0 =
      ([registered "github-1@guest.local"], .ok ("u", "github-1@guest.local")) ∧
    Attaches bytesStrategies 0 [registered "github-1@guest.local"] none addresslessProfile
      (registered "github-1@guest.local") ∧
    ¬ Verified addresslessProfile (registered "github-1@guest.local").email ∧
    Attaches bytesStrategies 0 [registered "a@example.com"] none
      (primaryProfile "a@example.com" false) (registered "a@example.com") ∧
    ¬ Verified (primaryProfile "a@example.com" false) (registered "a@example.com").email := by
  refine ⟨rfl, attaches_registered (by decide) (by decide), ?_,
    attaches_registered (by decide) rfl, ?_⟩
  · rintro ⟨entry, hentry, -⟩
    cases hentry
  · rintro ⟨entry, hentry, -, hverified⟩
    rw [List.mem_singleton.mp hentry] at hverified
    cases hverified

end VertexApi.Auth
