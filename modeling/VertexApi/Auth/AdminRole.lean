import VertexApi.Auth.ProviderIdentity

/-!
# The admin role

The role of a row is decided where the row is created, and never afterwards. An emailed code
and the first login of a provider compare the address with the admin's; a registration does
not, so the rows with the admin's address are the admins exactly when no registration
creates one.
-/

namespace VertexApi.Auth

open Users

/-- The admins are the rows with the admin's address. -/
def AdminsExact (adminEmail : Option String) (users : List User) : Prop :=
  ∀ row ∈ users, row.role = .admin ↔ some row.email = adminEmail

/-- No registration creates a row with the admin's address. -/
def RegistersNoAdmin (config : StrategyConfig) (s : StrategyState) : StrategyLabel → Prop
  | .account (.register registerDto userId) =>
    violatedColumn userColumns s.users
      (registeredUser config.argon2 registerDto userId s.clock) = none →
        some registerDto.email ≠ config.adminEmail
  | _ => True

/-- Every row has the role and the address of an earlier one. -/
def KeepsRoles (users later : List User) : Prop :=
  ∀ row ∈ later, ∃ old ∈ users, old.role = row.role ∧ old.email = row.email

section Tables

variable {adminEmail : Option String} {users later : List User} {row : User}

/-- The admins of a table that keeps its roles stay exact. -/
theorem AdminsExact.keeps (h : AdminsExact adminEmail users) (hkeeps : KeepsRoles users later) :
    AdminsExact adminEmail later := by
  intro row hrow
  obtain ⟨old, hold, hrole, hemail⟩ := hkeeps row hrow
  rw [← hrole, ← hemail]
  exact h old hold

/-- They stay exact with a new row exactly when its role is. -/
theorem adminsExact_append (h : AdminsExact adminEmail users) :
    AdminsExact adminEmail (users ++ [row]) ↔
      (row.role = .admin ↔ some row.email = adminEmail) := by
  constructor
  · exact fun hall => hall row (List.mem_append_right _ (List.mem_singleton_self row))
  · intro hrow other hother
    rcases List.mem_append.mp hother with hother | hother
    · exact h other hother
    · rw [List.mem_singleton.mp hother]
      exact hrow

/-- A write that leaves the role and the address alone keeps the roles. -/
theorem keepsRoles_updateWhere (userId : String) {f : User → User}
    (hf : ∀ row, (f row).role = row.role ∧ (f row).email = row.email) :
    KeepsRoles users (updateWhere User.id userId f users) := by
  intro row hrow
  rcases mem_updateWhere.mp hrow with ⟨old, hold, -, rfl⟩ | ⟨hrow, -⟩
  · exact ⟨old, hold, (hf old).1.symm, (hf old).2.symm⟩
  · exact ⟨row, hrow, rfl, rfl⟩

/-- An insert that may be refused appends its row, or changes nothing. -/
theorem afterInsert_cases (users : List User) (row : User) :
    violatedColumn userColumns users row = none ∧ afterInsert users row = users ++ [row] ∨
      violatedColumn userColumns users row ≠ none ∧ afterInsert users row = users := by
  cases hinsert : insertUser users row with
  | error error =>
    refine Or.inr ⟨fun hfree => ?_, by simp only [afterInsert, hinsert]⟩
    cases hinsert.symm.trans (insertUser_eq_ok.mpr ⟨hfree, rfl⟩)
  | ok inserted =>
    obtain ⟨hfree, rfl⟩ := insertUser_eq_ok.mp hinsert
    exact Or.inl ⟨hfree, by simp only [afterInsert, hinsert]⟩

/-- The role of the row that an emailed code creates. -/
theorem role_newOtpUser (adminEmail : Option String) (email userId passwordHash : String)
    (now : Nat) : (newOtpUser adminEmail email userId passwordHash now).role = .admin ↔
      some (newOtpUser adminEmail email userId passwordHash now).email = adminEmail := by
  simp only [newOtpUser]
  split
  · next he => exact ⟨fun _ => he, fun _ => rfl⟩
  · next hne => exact iff_of_false (fun he => by cases he) hne

/-- The role of the row that a first login creates. -/
theorem role_newProviderUser (adminEmail : Option String) (identity : ProviderIdentity)
    (userId passwordHash : String) (now : Nat) :
    (newProviderUser adminEmail identity userId passwordHash now).role = .admin ↔
      some (newProviderUser adminEmail identity userId passwordHash now).email = adminEmail := by
  have hrole : (newProviderUser adminEmail identity userId passwordHash now).role =
      if some identity.email = adminEmail then .admin else .user := by
    cases hprovider : identity.provider <;> simp only [newProviderUser, withLinkedId, hprovider]
  have hemail : (newProviderUser adminEmail identity userId passwordHash now).email =
      identity.email := withLinkedId_email
  rw [hrole, hemail]
  split
  · next he => exact ⟨fun _ => he, fun _ => rfl⟩
  · next hne => exact iff_of_false (fun he => by cases he) hne

/-- A login leaves the role alone. -/
theorem role_loggedIn (identity : ProviderIdentity) (existing user : User) :
    (loggedIn identity existing user).role = user.role := by
  cases hprovider : identity.provider <;> simp only [loggedIn, withLinkedId, hprovider]

/-- So does a link. -/
theorem role_linked (identity : ProviderIdentity) (current user : User) :
    (linked identity current user).role = user.role := by
  cases hprovider : identity.provider <;> simp only [linked, withLinkedId, hprovider]

end Tables

section Steps

variable {config : StrategyConfig} {s t : StrategyState} {label : StrategyLabel}

/-- Another operation keeps the admins exact exactly when it registers none. -/
theorem adminsExact_account_iff (h : AdminsExact config.adminEmail s.users)
    (change : AccountChange) : RegistersNoAdmin config s (.account change) ↔
      AdminsExact config.adminEmail (change.apply config s.clock s.users) := by
  cases change with
  | register registerDto userId =>
    have hrole : (registeredUser config.argon2 registerDto userId s.clock).role ≠ .admin :=
      fun he => by cases he
    simp only [RegistersNoAdmin, AccountChange.apply]
    rcases afterInsert_cases s.users (registeredUser config.argon2 registerDto userId s.clock) with
      ⟨hfree, hlater⟩ | ⟨hviolated, hlater⟩
    · rw [hlater, adminsExact_append h]
      exact ⟨fun hne => iff_of_false hrole (hne hfree), fun hiff _ he => hrole (hiff.mpr he)⟩
    · rw [hlater]
      exact ⟨fun _ => h, fun _ hfree => absurd hfree hviolated⟩
  | verifyCode email userId passwordHash =>
    refine ⟨fun _ => ?_, fun _ => trivial⟩
    simp only [AccountChange.apply]
    rcases afterInsert_cases s.users
      (newOtpUser config.adminEmail email userId passwordHash s.clock) with
      ⟨-, hlater⟩ | ⟨-, hlater⟩
    · rw [hlater, adminsExact_append h]
      exact role_newOtpUser ..
    · rwa [hlater]
  | updateSelf userId dto existing =>
    refine ⟨fun _ => h.keeps ?_, fun _ => trivial⟩
    exact keepsRoles_updateWhere userId fun row => ⟨rfl, rfl⟩
  | setBanned userId isBanned =>
    refine ⟨fun _ => h.keeps ?_, fun _ => trivial⟩
    exact keepsRoles_updateWhere userId fun row => ⟨rfl, rfl⟩
  | remove userId =>
    refine ⟨fun _ => h.keeps fun row hrow => ?_, fun _ => trivial⟩
    exact ⟨row, (List.mem_filter.mp hrow).1, rfl, rfl⟩

/-- A step of a callback keeps the admins exact. -/
theorem adminsExact_callback {callback : Callback} {step : CallbackStep} {m : StrategyState}
    {phase : CallbackPhase} (h : AdminsExact config.adminEmail s.users)
    (hmoves : CallbackMoves config s callback step m phase) :
    AdminsExact config.adminEmail m.users := by
  cases hmoves with
  | @updated existing user users hphase hupdate =>
    obtain ⟨old, -, -, rfl, -⟩ := updateUser_eq_ok_some.mp hupdate
    exact h.keeps (keepsRoles_updateWhere existing.id fun row =>
      ⟨role_loggedIn _ existing row, (writesIdentity_loggedIn _ existing).email_eq row⟩)
  | @linked linkUserId current user users hphase hupdate =>
    obtain ⟨old, -, -, rfl, -⟩ := updateUser_eq_ok_some.mp hupdate
    exact h.keeps (keepsRoles_updateWhere linkUserId fun row =>
      ⟨role_linked _ current row, (writesIdentity_linked _ current).email_eq row⟩)
  | inserted hphase huser hinsert =>
    obtain ⟨-, rfl⟩ := insertUser_eq_ok.mp hinsert
    subst huser
    exact (adminsExact_append h).mpr (role_newProviderUser ..)
  | absent | found | vanished | refused | insertRefused | conflicting | notConflicting | unknown
  | current | linkRefused | failed => exact h

/-- A step keeps the admins exact exactly when it registers none. -/
theorem registersNoAdmin_iff (h : AdminsExact config.adminEmail s.users) :
    RegistersNoAdmin config s label ↔ ∀ t, (strategies config).step s label = some t →
      AdminsExact config.adminEmail t.users := by
  constructor
  · intro hguard t ht
    rcases strategies_step_cases ht with ⟨ms, rfl, rfl⟩ | ⟨change, rfl, rfl⟩ |
      ⟨id, linkCookie, profile, rfl, -, rfl | ⟨identity, -, rfl⟩⟩ |
      ⟨id, step, callback, m, phase, rfl, -, hmoves, rfl⟩
    · exact h
    · exact (adminsExact_account_iff h change).mp hguard
    · exact h
    · exact h
    · change AdminsExact config.adminEmail m.users
      exact adminsExact_callback h hmoves
  · intro hkeeps
    cases label with
    | account change => exact (adminsExact_account_iff h change).mpr (hkeeps _ rfl)
    | tick | validate | callback => trivial

end Steps

/-- For every admin address and every run from an empty table, the admins are the rows with that
address in every state, exactly when no registration creates such a row. -/
theorem adminsExact_iff (config : StrategyConfig) (clock : Nat) (labels : List StrategyLabel) :
    (strategies config).Meets (RegistersNoAdmin config) (.initial clock []) labels ↔
      (strategies config).Meets (fun s label => ∀ t, (strategies config).step s label = some t →
        AdminsExact config.adminEmail t.users) (.initial clock []) labels :=
  (strategies config).meets_iff_keeps (P := fun _ => True)
    (Q := fun s => AdminsExact config.adminEmail s.users) (fun _ _ _ _ _ => trivial)
    (fun _ _ _ h => registersNoAdmin_iff h) trivial (fun _ hrow => by cases hrow) labels

/-- A deployment with an admin. -/
def ownerStrategies : StrategyConfig :=
  { bytesStrategies with adminEmail := some "owner@example.com" }

/-- The admin registers with a password. -/
def ownerRegisters : List StrategyLabel :=
  [.account (.register ⟨"owner@example.com", "password"⟩ "owner")]

/-- The admin who registers first is a plain user. -/
theorem not_adminsExact_ownerRegisters : ∃ s,
    (strategies ownerStrategies).exec (.initial 0 []) ownerRegisters = some s ∧
      s.users.map (fun row => (row.email, row.role)) = [("owner@example.com", .user)] ∧
      ¬AdminsExact ownerStrategies.adminEmail s.users := by
  have hrun := (strategies ownerStrategies).exec_run (.initial 0 []) ownerRegisters
    (by decide +kernel)
  refine ⟨_, hrun, by decide +kernel, ?_⟩
  unfold AdminsExact
  decide +kernel

end VertexApi.Auth
