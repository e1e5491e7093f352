import VertexApi.Auth.Callbacks

/-!
# How long a provider id stays with its user

A login signs in as the row that carries its provider id, unless an earlier login, which
matched the row by its address, wrote another id over it. As long as no write meets another
id, a provider id signs in as one user until that user is removed.
-/

namespace VertexApi.Auth

open Users

/-- No row that stays loses a provider id or has it replaced. -/
def KeepsProviderIds (users later : List User) : Prop :=
  ∀ row ∈ users, ∀ after ∈ later, after.id = row.id → ∀ provider providerId,
    linkedId provider row = some providerId → linkedId provider after = some providerId

/-- Every row stays. -/
def RowsStay (users later : List User) : Prop := ∀ row ∈ users, ∃ after ∈ later, after.id = row.id

/-- A row carries the provider id, or the row to write to carries none of the provider. -/
def NoOtherId (users : List User) (identity : ProviderIdentity) (userId : String) : Prop :=
  (∃ user ∈ users, linkedId identity.provider user = some identity.providerId) ∨
    ∀ user ∈ users, user.id = userId → linkedId identity.provider user = none

/-- The row to which a step writes a provider id. -/
def writeTarget (callback : Callback) : CallbackStep → Option String
  | .updateUser =>
    match callback.phase with
    | .updateUser existing => some existing.id
    | _ => none
  | .updateCurrent =>
    match callback.phase with
    | .updateCurrent linkUserId _ => some linkUserId
    | _ => none
  | _ => none

/-- The identity that a step writes, and to which row. -/
def writeOf (s : StrategyState) : StrategyLabel → Option (ProviderIdentity × String)
  | .callback id step => (s.callbacks id).bind fun callback =>
      (writeTarget callback step).map fun userId => (callback.identity, userId)
  | _ => none

/-- A write of a provider id meets no other id of the provider. -/
def WritesNoOtherId (s : StrategyState) (label : StrategyLabel) : Prop :=
  ∀ write ∈ writeOf s label, NoOtherId s.users write.1 write.2

instance decidableNoOtherId (users : List User) (identity : ProviderIdentity) (userId : String) :
    Decidable (NoOtherId users identity userId) :=
  inferInstanceAs (Decidable ((∃ user ∈ users, _ = _) ∨ ∀ user ∈ users, _ = _ → _ = _))

instance decidableWritesNoOtherId (s : StrategyState) (label : StrategyLabel) :
    Decidable (WritesNoOtherId s label) :=
  inferInstanceAs (Decidable (∀ write ∈ writeOf s label, NoOtherId s.users write.1 write.2))

/-- The step keeps the provider ids of the rows. -/
def KeepsIds (config : StrategyConfig) (s : StrategyState) (label : StrategyLabel) : Prop :=
  ∀ t, (strategies config).step s label = some t → KeepsProviderIds s.users t.users

/-- A write of a provider id, and of nothing else that is unique. -/
structure WritesIdentity (identity : ProviderIdentity) (f : User → User) : Prop where
  id_eq : ∀ user, (f user).id = user.id
  email_eq : ∀ user, (f user).email = user.email
  linkedId_eq : ∀ provider user, linkedId provider (f user) =
    linkedId provider (withLinkedId identity.provider identity.providerId user)

section Writes

variable {config : StrategyConfig} {identity : ProviderIdentity} {users later : List User}
  {f : User → User} {userId : String}

/-- The write of a login. -/
theorem writesIdentity_loggedIn (identity : ProviderIdentity) (existing : User) :
    WritesIdentity identity (loggedIn identity existing) where
  id_eq _ := withLinkedId_id
  email_eq _ := withLinkedId_email
  linkedId_eq _ _ := linkedId_loggedIn

/-- The write of a link. -/
theorem writesIdentity_linked (identity : ProviderIdentity) (current : User) :
    WritesIdentity identity (linked identity current) where
  id_eq _ := withLinkedId_id
  email_eq _ := withLinkedId_email
  linkedId_eq _ _ := linkedId_linked

/-- The written row carries the provider id. -/
theorem WritesIdentity.carries (hf : WritesIdentity identity f) (user : User) :
    linkedId identity.provider (f user) = some identity.providerId := by
  rw [hf.linkedId_eq, linkedId_withLinkedId]

/-- A row violates nothing when it repeats no id, no address and no provider id. -/
theorem violatedColumn_userColumns_eq_none {others : List User} {row : User} :
    violatedColumn userColumns others row = none ↔ ∀ other ∈ others, other.id ≠ row.id ∧
      other.email ≠ row.email ∧ ∀ provider providerId,
        linkedId provider row = some providerId → linkedId provider other ≠ some providerId := by
  simp only [violatedColumn_eq_none, userColumns, List.forall_mem_cons, List.not_mem_nil,
    false_implies, implies_true, and_true, Option.some.injEq, forall_eq', ne_eq]
  constructor
  · rintro ⟨hid, hemail, hgithub, hgoogle⟩ other hother
    refine ⟨hid other hother, hemail other hother, fun provider => ?_⟩
    cases provider with
    | google => exact hgoogle other hother
    | github => exact hgithub other hother
  · intro h
    exact ⟨fun other hother => (h other hother).1, fun other hother => (h other hother).2.1,
      fun other hother => (h other hother).2.2 .github,
      fun other hother => (h other hother).2.2 .google⟩

/-- A table keeps its own provider ids. -/
theorem keepsProviderIds_refl (h : UniqueUsers users) : KeepsProviderIds users users := by
  intro row hrow after hafter hid provider providerId hcarries
  rwa [h.eq_of_id hafter hrow hid]

/-- A write of a provider id that no other row carries repeats no unique value. -/
theorem violatedColumn_eq_none_of_new (h : UniqueUsers users) (hf : WritesIdentity identity f)
    {old : User} (hold : old ∈ users)
    (hnew : ∀ user ∈ users, user.id ≠ old.id →
      linkedId identity.provider user ≠ some identity.providerId) :
    violatedColumn userColumns (users.filter fun other => other.id != old.id) (f old) = none := by
  rw [violatedColumn_userColumns_eq_none]
  intro other hother
  obtain ⟨hmem, hne⟩ := List.mem_filter.mp hother
  have hne : other.id ≠ old.id := bne_iff_ne.mp hne
  refine ⟨?id, ?email, ?linked⟩
  case id => rwa [hf.id_eq]
  case email =>
    rw [hf.email_eq]
    intro hemail
    exact hne (congrArg User.id (h.email.eq_of_mem hmem hold rfl (congrArg some hemail.symm)))
  case linked =>
    intro provider providerId hcarries hcarried
    rw [hf.linkedId_eq] at hcarries
    by_cases hprovider : provider = identity.provider
    · subst hprovider
      rw [linkedId_withLinkedId, Option.some.injEq] at hcarries
      exact hnew other hmem hne (hcarries ▸ hcarried)
    · rw [linkedId_withLinkedId_of_ne hprovider] at hcarries
      have hunique := uniqueOn_linkedId h provider
      exact hne (congrArg User.id (hunique.eq_of_mem hmem hold hcarried hcarries))

/-- A write that meets no other id keeps the provider ids of the rows. -/
theorem NoOtherId.keepsProviderIds (hother : NoOtherId users identity userId)
    (h : UniqueUsers users) (hf : WritesIdentity identity f) {user : User}
    (hupdate : updateUser users userId f = .ok (later, some user)) :
    KeepsProviderIds users later := by
  obtain ⟨old, hold, hfree, rfl, -⟩ := updateUser_eq_ok_some.mp hupdate
  have holdId := id_of_findUserById hold
  have hfree := violatedColumn_userColumns_eq_none.mp hfree
  intro row hrow after hafter hid provider providerId hcarries
  rcases mem_updateWhere.mp hafter with ⟨former, hformer, hformerId, rfl⟩ | ⟨hafter, -⟩
  · rw [hf.id_eq] at hid
    obtain rfl : former = row := h.eq_of_id hformer hrow hid
    obtain rfl : former = old :=
      h.eq_of_id hformer (List.mem_of_find?_eq_some hold) (hformerId.trans holdId.symm)
    rw [hf.linkedId_eq]
    by_cases hprovider : provider = identity.provider
    · subst hprovider
      rw [linkedId_withLinkedId, Option.some.injEq]
      rcases hother with ⟨user, huser, hcarried⟩ | hnone
      · by_cases huserId : user.id = userId
        · obtain rfl := h.eq_of_id huser hformer (huserId.trans hformerId.symm)
          exact Option.some.inj (hcarried.symm.trans hcarries)
        · have hmem : user ∈ users.filter fun other => other.id != userId :=
            List.mem_filter.mpr ⟨huser, bne_iff_ne.mpr huserId⟩
          exact absurd hcarried ((hfree user hmem).2.2 _ _ (hf.carries former))
      · rw [hnone former hformer hformerId] at hcarries
        cases hcarries
    · rwa [linkedId_withLinkedId_of_ne hprovider]
  · obtain rfl := h.eq_of_id hafter hrow hid
    exact hcarries

/-- A write that keeps the provider ids of the rows, if it succeeds, meets no other id. -/
theorem noOtherId_of_keepsProviderIds (h : UniqueUsers users) (hf : WritesIdentity identity f)
    (hkeeps : ∀ later user, updateUser users userId f = .ok (later, some user) →
      KeepsProviderIds users later) : NoOtherId users identity userId := by
  by_cases hcarried : ∃ user ∈ users, linkedId identity.provider user = some identity.providerId
  · exact Or.inl hcarried
  · refine Or.inr fun user huser huserId => ?_
    subst huserId
    have hnew : ∀ other ∈ users, linkedId identity.provider other ≠ some identity.providerId :=
      fun other hmem heq => hcarried ⟨other, hmem, heq⟩
    have hfree := violatedColumn_eq_none_of_new h hf huser fun other hmem _ => hnew other hmem
    have hupdate := updateUser_eq_ok_some.mpr ⟨user, h.findUserById huser, hfree, rfl, rfl⟩
    have hmem : f user ∈ updateWhere User.id user.id f users :=
      mem_updateWhere.mpr (Or.inl ⟨user, huser, rfl, rfl⟩)
    cases hlinked : linkedId identity.provider user with
    | none => rfl
    | some providerId =>
      have hkept := hkeeps _ _ hupdate user huser _ hmem (hf.id_eq user) _ _ hlinked
      rw [hf.carries, ← hlinked] at hkept
      exact absurd hkept.symm (hnew user huser)

/-- After a write the table has the same ids, and the written row carries the provider id. -/
theorem WritesIdentity.rows (hf : WritesIdentity identity f) {user : User}
    (hupdate : updateUser users userId f = .ok (later, some user)) :
    RowsStay users later ∧ user ∈ later ∧
      linkedId identity.provider user = some identity.providerId := by
  obtain ⟨old, hold, -, rfl, rfl⟩ := updateUser_eq_ok_some.mp hupdate
  have holdMem := List.mem_of_find?_eq_some hold
  refine ⟨?stay, ?mem, hf.carries old⟩
  case stay =>
    intro row hrow
    by_cases hid : row.id = userId
    · exact ⟨f row, mem_updateWhere.mpr (Or.inl ⟨row, hrow, hid, rfl⟩), hf.id_eq row⟩
    · exact ⟨row, mem_updateWhere.mpr (Or.inr ⟨hrow, hid⟩), rfl⟩
  case mem => exact mem_updateWhere.mpr (Or.inl ⟨old, holdMem, id_of_findUserById hold, rfl⟩)

end Writes

section Inserts

variable {users later : List User} {row : User}

/-- A new row keeps the rows and their provider ids. -/
theorem rows_of_insertUser (h : UniqueUsers users) (hinsert : insertUser users row = .ok later) :
    UniqueUsers later ∧ KeepsProviderIds users later ∧ RowsStay users later ∧ row ∈ later := by
  obtain ⟨hfree, rfl⟩ := insertUser_eq_ok.mp hinsert
  refine ⟨h.append hfree, ?keeps, ?stay, List.mem_append_right _ (List.mem_singleton.mpr rfl)⟩
  case keeps =>
    intro old hold after hafter hid provider providerId hcarries
    rcases List.mem_append.mp hafter with hafter | hafter
    · exact keepsProviderIds_refl h old hold after hafter hid provider providerId hcarries
    · obtain rfl := List.mem_singleton.mp hafter
      exact absurd hid.symm ((violatedColumn_userColumns_eq_none.mp hfree) old hold).1
  case stay => exact fun old hold => ⟨old, List.mem_append_left _ hold, rfl⟩

/-- An insert that may be refused keeps them too. -/
theorem rows_of_afterInsert (h : UniqueUsers users) (row : User) :
    UniqueUsers (afterInsert users row) ∧ KeepsProviderIds users (afterInsert users row) ∧
      RowsStay users (afterInsert users row) := by
  simp only [afterInsert]
  split
  · exact ⟨h, keepsProviderIds_refl h, fun old hold => ⟨old, hold, rfl⟩⟩
  · next inserted hinsert =>
    obtain ⟨hunique, hkeeps, hstay, -⟩ := rows_of_insertUser h hinsert
    exact ⟨hunique, hkeeps, hstay⟩

/-- So does a write outside of the unique columns. -/
theorem rows_of_updateWhere (h : UniqueUsers users) (userId : String) {f : User → User}
    (hf : ∀ row, (f row).id = row.id ∧ (f row).email = row.email ∧
      (f row).githubId = row.githubId ∧ (f row).googleId = row.googleId) :
    UniqueUsers (updateWhere User.id userId f users) ∧
      KeepsProviderIds users (updateWhere User.id userId f users) ∧
      RowsStay users (updateWhere User.id userId f users) := by
  refine ⟨h.updateWhere_of_eq hf, ?keeps, ?stay⟩
  case keeps =>
    intro row hrow after hafter hid provider providerId hcarries
    rcases mem_updateWhere.mp hafter with ⟨former, hformer, -, rfl⟩ | ⟨hafter, -⟩
    · obtain rfl := h.eq_of_id hformer hrow ((hf former).1.symm.trans hid)
      cases provider with
      | google => exact (hf former).2.2.2.trans hcarries
      | github => exact (hf former).2.2.1.trans hcarries
    · obtain rfl := h.eq_of_id hafter hrow hid
      exact hcarries
  case stay =>
    intro row hrow
    by_cases hid : row.id = userId
    · exact ⟨f row, mem_updateWhere.mpr (Or.inl ⟨row, hrow, hid, rfl⟩), (hf row).1⟩
    · exact ⟨row, mem_updateWhere.mpr (Or.inr ⟨hrow, hid⟩), rfl⟩

end Inserts

section Steps

variable {config : StrategyConfig} {s t : StrategyState} {label : StrategyLabel}

/-- Another operation keeps the unique columns and the provider ids, and all rows except for
one that it removes. -/
theorem AccountChange.keeps (change : AccountChange) (config : StrategyConfig) (now : Nat)
    {users : List User} (h : UniqueUsers users) :
    UniqueUsers (change.apply config now users) ∧
      KeepsProviderIds users (change.apply config now users) ∧
      (change.event = [] ∧ RowsStay users (change.apply config now users) ∨
        ∃ userId, change.event = [.dropped userId] ∧
          ∀ row ∈ users, row.id ≠ userId → row ∈ change.apply config now users) := by
  cases change with
  | register registerDto userId =>
    obtain ⟨hunique, hkeeps, hstay⟩ := rows_of_afterInsert h
      (registeredUser config.argon2 registerDto userId now)
    exact ⟨hunique, hkeeps, Or.inl ⟨rfl, hstay⟩⟩
  | verifyCode email userId passwordHash =>
    obtain ⟨hunique, hkeeps, hstay⟩ := rows_of_afterInsert h
      (newOtpUser config.adminEmail email userId passwordHash now)
    exact ⟨hunique, hkeeps, Or.inl ⟨rfl, hstay⟩⟩
  | updateSelf userId dto existing =>
    obtain ⟨hunique, hkeeps, hstay⟩ := rows_of_updateWhere h userId
      (f := edited dto existing now) fun _ => ⟨rfl, rfl, rfl, rfl⟩
    exact ⟨hunique, hkeeps, Or.inl ⟨rfl, hstay⟩⟩
  | setBanned userId isBanned =>
    obtain ⟨hunique, hkeeps, hstay⟩ := rows_of_updateWhere h userId
      (f := fun row => { row with isBanned := isBanned }) fun _ => ⟨rfl, rfl, rfl, rfl⟩
    exact ⟨hunique, hkeeps, Or.inl ⟨rfl, hstay⟩⟩
  | remove userId =>
    refine ⟨h.filter _, ?keeps, Or.inr ⟨userId, rfl, ?stay⟩⟩
    case keeps =>
      intro row hrow after hafter hid
      exact keepsProviderIds_refl h row hrow after (List.mem_of_mem_filter hafter) hid
    case stay =>
      exact fun row hrow hne => List.mem_filter.mpr ⟨hrow, bne_iff_ne.mpr hne⟩

/-- A step of a callback leaves the users, writes a provider id, or inserts a row with it. -/
theorem CallbackMoves.rows {callback : Callback} {step : CallbackStep} {m : StrategyState}
    {phase : CallbackPhase} (h : CallbackMoves config s callback step m phase) :
    (m.users = s.users ∧ m.log = s.log) ∨
    (∃ userId f user, writeTarget callback step = some userId ∧
      WritesIdentity callback.identity f ∧
      updateUser s.users userId f = .ok (m.users, some user) ∧
      (m.log = s.log ∨ m.log = s.log ++
        [.bound (callback.identity.provider, callback.identity.providerId) user.id])) ∨
    ∃ user, insertUser s.users user = .ok m.users ∧
      linkedId callback.identity.provider user = some callback.identity.providerId ∧
      m.log = s.log ++
        [.bound (callback.identity.provider, callback.identity.providerId) user.id] := by
  cases h with
  | @updated existing user users hphase hupdate =>
    refine Or.inr (Or.inl ⟨existing.id, _, user, ?_, writesIdentity_loggedIn _ existing, hupdate,
      Or.inr rfl⟩)
    simp only [writeTarget, hphase]
  | @linked linkUserId current user users hphase hupdate =>
    refine Or.inr (Or.inl ⟨linkUserId, _, user, ?_, writesIdentity_linked _ current, hupdate,
      Or.inl rfl⟩)
    simp only [writeTarget, hphase]
  | inserted hphase huser hinsert =>
    subst huser
    exact Or.inr (Or.inr ⟨_, hinsert, linkedId_withLinkedId, rfl⟩)
  | absent | found | vanished | refused | insertRefused | conflicting | notConflicting | unknown
  | current | linkRefused | failed => exact Or.inl ⟨rfl, rfl⟩

/-- Every step keeps the unique columns. -/
theorem step_unique (h : UniqueUsers s.users) (hstep : (strategies config).step s label = some t) :
    UniqueUsers t.users := by
  rcases strategies_step_cases hstep with ⟨ms, -, rfl⟩ | ⟨change, -, rfl⟩ |
    ⟨id, linkCookie, profile, -, -, rfl | ⟨identity, -, rfl⟩⟩ |
    ⟨id, step, callback, m, phase, -, -, hmoves, rfl⟩
  · exact h
  · exact (change.keeps config s.clock h).1
  · exact h
  · exact h
  · change UniqueUsers m.users
    rcases hmoves.rows with ⟨husers, -⟩ | ⟨userId, f, user, -, -, hupdate, -⟩ |
      ⟨user, hinsert, -, -⟩
    · rwa [husers]
    · exact h.updateUser hupdate
    · exact (rows_of_insertUser h hinsert).1

/-- A step whose write meets no other id keeps the provider ids. -/
theorem keepsIds_of_writesNoOtherId (h : UniqueUsers s.users) (hlabel : WritesNoOtherId s label) :
    KeepsIds config s label := by
  intro t hstep
  rcases strategies_step_cases hstep with ⟨ms, -, rfl⟩ | ⟨change, -, rfl⟩ |
    ⟨id, linkCookie, profile, -, -, rfl | ⟨identity, -, rfl⟩⟩ |
    ⟨id, step, callback, m, phase, rfl, hcallback, hmoves, rfl⟩
  · exact keepsProviderIds_refl h
  · exact (change.keeps config s.clock h).2.1
  · exact keepsProviderIds_refl h
  · exact keepsProviderIds_refl h
  · change KeepsProviderIds s.users m.users
    rcases hmoves.rows with ⟨husers, -⟩ | ⟨userId, f, user, htarget, hf, hupdate, -⟩ |
      ⟨user, hinsert, -, -⟩
    · rw [husers]
      exact keepsProviderIds_refl h
    · have hwrite : writeOf s (.callback id step) = some (callback.identity, userId) := by
        simp only [writeOf, hcallback, htarget, Option.bind_some, Option.map_some]
      exact (hlabel _ hwrite).keepsProviderIds h hf hupdate
    · exact (rows_of_insertUser h hinsert).2.1

/-- A step that keeps the provider ids meets no other id with its write. -/
theorem writesNoOtherId_of_keepsIds (h : UniqueUsers s.users) (hkeeps : KeepsIds config s label) :
    WritesNoOtherId s label := by
  intro write hwrite
  cases label with
  | tick | account | validate => cases hwrite
  | callback id step =>
    obtain ⟨callback, hcallback, hmap⟩ := Option.bind_eq_some_iff.mp hwrite
    obtain ⟨userId, htarget, rfl⟩ := Option.map_eq_some_iff.mp hmap
    have hstep : ∀ t, s.callbackStep config id callback step = some t →
        KeepsProviderIds s.users t.users := by
      intro t ht
      refine hkeeps t ?_
      simp only [strategies, hcallback, Option.bind_some, ht]
    cases step with
    | findUser | insertUser | findConflicting | findCurrent | fail => cases htarget
    | updateUser =>
      simp only [writeTarget] at htarget
      split at htarget
      · next existing hphase =>
        obtain rfl := Option.some.inj htarget
        refine noOtherId_of_keepsProviderIds h (writesIdentity_loggedIn _ existing) ?_
        intro later user hupdate
        simp only [StrategyState.callbackStep, hphase, hupdate, Option.some.injEq,
          forall_eq'] at hstep
        exact hstep
      · cases htarget
    | updateCurrent =>
      simp only [writeTarget] at htarget
      split at htarget
      · next linkUserId current hphase =>
        obtain rfl := Option.some.inj htarget
        refine noOtherId_of_keepsProviderIds h (writesIdentity_linked _ current) ?_
        intro later user hupdate
        simp only [StrategyState.callbackStep, hphase, hupdate, Option.some.injEq,
          forall_eq'] at hstep
        exact hstep
      · cases htarget

/-- What a step adds to the record: nothing, the removal of a user, or a sign-in as a row
that carries the provider id. -/
theorem log_cases (h : UniqueUsers s.users) (hstep : (strategies config).step s label = some t) :
    (t.log = s.log ∧ RowsStay s.users t.users) ∨
    (∃ userId, t.log = s.log ++ [.dropped userId] ∧
      ∀ row ∈ s.users, row.id ≠ userId → row ∈ t.users) ∨
    ∃ key user, t.log = s.log ++ [.bound key user.id] ∧ RowsStay s.users t.users ∧
      user ∈ t.users ∧ linkedId key.1 user = some key.2 := by
  have hstay : RowsStay s.users s.users := fun row hrow => ⟨row, hrow, rfl⟩
  rcases strategies_step_cases hstep with ⟨ms, -, rfl⟩ | ⟨change, -, rfl⟩ |
    ⟨id, linkCookie, profile, -, -, rfl | ⟨identity, -, rfl⟩⟩ |
    ⟨id, step, callback, m, phase, -, -, hmoves, rfl⟩
  · exact Or.inl ⟨rfl, hstay⟩
  · obtain ⟨-, -, ⟨hevent, hrows⟩ | ⟨userId, hevent, hrows⟩⟩ := change.keeps config s.clock h
    · exact Or.inl ⟨by rw [hevent, List.append_nil], hrows⟩
    · exact Or.inr (Or.inl ⟨userId, by rw [hevent], hrows⟩)
  · exact Or.inl ⟨rfl, hstay⟩
  · exact Or.inl ⟨rfl, hstay⟩
  · rcases hmoves.rows with ⟨husers, hlog⟩ | ⟨userId, f, user, -, hf, hupdate, hlog⟩ |
      ⟨user, hinsert, hlinked, hlog⟩
    · refine Or.inl ⟨hlog, ?_⟩
      change RowsStay s.users m.users
      rwa [husers]
    · obtain ⟨hrows, hmem, hlinked⟩ := hf.rows hupdate
      rcases hlog with hlog | hlog
      · exact Or.inl ⟨hlog, hrows⟩
      · exact Or.inr (Or.inr ⟨_, user, hlog, hrows, hmem, hlinked⟩)
    · obtain ⟨-, -, hrows, hmem⟩ := rows_of_insertUser h hinsert
      exact Or.inr (Or.inr ⟨_, user, hlog, hrows, hmem, hlinked⟩)

/-- Provider ids have signed in as one user each, who carries the id as long as it stands in
the record. -/
structure Standing (s : StrategyState) : Prop where
  unique : UniqueUsers s.users
  carried : ∀ key userId, Bound s.log key userId →
    ∃ user ∈ s.users, user.id = userId ∧ linkedId key.1 user = some key.2
  stable : StableBindings s.log

/-- A row that stays is found in the next table with its provider ids. -/
theorem carried_of_rowsStay {users later : List User} (hkeeps : KeepsProviderIds users later)
    {userId : String} {key : OAuthProvider × String}
    (hcarried : ∃ user ∈ users, user.id = userId ∧ linkedId key.1 user = some key.2)
    (hstay : ∀ user ∈ users, user.id = userId → ∃ after ∈ later, after.id = user.id) :
    ∃ user ∈ later, user.id = userId ∧ linkedId key.1 user = some key.2 := by
  obtain ⟨user, huser, hid, hlinked⟩ := hcarried
  obtain ⟨after, hafter, hafterId⟩ := hstay user huser hid
  exact ⟨after, hafter, hafterId.trans hid, hkeeps user huser after hafter hafterId _ _ hlinked⟩

/-- A step that keeps the provider ids keeps the record standing. -/
theorem Standing.step (h : Standing s) (hkeeps : KeepsIds config s label)
    (hstep : (strategies config).step s label = some t) : Standing t := by
  have hunique := step_unique h.unique hstep
  have hkept := hkeeps t hstep
  rcases log_cases h.unique hstep with ⟨hlog, hstay⟩ | ⟨userId, hlog, hstay⟩ |
    ⟨key, user, hlog, hstay, huser, hlinked⟩
  · refine ⟨hunique, fun key userId hbound => ?_, hlog ▸ h.stable⟩
    rw [hlog] at hbound
    exact carried_of_rowsStay hkept (h.carried key userId hbound) fun user huser _ =>
      hstay user huser
  · refine ⟨hunique, fun key other hbound => ?_, hlog ▸ h.stable.append_dropped⟩
    rw [hlog, bound_append_dropped] at hbound
    refine carried_of_rowsStay hkept (h.carried key other hbound.1) fun user huser hid => ?_
    exact ⟨user, hstay user huser (hid ▸ hbound.2), rfl⟩
  · have hformer : ∀ former, Bound s.log key former →
        ∃ other ∈ t.users, other.id = former ∧ linkedId key.1 other = some key.2 :=
      fun former hbound => carried_of_rowsStay hkept (h.carried key former hbound)
        fun other hother _ => hstay other hother
    refine ⟨hunique, fun other userId hbound => ?_,
      hlog ▸ h.stable.append_bound fun former hbound => ?_⟩
    · rw [hlog, bound_append_bound] at hbound
      rcases hbound with ⟨rfl, rfl⟩ | hbound
      · exact ⟨user, huser, rfl, hlinked⟩
      · exact carried_of_rowsStay hkept (h.carried other userId hbound) fun user huser _ =>
          hstay user huser
    · obtain ⟨other, hother, rfl, hotherLinked⟩ := hformer former hbound
      have heq := (uniqueOn_linkedId hunique key.1).eq_of_mem huser hother hlinked hotherLinked
      exact congrArg User.id heq

/-- A run keeps the provider ids exactly when its writes meet no other id. -/
theorem meets_keepsIds_iff (config : StrategyConfig) (h : UniqueUsers s.users)
    (labels : List StrategyLabel) : (strategies config).Meets WritesNoOtherId s labels ↔
      (strategies config).Meets (KeepsIds config) s labels :=
  (strategies config).meets_iff_of_invariant (P := fun s => UniqueUsers s.users)
    (fun _ _ _ hunique _ hstep => step_unique hunique hstep)
    (fun _ _ hunique =>
      ⟨keepsIds_of_writesNoOtherId hunique, writesNoOtherId_of_keepsIds hunique⟩) h labels

end Steps

/-- In every run, no provider id is replaced, and every later sign-in with one is as the same
user, exactly if every write meets no other id of its provider. -/
theorem providerIds_stable_iff (config : StrategyConfig) (clock : Nat) (users : List User)
    (hunique : UniqueUsers users) (labels : List StrategyLabel) (t : StrategyState)
    (hrun : (strategies config).exec (.initial clock users) labels = some t) :
    (strategies config).Meets WritesNoOtherId (.initial clock users) labels ↔
      (strategies config).Meets (KeepsIds config) (.initial clock users) labels ∧
        StableBindings t.log := by
  have hiff := meets_keepsIds_iff config (s := .initial clock users) hunique labels
  constructor
  · intro hlabels
    have hkeeps := hiff.mp hlabels
    have hinitial : Standing (.initial clock users) :=
      ⟨hunique, fun _ _ hbound => absurd hbound not_bound_nil, .nil⟩
    have hstanding := (strategies config).exec_invariant_of_meets hinitial
      (fun _ _ _ hm hlabel hstep => hm.step hlabel hstep) hkeeps hrun
    exact ⟨hkeeps, hstanding.stable⟩
  · exact fun h => hiff.mpr h.1

/-- A configuration that signs cookies by their bytes and stores passwords. -/
def bytesStrategies : StrategyConfig where
  signer := bytesConfig.signer
  argon2 := ⟨fun password => password, fun hash password => hash == password⟩
  adminEmail := none

/-- A Google profile with an address and nothing else. -/
def addressProfile (id email : String) : Profile :=
  .google ⟨id, none, none, some [email], none⟩

/-- The identity of such a profile. -/
def addressIdentity (id email : String) : ProviderIdentity :=
  ⟨.google, id, email, "Google User", none⟩

/-- A login, from the profile on. -/
def loginLabels (id : Nat) (profile : Profile) (steps : List CallbackStep) : List StrategyLabel :=
  .validate id none profile :: steps.map (StrategyLabel.callback id)

/-- Two logins with one Google id, between which the address of the account changes. -/
def changedAddress : List StrategyLabel :=
  let row := newProviderUser none (addressIdentity "g" "a@example.com") "u" "h" 0
  loginLabels 0 (addressProfile "g" "a@example.com") [.findUser none, .insertUser "u" "h"] ++
    loginLabels 1 (addressProfile "g" "b@example.com") [.findUser (some row), .updateUser]

/-- Where they leave the users. -/
def addressChanged : StrategyState :=
  (strategies bytesStrategies).run (.initial 0 []) changedAddress (by decide +kernel)

/-- The second login signs in as the user of the first one. -/
theorem providerIds_stable_iff_addressChanged :
    addressChanged.log = [.bound (.google, "g") "u", .bound (.google, "g") "u"] ∧
    StableBindings addressChanged.log :=
  ⟨by decide +kernel, ((providerIds_stable_iff bytesStrategies 0 [] .nil
    changedAddress addressChanged ((strategies bytesStrategies).exec_run ..)).mp
      (by decide +kernel)).2⟩

/-- A login with another Google id and the address of the first one, between two logins with
the first one, the second of them with a new address. -/
def recycledAddress : List StrategyLabel :=
  let row := newProviderUser none (addressIdentity "g" "a@example.com") "u" "h" 0
  loginLabels 0 (addressProfile "g" "a@example.com") [.findUser none, .insertUser "u" "h"] ++
    loginLabels 1 (addressProfile "other" "a@example.com") [.findUser (some row), .updateUser] ++
    loginLabels 2 (addressProfile "g" "b@example.com") [.findUser none, .insertUser "v" "h"]

/-- Where they leave the users. -/
def addressRecycled : StrategyState :=
  (strategies bytesStrategies).run (.initial 0 []) recycledAddress (by decide +kernel)

/-- The id of the first login is replaced, and its next login is as another user. -/
theorem not_stable_addressRecycled :
    (∃ user ∈ addressRecycled.users, user.id = "u" ∧ user.googleId = some "other") ∧
    ¬ StableBindings addressRecycled.log := by
  refine ⟨by decide +kernel, fun hstable => ?_⟩
  have hlog : addressRecycled.log =
      [.bound (.google, "g") "u", .bound (.google, "other") "u"] ++
        [.bound (.google, "g") "v"] := by
    decide +kernel
  have hbound : Bound [.bound (OAuthProvider.google, "g") "u", .bound (.google, "other") "u"]
      (.google, "g") "u" := ⟨[], _, rfl, by decide⟩
  have heq := hstable _ [] _ _ _ hlog hbound
  exact absurd heq (by decide)

end VertexApi.Auth
