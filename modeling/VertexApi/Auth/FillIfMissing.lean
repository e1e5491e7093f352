import VertexApi.Auth.ProviderIdentity

/-!
# What a login writes over a profile

A login fills the name and the avatar of the row that it found, and a link the avatar, where
the row that was read shows none. The write goes over whatever the row holds by then, so it
loses an edit that came between the read and the write, unless it stores the same value.
-/

namespace VertexApi.Auth

open Users

/-- The name and the avatar that a row shows are those of the row after it. -/
structure KeepsShown (row after : User) : Prop where
  name : ∀ name, row.name = some name → after.name = some name
  avatarUrl : ∀ url, row.avatarUrl = some url → after.avatarUrl = some url

/-- A user stays, with the name and the avatar that the row shows. -/
def KeepsProfile (userId : String) (users later : List User) : Prop :=
  ∀ row ∈ users, row.id = userId → ∃ after ∈ later, after.id = userId ∧ KeepsShown row after

/-- The update of a callback. -/
structure FillWrite where
  identity : ProviderIdentity
  /-- The row that is written. -/
  userId : String
  /-- The row that was read. -/
  read : User
  /-- A link leaves the name. -/
  writesName : Bool
  deriving DecidableEq, Repr

/-- The update that a step makes. -/
def fillWriteOf (s : StrategyState) : StrategyLabel → Option FillWrite
  | .callback id .updateUser => (s.callbacks id).bind fun callback =>
      match callback.phase with
      | .updateUser existing => some ⟨callback.identity, existing.id, existing, true⟩
      | _ => none
  | .callback id .updateCurrent => (s.callbacks id).bind fun callback =>
      match callback.phase with
      | .updateCurrent linkUserId current => some ⟨callback.identity, linkUserId, current, false⟩
      | _ => none
  | _ => none

/-- A stored value is absent, or was read, or was absent when it was read and is offered. -/
def NotStale (read offered stored : Option String) : Prop :=
  stored = none ∨ read = stored ∨ read = none ∧ offered = stored

namespace FillWrite

/-- What the update makes of the row. -/
def apply (write : FillWrite) : User → User :=
  if write.writesName then loggedIn write.identity write.read
  else linked write.identity write.read

/-- No other row carries the provider id, so the update is not refused. -/
def IdFree (write : FillWrite) (users : List User) : Prop :=
  ∀ other ∈ users, other.id ≠ write.userId →
    linkedId write.identity.provider other ≠ some write.identity.providerId

/-- What was read of the row stands, as far as the update writes. -/
def Current (write : FillWrite) (row : User) : Prop :=
  (write.writesName = true → NotStale write.read.name (some write.identity.name) row.name) ∧
    NotStale write.read.avatarUrl write.identity.avatarUrl row.avatarUrl

end FillWrite

/-- An update that is not refused meets the row as it was read. -/
def WritesCurrent (s : StrategyState) (label : StrategyLabel) : Prop :=
  ∀ write ∈ fillWriteOf s label, write.IdFree s.users →
    ∀ row ∈ s.users, row.id = write.userId → write.Current row

/-- A step of a callback writes names and avatars only where there are none. -/
def FillsOnlyNull (config : StrategyConfig) (s : StrategyState) : StrategyLabel → Prop
  | .callback id step => ∀ t, (strategies config).step s (.callback id step) = some t →
      ∀ userId, KeepsProfile userId s.users t.users
  | _ => True

/-- The label edits or removes the user. -/
def Rewrites (userId : String) : StrategyLabel → Prop
  | .account (.updateSelf other _ _) => other = userId
  | .account (.remove other) => other = userId
  | _ => False

/-- What an edit has stored stays until the user is edited again or removed. -/
def EditsStay (config : StrategyConfig) (s : StrategyState) (labels : List StrategyLabel) : Prop :=
  ∀ before userId dto existing after rest m t,
    labels = before ++ .account (.updateSelf userId dto existing) :: (after ++ rest) →
    (strategies config).exec s (before ++ [.account (.updateSelf userId dto existing)]) = some m →
    (∀ label ∈ after, ¬ Rewrites userId label) → (strategies config).exec m after = some t →
    KeepsProfile userId m.users t.users

instance decidableNotStale (read offered stored : Option String) :
    Decidable (NotStale read offered stored) :=
  inferInstanceAs (Decidable (_ ∨ _ ∨ _))

instance decidableIdFree (write : FillWrite) (users : List User) :
    Decidable (write.IdFree users) :=
  inferInstanceAs (Decidable (∀ other ∈ users, other.id ≠ write.userId → _ ≠ _))

instance decidableCurrent (write : FillWrite) (row : User) : Decidable (write.Current row) :=
  inferInstanceAs (Decidable (_ ∧ _))

instance decidableWritesCurrent (s : StrategyState) (label : StrategyLabel) :
    Decidable (WritesCurrent s label) :=
  inferInstanceAs (Decidable (∀ write ∈ fillWriteOf s label, write.IdFree s.users →
    ∀ row ∈ s.users, row.id = write.userId → write.Current row))

section Writes

variable {config : StrategyConfig} {s t : StrategyState} {write : FillWrite} {row : User}
  {users later : List User} {userId : String}

/-- A value is stored again exactly when what was read of it stands. -/
theorem notStale_iff {read offered stored : Option String} : NotStale read offered stored ↔
    ∀ value, stored = some value → read.or offered = some value := by
  cases stored with
  | none => simp only [NotStale, true_or, reduceCtorEq, false_implies, implies_true]
  | some value =>
    cases read with
    | none => simp only [NotStale, reduceCtorEq, true_and, false_or, Option.some.injEq,
        Option.none_or, forall_eq']
    | some other => simp only [NotStale, reduceCtorEq, false_and, or_false, false_or,
        Option.some.injEq, Option.some_or, forall_eq']

/-- An update writes a provider id, and nothing else that is unique. -/
theorem FillWrite.writesIdentity (write : FillWrite) :
    WritesIdentity write.identity write.apply := by
  simp only [FillWrite.apply]
  split
  · exact writesIdentity_loggedIn ..
  · exact writesIdentity_linked ..

/-- An update keeps what the row shows exactly when what was read of it stands. -/
theorem FillWrite.keepsShown_iff : KeepsShown row (write.apply row) ↔ write.Current row := by
  have hname (user : User) (identity : ProviderIdentity) :
      (withLinkedId identity.provider identity.providerId user).name = user.name := by
    cases identity.provider <;> rfl
  obtain ⟨identity, userId, read, writesName⟩ := write
  simp only [FillWrite.Current, notStale_iff]
  cases writesName with
  | true =>
    simp only [true_implies]
    exact ⟨fun h => ⟨h.name, h.avatarUrl⟩, fun h => ⟨h.1, h.2⟩⟩
  | false =>
    simp only [Bool.false_eq_true, false_implies, true_and]
    refine ⟨fun h => h.avatarUrl, fun h => ⟨fun name hrow => ?_, h⟩⟩
    exact (hname row identity).trans hrow

/-- A row keeps what it shows. -/
theorem keepsShown_refl (row : User) : KeepsShown row row := ⟨fun _ => id, fun _ => id⟩

/-- A user keeps what the row shows when nothing is written. -/
theorem keepsProfile_of_subset (h : ∀ row ∈ users, row.id = userId → row ∈ later) :
    KeepsProfile userId users later := fun row hrow hid =>
  ⟨row, h row hrow hid, hid, keepsShown_refl row⟩

/-- What is kept twice is kept. -/
theorem KeepsProfile.trans {last : List User} (h : KeepsProfile userId users later)
    (hlast : KeepsProfile userId later last) : KeepsProfile userId users last := by
  intro row hrow hid
  obtain ⟨after, hafter, hafterId, hkeeps⟩ := h row hrow hid
  obtain ⟨final, hfinal, hfinalId, hkeepsFinal⟩ := hlast after hafter hafterId
  exact ⟨final, hfinal, hfinalId, fun name hname => hkeepsFinal.name name (hkeeps.name name hname),
    fun url hurl => hkeepsFinal.avatarUrl url (hkeeps.avatarUrl url hurl)⟩

/-- A write to one row keeps what all rows show when it keeps what that row shows. -/
theorem keepsProfile_updateWhere {id : String} {f : User → User} (hid : ∀ row, (f row).id = row.id)
    (hf : ∀ row ∈ users, row.id = id → KeepsShown row (f row)) (userId : String) :
    KeepsProfile userId users (updateWhere User.id id f users) := by
  intro row hrow hrowId
  by_cases hwritten : row.id = id
  · exact ⟨f row, mem_updateWhere.mpr (Or.inl ⟨row, hrow, hwritten, rfl⟩),
      (hid row).trans hrowId, hf row hrow hwritten⟩
  · exact ⟨row, mem_updateWhere.mpr (Or.inr ⟨hrow, hwritten⟩), hrowId, keepsShown_refl row⟩

/-- A write that is not refused goes through. -/
theorem FillWrite.updateUser_eq_ok (h : UniqueUsers users) (hfree : write.IdFree users)
    (hrow : row ∈ users) (hid : row.id = write.userId) :
    updateUser users write.userId write.apply =
      .ok (updateWhere User.id write.userId write.apply users, some (write.apply row)) := by
  have hfind : findUserById users write.userId = some row := hid ▸ h.findUserById hrow
  have hnew := violatedColumn_eq_none_of_new h write.writesIdentity hrow (hid.symm ▸ hfree)
  exact updateUser_eq_ok_some.mpr ⟨row, hfind, hid ▸ hnew, rfl, rfl⟩

/-- A write that goes through was not refused. -/
theorem FillWrite.idFree {user : User}
    (hupdate : updateUser users write.userId write.apply = .ok (later, some user)) :
    write.IdFree users := by
  obtain ⟨old, -, hfree, -, -⟩ := updateUser_eq_ok_some.mp hupdate
  intro other hother hne
  have hmem : other ∈ users.filter fun other => other.id != write.userId :=
    List.mem_filter.mpr ⟨hother, bne_iff_ne.mpr hne⟩
  have hothers := violatedColumn_userColumns_eq_none.mp hfree other hmem
  exact hothers.2.2 _ _ (write.writesIdentity.carries old)

/-- A step of a callback leaves the users, makes its update, or inserts a row. -/
theorem users_of_callback {id : Nat} {step : CallbackStep}
    (hstep : (strategies config).step s (.callback id step) = some t) : t.users = s.users ∨
      (∃ write user, fillWriteOf s (.callback id step) = some write ∧
        updateUser s.users write.userId write.apply = .ok (t.users, some user)) ∨
      ∃ user, insertUser s.users user = .ok t.users := by
  obtain ⟨callback, hcallback, hmoved⟩ := Option.bind_eq_some_iff.mp hstep
  obtain ⟨m, phase, hmoves, rfl⟩ := moves_of_callbackStep hmoved
  cases hmoves with
  | @updated existing user users hphase hupdate =>
    refine Or.inr (Or.inl ⟨⟨callback.identity, existing.id, existing, true⟩, user, ?_, hupdate⟩)
    simp only [fillWriteOf, hcallback, Option.bind_some, hphase]
  | @linked linkUserId current user users hphase hupdate =>
    refine Or.inr (Or.inl ⟨⟨callback.identity, linkUserId, current, false⟩, user, ?_, hupdate⟩)
    simp only [fillWriteOf, hcallback, Option.bind_some, hphase]
  | inserted hphase huser hinsert => exact Or.inr (Or.inr ⟨_, hinsert⟩)
  | absent | found | vanished | refused | insertRefused | conflicting | notConflicting | unknown
  | current | linkRefused | failed => exact Or.inl rfl

/-- An update that goes through is a step. -/
theorem step_of_fillWriteOf (config : StrategyConfig) {label : StrategyLabel} {user : User}
    (hwrite : fillWriteOf s label = some write)
    (hupdate : updateUser s.users write.userId write.apply = .ok (users, some user)) :
    (∃ id step, label = .callback id step) ∧
      ∃ t, (strategies config).step s label = some t ∧ t.users = users := by
  cases label with
  | tick | account | validate => cases hwrite
  | callback id step =>
    refine ⟨⟨id, step, rfl⟩, ?_⟩
    cases step with
    | findUser | insertUser | findConflicting | findCurrent | fail => cases hwrite
    | updateUser =>
      obtain ⟨callback, hcallback, hmatch⟩ := Option.bind_eq_some_iff.mp hwrite
      split at hmatch
      · next existing hphase =>
        obtain rfl := Option.some.inj hmatch
        have hupdate : updateUser s.users existing.id (loggedIn callback.identity existing) =
          .ok (users, some user) := hupdate
        simp only [strategies, hcallback, Option.bind_some, StrategyState.callbackStep, hphase,
          hupdate]
        exact ⟨_, rfl, rfl⟩
      · cases hmatch
    | updateCurrent =>
      obtain ⟨callback, hcallback, hmatch⟩ := Option.bind_eq_some_iff.mp hwrite
      split at hmatch
      · next linkUserId current hphase =>
        obtain rfl := Option.some.inj hmatch
        have hupdate : updateUser s.users linkUserId (linked callback.identity current) =
          .ok (users, some user) := hupdate
        simp only [strategies, hcallback, Option.bind_some, StrategyState.callbackStep, hphase,
          hupdate]
        exact ⟨_, rfl, rfl⟩
      · cases hmatch

end Writes

section Steps

variable {config : StrategyConfig} {s t : StrategyState} {label : StrategyLabel} {userId : String}

/-- A step whose update meets the row as it was read fills only what is absent. -/
theorem fillsOnlyNull_of_writesCurrent (h : WritesCurrent s label) :
    FillsOnlyNull config s label := by
  cases label with
  | tick | account | validate => trivial
  | callback id step =>
    intro t hstep userId
    rcases users_of_callback hstep with husers | ⟨write, user, hwrite, hupdate⟩ | ⟨user, hinsert⟩
    · exact keepsProfile_of_subset fun row hrow _ => husers ▸ hrow
    · have hfree := write.idFree hupdate
      obtain ⟨-, -, -, hlater, -⟩ := updateUser_eq_ok_some.mp hupdate
      rw [hlater]
      refine keepsProfile_updateWhere write.writesIdentity.id_eq (fun row hrow hid => ?_) userId
      exact write.keepsShown_iff.mpr (h write hwrite hfree row hrow hid)
    · obtain ⟨-, hlater⟩ := insertUser_eq_ok.mp hinsert
      exact keepsProfile_of_subset fun row hrow _ => hlater ▸ List.mem_append_left _ hrow

/-- A step that fills only what is absent meets the row as it was read. -/
theorem writesCurrent_of_fillsOnlyNull (hunique : UniqueUsers s.users)
    (h : FillsOnlyNull config s label) : WritesCurrent s label := by
  intro write hwrite hfree row hrow hid
  have hupdate := write.updateUser_eq_ok hunique hfree hrow hid
  obtain ⟨⟨id, step, rfl⟩, t, hstep, husers⟩ :=
    step_of_fillWriteOf config hwrite hupdate
  obtain ⟨after, hafter, hafterId, hkeeps⟩ := h t hstep write.userId row hrow hid
  have hwritten : write.apply row ∈ t.users :=
    husers ▸ mem_updateWhere.mpr (Or.inl ⟨row, hrow, hid, rfl⟩)
  have hlater : UniqueUsers t.users := husers ▸ hunique.updateUser hupdate
  have hsame : after.id = (write.apply row).id := by
    rw [hafterId, write.writesIdentity.id_eq, hid]
  obtain rfl := hlater.eq_of_id hafter hwritten hsame
  exact write.keepsShown_iff.mp hkeeps

/-- Another operation keeps the name and the avatar of a user whom it does not edit or remove. -/
theorem AccountChange.keepsProfile (change : AccountChange) (config : StrategyConfig) (now : Nat)
    (users : List User) (h : ¬ Rewrites userId (.account change)) :
    KeepsProfile userId users (change.apply config now users) := by
  have hinsert (row : User) : KeepsProfile userId users (afterInsert users row) := by
    refine keepsProfile_of_subset fun old hold _ => ?_
    simp only [afterInsert]
    split
    · exact hold
    · next inserted hinserted =>
      rw [(insertUser_eq_ok.mp hinserted).2]
      exact List.mem_append_left _ hold
  cases change with
  | register registerDto newId => exact hinsert _
  | verifyCode email newId passwordHash => exact hinsert _
  | updateSelf other dto existing =>
    refine keepsProfile_of_subset fun row hrow hid => mem_updateWhere.mpr (Or.inr ⟨hrow, ?_⟩)
    exact fun hother => h (hother.symm.trans hid)
  | setBanned other isBanned =>
    exact keepsProfile_updateWhere (f := fun row => { row with isBanned := isBanned })
      (fun _ => rfl) (fun _ _ _ => ⟨fun _ => id, fun _ => id⟩) userId
  | remove other =>
    refine keepsProfile_of_subset fun row hrow hid => List.mem_filter.mpr ⟨hrow, ?_⟩
    exact bne_iff_ne.mpr fun hother => h (hother.symm.trans hid)

/-- A step that fills only what is absent, and is no edit or removal of the user, keeps what the
user's row shows. -/
theorem keepsProfile_step (h : FillsOnlyNull config s label) (hother : ¬ Rewrites userId label)
    (hstep : (strategies config).step s label = some t) :
    KeepsProfile userId s.users t.users := by
  have hrefl : KeepsProfile userId s.users s.users := keepsProfile_of_subset fun _ hrow _ => hrow
  rcases strategies_step_cases hstep with ⟨ms, -, rfl⟩ | ⟨change, rfl, rfl⟩ |
    ⟨id, linkCookie, profile, -, -, rfl | ⟨identity, -, rfl⟩⟩ |
    ⟨id, step, callback, m, phase, rfl, -, -, -⟩
  · exact hrefl
  · exact change.keepsProfile config s.clock s.users hother
  · exact hrefl
  · exact hrefl
  · exact h t hstep userId

/-- In a run whose callbacks fill only what is absent, edits stay. -/
theorem editsStay_of_fillsOnlyNull {labels : List StrategyLabel}
    (h : (strategies config).Meets (FillsOnlyNull config) s labels) :
    EditsStay config s labels := by
  intro before userId dto existing after rest m t hlabels hm hothers ht
  rw [hlabels, ← List.singleton_append, ← List.append_assoc, ← List.append_assoc] at h
  have hafter := h.of_append.after hm
  have hboth := hafter.and (D := fun _ label => ¬ Rewrites userId label)
    ((strategies config).meets_of_forall hothers)
  refine (strategies config).exec_invariant_of_meets
    (P := fun last => KeepsProfile userId m.users last.users)
    (keepsProfile_of_subset fun _ hrow _ => hrow) ?_ hboth ht
  exact fun _ _ _ hkept hlabel hstep => hkept.trans (keepsProfile_step hlabel.1 hlabel.2 hstep)

end Steps

/-- In every run, the callbacks write names and avatars only where there are none, and what an
edit has stored stays until the next one, exactly if every update of a callback meets the row
as it was read. -/
theorem fillsOnlyNull_iff (config : StrategyConfig) (clock : Nat) (users : List User)
    (hunique : UniqueUsers users) (labels : List StrategyLabel) :
    (strategies config).Meets WritesCurrent (.initial clock users) labels ↔
      (strategies config).Meets (FillsOnlyNull config) (.initial clock users) labels ∧
        EditsStay config (.initial clock users) labels := by
  have hiff := (strategies config).meets_iff_of_invariant (C := WritesCurrent)
    (D := FillsOnlyNull config) (P := fun s => UniqueUsers s.users)
    (fun _ _ _ hm _ hstep => step_unique hm hstep)
    (fun _ _ hm => ⟨fillsOnlyNull_of_writesCurrent, writesCurrent_of_fillsOnlyNull hm⟩)
    (s := .initial clock users) hunique labels
  constructor
  · intro h
    have hfills := hiff.mp h
    exact ⟨hfills, editsStay_of_fillsOnlyNull hfills⟩
  · exact fun h => hiff.mpr h.1

/-- A user without a name. -/
def nameless : User := registeredUser bytesStrategies.argon2 ⟨"a@example.com", "password"⟩ "u" 0

/-- The start of a login that finds the user without a name. -/
def findNameless : List StrategyLabel :=
  loginLabels 0 (addressProfile "g" "a@example.com") [.findUser (some nameless)]

/-- The edit that gives a name. -/
def giveName : StrategyLabel := .account (.updateSelf "u" ⟨some "Ada", none, none⟩ nameless)

/-- The users after an edit that came between the read and the write of a login. -/
def nameGiven : StrategyState :=
  (strategies bytesStrategies).run (.initial 0 [nameless]) (findNameless ++ [giveName])
    (by decide +kernel)

/-- The users after that login. -/
def nameLost : StrategyState :=
  (strategies bytesStrategies).run nameGiven [.callback 0 .updateUser] (by decide +kernel)

/-- A login before the edit and a login after it leave the name that the edit gave. -/
theorem fillsOnlyNull_iff_giveName :
    EditsStay bytesStrategies (.initial 0 [nameless])
      (findNameless ++ [.callback 0 .updateUser, giveName,
        .validate 1 none (addressProfile "g" "a@example.com"), .callback 1 (.findUser
          (some { nameless with name := some "Ada", googleId := some "g" })),
        .callback 1 .updateUser]) :=
  ((fillsOnlyNull_iff bytesStrategies 0 [nameless] (UniqueColumns.singleton _) _).mp
    (by decide +kernel)).2

/-- A login that read before an edit writes the name of its profile over the one that the edit
gave. -/
theorem not_editsStay_nameLost :
    nameGiven.users.map User.name = [some "Ada"] ∧
    nameLost.users.map User.name = [some "Google User"] ∧
    ¬ EditsStay bytesStrategies (.initial 0 [nameless])
      (findNameless ++ [giveName, .callback 0 .updateUser]) := by
  have hlost : ∀ row ∈ nameLost.users, row.name ≠ some "Ada" := by decide +kernel
  refine ⟨by decide +kernel, by decide +kernel, fun hstay => ?_⟩
  have hgiven : ∃ row ∈ nameGiven.users, row.id = "u" ∧ row.name = some "Ada" := by decide +kernel
  obtain ⟨row, hrow, hid, hname⟩ := hgiven
  have hothers : ∀ label ∈ [StrategyLabel.callback 0 .updateUser], ¬ Rewrites "u" label := by
    intro label hlabel hrewrites
    rw [List.mem_singleton.mp hlabel] at hrewrites
    exact hrewrites
  obtain ⟨after, hafter, -, hkeeps⟩ := hstay findNameless "u" ⟨some "Ada", none, none⟩ nameless
    [.callback 0 .updateUser] [] nameGiven nameLost rfl
    ((strategies bytesStrategies).exec_run ..) hothers ((strategies bytesStrategies).exec_run ..)
    row hrow hid
  exact hlost after hafter (hkeeps.name "Ada" hname)

end VertexApi.Auth
