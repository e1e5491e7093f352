import VertexApi.Auth.ProviderIdentity
import VertexApi.Auth.SignUps

/-!
# First sign-ins of one address

Any number of sign-ups for an address that no row has may overlap. The unique address keeps
the second row out, but only a lookup that comes after the first insert leads to an answer
that the path means: a sign-up that has looked before it, and inserts after it, ends in the
error of the query builder, which no path recognises. So every call has an intended outcome
exactly when every insert finds the address free.
-/

namespace VertexApi.Auth

/-- The address has exactly one row. -/
def OnlyRow (users : List User) (email : String) (row : User) : Prop :=
  (users.filter fun user => user.email == email) = [row]

/-- The registration created the row, or was refused for it. -/
def RegisterAnswer.Intended (row : User) : RegisterAnswer → Prop
  | .created userId email => userId = row.id ∧ email = row.email
  | .refused failure => failure = emailInUse
  | .crashed => False

/-- The right code signed in to the row; the path declares no conflict. -/
def VerifyAnswer.Intended (row : User) : VerifyAnswer → Prop
  | .token claims => claims.sub = row.id ∧ claims.email = row.email
  | .refused _ => False
  | .violated => False

/-- The callback signed in to the row, or rejected with its conflict. -/
def CallbackAnswer.Intended (row : User) : CallbackAnswer → Prop
  | .signedIn claims => claims.sub = row.id ∧ claims.email = row.email
  | .rejected failure => failure = githubEmailConflict
  | .crashed => False

/-- Once a sign-up has ended, the address has exactly one row, and the outcome is intended. -/
structure Intended (email : String) (s : SignUpState) : Prop where
  registrations : ∀ id registerDto answer, s.registrations id = some ⟨registerDto, .done answer⟩ →
    ∃ row, OnlyRow s.users email row ∧ answer.Intended row
  codeSignIns : ∀ id address answer, s.codeSignIns id = some ⟨address, .done answer⟩ →
    ∃ row, OnlyRow s.users email row ∧ answer.Intended row
  callbacks : ∀ id identity answer, s.callbacks id = some ⟨identity, .done answer⟩ →
    ∃ row, OnlyRow s.users email row ∧ answer.Intended row

/-- The identity has the address, and a provider id that no row carries. -/
def NewIdentity (users : List User) (email : String) (identity : ProviderIdentity) : Prop :=
  identity.email = email ∧
    ∀ row ∈ users, linkedId identity.provider row ≠ some identity.providerId

/-- The step belongs to a first sign-in of the address; no statement fails by itself. -/
def ForAddress (config : StrategyConfig) (users : List User) (email : String) :
    SignUpLabel → Prop
  | .strategy (.tick _) => True
  | .strategy (.account _) => False
  | .strategy (.validate _ linkCookie profile) =>
    getVerifiedLinkUserId config.signer linkCookie = none ∧
      match identityOf profile with
      | .ok identity => NewIdentity users email identity
      | .error _ => True
  | .strategy (.callback _ step) => step ≠ .fail
  | .register _ (.start registerDto) => registerDto.email = email
  | .verifyCode _ (.start address) => address = email
  | .register _ _ => True
  | .verifyCode _ _ => True

/-- An insert finds the address free. -/
def AddressFree (config : StrategyConfig) (email : String) (s : SignUpState)
    (label : SignUpLabel) : Prop :=
  (drawnUserId label).isSome = true → ((signUps config).step s label).isSome = true →
    ∀ row ∈ s.users, row.email ≠ email

instance decidableNewIdentity (users : List User) (email : String) (identity : ProviderIdentity) :
    Decidable (NewIdentity users email identity) :=
  inferInstanceAs (Decidable (_ ∧ ∀ row ∈ users, _ ≠ _))

instance decidableForAddress (config : StrategyConfig) (users : List User) (email : String) :
    (label : SignUpLabel) → Decidable (ForAddress config users email label)
  | .strategy (.tick _) => isTrue trivial
  | .strategy (.account _) => isFalse id
  | .strategy (.validate _ _ profile) =>
    have : Decidable (match identityOf profile with
        | .ok identity => NewIdentity users email identity
        | .error _ => True) :=
      match identityOf profile with
      | .ok _ => decidableNewIdentity ..
      | .error _ => isTrue trivial
    inferInstanceAs (Decidable (_ ∧ _))
  | .strategy (.callback _ _) => inferInstanceAs (Decidable (_ ≠ _))
  | .register _ (.start _) | .verifyCode _ (.start _) => inferInstanceAs (Decidable (_ = _))
  | .register _ .find | .register _ (.insert _) | .verifyCode _ .findUser
  | .verifyCode _ (.insertUser _ _) => isTrue trivial

instance decidableAddressFree (config : StrategyConfig) (email : String) (s : SignUpState)
    (label : SignUpLabel) : Decidable (AddressFree config email s label) :=
  inferInstanceAs (Decidable (_ → _ → _))

/-- A row of a first sign-in. -/
structure NewUser (users : List User) (email : String) (user : User) : Prop where
  email_eq : user.email = email
  notBanned : user.isBanned = false
  linkedId_ne : ∀ provider providerId, linkedId provider user = some providerId →
    ∀ row ∈ users, linkedId provider row ≠ some providerId

/-- Where a login stands that nothing but the address relates to the table. -/
def CallbackPhase.LogsIn (users : List User) (email : String) : CallbackPhase → Prop
  | .findUser => True
  | .updateUser existing => ∃ row ∈ users, row.id = existing.id ∧ row.email = email
  | .insertUser => True
  | .done _ => True
  | _ => False

/-- The table holds the rows it started with and at most one row of the address, and every call
is a first sign-in of the address. -/
structure FirstSignIns (users : List User) (email : String) (s : SignUpState) : Prop where
  unique : UniqueUsers s.users
  others : ∀ row ∈ s.users, row.email ≠ email → row ∈ users
  notBanned : ∀ row ∈ s.users, row.email = email → row.isBanned = false
  registrations : ∀ id registration, s.registrations id = some registration →
    registration.registerDto.email = email
  codeSignIns : ∀ id codeSignIn, s.codeSignIns id = some codeSignIn → codeSignIn.email = email
  callbacks : ∀ id callback, s.callbacks id = some callback →
    NewIdentity users email callback.identity ∧ callback.phase.LogsIn s.users email

/-- The rows of an address stay, and the other rows are left alone. -/
structure Grows (email : String) (users later : List User) : Prop where
  unique : UniqueUsers later
  others : ∀ row ∈ later, row.email ≠ email → row ∈ users
  notBanned : (∀ row ∈ users, row.email = email → row.isBanned = false) →
    ∀ row ∈ later, row.email = email → row.isBanned = false
  rows : ∀ row ∈ users, row.email = email → ∃ after ∈ later, after.id = row.id ∧
    after.email = email

section Rows

variable {users later : List User} {email : String} {row user : User}

/-- A row of the address is its only one. -/
theorem onlyRow_of_mem (h : UniqueUsers users) (hrow : row ∈ users) (hemail : row.email = email) :
    OnlyRow users email row := by
  have hmem : row ∈ users.filter fun user => user.email == email :=
    List.mem_filter.mpr ⟨hrow, beq_iff_eq.mpr hemail⟩
  have hunique := h.email.filter fun user => user.email == email
  have hall : ∀ other ∈ users.filter (fun user => user.email == email), other.email = email :=
    fun other hother => beq_iff_eq.mp (List.mem_filter.mp hother).2
  unfold OnlyRow
  cases hfilter : users.filter fun user => user.email == email with
  | nil =>
    rw [hfilter] at hmem
    cases hmem
  | cons first rest =>
    rw [hfilter] at hmem hunique hall
    have hrest : rest = [] := by
      cases rest with
      | nil => rfl
      | cons second rest =>
        obtain ⟨hfirst, -⟩ := List.pairwise_cons.mp hunique
        have hsecond := hfirst second List.mem_cons_self first.email rfl
        refine absurd (congrArg some ?_) hsecond
        rw [hall first List.mem_cons_self,
          hall second (List.mem_cons_of_mem _ List.mem_cons_self)]
    subst hrest
    rw [List.mem_singleton.mp hmem]

/-- The only row of an address is one of its rows. -/
theorem OnlyRow.mem (h : OnlyRow users email row) : row ∈ users ∧ row.email = email := by
  have hmem : row ∈ users.filter fun user => user.email == email := by
    rw [h]
    exact List.mem_singleton_self row
  exact ⟨(List.mem_filter.mp hmem).1, beq_iff_eq.mp (List.mem_filter.mp hmem).2⟩

/-- A table grows to itself. -/
theorem Grows.refl (email : String) (h : UniqueUsers users) : Grows email users users :=
  ⟨h, fun _ hrow _ => hrow, fun hbanned => hbanned, fun row hrow he => ⟨row, hrow, rfl, he⟩⟩

/-- A table grows by a row of the address. -/
theorem Grows.insert (h : UniqueUsers users) (hemail : user.email = email)
    (hbanned : user.isBanned = false) (hinsert : insertUser users user = .ok later) :
    Grows email users later := by
  obtain ⟨hfree, rfl⟩ := insertUser_eq_ok.mp hinsert
  refine ⟨h.append hfree, ?others, ?notBanned, ?rows⟩
  case others =>
    intro row hrow hne
    rcases List.mem_append.mp hrow with hrow | hrow
    · exact hrow
    · exact absurd (List.mem_singleton.mp hrow ▸ hemail) hne
  case notBanned =>
    intro hold row hrow he
    rcases List.mem_append.mp hrow with hrow | hrow
    · exact hold row hrow he
    · exact List.mem_singleton.mp hrow ▸ hbanned
  case rows => exact fun row hrow he => ⟨row, List.mem_append_left _ hrow, rfl, he⟩

/-- A login that updates a row of the address grows the table. -/
theorem Grows.update (h : UniqueUsers users) {identity : ProviderIdentity} {existing : User}
    (hrow : row ∈ users) (hid : row.id = existing.id) (hemail : row.email = email)
    (hupdate : updateUser users existing.id (loggedIn identity existing) = .ok (later, some user)) :
    Grows email users later := by
  have hunique := h.updateUser hupdate
  obtain ⟨old, hold, -, rfl, -⟩ := updateUser_eq_ok_some.mp hupdate
  have hself : ∀ former ∈ users, former.id = existing.id → former = row := fun former hformer he =>
    h.eq_of_id hformer hrow (he.trans hid.symm)
  refine ⟨hunique, ?others, ?notBanned, ?rows⟩
  case others =>
    intro after hafter hne
    rcases mem_updateWhere.mp hafter with ⟨former, hformer, he, rfl⟩ | ⟨hafter, -⟩
    · refine absurd ?_ hne
      rw [(writesIdentity_loggedIn identity existing).email_eq, hself former hformer he, hemail]
    · exact hafter
  case notBanned =>
    intro hbanned after hafter he
    rcases mem_updateWhere.mp hafter with ⟨former, hformer, hformerId, rfl⟩ | ⟨hafter, -⟩
    · rw [hself former hformer hformerId]
      have hnot := hbanned row hrow hemail
      cases hprovider : identity.provider <;>
        simpa only [loggedIn, withLinkedId, hprovider] using hnot
    · exact hbanned after hafter he
  case rows =>
    intro former hformer he
    by_cases hformerId : former.id = existing.id
    · refine ⟨_, mem_updateWhere.mpr (Or.inl ⟨former, hformer, hformerId, rfl⟩), ?_, ?_⟩
      · exact (writesIdentity_loggedIn identity existing).id_eq former
      · exact ((writesIdentity_loggedIn identity existing).email_eq former).trans he
    · exact ⟨former, mem_updateWhere.mpr (Or.inr ⟨hformer, hformerId⟩), rfl, he⟩

/-- The only row of an address stays its only row, under its id. -/
theorem Grows.onlyRow (h : Grows email users later) (hrow : OnlyRow users email row) :
    ∃ after, OnlyRow later email after ∧ after.id = row.id ∧ after.email = row.email := by
  obtain ⟨hmem, hemail⟩ := hrow.mem
  obtain ⟨after, hafter, hid, he⟩ := h.rows row hmem hemail
  exact ⟨after, onlyRow_of_mem h.unique hafter he, hid, he.trans hemail.symm⟩

end Rows

section Outcomes

variable {row after : User}

/-- An intended outcome depends on the id and the address of the row alone. -/
theorem RegisterAnswer.Intended.congr {answer : RegisterAnswer} (h : answer.Intended row)
    (hid : after.id = row.id) (hemail : after.email = row.email) : answer.Intended after := by
  cases answer with
  | created => exact ⟨h.1.trans hid.symm, h.2.trans hemail.symm⟩
  | refused => exact h
  | crashed => exact h

theorem VerifyAnswer.Intended.congr {answer : VerifyAnswer} (h : answer.Intended row)
    (hid : after.id = row.id) (hemail : after.email = row.email) : answer.Intended after := by
  cases answer with
  | token => exact ⟨h.1.trans hid.symm, h.2.trans hemail.symm⟩
  | refused => exact h
  | violated => exact h

theorem CallbackAnswer.Intended.congr {answer : CallbackAnswer} (h : answer.Intended row)
    (hid : after.id = row.id) (hemail : after.email = row.email) : answer.Intended after := by
  cases answer with
  | signedIn => exact ⟨h.1.trans hid.symm, h.2.trans hemail.symm⟩
  | rejected => exact h
  | crashed => exact h

/-- A user who is not banned gets a token for the row. -/
theorem intended_answerUser (h : row.isBanned = false) : (answerUser row).Intended row := by
  rw [answerUser, h, if_neg Bool.false_ne_true]
  exact ⟨rfl, rfl⟩

/-- A login whose statement throws does not end in its conflict. -/
theorem not_intended_loginFailed (provider : OAuthProvider) :
    ¬(loginFailed provider).Intended row := by
  cases provider with
  | google => exact id
  | github =>
    intro h
    have hne : internalServerErrorException "Failed to authenticate with GitHub" ≠
        githubEmailConflict := by decide
    exact hne h

/-- The error of an insert carries its code on its cause, so no login recognises it. -/
theorem insertFailed_of_insertUser {users : List User} {user : User} {error : ThrownError}
    (h : insertUser users user = .error error) (provider : OAuthProvider) :
    insertFailed error provider = loginFailed provider := by
  obtain ⟨name, rfl⟩ : ∃ name, error = uniqueViolation name := by
    unfold insertUser at h
    cases hinsert : insertRow userColumns users user with
    | ok later =>
      rw [hinsert] at h
      cases h
    | error name =>
      rw [hinsert] at h
      exact ⟨name, (Except.error.inj h).symm⟩
  cases provider with
  | google => rfl
  | github => rfl

/-- The intended outcomes stay while the rows of the address do, and calls end as intended. -/
theorem Intended.mono {email : String} {s t : SignUpState} (h : Intended email s)
    (hgrows : Grows email s.users t.users)
    (hregistrations : ∀ id registerDto answer,
      t.registrations id = some ⟨registerDto, .done answer⟩ →
        s.registrations id = some ⟨registerDto, .done answer⟩ ∨
          ∃ row, OnlyRow t.users email row ∧ answer.Intended row)
    (hcodeSignIns : ∀ id address answer, t.codeSignIns id = some ⟨address, .done answer⟩ →
      s.codeSignIns id = some ⟨address, .done answer⟩ ∨
        ∃ row, OnlyRow t.users email row ∧ answer.Intended row)
    (hcallbacks : ∀ id identity answer, t.callbacks id = some ⟨identity, .done answer⟩ →
      s.callbacks id = some ⟨identity, .done answer⟩ ∨
        ∃ row, OnlyRow t.users email row ∧ answer.Intended row) : Intended email t where
  registrations id registerDto answer hdone := by
    rcases hregistrations id registerDto answer hdone with hold | hnew
    · obtain ⟨row, hrow, hintended⟩ := h.registrations id registerDto answer hold
      obtain ⟨after, hafter, hid, he⟩ := hgrows.onlyRow hrow
      exact ⟨after, hafter, hintended.congr hid he⟩
    · exact hnew
  codeSignIns id address answer hdone := by
    rcases hcodeSignIns id address answer hdone with hold | hnew
    · obtain ⟨row, hrow, hintended⟩ := h.codeSignIns id address answer hold
      obtain ⟨after, hafter, hid, he⟩ := hgrows.onlyRow hrow
      exact ⟨after, hafter, hintended.congr hid he⟩
    · exact hnew
  callbacks id identity answer hdone := by
    rcases hcallbacks id identity answer hdone with hold | hnew
    · obtain ⟨row, hrow, hintended⟩ := h.callbacks id identity answer hold
      obtain ⟨after, hafter, hid, he⟩ := hgrows.onlyRow hrow
      exact ⟨after, hafter, hintended.congr hid he⟩
    · exact hnew

end Outcomes

section NewUsers

variable {users : List User} {email : String}

/-- A registration and an emailed code link no provider. -/
theorem newUser_of_unlinked {user : User} (hemail : user.email = email)
    (hbanned : user.isBanned = false) (hgithub : user.githubId = none)
    (hgoogle : user.googleId = none) : NewUser users email user where
  email_eq := hemail
  notBanned := hbanned
  linkedId_ne provider providerId hcarries := by
    cases provider with
    | google => cases hgoogle.symm.trans hcarries
    | github => cases hgithub.symm.trans hcarries

/-- A login of a new identity links its provider alone. -/
theorem newUser_newProviderUser (adminEmail : Option String) {identity : ProviderIdentity}
    (hidentity : NewIdentity users email identity) (userId passwordHash : String) (now : Nat) :
    NewUser users email (newProviderUser adminEmail identity userId passwordHash now) where
  email_eq := withLinkedId_email.trans hidentity.1
  notBanned := by cases hprovider : identity.provider <;> simp only [newProviderUser, withLinkedId,
    hprovider]
  linkedId_ne provider providerId hcarries := by
    by_cases hprovider : provider = identity.provider
    · subst hprovider
      rw [newProviderUser, linkedId_withLinkedId, Option.some.injEq] at hcarries
      exact hcarries ▸ hidentity.2
    · rw [newProviderUser, linkedId_withLinkedId_of_ne hprovider] at hcarries
      cases provider <;> cases hcarries

/-- A new row of the address goes in exactly when the address is free. -/
theorem violatedColumn_of_newUser {s : SignUpState} (h : FirstSignIns users email s) {user : User}
    (huser : NewUser users email user) (hid : ∀ row ∈ s.users, row.id ≠ user.id) :
    violatedColumn userColumns s.users user = none ↔ ∀ row ∈ s.users, row.email ≠ email := by
  rw [violatedColumn_userColumns_eq_none]
  constructor
  · exact fun hfree row hrow => huser.email_eq ▸ (hfree row hrow).2.1
  · intro hfree row hrow
    refine ⟨hid row hrow, huser.email_eq ▸ hfree row hrow, fun provider providerId hcarries => ?_⟩
    exact huser.linkedId_ne provider providerId hcarries row (h.others row hrow (hfree row hrow))

/-- A refused insert found the address taken. -/
theorem not_free_of_insertUser {s : SignUpState} (h : FirstSignIns users email s) {user : User}
    (huser : NewUser users email user) (hid : ∀ row ∈ s.users, row.id ≠ user.id)
    {error : ThrownError} (hinsert : insertUser s.users user = .error error) :
    ¬∀ row ∈ s.users, row.email ≠ email := by
  intro hfree
  have hok := insertUser_eq_ok.mpr ⟨(violatedColumn_of_newUser h huser hid).mpr hfree, rfl⟩
  cases hinsert.symm.trans hok

/-- An insert that succeeds found the address free, so no sign-up had ended, and its row is the
only one. -/
theorem onlyRow_of_insertUser {s : SignUpState} (h : FirstSignIns users email s) {user : User}
    (huser : NewUser users email user) {later : List User}
    (hinsert : insertUser s.users user = .ok later) :
    (∀ row ∈ s.users, row.email ≠ email) ∧ Grows email s.users later ∧
      OnlyRow later email user := by
  have hgrows := Grows.insert h.unique huser.email_eq huser.notBanned hinsert
  obtain ⟨hfree, rfl⟩ := insertUser_eq_ok.mp hinsert
  refine ⟨fun row hrow => ?_, hgrows, onlyRow_of_mem hgrows.unique ?_ huser.email_eq⟩
  · exact huser.email_eq ▸ ((violatedColumn_userColumns_eq_none.mp hfree) row hrow).2.1
  · exact List.mem_append_right _ (List.mem_singleton_self user)

end NewUsers

section Steps

variable {config : StrategyConfig} {users : List User} {email : String} {s t : SignUpState}
  {label : SignUpLabel} {callback : Callback} {step : CallbackStep} {m : StrategyState}
  {phase : CallbackPhase}

/-- A login goes on while the rows of the address stay. -/
theorem CallbackPhase.LogsIn.mono {now later : List User} (h : phase.LogsIn now email)
    (hgrows : Grows email now later) : phase.LogsIn later email := by
  cases phase with
  | updateUser existing =>
    obtain ⟨row, hrow, hid, he⟩ := h
    obtain ⟨after, hafter, hafterId, hafterEmail⟩ := hgrows.rows row hrow he
    exact ⟨after, hafter, hafterId.trans hid, hafterEmail⟩
  | findUser | insertUser | findConflicting | findCurrent | updateCurrent | done => exact h

/-- A login that updates a row of the address succeeds, since no other row carries its id. -/
theorem FirstSignIns.updateUser_eq_ok (h : FirstSignIns users email s)
    {identity : ProviderIdentity} (hidentity : NewIdentity users email identity)
    {existing row : User} (hrow : row ∈ s.users) (hid : row.id = existing.id)
    (he : row.email = email) : ∃ later user,
      updateUser s.users existing.id (loggedIn identity existing) = .ok (later, some user) := by
  have hnew : ∀ other ∈ s.users, other.id ≠ row.id →
      linkedId identity.provider other ≠ some identity.providerId := by
    intro other hother hne
    refine hidentity.2 other (h.others other hother fun hemail => hne ?_)
    exact congrArg User.id (h.unique.email.eq_of_mem hother hrow rfl
      (congrArg some (he.trans hemail.symm)))
  have hfree := violatedColumn_eq_none_of_new h.unique
    (writesIdentity_loggedIn identity existing) hrow hnew
  rw [← hid]
  exact ⟨_, _, updateUser_eq_ok_some.mpr ⟨row, h.unique.findUserById hrow, hfree, rfl, rfl⟩⟩

/-- A login without a statement that fails by itself moves on, updates the row of the address and
signs in to it, or inserts one, which goes well or not. -/
theorem FirstSignIns.callback_cases (h : FirstSignIns users email s)
    (hidentity : NewIdentity users email callback.identity)
    (hlogs : callback.phase.LogsIn s.users email) (hfail : step ≠ .fail)
    (hmoves : CallbackMoves config s.toStrategyState callback step m phase) :
    m = s.toStrategyState ∧ phase.LogsIn s.users email ∧
      (∀ id, drawnUserId (.strategy (.callback id step)) = none) ∧
      (∀ answer, phase ≠ .done answer) ∨
    (∃ user, Grows email s.users m.users ∧ m.callbacks = s.callbacks ∧
      OnlyRow m.users email user ∧ phase = .done (.signedIn (toJwtPayload user)) ∧
      ∀ id, drawnUserId (.strategy (.callback id step)) = none) ∨
    ∃ userId passwordHash user, step = .insertUser userId passwordHash ∧ user.id = userId ∧
      NewUser users email user ∧
      (insertUser s.users user = .ok m.users ∧ m.callbacks = s.callbacks ∧
        phase = .done (.signedIn (toJwtPayload user)) ∨
      m = s.toStrategyState ∧ (∃ error, insertUser s.users user = .error error) ∧
        phase = .done (loginFailed callback.identity.provider)) := by
  cases hmoves with
  | absent hphase hpick => exact Or.inl ⟨rfl, trivial, fun _ => rfl, fun _ he => by cases he⟩
  | @found existing hphase hpick =>
    refine Or.inl ⟨rfl, ⟨existing, hpick.1, rfl, ?_⟩, fun _ => rfl, fun _ he => by cases he⟩
    -- Rows of other addresses do not carry the provider id.
    by_contra hne
    have hmatches := hpick.2
    simp only [matchesIdentity, Bool.or_eq_true, beq_iff_eq, hidentity.1, hne, or_false]
      at hmatches
    exact hidentity.2 existing (h.others existing hpick.1 hne) hmatches
  | @updated existing user later hphase hupdate =>
    rw [hphase] at hlogs
    obtain ⟨row, hrow, hid, he⟩ := hlogs
    have hgrows := Grows.update h.unique hrow hid he hupdate
    obtain ⟨-, hmem, -⟩ := (writesIdentity_loggedIn callback.identity existing).rows hupdate
    refine Or.inr (Or.inl ⟨user, hgrows, rfl, onlyRow_of_mem hgrows.unique hmem ?_, rfl,
      fun _ => rfl⟩)
    obtain ⟨old, hold, -, -, rfl⟩ := updateUser_eq_ok_some.mp hupdate
    obtain rfl : old = row := h.unique.eq_of_id (List.mem_of_find?_eq_some hold) hrow
      ((id_of_findUserById hold).trans hid.symm)
    exact ((writesIdentity_loggedIn callback.identity existing).email_eq old).trans he
  | vanished hphase hupdate | refused hphase hupdate =>
    rw [hphase] at hlogs
    obtain ⟨row, hrow, hid, he⟩ := hlogs
    obtain ⟨later, user, hok⟩ := h.updateUser_eq_ok hidentity hrow hid he
    cases hupdate.symm.trans hok
  | @inserted user later userId passwordHash hphase huser hinsert =>
    subst huser
    refine Or.inr (Or.inr ⟨userId, passwordHash, _, rfl, withLinkedId_id,
      newUser_newProviderUser _ hidentity _ _ _, Or.inl ⟨hinsert, rfl, rfl⟩⟩)
  | @insertRefused error userId passwordHash hphase hinsert =>
    refine Or.inr (Or.inr ⟨userId, passwordHash, _, rfl, withLinkedId_id,
      newUser_newProviderUser _ hidentity _ _ _, Or.inr ⟨rfl, ⟨error, hinsert⟩, ?_⟩⟩)
    rw [insertFailed_of_insertUser hinsert]
  | conflicting hphase | notConflicting hphase | unknown hphase | current hphase | linked hphase
  | linkRefused hphase =>
    rw [hphase] at hlogs
    exact hlogs.elim
  | failed => exact absurd rfl hfail

/-- The invariant stays while the table grows and a registration of the address is set. -/
theorem FirstSignIns.setRegistration (h : FirstSignIns users email s) {later : List User}
    (hgrows : Grows email s.users later) {registerDto : RegisterDto}
    (he : registerDto.email = email) (id : Nat) (phase : RegisterPhase) :
    FirstSignIns users email ((s.withUsers later).setRegistration id ⟨registerDto, phase⟩) where
  unique := hgrows.unique
  others row hrow hne := h.others row (hgrows.others row hrow hne) hne
  notBanned := hgrows.notBanned h.notBanned
  registrations other registration hother := by
    rcases update_eq_some_iff.mp hother with ⟨-, rfl⟩ | ⟨-, hold⟩
    · exact he
    · exact h.registrations other registration hold
  codeSignIns := h.codeSignIns
  callbacks other callback hother := by
    obtain ⟨hidentity, hlogs⟩ := h.callbacks other callback hother
    exact ⟨hidentity, hlogs.mono hgrows⟩

/-- So it does while a sign-in by code is set. -/
theorem FirstSignIns.setCodeSignIn (h : FirstSignIns users email s) {later : List User}
    (hgrows : Grows email s.users later) (id : Nat) (phase : CodePhase) :
    FirstSignIns users email ((s.withUsers later).setCodeSignIn id ⟨email, phase⟩) where
  unique := hgrows.unique
  others row hrow hne := h.others row (hgrows.others row hrow hne) hne
  notBanned := hgrows.notBanned h.notBanned
  registrations := h.registrations
  codeSignIns other codeSignIn hother := by
    rcases update_eq_some_iff.mp hother with ⟨-, rfl⟩ | ⟨-, hold⟩
    · rfl
    · exact h.codeSignIns other codeSignIn hold
  callbacks other callback hother := by
    obtain ⟨hidentity, hlogs⟩ := h.callbacks other callback hother
    exact ⟨hidentity, hlogs.mono hgrows⟩

/-- So it does while a callback is set. -/
theorem FirstSignIns.setCallback (h : FirstSignIns users email s)
    (hgrows : Grows email s.users m.users) (hsame : m.callbacks = s.callbacks)
    {identity : ProviderIdentity} (hidentity : NewIdentity users email identity) (id : Nat)
    (hlogs : phase.LogsIn m.users email) :
    FirstSignIns users email { s with toStrategyState := m.setCallback id ⟨identity, phase⟩ } where
  unique := hgrows.unique
  others row hrow hne := h.others row (hgrows.others row hrow hne) hne
  notBanned := hgrows.notBanned h.notBanned
  registrations := h.registrations
  codeSignIns := h.codeSignIns
  callbacks other callback hother := by
    rcases update_eq_some_iff.mp hother with ⟨-, rfl⟩ | ⟨-, hold⟩
    · exact ⟨hidentity, hlogs⟩
    · obtain ⟨hidentity', hlogs'⟩ := h.callbacks other callback (hsame ▸ hold)
      exact ⟨hidentity', hlogs'.mono hgrows⟩

/-- The outcomes stay intended while a registration is set that has not ended, or as intended. -/
theorem Intended.setRegistration (h : Intended email s) {later : List User}
    (hgrows : Grows email s.users later) {registerDto : RegisterDto} {id : Nat}
    {phase : RegisterPhase} (hphase : ∀ answer, phase = .done answer →
      ∃ row, OnlyRow later email row ∧ answer.Intended row) :
    Intended email ((s.withUsers later).setRegistration id ⟨registerDto, phase⟩) := by
  refine h.mono hgrows (fun other dto answer hdone => ?_) (fun _ _ _ hdone => Or.inl hdone)
    fun _ _ _ hdone => Or.inl hdone
  rcases update_eq_some_iff.mp hdone with ⟨-, he⟩ | ⟨-, hold⟩
  · exact Or.inr (hphase answer (congrArg Registration.phase he).symm)
  · exact Or.inl hold

/-- The same for a sign-in by code. -/
theorem Intended.setCodeSignIn (h : Intended email s) {later : List User}
    (hgrows : Grows email s.users later) {address : String} {id : Nat} {phase : CodePhase}
    (hphase : ∀ answer, phase = .done answer →
      ∃ row, OnlyRow later email row ∧ answer.Intended row) :
    Intended email ((s.withUsers later).setCodeSignIn id ⟨address, phase⟩) := by
  refine h.mono hgrows (fun _ _ _ hdone => Or.inl hdone) (fun other address answer hdone => ?_)
    fun _ _ _ hdone => Or.inl hdone
  rcases update_eq_some_iff.mp hdone with ⟨-, he⟩ | ⟨-, hold⟩
  · exact Or.inr (hphase answer (congrArg CodeSignIn.phase he).symm)
  · exact Or.inl hold

/-- The same for a callback. -/
theorem Intended.setCallback (h : Intended email s) (hgrows : Grows email s.users m.users)
    (hsame : m.callbacks = s.callbacks) {identity : ProviderIdentity} {id : Nat}
    (hphase : ∀ answer, phase = .done answer →
      ∃ row, OnlyRow m.users email row ∧ answer.Intended row) :
    Intended email { s with toStrategyState := m.setCallback id ⟨identity, phase⟩ } := by
  refine h.mono hgrows (fun _ _ _ hdone => Or.inl hdone) (fun _ _ _ hdone => Or.inl hdone)
    fun other identity' answer hdone => ?_
  rcases update_eq_some_iff.mp hdone with ⟨-, he⟩ | ⟨-, hold⟩
  · exact Or.inr (hphase answer (congrArg Callback.phase he).symm)
  · exact Or.inl (hsame ▸ hold)

/-- What a step of a run keeps, and what makes it exact: the invariant stays, and the outcomes
stay intended exactly when an insert finds the address free. -/
structure StepsAsIntended (users : List User) (email : String) (s : SignUpState)
    (label : SignUpLabel) (t : SignUpState) : Prop where
  keeps : FirstSignIns users email t
  exact : Intended email s →
    (((drawnUserId label).isSome = true → ∀ row ∈ s.users, row.email ≠ email) ↔ Intended email t)

/-- A step that draws no id and keeps the outcomes. -/
theorem stepsAsIntended_of_quiet (hdrawn : drawnUserId label = none)
    (hkeeps : FirstSignIns users email t) (hintended : Intended email s → Intended email t) :
    StepsAsIntended users email s label t where
  keeps := hkeeps
  exact hs := by
    rw [hdrawn]
    exact ⟨fun _ => hintended hs, fun _ hnone => by cases hnone⟩

/-- A step whose insert goes well. -/
theorem stepsAsIntended_of_inserted (hfree : ∀ row ∈ s.users, row.email ≠ email)
    (hkeeps : FirstSignIns users email t) (hintended : Intended email s → Intended email t) :
    StepsAsIntended users email s label t where
  keeps := hkeeps
  exact hs := ⟨fun _ => hintended hs, fun _ _ => hfree⟩

/-- A step whose insert is refused. -/
theorem stepsAsIntended_of_refused (hdrawn : (drawnUserId label).isSome = true)
    (hnot : ¬∀ row ∈ s.users, row.email ≠ email) (hkeeps : FirstSignIns users email t)
    (hintended : ¬Intended email t) : StepsAsIntended users email s label t where
  keeps := hkeeps
  exact _ := ⟨fun hfree => absurd (hfree hdrawn) hnot, fun h => absurd h hintended⟩

/-- A step of a registration. -/
theorem FirstSignIns.registerStep (h : FirstSignIns users email s) {id : Nat}
    {registerDto : RegisterDto} {phase phase' : RegisterPhase} {move : RegisterStep}
    {later : List User} (hcall : s.registrations id = some ⟨registerDto, phase⟩)
    (hmoves : RegisterMoves config s registerDto phase move later phase')
    (hid : ∀ userId, drawnUserId (.register id move) = some userId →
      ∀ row ∈ s.users, row.id ≠ userId) :
    StepsAsIntended users email s (.register id move)
      ((s.withUsers later).setRegistration id ⟨registerDto, phase'⟩) := by
  have he : registerDto.email = email := h.registrations id _ hcall
  have hrefl := Grows.refl email h.unique
  cases hmoves with
  | @taken row hrow =>
    refine stepsAsIntended_of_quiet rfl (h.setRegistration hrefl he id _) fun hs =>
      hs.setRegistration hrefl fun answer hdone => ?_
    obtain rfl := RegisterPhase.done.inj hdone
    have hemail : row.email = registerDto.email := by
      simpa only [beq_iff_eq] using List.find?_some hrow
    exact ⟨row, onlyRow_of_mem h.unique (List.mem_of_find?_eq_some hrow) (hemail.trans he), rfl⟩
  | free =>
    exact stepsAsIntended_of_quiet rfl (h.setRegistration hrefl he id _) fun hs =>
      hs.setRegistration hrefl fun answer hdone => by cases hdone
  | @created userId _ hinsert =>
    have huser : NewUser users email (registeredUser config.argon2 registerDto userId s.clock) :=
      newUser_of_unlinked he rfl rfl rfl
    obtain ⟨hfree, hgrows, honly⟩ := onlyRow_of_insertUser h huser hinsert
    refine stepsAsIntended_of_inserted hfree (h.setRegistration hgrows he id _) fun hs =>
      hs.setRegistration hgrows fun answer hdone => ?_
    obtain rfl := RegisterPhase.done.inj hdone
    exact ⟨_, honly, rfl, rfl⟩
  | @crashed userId error hinsert =>
    have huser : NewUser users email (registeredUser config.argon2 registerDto userId s.clock) :=
      newUser_of_unlinked he rfl rfl rfl
    refine stepsAsIntended_of_refused rfl
      (not_free_of_insertUser h huser (hid userId rfl) hinsert) (h.setRegistration hrefl he id _)
      fun hintended => ?_
    obtain ⟨row, -, hfalse⟩ := hintended.registrations id registerDto .crashed
      (Function.update_self ..)
    exact hfalse

/-- A step of a sign-in by code. -/
theorem FirstSignIns.codeStep (h : FirstSignIns users email s) {id : Nat} {address : String}
    {phase phase' : CodePhase} {move : CodeStep} {later : List User}
    (hcall : s.codeSignIns id = some ⟨address, phase⟩)
    (hmoves : CodeMoves config s address phase move later phase')
    (hid : ∀ userId, drawnUserId (.verifyCode id move) = some userId →
      ∀ row ∈ s.users, row.id ≠ userId) :
    StepsAsIntended users email s (.verifyCode id move)
      ((s.withUsers later).setCodeSignIn id ⟨address, phase'⟩) := by
  obtain rfl : address = email := h.codeSignIns id _ hcall
  have hrefl := Grows.refl address h.unique
  cases hmoves with
  | @found user huser =>
    refine stepsAsIntended_of_quiet rfl (h.setCodeSignIn hrefl id _) fun hs =>
      hs.setCodeSignIn hrefl fun answer hdone => ?_
    obtain rfl := CodePhase.done.inj hdone
    have hmem := List.mem_of_find?_eq_some huser
    have hemail : user.email = address := by
      simpa only [beq_iff_eq] using List.find?_some huser
    exact ⟨user, onlyRow_of_mem h.unique hmem hemail,
      intended_answerUser (h.notBanned user hmem hemail)⟩
  | newUser =>
    exact stepsAsIntended_of_quiet rfl (h.setCodeSignIn hrefl id _) fun hs =>
      hs.setCodeSignIn hrefl fun answer hdone => by cases hdone
  | @created userId passwordHash user _ huser hinsert =>
    have hnew : NewUser users address user := huser ▸ newUser_of_unlinked rfl rfl rfl rfl
    obtain ⟨hfree, hgrows, honly⟩ := onlyRow_of_insertUser h hnew hinsert
    refine stepsAsIntended_of_inserted hfree (h.setCodeSignIn hgrows id _) fun hs =>
      hs.setCodeSignIn hgrows fun answer hdone => ?_
    obtain rfl := CodePhase.done.inj hdone
    exact ⟨user, honly, intended_answerUser hnew.notBanned⟩
  | @violated userId passwordHash error hinsert =>
    refine stepsAsIntended_of_refused rfl (not_free_of_insertUser h
      (newUser_of_unlinked rfl rfl rfl rfl) (hid userId rfl) hinsert)
      (h.setCodeSignIn hrefl id _) fun hintended => ?_
    obtain ⟨row, -, hfalse⟩ := hintended.codeSignIns id address .violated (Function.update_self ..)
    exact hfalse

/-- A step of a login. -/
theorem FirstSignIns.callbackStep (h : FirstSignIns users email s) {id : Nat}
    (hcall : s.callbacks id = some callback) (hfail : step ≠ .fail)
    (hmoves : CallbackMoves config s.toStrategyState callback step m phase)
    (hid : ∀ userId, drawnUserId (.strategy (.callback id step)) = some userId →
      ∀ row ∈ s.users, row.id ≠ userId) :
    StepsAsIntended users email s (.strategy (.callback id step))
      { s with toStrategyState := m.setCallback id { callback with phase := phase } } := by
  obtain ⟨hidentity, hlogs⟩ := h.callbacks id callback hcall
  rcases h.callback_cases hidentity hlogs hfail hmoves with ⟨rfl, hlogs', hdrawn, hphase⟩ |
    ⟨user, hgrows, hsame, honly, rfl, hdrawn⟩ | ⟨userId, passwordHash, user, rfl, rfl, hnew,
      ⟨hinsert, hsame, rfl⟩ | ⟨rfl, ⟨error, hinsert⟩, rfl⟩⟩
  · have hrefl := Grows.refl email h.unique
    exact stepsAsIntended_of_quiet (hdrawn id) (h.setCallback hrefl rfl hidentity id hlogs')
      fun hs => hs.setCallback hrefl rfl fun answer hdone => absurd hdone (hphase answer)
  · refine stepsAsIntended_of_quiet (hdrawn id) (h.setCallback hgrows hsame hidentity id trivial)
      fun hs => hs.setCallback hgrows hsame fun answer hdone => ?_
    obtain rfl := CallbackPhase.done.inj hdone
    exact ⟨user, honly, rfl, rfl⟩
  · obtain ⟨hfree, hgrows, honly⟩ := onlyRow_of_insertUser h hnew hinsert
    refine stepsAsIntended_of_inserted hfree (h.setCallback hgrows hsame hidentity id trivial)
      fun hs => hs.setCallback hgrows hsame fun answer hdone => ?_
    obtain rfl := CallbackPhase.done.inj hdone
    exact ⟨user, honly, rfl, rfl⟩
  · have hrefl := Grows.refl email h.unique
    refine stepsAsIntended_of_refused rfl (not_free_of_insertUser h hnew (hid _ rfl) hinsert)
      (h.setCallback hrefl rfl hidentity id trivial) fun hintended => ?_
    obtain ⟨row, -, hfalse⟩ := hintended.callbacks id callback.identity
      (loginFailed callback.identity.provider) (Function.update_self ..)
    exact not_intended_loginFailed callback.identity.provider hfalse

/-- Every step of a first sign-in keeps the invariant, and is exact. -/
theorem FirstSignIns.stepsAsIntended (h : FirstSignIns users email s)
    (hlabel : ForAddress config users email label)
    (hstep : (signUps config).step s label = some t) :
    StepsAsIntended users email s label t := by
  obtain ⟨hmoves, hid⟩ := signUpMoves_of_step hstep
  have hrefl := Grows.refl email h.unique
  cases hmoves with
  | registerStart =>
    exact stepsAsIntended_of_quiet rfl (h.setRegistration hrefl hlabel _ .find) fun hs =>
      hs.setRegistration hrefl fun _ hdone => by cases hdone
  | register hcall hmoves => exact h.registerStep hcall hmoves hid
  | codeStart =>
    obtain rfl := hlabel
    exact stepsAsIntended_of_quiet rfl (h.setCodeSignIn hrefl _ .findUser) fun hs =>
      hs.setCodeSignIn hrefl fun _ hdone => by cases hdone
  | code hcall hmoves => exact h.codeStep hcall hmoves hid
  | strategy hstrategy =>
    rcases strategies_step_cases hstrategy with ⟨ms, rfl, rfl⟩ | ⟨change, rfl, rfl⟩ |
      ⟨id, linkCookie, profile, rfl, hnone, rfl | ⟨identity, hprofile, rfl⟩⟩ |
      ⟨id, step, callback, m, phase, rfl, hcall, hmoves, rfl⟩
    · exact stepsAsIntended_of_quiet rfl ⟨h.unique, h.others, h.notBanned, h.registrations,
        h.codeSignIns, h.callbacks⟩ fun hs => ⟨hs.registrations, hs.codeSignIns, hs.callbacks⟩
    · exact hlabel.elim
    · exact stepsAsIntended_of_quiet rfl h fun hs => hs
    · obtain ⟨hcookie, hidentity⟩ := hlabel
      simp only [hprofile] at hidentity
      have hstart : startCallback config linkCookie identity = ⟨identity, .findUser⟩ := by
        simp only [startCallback, hcookie]
      rw [hstart]
      exact stepsAsIntended_of_quiet rfl (h.setCallback hrefl rfl hidentity id trivial) fun hs =>
        hs.setCallback hrefl rfl fun _ hdone => by cases hdone
    · exact h.callbackStep hcall hlabel hmoves hid

end Steps

section Runs

variable {config : StrategyConfig} {users : List User} {email : String}

/-- A table without a row of the address is ready for first sign-ins. -/
theorem firstSignIns_initial (clock : Nat) (hunique : UniqueUsers users)
    (hfree : ∀ row ∈ users, row.email ≠ email) :
    FirstSignIns users email (.initial clock users) where
  unique := hunique
  others _ hrow _ := hrow
  notBanned row hrow he := absurd he (hfree row hrow)
  registrations _ _ h := by cases h
  codeSignIns _ _ h := by cases h
  callbacks _ _ h := by cases h

/-- No sign-up has ended at the start. -/
theorem intended_initial (clock : Nat) : Intended email (.initial clock users) where
  registrations _ _ _ h := by cases h
  codeSignIns _ _ _ h := by cases h
  callbacks _ _ _ h := by cases h

/-- In every state of a run of first sign-ins all sign-ups that have ended did so as intended, on
exactly one row of the address, exactly when every insert finds the address free. -/
theorem firstSignIns_iff {clock : Nat} {labels : List SignUpLabel} (hunique : UniqueUsers users)
    (hfree : ∀ row ∈ users, row.email ≠ email)
    (hlabels : ∀ label ∈ labels, ForAddress config users email label) :
    (signUps config).Meets (AddressFree config email) (.initial clock users) labels ↔
      (signUps config).Meets (fun s label => ∀ t, (signUps config).step s label = some t →
        Intended email t) (.initial clock users) labels := by
  refine (signUps config).meets_iff_keeps_of_forall (L := ForAddress config users email)
    (P := FirstSignIns users email)
    (fun m label t h hlabel ht => (h.stepsAsIntended hlabel ht).keeps)
    (fun m label h hm hlabel => ?_) (firstSignIns_initial clock hunique hfree)
    (intended_initial clock) hlabels
  constructor
  · intro hguard t ht
    refine ((h.stepsAsIntended hlabel ht).exact hm).mp fun hdrawn => hguard hdrawn ?_
    rw [ht]
    rfl
  · intro hkeeps hdrawn henabled
    obtain ⟨t, ht⟩ := Option.isSome_iff_exists.mp henabled
    exact ((h.stepsAsIntended hlabel ht).exact hm).mpr (hkeeps t ht) hdrawn

end Runs

/-- A GitHub profile with one verified address. -/
def adaProfile : GithubProfile where
  id := "42"
  displayName := some "Ada"
  username := none
  emails := some [⟨"ada@example.com", some true, some true⟩]
  photos := none

/-- A registration, and then a GitHub login with the same address. -/
def registeredThenGithub : List SignUpLabel :=
  [.register 0 (.start ⟨"ada@example.com", "secret"⟩), .register 0 .find,
    .register 0 (.insert "ada"), .strategy (.validate 0 none (.github adaProfile)),
    .strategy (.callback 0 (.findUser (some (registeredUser bytesStrategies.argon2
      ⟨"ada@example.com", "secret"⟩ "ada" 0)))), .strategy (.callback 0 .updateUser)]

/-- Sign-ups after one another end as intended. -/
theorem firstSignIns_iff_registeredThenGithub :
    ((signUps bytesStrategies).exec (.initial 0 []) registeredThenGithub).isSome = true ∧
      (signUps bytesStrategies).Meets (fun s label => ∀ t,
        (signUps bytesStrategies).step s label = some t → Intended "ada@example.com" t)
        (.initial 0 []) registeredThenGithub :=
  ⟨by decide +kernel, (firstSignIns_iff UniqueColumns.nil (fun _ h => by cases h)
    (by decide +kernel)).mp (by decide +kernel)⟩

/-- Two registrations and a GitHub login of one address that look before any of them inserts. -/
def lookedTogether : List SignUpLabel :=
  [.register 0 (.start ⟨"ada@example.com", "secret"⟩),
    .register 1 (.start ⟨"ada@example.com", "secret"⟩),
    .strategy (.validate 0 none (.github adaProfile)), .register 0 .find, .register 1 .find,
    .strategy (.callback 0 (.findUser none)), .register 0 (.insert "ada"),
    .register 1 (.insert "other"), .strategy (.callback 0 (.insertUser "third" "hash"))]

/-- The losers surface the violated constraint: the registration as an error of its own, the
GitHub login as an internal one. -/
theorem not_intended_lookedTogether : ∃ s,
    (signUps bytesStrategies).exec (.initial 0 []) lookedTogether = some s ∧
      (∀ label ∈ lookedTogether, ForAddress bytesStrategies [] "ada@example.com" label) ∧
      s.registrations 1 = some ⟨⟨"ada@example.com", "secret"⟩, .done .crashed⟩ ∧
      (s.callbacks 0).map Callback.phase = some (.done (.rejected
        (internalServerErrorException "Failed to authenticate with GitHub"))) ∧
      ¬Intended "ada@example.com" s := by
  have hrun := (signUps bytesStrategies).exec_run (.initial 0 []) lookedTogether
    (by decide +kernel)
  have hcrashed : ((signUps bytesStrategies).run (.initial 0 []) lookedTogether
      (by decide +kernel)).registrations 1 =
        some ⟨⟨"ada@example.com", "secret"⟩, .done .crashed⟩ := by decide +kernel
  refine ⟨_, hrun, by decide +kernel, hcrashed, by decide +kernel, fun hintended => ?_⟩
  obtain ⟨row, -, hfalse⟩ := hintended.registrations 1 _ _ hcrashed
  exact hfalse

end VertexApi.Auth
