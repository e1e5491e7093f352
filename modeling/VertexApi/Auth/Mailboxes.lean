import VertexApi.Auth.AuthDto
import VertexApi.Auth.ProviderIdentity
import VertexApi.Auth.SignUps

/-!
# One account per mailbox

The schema of the emailed code is the only one that puts an address into lower case: a
registration and a password sign-in take it as it is typed, a login as the provider spells
it, and the unique address tells letter case apart. A mailbox has one account that every
path finds exactly when the addresses in the table are in lower case, so exactly when every
registration and every first login stores one that is.
-/

namespace VertexApi.Auth

/-- What the schemas take from their library and their language. -/
structure EmailRules where
  /-- `z.email()`. -/
  isEmail : String → Bool
  toLowerCase : String → String
  toLowerCase_idem : ∀ text, toLowerCase (toLowerCase text) = toLowerCase text

section Schemas

variable (rules : EmailRules)

/-- The paths that look an account up by its address. -/
inductive AccountPath where
  | register
  | login
  | verifyCode
  | provider (provider : OAuthProvider)
  deriving DecidableEq, Repr

/-- The address under which a path looks up what it is given. -/
def AccountPath.address : AccountPath → String → String
  | .verifyCode, given => rules.toLowerCase given
  | .register, given => given
  | .login, given => given
  | .provider _, given => given

/-- The lookup of a path returns the row, or may return it where it has no order. -/
def AccountPath.Finds (users : List User) (row : User) (address : String) : AccountPath → Prop
  | .register => findUserByEmail users address = some row
  | .login => findUserByEmail users address = some row
  | .verifyCode => findUserByEmail users address = some row
  | .provider kind => ∀ identity, identity.provider = kind → identity.email = address →
      Picks users (matchesIdentity identity) (some row)

/-- No two rows share an address up to letter case, and a row is found for its address in any
letter case by the path that normalises, and in lower case by the others. -/
structure OneAccountPerMailbox (users : List User) : Prop where
  apart : users.Pairwise fun row other =>
    rules.toLowerCase row.email ≠ rules.toLowerCase other.email
  found : ∀ row ∈ users, ∀ (path : AccountPath) (given : String),
    rules.toLowerCase given = rules.toLowerCase row.email →
    path = .verifyCode ∨ rules.toLowerCase given = given →
      path.Finds users row (path.address rules given)

/-- The label comes from one of the four sign-ups, by a body that its schema admits. -/
def Admitted : SignUpLabel → Prop
  | .register _ (.start registerDto) =>
    ∃ body, registerSchema rules.isEmail body = some registerDto
  | .verifyCode _ (.start address) => ∃ email code,
    verifyOtpSchema rules.isEmail rules.toLowerCase email code = some (address, code)
  | .strategy (.account _) => False
  | _ => True

/-- The row that a registration or a first login is about to insert. -/
def rowToInsert (config : StrategyConfig) (s : SignUpState) : SignUpLabel → Option User
  | .register id (.insert userId) => (s.registrations id).bind fun registration =>
      match registration.phase with
      | .insert => some (registeredUser config.argon2 registration.registerDto userId s.clock)
      | _ => none
  | .strategy (.callback id (.insertUser userId passwordHash)) =>
    (s.callbacks id).bind fun callback =>
      match callback.phase with
      | .insertUser => some (newProviderUser config.adminEmail callback.identity userId
          passwordHash s.clock)
      | _ => none
  | _ => none

/-- A registration or a first login that stores a row has an address in lower case. -/
def StoresLowerCase (config : StrategyConfig) (s : SignUpState) (label : SignUpLabel) : Prop :=
  ((signUps config).step s label).isSome = true → ∀ row ∈ rowToInsert config s label,
    violatedColumn userColumns s.users row = none → rules.toLowerCase row.email = row.email

instance decidableStoresLowerCase (config : StrategyConfig) (s : SignUpState)
    (label : SignUpLabel) : Decidable (StoresLowerCase rules config s label) :=
  inferInstanceAs (Decidable (_ → ∀ row ∈ rowToInsert config s label, _ → _))

end Schemas

section Tables

variable {rules : EmailRules} {users : List User}

/-- What the schema passes on is the address under which its path looks. -/
theorem email_of_verifyOtpSchema {email code : String} {dto : String × String}
    (h : verifyOtpSchema rules.isEmail rules.toLowerCase email code = some dto) :
    dto.1 = AccountPath.verifyCode.address rules email := by
  obtain ⟨-, he⟩ := Option.ite_none_right_eq_some.mp h
  obtain rfl := Option.some.inj he
  rfl

/-- A row is found by its own address. -/
theorem findUserByEmail_of_mem (h : UniqueUsers users) {row : User} (hrow : row ∈ users) :
    findUserByEmail users row.email = some row := by
  cases hfind : findUserByEmail users row.email with
  | none => exact absurd (beq_self_eq_true row.email) (List.find?_eq_none.mp hfind row hrow)
  | some found =>
    have hemail : found.email = row.email := by
      simpa only [beq_iff_eq] using List.find?_some hfind
    exact congrArg some (h.email.eq_of_mem (List.mem_of_find?_eq_some hfind) hrow rfl
      (congrArg some hemail.symm))

/-- A mailbox has one account exactly when the addresses in the table are in lower case. -/
theorem oneAccountPerMailbox_iff (h : UniqueUsers users) : OneAccountPerMailbox rules users ↔
    ∀ row ∈ users, rules.toLowerCase row.email = row.email := by
  constructor
  · intro hone row hrow
    have hfind : findUserByEmail users (rules.toLowerCase row.email) = some row :=
      hone.found row hrow .verifyCode row.email rfl (Or.inl rfl)
    have hemail : row.email = rules.toLowerCase row.email := by
      simpa only [beq_iff_eq] using List.find?_some hfind
    exact hemail.symm
  · intro hlower
    refine ⟨?apart, ?found⟩
    case apart =>
      refine h.email.imp_of_mem fun {row other} hrow hother hne he => ?_
      rw [hlower row hrow, hlower other hother] at he
      exact hne row.email rfl (congrArg some he.symm)
    case found =>
      intro row hrow path given hgiven hspelled
      have haddress : path.address rules given = row.email := by
        rw [hlower row hrow] at hgiven
        rcases hspelled with rfl | hspelled
        · exact hgiven
        · cases path with
          | verifyCode => exact hgiven
          | register | login | provider => exact hspelled.symm.trans hgiven
      rw [haddress]
      cases path with
      | register | login | verifyCode => exact findUserByEmail_of_mem h hrow
      | provider provider =>
        intro identity hprovider hemail
        refine ⟨hrow, ?_⟩
        rw [matchesIdentity, hemail, beq_self_eq_true, Bool.or_true]

end Tables

section Steps

variable {config : StrategyConfig} {rules : EmailRules} {s t : SignUpState} {label : SignUpLabel}

/-- Every address is in lower case. -/
def AllLowerCase (rules : EmailRules) (users : List User) : Prop :=
  ∀ row ∈ users, rules.toLowerCase row.email = row.email

/-- A step leaves the addresses alone, or appends a row: the one that a registration or a first
login is about to insert, or the row of an emailed code. -/
inductive Stores (config : StrategyConfig) (s : SignUpState) (label : SignUpLabel)
    (later : List User) : Prop where
  | nothing (hrefused : ∀ row ∈ rowToInsert config s label,
      violatedColumn userColumns s.users row ≠ none)
    (hemails : ∀ row ∈ later, ∃ old ∈ s.users, old.email = row.email)
  | row {row : User} (hrow : rowToInsert config s label = some row)
    (hfree : violatedColumn userColumns s.users row = none) (hlater : later = s.users ++ [row])
  | code {id : Nat} {codeSignIn : CodeSignIn} {row : User}
    (hnone : rowToInsert config s label = none)
    (hcall : s.codeSignIns id = some codeSignIn) (hemail : row.email = codeSignIn.email)
    (hlater : later = s.users ++ [row])

/-- An untouched table stores nothing. -/
theorem Stores.refl (hnone : rowToInsert config s label = none) :
    Stores config s label s.users :=
  .nothing (fun row hrow => by rw [hnone] at hrow; cases hrow) fun row hrow => ⟨row, hrow, rfl⟩

/-- A refused insert violates a unique column. -/
theorem violatedColumn_of_insertUser {users : List User} {user : User} {error : ThrownError}
    (h : insertUser users user = .error error) : violatedColumn userColumns users user ≠ none := by
  intro hfree
  cases h.symm.trans (insertUser_eq_ok.mpr ⟨hfree, rfl⟩)

/-- What a step of a callback stores. -/
theorem stores_of_callbackMoves {id : Nat} {callback : Callback} {step : CallbackStep}
    {m : StrategyState} {phase : CallbackPhase} (hcall : s.callbacks id = some callback)
    (hmoves : CallbackMoves config s.toStrategyState callback step m phase) :
    Stores config s (.strategy (.callback id step)) m.users := by
  cases hmoves with
  | @updated existing user users hphase hupdate =>
    refine .nothing (fun row hrow => by cases hrow) fun after hafter => ?_
    obtain ⟨old, -, -, rfl, -⟩ := updateUser_eq_ok_some.mp hupdate
    rcases mem_updateWhere.mp hafter with ⟨former, hformer, -, rfl⟩ | ⟨hafter, -⟩
    · exact ⟨former, hformer, ((writesIdentity_loggedIn _ existing).email_eq former).symm⟩
    · exact ⟨after, hafter, rfl⟩
  | @linked linkUserId current user users hphase hupdate =>
    refine .nothing (fun row hrow => by cases hrow) fun after hafter => ?_
    obtain ⟨old, -, -, rfl, -⟩ := updateUser_eq_ok_some.mp hupdate
    rcases mem_updateWhere.mp hafter with ⟨former, hformer, -, rfl⟩ | ⟨hafter, -⟩
    · exact ⟨former, hformer, ((writesIdentity_linked _ current).email_eq former).symm⟩
    · exact ⟨after, hafter, rfl⟩
  | inserted hphase huser hinsert =>
    subst huser
    obtain ⟨hfree, hlater⟩ := insertUser_eq_ok.mp hinsert
    refine .row ?_ hfree hlater
    simp only [rowToInsert, hcall, Option.bind_some, hphase]
  | insertRefused hphase hinsert =>
    refine .nothing (fun row hrow => ?_) fun row hrow => ⟨row, hrow, rfl⟩
    simp only [rowToInsert, hcall, Option.bind_some, hphase, Option.mem_def,
      Option.some.injEq] at hrow
    exact hrow ▸ violatedColumn_of_insertUser hinsert
  | @failed phase hfailed => exact .refl rfl
  | absent | found | vanished | refused | conflicting | notConflicting | unknown | current
  | linkRefused => exact .refl rfl

/-- What a step stores. -/
theorem stores_of_step (hlabel : Admitted rules label)
    (hstep : (signUps config).step s label = some t) : Stores config s label t.users := by
  obtain ⟨hmoves, -⟩ := signUpMoves_of_step hstep
  cases hmoves with
  | registerStart | codeStart => exact .refl rfl
  | register hcall hmoves =>
    cases hmoves with
    | taken | free => exact .refl rfl
    | created hinsert =>
      obtain ⟨hfree, hlater⟩ := insertUser_eq_ok.mp hinsert
      refine .row ?_ hfree hlater
      simp only [rowToInsert, hcall, Option.bind_some]
    | crashed hinsert =>
      refine .nothing (fun row hrow => ?_) fun row hrow => ⟨row, hrow, rfl⟩
      simp only [rowToInsert, hcall, Option.bind_some, Option.mem_def, Option.some.injEq] at hrow
      exact hrow ▸ violatedColumn_of_insertUser hinsert
  | code hcall hmoves =>
    cases hmoves with
    | found | newUser | violated => exact .refl rfl
    | created huser hinsert =>
      subst huser
      exact .code rfl hcall rfl (insertUser_eq_ok.mp hinsert).2
  | strategy hstrategy =>
    rcases strategies_step_cases hstrategy with ⟨ms, rfl, rfl⟩ | ⟨change, rfl, rfl⟩ |
      ⟨id, linkCookie, profile, rfl, hnone, rfl | ⟨identity, hprofile, rfl⟩⟩ |
      ⟨id, step, callback, m, phase, rfl, hcall, hmoves, rfl⟩
    · exact .refl rfl
    · exact hlabel.elim
    · exact .refl rfl
    · exact .refl rfl
    · change Stores config s _ m.users
      exact stores_of_callbackMoves hcall hmoves

/-- The users are unique, and every emailed code is verified under an address in lower case. -/
structure CodesLowerCase (rules : EmailRules) (s : SignUpState) : Prop where
  unique : UniqueUsers s.users
  codeSignIns : ∀ id codeSignIn, s.codeSignIns id = some codeSignIn →
    rules.toLowerCase codeSignIn.email = codeSignIn.email

/-- Every step keeps that. -/
theorem CodesLowerCase.step (h : CodesLowerCase rules s) (hlabel : Admitted rules label)
    (hstep : (signUps config).step s label = some t) : CodesLowerCase rules t := by
  obtain ⟨hmoves, -⟩ := signUpMoves_of_step hstep
  cases hmoves with
  | registerStart => exact ⟨h.unique, h.codeSignIns⟩
  | strategy hstrategy => exact ⟨step_unique h.unique hstrategy, h.codeSignIns⟩
  | register hcall hmoves =>
    refine ⟨?_, h.codeSignIns⟩
    cases hmoves with
    | taken | free | crashed => exact h.unique
    | created hinsert =>
      obtain ⟨hfree, rfl⟩ := insertUser_eq_ok.mp hinsert
      exact h.unique.append hfree
  | codeStart =>
    refine ⟨h.unique, fun other codeSignIn hother => ?_⟩
    rcases update_eq_some_iff.mp hother with ⟨-, rfl⟩ | ⟨-, hold⟩
    · obtain ⟨email, code, hschema⟩ := hlabel
      have haddress := email_of_verifyOtpSchema hschema
      simp only [AccountPath.address] at haddress
      rw [haddress, rules.toLowerCase_idem]
    · exact h.codeSignIns other codeSignIn hold
  | code hcall hmoves =>
    refine ⟨?_, fun other codeSignIn hother => ?_⟩
    · cases hmoves with
      | found | newUser | violated => exact h.unique
      | created huser hinsert =>
        obtain ⟨hfree, rfl⟩ := insertUser_eq_ok.mp hinsert
        exact h.unique.append hfree
    · rcases update_eq_some_iff.mp hother with ⟨-, rfl⟩ | ⟨-, hold⟩
      · have hsame := h.codeSignIns _ _ hcall
        exact hsame
      · exact h.codeSignIns other codeSignIn hold

/-- A step keeps the addresses in lower case exactly when what it stores is. -/
theorem storesLowerCase_iff (h : CodesLowerCase rules s) (hlower : AllLowerCase rules s.users)
    (hlabel : Admitted rules label) : StoresLowerCase rules config s label ↔
      ∀ t, (signUps config).step s label = some t → AllLowerCase rules t.users := by
  constructor
  · intro hguard t ht row hrow
    cases stores_of_step hlabel ht with
    | nothing hrefused hemails =>
      obtain ⟨old, hold, he⟩ := hemails row hrow
      exact he ▸ hlower old hold
    | @row new hnew hfree hlater =>
      rw [hlater] at hrow
      rcases List.mem_append.mp hrow with hrow | hrow
      · exact hlower row hrow
      · rw [List.mem_singleton.mp hrow]
        exact hguard (by rw [ht]; rfl) new hnew hfree
    | @code id codeSignIn new hnone hcall hemail hlater =>
      rw [hlater] at hrow
      rcases List.mem_append.mp hrow with hrow | hrow
      · exact hlower row hrow
      · rw [List.mem_singleton.mp hrow, hemail]
        exact h.codeSignIns id codeSignIn hcall
  · intro hkeeps henabled row hrow hfree
    obtain ⟨t, ht⟩ := Option.isSome_iff_exists.mp henabled
    cases stores_of_step hlabel ht with
    | nothing hrefused hemails => exact absurd hfree (hrefused row hrow)
    | @row new hnew hfree' hlater =>
      obtain rfl := Option.some.inj (hnew.symm.trans hrow)
      refine hkeeps t ht new ?_
      rw [hlater]
      exact List.mem_append_right _ (List.mem_singleton_self new)
    | code hnone =>
      rw [hnone] at hrow
      cases hrow

end Steps

section Runs

variable {config : StrategyConfig} {rules : EmailRules}

/-- In every state of a run from an empty table each mailbox has one account that every path
finds, exactly when every row that a registration or a first login stores has its address in
lower case. -/
theorem oneAccountPerMailbox_runs_iff {clock : Nat} {labels : List SignUpLabel}
    (hlabels : ∀ label ∈ labels, Admitted rules label) :
    (signUps config).Meets (StoresLowerCase rules config) (.initial clock []) labels ↔
      (signUps config).Meets (fun s label => ∀ t, (signUps config).step s label = some t →
        OneAccountPerMailbox rules t.users) (.initial clock []) labels := by
  have hinitial : CodesLowerCase rules (.initial clock []) :=
    ⟨UniqueColumns.nil, fun _ _ hnone => by cases hnone⟩
  refine (signUps config).meets_iff_keeps_of_forall (L := Admitted rules)
    (P := CodesLowerCase rules) (Q := fun s => OneAccountPerMailbox rules s.users)
    (fun m label t h hlabel ht => h.step hlabel ht) (fun m label h hm hlabel => ?_) hinitial
    ((oneAccountPerMailbox_iff UniqueColumns.nil).mpr fun _ hrow => by cases hrow) hlabels
  rw [storesLowerCase_iff h ((oneAccountPerMailbox_iff h.unique).mp hm) hlabel]
  refine forall_congr' fun t => forall_congr' fun ht => ?_
  exact (oneAccountPerMailbox_iff (h.step hlabel ht).unique).symm

end Runs

/-- A letter that was put into lower case is in lower case. -/
theorem toLower_toLower (c : Char) : c.toLower.toLower = c.toLower := by
  have hnot : ¬(c.toLower.val ≥ 'A'.val ∧ c.toLower.val ≤ 'Z'.val) := by
    by_cases hupper : c.val ≥ 'A'.val ∧ c.val ≤ 'Z'.val
    · have hval : c.toLower.val = c.val + ('a'.val - 'A'.val) := congrArg Char.val (dif_pos hupper)
      rw [hval]
      rintro ⟨-, hle⟩
      have hsum := UInt32.le_iff_toNat_le.mp hle
      have hlow := UInt32.le_iff_toNat_le.mp hupper.1
      have hhigh := UInt32.le_iff_toNat_le.mp hupper.2
      simp only [UInt32.toNat_add] at hsum
      have hA : ('A'.val).toNat = 65 := rfl
      have hZ : ('Z'.val).toNat = 90 := rfl
      have hgap : ('a'.val - 'A'.val).toNat = 32 := rfl
      omega
    · have hsame : c.toLower = c := dif_neg hupper
      rw [hsame]
      exact hupper
  exact dif_neg hnot

/-- Rules that ask for an at sign, and put the letters of the alphabet into lower case. -/
def sampleRules : EmailRules where
  isEmail text := text.toList.contains '@'
  toLowerCase text := String.ofList (text.toList.map Char.toLower)
  toLowerCase_idem text := by
    simp only [String.toList_ofList, List.map_map, String.ofList_inj, List.map_inj_left,
      Function.comp_apply, toLower_toLower, implies_true]

/-- A registration in lower case, and an emailed code to the same mailbox. -/
def sameSpelling : List SignUpLabel :=
  [.register 0 (.start ⟨"ada@example.com", "password"⟩), .register 0 .find,
    .register 0 (.insert "ada"), .verifyCode 0 (.start "ada@example.com"), .verifyCode 0 .findUser]

/-- Two paths with one spelling lead to one account. -/
theorem oneAccountPerMailbox_runs_iff_sameSpelling :
    ((signUps bytesStrategies).exec (.initial 0 []) sameSpelling).isSome = true ∧
      (signUps bytesStrategies).Meets (fun s label => ∀ t,
        (signUps bytesStrategies).step s label = some t →
          OneAccountPerMailbox sampleRules t.users) (.initial 0 []) sameSpelling := by
  refine ⟨by decide +kernel, (oneAccountPerMailbox_runs_iff ?_).mp (by decide +kernel)⟩
  simp only [sameSpelling, List.forall_mem_cons, List.not_mem_nil, false_implies, implies_true,
    and_true, Admitted, true_and]
  exact ⟨⟨⟨"ada@example.com", "password"⟩, by decide +kernel⟩,
    ⟨"Ada@example.com", "123456", by decide +kernel⟩⟩

/-- A registration as it is typed, and an emailed code to the same mailbox. -/
def twoSpellings : List SignUpLabel :=
  [.register 0 (.start ⟨"Ada@example.com", "password"⟩), .register 0 .find,
    .register 0 (.insert "ada"), .verifyCode 0 (.start "ada@example.com"), .verifyCode 0 .findUser,
    .verifyCode 0 (.insertUser "other" "hash")]

/-- Two spellings of one mailbox lead to two accounts. -/
theorem not_oneAccountPerMailbox_twoSpellings : ∃ s,
    (signUps bytesStrategies).exec (.initial 0 []) twoSpellings = some s ∧
      (∀ label ∈ twoSpellings, Admitted sampleRules label) ∧
      s.users.map User.email = ["Ada@example.com", "ada@example.com"] ∧
      ¬OneAccountPerMailbox sampleRules s.users := by
  have hrun := (signUps bytesStrategies).exec_run (.initial 0 []) twoSpellings
    (by decide +kernel)
  refine ⟨_, hrun, ?_, by decide +kernel, fun hone => ?_⟩
  · simp only [twoSpellings, List.forall_mem_cons, List.not_mem_nil, false_implies, implies_true,
      and_true, Admitted, true_and]
    exact ⟨⟨⟨"Ada@example.com", "password"⟩, by decide +kernel⟩,
      ⟨"Ada@example.com", "123456", by decide +kernel⟩⟩
  · have hapart := hone.apart
    revert hapart
    decide +kernel

end VertexApi.Auth
