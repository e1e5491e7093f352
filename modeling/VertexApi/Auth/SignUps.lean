import VertexApi.Auth.Callbacks

/-!
# Sign-ups

A registration, the sign-in after a right emailed code, and a provider login each look for a
row first and insert one in a statement of its own when there is none. The database draws
the id of a new row, so it is no row's id. A violated constraint reaches each path as the
error of the query builder.
-/

namespace VertexApi.Auth

/-- How a registration ends. -/
inductive RegisterAnswer where
  /-- The id and the address of the new row. -/
  | created (userId email : String)
  | refused (failure : HttpException)
  /-- An error that is no HTTP exception. -/
  | crashed
  deriving DecidableEq, Repr

/-- Where a registration stands. -/
inductive RegisterPhase where
  /-- Before the lookup of the address. -/
  | find
  /-- Before the insert. -/
  | insert
  | done (answer : RegisterAnswer)
  deriving DecidableEq, Repr

/-- One `register` call. -/
structure Registration where
  registerDto : RegisterDto
  phase : RegisterPhase
  deriving DecidableEq, Repr

/-- Where a `verifyCode` call stands once it has consumed its row. -/
inductive CodePhase where
  /-- Before the lookup of the user. -/
  | findUser
  /-- Before the insert of a new user. -/
  | insertUser
  | done (answer : VerifyAnswer)
  deriving DecidableEq, Repr

/-- One `verifyCode` call with a right code. -/
structure CodeSignIn where
  email : String
  phase : CodePhase
  deriving DecidableEq, Repr

/-- The users and the callbacks, with the other sign-ups. -/
structure SignUpState extends StrategyState where
  registrations : Nat → Option Registration
  codeSignIns : Nat → Option CodeSignIn

namespace SignUpState

/-- A table of users and no calls. -/
def initial (clock : Nat) (users : List User) : SignUpState where
  toStrategyState := .initial clock users
  registrations _ := none
  codeSignIns _ := none

/-- Replace one registration. -/
def setRegistration (s : SignUpState) (id : Nat) (registration : Registration) : SignUpState :=
  { s with registrations := Function.update s.registrations id (some registration) }

/-- Replace one sign-in. -/
def setCodeSignIn (s : SignUpState) (id : Nat) (codeSignIn : CodeSignIn) : SignUpState :=
  { s with codeSignIns := Function.update s.codeSignIns id (some codeSignIn) }

/-- Replace the table. -/
def withUsers (s : SignUpState) (users : List User) : SignUpState := { s with users := users }

end SignUpState

/-- The steps of a registration. -/
inductive RegisterStep where
  | start (registerDto : RegisterDto)
  | find
  | insert (userId : String)
  deriving DecidableEq, Repr

/-- The steps of a sign-in with a right code. -/
inductive CodeStep where
  | start (email : String)
  | findUser
  | insertUser (userId passwordHash : String)
  deriving DecidableEq, Repr

/-- The steps of a run. -/
inductive SignUpLabel where
  | strategy (label : StrategyLabel)
  | register (id : Nat) (step : RegisterStep)
  | verifyCode (id : Nat) (step : CodeStep)
  deriving DecidableEq, Repr

/-- The id that an insert draws. -/
def drawnUserId : SignUpLabel → Option String
  | .strategy (.callback _ (.insertUser userId _)) => some userId
  | .register _ (.insert userId) => some userId
  | .verifyCode _ (.insertUser userId _) => some userId
  | _ => none

section Machine

variable (config : StrategyConfig)

namespace SignUpState

/-- One step of a registration. -/
def registerStep (s : SignUpState) (id : Nat) (registration : Registration) :
    RegisterStep → Option SignUpState
  | .start _ => none
  | .find =>
    match registration.phase with
    | .find =>
      match findUserByEmail s.users registration.registerDto.email with
      | some _ => some (s.setRegistration id { registration with
          phase := .done (.refused emailInUse) })
      | none => some (s.setRegistration id { registration with phase := .insert })
    | _ => none
  | .insert userId =>
    match registration.phase with
    | .insert =>
      let user := registeredUser config.argon2 registration.registerDto userId s.clock
      match insertUser s.users user with
      | .error _ => some (s.setRegistration id { registration with phase := .done .crashed })
      | .ok users => some ((s.withUsers users).setRegistration id { registration with
          phase := .done (.created user.id user.email) })
    | _ => none

/-- One step of a sign-in with a right code. -/
def codeStep (s : SignUpState) (id : Nat) (codeSignIn : CodeSignIn) :
    CodeStep → Option SignUpState
  | .start _ => none
  | .findUser =>
    match codeSignIn.phase with
    | .findUser =>
      match findUserByEmail s.users codeSignIn.email with
      | some user => some (s.setCodeSignIn id { codeSignIn with
          phase := .done (answerUser user) })
      | none => some (s.setCodeSignIn id { codeSignIn with phase := .insertUser })
    | _ => none
  | .insertUser userId passwordHash =>
    match codeSignIn.phase with
    | .insertUser =>
      let user := newOtpUser config.adminEmail codeSignIn.email userId passwordHash s.clock
      match insertUser s.users user with
      | .error _ => some (s.setCodeSignIn id { codeSignIn with phase := .done .violated })
      | .ok users => some ((s.withUsers users).setCodeSignIn id { codeSignIn with
          phase := .done (answerUser user) })
    | _ => none

end SignUpState

/-- The sign-ups as one machine. -/
def signUps : Machine SignUpState SignUpLabel where
  step s label :=
    if ∃ userId ∈ drawnUserId label, ∃ row ∈ s.users, row.id = userId then none
    else
      match label with
      | .strategy label =>
        ((strategies config).step s.toStrategyState label).map fun strategy =>
          { s with toStrategyState := strategy }
      | .register id (.start registerDto) =>
        if (s.registrations id).isSome then none
        else some (s.setRegistration id ⟨registerDto, .find⟩)
      | .register id step =>
        (s.registrations id).bind fun registration => s.registerStep config id registration step
      | .verifyCode id (.start email) =>
        if (s.codeSignIns id).isSome then none
        else some (s.setCodeSignIn id ⟨email, .findUser⟩)
      | .verifyCode id step =>
        (s.codeSignIns id).bind fun codeSignIn => s.codeStep config id codeSignIn step

/-- What one step of a registration does to the users, and the phases it leads from and to. -/
inductive RegisterMoves (s : SignUpState) (registerDto : RegisterDto) :
    RegisterPhase → RegisterStep → List User → RegisterPhase → Prop where
  | taken {row : User} (h : findUserByEmail s.users registerDto.email = some row) :
    RegisterMoves s registerDto .find .find s.users (.done (.refused emailInUse))
  | free (h : findUserByEmail s.users registerDto.email = none) :
    RegisterMoves s registerDto .find .find s.users .insert
  | created {userId : String} {users : List User}
    (h : insertUser s.users (registeredUser config.argon2 registerDto userId s.clock) =
      .ok users) :
    RegisterMoves s registerDto .insert (.insert userId) users
      (.done (.created userId registerDto.email))
  | crashed {userId : String} {error : ThrownError}
    (h : insertUser s.users (registeredUser config.argon2 registerDto userId s.clock) =
      .error error) :
    RegisterMoves s registerDto .insert (.insert userId) s.users (.done .crashed)

/-- What one step of a sign-in does to the users, and the phases it leads from and to. -/
inductive CodeMoves (s : SignUpState) (email : String) :
    CodePhase → CodeStep → List User → CodePhase → Prop where
  | found {user : User} (h : findUserByEmail s.users email = some user) :
    CodeMoves s email .findUser .findUser s.users (.done (answerUser user))
  | newUser (h : findUserByEmail s.users email = none) :
    CodeMoves s email .findUser .findUser s.users .insertUser
  | created {userId passwordHash : String} {user : User} {users : List User}
    (huser : user = newOtpUser config.adminEmail email userId passwordHash s.clock)
    (h : insertUser s.users user = .ok users) :
    CodeMoves s email .insertUser (.insertUser userId passwordHash) users
      (.done (answerUser user))
  | violated {userId passwordHash : String} {error : ThrownError}
    (h : insertUser s.users (newOtpUser config.adminEmail email userId passwordHash s.clock) =
      .error error) :
    CodeMoves s email .insertUser (.insertUser userId passwordHash) s.users (.done .violated)

/-- A step moves the callbacks, starts a call, or moves one. -/
inductive SignUpMoves (s : SignUpState) : SignUpLabel → SignUpState → Prop where
  | strategy {label : StrategyLabel} {strategy : StrategyState}
    (h : (strategies config).step s.toStrategyState label = some strategy) :
    SignUpMoves s (.strategy label) { s with toStrategyState := strategy }
  | registerStart {id : Nat} {registerDto : RegisterDto} (h : s.registrations id = none) :
    SignUpMoves s (.register id (.start registerDto)) (s.setRegistration id ⟨registerDto, .find⟩)
  | register {id : Nat} {registerDto : RegisterDto} {phase phase' : RegisterPhase}
    {step : RegisterStep} {users : List User} (h : s.registrations id = some ⟨registerDto, phase⟩)
    (hmoves : RegisterMoves config s registerDto phase step users phase') :
    SignUpMoves s (.register id step) ((s.withUsers users).setRegistration id
      ⟨registerDto, phase'⟩)
  | codeStart {id : Nat} {email : String} (h : s.codeSignIns id = none) :
    SignUpMoves s (.verifyCode id (.start email)) (s.setCodeSignIn id ⟨email, .findUser⟩)
  | code {id : Nat} {email : String} {phase phase' : CodePhase} {step : CodeStep}
    {users : List User} (h : s.codeSignIns id = some ⟨email, phase⟩)
    (hmoves : CodeMoves config s email phase step users phase') :
    SignUpMoves s (.verifyCode id step) ((s.withUsers users).setCodeSignIn id ⟨email, phase'⟩)

end Machine

section Inversion

variable {config : StrategyConfig} {s t : SignUpState} {id : Nat}

/-- A step of a registration is one of its moves. -/
theorem registerMoves_of_registerStep {registerDto : RegisterDto} {phase : RegisterPhase}
    {step : RegisterStep} (h : s.registerStep config id ⟨registerDto, phase⟩ step = some t) :
    ∃ users phase', RegisterMoves config s registerDto phase step users phase' ∧
      t = (s.withUsers users).setRegistration id ⟨registerDto, phase'⟩ := by
  cases step with
  | start => cases h
  | find =>
    cases phase with
    | find =>
      simp only [SignUpState.registerStep] at h
      split at h
      · next row hfind => exact ⟨_, _, .taken hfind, (Option.some.inj h).symm⟩
      · next hfind => exact ⟨_, _, .free hfind, (Option.some.inj h).symm⟩
    | insert | done => cases h
  | insert userId =>
    cases phase with
    | insert =>
      simp only [SignUpState.registerStep] at h
      split at h
      · next error hinsert => exact ⟨_, _, .crashed hinsert, (Option.some.inj h).symm⟩
      · next users hinsert => exact ⟨_, _, .created hinsert, (Option.some.inj h).symm⟩
    | find | done => cases h

/-- A step of a sign-in is one of its moves. -/
theorem codeMoves_of_codeStep {email : String} {phase : CodePhase} {step : CodeStep}
    (h : s.codeStep config id ⟨email, phase⟩ step = some t) :
    ∃ users phase', CodeMoves config s email phase step users phase' ∧
      t = (s.withUsers users).setCodeSignIn id ⟨email, phase'⟩ := by
  cases step with
  | start => cases h
  | findUser =>
    cases phase with
    | findUser =>
      simp only [SignUpState.codeStep] at h
      split at h
      · next user hfind => exact ⟨_, _, .found hfind, (Option.some.inj h).symm⟩
      · next hfind => exact ⟨_, _, .newUser hfind, (Option.some.inj h).symm⟩
    | insertUser | done => cases h
  | insertUser userId passwordHash =>
    cases phase with
    | insertUser =>
      simp only [SignUpState.codeStep] at h
      split at h
      · next error hinsert => exact ⟨_, _, .violated hinsert, (Option.some.inj h).symm⟩
      · next users hinsert => exact ⟨_, _, .created rfl hinsert, (Option.some.inj h).symm⟩
    | findUser | done => cases h

/-- Every step of the machine is one of its moves, and draws an id that no row has. -/
theorem signUpMoves_of_step {label : SignUpLabel} (h : (signUps config).step s label = some t) :
    SignUpMoves config s label t ∧
      ∀ userId, drawnUserId label = some userId → ∀ row ∈ s.users, row.id ≠ userId := by
  obtain ⟨hdrawn, hstep⟩ := Option.ite_none_left_eq_some.mp h
  refine ⟨?moves, fun userId hid row hrow he => hdrawn ⟨userId, hid, row, hrow, he⟩⟩
  cases label with
  | strategy label =>
    obtain ⟨strategy, hstrategy, rfl⟩ := Option.map_eq_some_iff.mp hstep
    exact .strategy hstrategy
  | register id step =>
    by_cases hstart : ∃ registerDto, step = .start registerDto
    · obtain ⟨registerDto, rfl⟩ := hstart
      obtain ⟨hnone, ht⟩ := Option.ite_none_left_eq_some.mp hstep
      exact Option.some.inj ht ▸ .registerStart (Option.not_isSome_iff_eq_none.mp hnone)
    · obtain ⟨⟨registerDto, phase⟩, hcall, hcallStep⟩ : ∃ registration,
          s.registrations id = some registration ∧
            s.registerStep config id registration step = some t := by
        cases step with
        | start registerDto => exact absurd ⟨registerDto, rfl⟩ hstart
        | find | insert => exact Option.bind_eq_some_iff.mp hstep
      obtain ⟨users, phase', hmoves, rfl⟩ := registerMoves_of_registerStep hcallStep
      exact .register hcall hmoves
  | verifyCode id step =>
    by_cases hstart : ∃ email, step = .start email
    · obtain ⟨email, rfl⟩ := hstart
      obtain ⟨hnone, ht⟩ := Option.ite_none_left_eq_some.mp hstep
      exact Option.some.inj ht ▸ .codeStart (Option.not_isSome_iff_eq_none.mp hnone)
    · obtain ⟨⟨email, phase⟩, hcall, hcallStep⟩ : ∃ codeSignIn,
          s.codeSignIns id = some codeSignIn ∧
            s.codeStep config id codeSignIn step = some t := by
        cases step with
        | start email => exact absurd ⟨email, rfl⟩ hstart
        | findUser | insertUser => exact Option.bind_eq_some_iff.mp hstep
      obtain ⟨users, phase', hmoves, rfl⟩ := codeMoves_of_codeStep hcallStep
      exact .code hcall hmoves

end Inversion

end VertexApi.Auth
