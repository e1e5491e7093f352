import Mathlib.Logic.Function.Basic
import VertexApi.Auth.Strategies
import VertexApi.Core.Bindings
import VertexApi.Core.Machine
import VertexApi.Users.Profile

/-!
# Provider callbacks

A callback validates a profile, and then logs in or links. Every database statement of it is
one step, so a run interleaves any number of callbacks of both providers with other changes
to the users. A lookup by two columns has no order, so it may return any row that matches.
The record of sign-ins and removals is kept for statements only.
-/

namespace VertexApi.Auth

open Users

/-- What the strategies take from their surroundings. -/
structure StrategyConfig where
  signer : CookieSigner
  argon2 : PasswordHash
  /-- `process.env.ADMIN_EMAIL`. -/
  adminEmail : Option String

/-- Where a callback stands. -/
inductive CallbackPhase where
  /-- Before the lookup of a login. -/
  | findUser
  /-- Before the update of a login, over the row that the lookup returned. -/
  | updateUser (existing : User)
  /-- Before the insert of a login. -/
  | insertUser
  /-- Before the lookup of another user with the provider id. -/
  | findConflicting (linkUserId : String)
  /-- Before the lookup of the user to link. -/
  | findCurrent (linkUserId : String)
  /-- Before the update of a link, over the row that the lookup returned. -/
  | updateCurrent (linkUserId : String) (current : User)
  | done (answer : CallbackAnswer)
  deriving DecidableEq, Repr

/-- One callback, from the validated profile on. -/
structure Callback where
  identity : ProviderIdentity
  phase : CallbackPhase
  deriving DecidableEq, Repr

/-- The users, the callbacks, and the record. -/
structure StrategyState where
  clock : Nat
  users : List User
  callbacks : Nat → Option Callback
  /-- Every login binds a provider id to a user, and a removal drops the user. -/
  log : List (BindingEvent (OAuthProvider × String) String)

namespace StrategyState

/-- A table of users and no callbacks. -/
def initial (clock : Nat) (users : List User) : StrategyState where
  clock := clock
  users := users
  callbacks _ := none
  log := []

/-- Replace one callback. -/
def setCallback (s : StrategyState) (id : Nat) (callback : Callback) : StrategyState :=
  { s with callbacks := Function.update s.callbacks id (some callback) }

@[simp] theorem setCallback_callbacks_self (s : StrategyState) (id : Nat) (callback : Callback) :
    (s.setCallback id callback).callbacks id = some callback := Function.update_self ..

/-- A sign-in enters the record. -/
def signedIn (s : StrategyState) (identity : ProviderIdentity) (user : User) : StrategyState :=
  { s with log := s.log ++ [.bound (identity.provider, identity.providerId) user.id] }

end StrategyState

/-- The steps of a callback. -/
inductive CallbackStep where
  /-- The lookup of a login, with the row that it returns. -/
  | findUser (pick : Option User)
  | updateUser
  | insertUser (userId passwordHash : String)
  | findConflicting
  | findCurrent
  | updateCurrent
  /-- A statement fails, whatever it is. -/
  | fail
  deriving DecidableEq, Repr

/-- What other operations do to the users. -/
inductive AccountChange where
  | register (registerDto : RegisterDto) (userId : String)
  /-- The insert of a first emailed code. -/
  | verifyCode (email userId passwordHash : String)
  /-- The write of a profile edit, over the row that it has read. -/
  | updateSelf (userId : String) (dto : UpdateProfileDto) (existing : User)
  | setBanned (userId : String) (isBanned : Bool)
  | remove (userId : String)
  deriving DecidableEq, Repr

/-- The steps of a run. -/
inductive StrategyLabel where
  | tick (ms : Nat)
  | account (change : AccountChange)
  /-- The start of a callback, up to its first statement. -/
  | validate (id : Nat) (linkCookie : Option String) (profile : Profile)
  | callback (id : Nat) (step : CallbackStep)
  deriving DecidableEq, Repr

/-- The table after a statement that changes it or throws. -/
def afterInsert (users : List User) (row : User) : List User :=
  match insertUser users row with
  | .error _ => users
  | .ok inserted => inserted

/-- The table after another operation. -/
def AccountChange.apply (config : StrategyConfig) (now : Nat) (users : List User) :
    AccountChange → List User
  | .register registerDto userId =>
    afterInsert users (registeredUser config.argon2 registerDto userId now)
  | .verifyCode email userId passwordHash =>
    afterInsert users (newOtpUser config.adminEmail email userId passwordHash now)
  | .updateSelf userId dto existing => updateWhere User.id userId (edited dto existing now) users
  | .setBanned userId isBanned =>
    updateWhere User.id userId (fun row => { row with isBanned := isBanned }) users
  | .remove userId => users.filter fun row => row.id != userId

/-- What another operation adds to the record. -/
def AccountChange.event : AccountChange → List (BindingEvent (OAuthProvider × String) String)
  | .remove userId => [.dropped userId]
  | _ => []

section Machine

variable (config : StrategyConfig)

/-- The start of a callback: its identity, and whether it logs in or links. -/
def startCallback (linkCookie : Option String) (identity : ProviderIdentity) : Callback where
  identity := identity
  phase :=
    match getVerifiedLinkUserId config.signer linkCookie with
    | none => .findUser
    | some linkUserId => .findConflicting linkUserId

/-- What a failing statement leads to. -/
def failed (identity : ProviderIdentity) : CallbackPhase → Option CallbackPhase
  | .findUser | .updateUser _ | .insertUser => some (.done (loginFailed identity.provider))
  | .findConflicting _ | .findCurrent _ | .updateCurrent _ _ =>
    some (.done (linkFailed identity.provider))
  | .done _ => none

namespace StrategyState

/-- One step of a callback. -/
def callbackStep (s : StrategyState) (id : Nat) (callback : Callback) :
    CallbackStep → Option StrategyState
  | .findUser pick =>
    match callback.phase with
    | .findUser =>
      if Picks s.users (matchesIdentity callback.identity) pick then
        some (s.setCallback id { callback with phase :=
          match pick with
          | none => .insertUser
          | some existing => .updateUser existing })
      else none
    | _ => none
  | .updateUser =>
    match callback.phase with
    | .updateUser existing =>
      match updateUser s.users existing.id (loggedIn callback.identity existing) with
      | .error _ => some (s.setCallback id { callback with
          phase := .done (loginFailed callback.identity.provider) })
      | .ok (_, none) => some (s.setCallback id { callback with phase := .done .crashed })
      | .ok (users, some user) =>
        some (({ s with users := users }.signedIn callback.identity user).setCallback id
          { callback with phase := .done (.signedIn (toJwtPayload user)) })
    | _ => none
  | .insertUser userId passwordHash =>
    match callback.phase with
    | .insertUser =>
      let user := newProviderUser config.adminEmail callback.identity userId passwordHash s.clock
      match insertUser s.users user with
      | .error error => some (s.setCallback id { callback with
          phase := .done (insertFailed error callback.identity.provider) })
      | .ok users =>
        some (({ s with users := users }.signedIn callback.identity user).setCallback id
          { callback with phase := .done (.signedIn (toJwtPayload user)) })
    | _ => none
  | .findConflicting =>
    match callback.phase with
    | .findConflicting linkUserId =>
      let conflicting := s.users.find? fun user =>
        linkedId callback.identity.provider user == some callback.identity.providerId
      if conflicting.any fun user => user.id != linkUserId then
        some (s.setCallback id { callback with
          phase := .done (.rejected (alreadyLinked callback.identity.provider)) })
      else some (s.setCallback id { callback with phase := .findCurrent linkUserId })
    | _ => none
  | .findCurrent =>
    match callback.phase with
    | .findCurrent linkUserId =>
      match findUserById s.users linkUserId with
      | none => some (s.setCallback id { callback with
          phase := .done (.rejected (linkUserNotFound callback.identity.provider)) })
      | some current => some (s.setCallback id { callback with
          phase := .updateCurrent linkUserId current })
    | _ => none
  | .updateCurrent =>
    match callback.phase with
    | .updateCurrent linkUserId current =>
      match updateUser s.users linkUserId (linked callback.identity current) with
      | .error _ | .ok (_, none) => some (s.setCallback id { callback with
          phase := .done (linkFailed callback.identity.provider) })
      | .ok (users, some user) =>
        some ({ s with users := users }.setCallback id
          { callback with phase := .done (.signedIn (toJwtPayload user)) })
    | _ => none
  | .fail => (failed callback.identity callback.phase).map fun phase =>
      s.setCallback id { callback with phase := phase }

end StrategyState

/-- Callbacks and other changes to the users as one machine. A profile without an identity is
rejected before any statement. -/
def strategies : Machine StrategyState StrategyLabel where
  step s
    | .tick ms => some { s with clock := s.clock + ms }
    | .account change => some { s with
        users := change.apply config s.clock s.users
        log := s.log ++ change.event }
    | .validate id linkCookie profile =>
      if (s.callbacks id).isSome then none
      else
        match identityOf profile with
        | .error _ => some s
        | .ok identity => some (s.setCallback id (startCallback config linkCookie identity))
    | .callback id step =>
      (s.callbacks id).bind fun callback => s.callbackStep config id callback step

end Machine

/-- What one step of a callback does to the rest of the state, and the phase it leads to. -/
inductive CallbackMoves (config : StrategyConfig) (s : StrategyState) (callback : Callback) :
    CallbackStep → StrategyState → CallbackPhase → Prop where
  | absent (h : callback.phase = .findUser)
    (hpick : Picks s.users (matchesIdentity callback.identity) none) :
    CallbackMoves config s callback (.findUser none) s .insertUser
  | found {existing : User} (h : callback.phase = .findUser)
    (hpick : Picks s.users (matchesIdentity callback.identity) (some existing)) :
    CallbackMoves config s callback (.findUser (some existing)) s (.updateUser existing)
  | updated {existing user : User} {users : List User} (h : callback.phase = .updateUser existing)
    (hupdate : updateUser s.users existing.id (loggedIn callback.identity existing) =
      .ok (users, some user)) :
    CallbackMoves config s callback .updateUser
      ({ s with users := users }.signedIn callback.identity user)
      (.done (.signedIn (toJwtPayload user)))
  | vanished {existing : User} {users : List User} (h : callback.phase = .updateUser existing)
    (hupdate : updateUser s.users existing.id (loggedIn callback.identity existing) =
      .ok (users, none)) :
    CallbackMoves config s callback .updateUser s (.done .crashed)
  | refused {existing : User} {error : ThrownError} (h : callback.phase = .updateUser existing)
    (hupdate : updateUser s.users existing.id (loggedIn callback.identity existing) =
      .error error) :
    CallbackMoves config s callback .updateUser s
      (.done (loginFailed callback.identity.provider))
  | inserted {user : User} {users : List User} {userId passwordHash : String}
    (h : callback.phase = .insertUser)
    (huser : user = newProviderUser config.adminEmail callback.identity userId passwordHash s.clock)
    (hinsert : insertUser s.users user = .ok users) :
    CallbackMoves config s callback (.insertUser userId passwordHash)
      ({ s with users := users }.signedIn callback.identity user)
      (.done (.signedIn (toJwtPayload user)))
  | insertRefused {error : ThrownError} {userId passwordHash : String}
    (h : callback.phase = .insertUser)
    (hinsert : insertUser s.users (newProviderUser config.adminEmail callback.identity userId
      passwordHash s.clock) = .error error) :
    CallbackMoves config s callback (.insertUser userId passwordHash) s
      (.done (insertFailed error callback.identity.provider))
  | conflicting {linkUserId : String} {user : User}
    (h : callback.phase = .findConflicting linkUserId) (huser : user ∈ s.users)
    (hid : linkedId callback.identity.provider user = some callback.identity.providerId)
    (hne : user.id ≠ linkUserId) :
    CallbackMoves config s callback .findConflicting s
      (.done (.rejected (alreadyLinked callback.identity.provider)))
  | notConflicting {linkUserId : String} (h : callback.phase = .findConflicting linkUserId) :
    CallbackMoves config s callback .findConflicting s (.findCurrent linkUserId)
  | unknown {linkUserId : String} (h : callback.phase = .findCurrent linkUserId)
    (hcurrent : findUserById s.users linkUserId = none) :
    CallbackMoves config s callback .findCurrent s
      (.done (.rejected (linkUserNotFound callback.identity.provider)))
  | current {linkUserId : String} {current : User} (h : callback.phase = .findCurrent linkUserId)
    (hcurrent : findUserById s.users linkUserId = some current) :
    CallbackMoves config s callback .findCurrent s (.updateCurrent linkUserId current)
  | linked {linkUserId : String} {current user : User} {users : List User}
    (h : callback.phase = .updateCurrent linkUserId current)
    (hupdate : updateUser s.users linkUserId (linked callback.identity current) =
      .ok (users, some user)) :
    CallbackMoves config s callback .updateCurrent { s with users := users }
      (.done (.signedIn (toJwtPayload user)))
  | linkRefused {linkUserId : String} {current : User}
    (h : callback.phase = .updateCurrent linkUserId current) :
    CallbackMoves config s callback .updateCurrent s
      (.done (linkFailed callback.identity.provider))
  | failed {phase : CallbackPhase}
    (h : failed callback.identity callback.phase = some phase) :
    CallbackMoves config s callback .fail s phase

section Inversion

variable {config : StrategyConfig} {s t : StrategyState} {id : Nat} {callback : Callback}

/-- A step of a callback moves it. -/
theorem moves_of_callbackStep {step : CallbackStep}
    (h : s.callbackStep config id callback step = some t) : ∃ m phase,
      CallbackMoves config s callback step m phase ∧
      t = m.setCallback id { callback with phase := phase } := by
  cases step with
  | findUser pick =>
    simp only [StrategyState.callbackStep] at h
    split at h
    · next hphase =>
      obtain ⟨hpick, hsome⟩ := Option.ite_none_right_eq_some.mp h
      cases pick with
      | none => exact ⟨s, .insertUser, .absent hphase hpick, (Option.some.inj hsome).symm⟩
      | some existing =>
        exact ⟨s, .updateUser existing, .found hphase hpick, (Option.some.inj hsome).symm⟩
    · cases h
  | updateUser =>
    simp only [StrategyState.callbackStep] at h
    split at h
    · next existing hphase =>
      split at h
      · next error hupdate => exact ⟨_, _, .refused hphase hupdate, (Option.some.inj h).symm⟩
      · next users hupdate => exact ⟨_, _, .vanished hphase hupdate, (Option.some.inj h).symm⟩
      · next users user hupdate => exact ⟨_, _, .updated hphase hupdate, (Option.some.inj h).symm⟩
    · cases h
  | insertUser userId passwordHash =>
    simp only [StrategyState.callbackStep] at h
    split at h
    · next hphase =>
      split at h
      · next error hinsert =>
        exact ⟨_, _, .insertRefused hphase hinsert, (Option.some.inj h).symm⟩
      · next users hinsert => exact ⟨_, _, .inserted hphase rfl hinsert, (Option.some.inj h).symm⟩
    · cases h
  | findConflicting =>
    simp only [StrategyState.callbackStep] at h
    split at h
    · next linkUserId hphase =>
      split at h
      · next hany =>
        obtain ⟨user, hfind, hne⟩ := (Option.any_eq_true _ _).mp hany
        have huser := List.mem_of_find?_eq_some hfind
        have hid : linkedId callback.identity.provider user =
            some callback.identity.providerId := by
          simpa only [beq_iff_eq] using List.find?_some hfind
        exact ⟨_, _, .conflicting hphase huser hid (bne_iff_ne.mp hne), (Option.some.inj h).symm⟩
      · exact ⟨_, _, .notConflicting hphase, (Option.some.inj h).symm⟩
    · cases h
  | findCurrent =>
    simp only [StrategyState.callbackStep] at h
    split at h
    · next linkUserId hphase =>
      split at h
      · next hcurrent => exact ⟨_, _, .unknown hphase hcurrent, (Option.some.inj h).symm⟩
      · next current hcurrent => exact ⟨_, _, .current hphase hcurrent, (Option.some.inj h).symm⟩
    · cases h
  | updateCurrent =>
    simp only [StrategyState.callbackStep] at h
    split at h
    · next linkUserId current hphase =>
      split at h
      · exact ⟨_, _, .linkRefused hphase, (Option.some.inj h).symm⟩
      · exact ⟨_, _, .linkRefused hphase, (Option.some.inj h).symm⟩
      · next users user hupdate => exact ⟨_, _, .linked hphase hupdate, (Option.some.inj h).symm⟩
    · cases h
  | fail =>
    obtain ⟨phase, hphase, hsome⟩ := Option.map_eq_some_iff.mp h
    exact ⟨s, phase, .failed hphase, hsome.symm⟩

/-- A step changes the users as another operation does, starts a callback, or moves one. -/
theorem strategies_step_cases {label : StrategyLabel}
    (h : (strategies config).step s label = some t) :
    (∃ ms, label = .tick ms ∧ t = { s with clock := s.clock + ms }) ∨
    (∃ change, label = .account change ∧ t = { s with
      users := change.apply config s.clock s.users
      log := s.log ++ change.event }) ∨
    (∃ id linkCookie profile, label = .validate id linkCookie profile ∧
      s.callbacks id = none ∧ (t = s ∨ ∃ identity, identityOf profile = .ok identity ∧
        t = s.setCallback id (startCallback config linkCookie identity))) ∨
    ∃ id step callback m phase, label = .callback id step ∧ s.callbacks id = some callback ∧
      CallbackMoves config s callback step m phase ∧
      t = m.setCallback id { callback with phase := phase } := by
  cases label with
  | tick ms => exact Or.inl ⟨ms, rfl, (Option.some.inj h).symm⟩
  | account change => exact Or.inr (Or.inl ⟨change, rfl, (Option.some.inj h).symm⟩)
  | validate id linkCookie profile =>
    simp only [strategies] at h
    obtain ⟨hfree, hstart⟩ := Option.ite_none_left_eq_some.mp h
    rw [Option.not_isSome_iff_eq_none] at hfree
    refine Or.inr (Or.inr (Or.inl ⟨id, linkCookie, profile, rfl, hfree, ?_⟩))
    split at hstart
    · exact Or.inl (Option.some.inj hstart).symm
    · next identity hidentity => exact Or.inr ⟨identity, hidentity, (Option.some.inj hstart).symm⟩
  | callback id step =>
    obtain ⟨callback, hcallback, hstep⟩ := Option.bind_eq_some_iff.mp h
    obtain ⟨m, phase, hmoves, ht⟩ := moves_of_callbackStep hstep
    exact Or.inr (Or.inr (Or.inr ⟨id, step, callback, m, phase, rfl, hcallback, hmoves, ht⟩))

end Inversion

end VertexApi.Auth
