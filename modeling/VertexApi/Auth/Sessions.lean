import Mathlib.Logic.Function.Basic
import VertexApi.Auth.Guards
import VertexApi.Core.Machine
import VertexApi.Users.Accounts

/-!
# Sessions and admin routes

A sign-in reads the row of a user and signs its claims; a request to an admin route passes
the two guards with the token it carries. Both take their steps one by one, among bans,
removals and any other changes to the accounts. A request carries a token that was issued,
or one that does not decode.
-/

namespace VertexApi.Auth

open Users

universe u

variable {τ : Type u}

/-- A token, the row it was signed from, and the second of its signing. -/
structure IssuedToken where
  row : User
  issuedAt : Nat
  deriving DecidableEq, Repr

/-- Where a request to an admin route stands. -/
inductive AdminPhase where
  /-- Before the verification of the token. -/
  | verify
  /-- Before the lookup of the subject's row. -/
  | lookup (payload : JwtPayload)
  /-- Refused, or handed to the handler. -/
  | done (result : Except HttpException GuardedRequest)
  deriving DecidableEq

/-- A request to an admin route. -/
structure AdminRequest (τ : Type u) where
  accessToken : Option τ
  phase : AdminPhase
  /-- The clock at the verification, kept for statements only. -/
  verifiedAt : Nat
  deriving DecidableEq

/-- The accounts, the sign-ins and the requests. -/
structure SessionsState (τ : Type u) where
  clock : Nat
  tables : AccountTables
  /-- The rows that sign-ins have read. -/
  signIns : Nat → Option User
  issued : List IssuedToken
  requests : Nat → Option (AdminRequest τ)

/-- The steps of a run. -/
inductive SessionsLabel (τ : Type u) where
  | tick (ms : Nat)
  | createUser (user : User)
  /-- Any change to a row that keeps its id, such as a change of role. -/
  | changeUser (user : User)
  /-- Any change to posts and comments. -/
  | content (posts : List Post) (comments : List Comment)
  | setBanned (id : String) (isBanned : Bool) (requestingUserId : String)
  | remove (id requestingUserId : String)
  | removeSelf (id : String)
  /-- A sign-in reads its row. -/
  | readRow (id : Nat) (userId : String)
  /-- A sign-in signs the claims of the row it read. -/
  | issue (id : Nat)
  | request (id : Nat) (accessToken : Option τ)
  | verify (id : Nat)
  | lookup (id : Nat)
  deriving DecidableEq

/-- The token as it was handed out. -/
def IssuedToken.text (jwt : JwtSigner τ) (token : IssuedToken) : τ :=
  jwt.sign (toJwtPayload token.row) token.issuedAt

namespace SessionsState

/-- No calls, over tables of accounts. -/
def initial (clock : Nat) (tables : AccountTables) : SessionsState τ where
  clock := clock
  tables := tables
  signIns _ := none
  issued := []
  requests _ := none

/-- Replace the users. -/
def setUsers (s : SessionsState τ) (users : List User) : SessionsState τ :=
  { s with tables := { s.tables with users := users } }

/-- Replace one request. -/
def setRequest (s : SessionsState τ) (id : Nat) (request : AdminRequest τ) : SessionsState τ :=
  { s with requests := Function.update s.requests id (some request) }

/-- The read of a sign-in. -/
def readRow (s : SessionsState τ) (id : Nat) (userId : String) : Option (SessionsState τ) :=
  match findUserById s.tables.users userId with
  | none => none
  | some user => some { s with signIns := Function.update s.signIns id (some user) }

/-- The signature of a sign-in. -/
def issue (s : SessionsState τ) (row : User) : SessionsState τ :=
  { s with issued := s.issued ++ [⟨row, s.clock / 1000⟩] }

/-- The verification of the token of a request. -/
def verify (jwt : JwtSigner τ) (s : SessionsState τ) (id : Nat) (request : AdminRequest τ) :
    Option (SessionsState τ) :=
  match request.phase with
  | .verify =>
    match verifyCookie jwt request.accessToken s.clock with
    | .error failure => some (s.setRequest id { request with phase := .done (.error failure) })
    | .ok payload => some (s.setRequest id { request with
        phase := .lookup payload, verifiedAt := s.clock })
  | _ => none

/-- The lookup of the subject's row, and what the guards make of it. -/
def lookup (s : SessionsState τ) (id : Nat) (request : AdminRequest τ) : Option (SessionsState τ) :=
  match request.phase with
  | .lookup payload => some (s.setRequest id { request with
      phase := .done (adminRoute payload (findUserById s.tables.users payload.sub)) })
  | _ => none

/-- Whether a request may carry the token: it was issued, or does not decode. -/
def canCarry [DecidableEq τ] (jwt : JwtSigner τ) (s : SessionsState τ) : Option τ → Bool
  | none => true
  | some token =>
    s.issued.any (fun issued => issued.text jwt == token) || (jwt.decode token).isNone

end SessionsState

/-- Accounts, sign-ins and admin routes as one machine. -/
def sessions [DecidableEq τ] (jwt : JwtSigner τ) : Machine (SessionsState τ) (SessionsLabel τ) where
  step s
    | .tick ms => some { s with clock := s.clock + ms }
    | .createUser user =>
      if (findUserById s.tables.users user.id).isSome then none
      else some (s.setUsers (s.tables.users ++ [user]))
    | .changeUser user =>
      some (s.setUsers (s.tables.users.map fun row => if row.id = user.id then user else row))
    | .content posts comments =>
      some { s with tables := { s.tables with posts := posts, comments := comments } }
    | .setBanned id isBanned requestingUserId =>
      some (s.setUsers (setBanned s.tables.users id isBanned requestingUserId).1)
    | .remove id requestingUserId =>
      some { s with tables := (remove s.tables id requestingUserId).1 }
    | .removeSelf id => some { s with tables := (removeSelf s.tables id).1 }
    | .readRow id userId => s.readRow id userId
    | .issue id => (s.signIns id).map s.issue
    | .request id accessToken =>
      if (s.requests id).isSome || !s.canCarry jwt accessToken then none
      else some (s.setRequest id ⟨accessToken, .verify, 0⟩)
    | .verify id => (s.requests id).bind (s.verify jwt id)
    | .lookup id => (s.requests id).bind (s.lookup id)

/-- The claims were signed from the row of an issued token that is live at the time. -/
def Vouched (s : SessionsState τ) (payload : JwtPayload) (now : Nat) : Prop :=
  ∃ token ∈ s.issued, payload = toJwtPayload token.row ∧ tokenIsLive token.issuedAt now = true

/-- What holds of a request in each of its phases. -/
def RequestBacked (s : SessionsState τ) (request : AdminRequest τ) : Prop :=
  match request.phase with
  | .verify => True
  | .lookup payload => Vouched s payload request.verifiedAt
  | .done (.error _) => True
  | .done (.ok guarded) => Vouched s guarded.user request.verifiedAt ∧
    guarded.user.role = .admin ∧
    ∀ row, guarded.currentUser = some row → row.id = guarded.user.sub ∧ row.isBanned = false

/-- Every request carries what it may, and its claims are vouched for. -/
structure Backed [DecidableEq τ] (jwt : JwtSigner τ) (s : SessionsState τ) : Prop where
  carried : ∀ id request, s.requests id = some request →
    s.canCarry jwt request.accessToken = true
  backed : ∀ id request, s.requests id = some request → RequestBacked s request

section Steps

variable {jwt : JwtSigner τ} {s t : SessionsState τ}

/-- More issued tokens vouch for no less. -/
theorem RequestBacked.mono (hissued : ∀ token ∈ s.issued, token ∈ t.issued)
    {request : AdminRequest τ} (h : RequestBacked s request) : RequestBacked t request := by
  have hvouched : ∀ payload now, Vouched s payload now → Vouched t payload now := by
    rintro payload now ⟨token, htoken, hpayload, hlive⟩
    exact ⟨token, hissued token htoken, hpayload, hlive⟩
  obtain ⟨accessToken, phase, verifiedAt⟩ := request
  cases phase with
  | verify => trivial
  | lookup payload => exact hvouched _ _ h
  | done result =>
    cases result with
    | error failure => trivial
    | ok guarded => exact ⟨hvouched _ _ h.1, h.2⟩

/-- More issued tokens may be carried as before. -/
theorem canCarry_mono [DecidableEq τ] (hissued : ∀ token ∈ s.issued, token ∈ t.issued)
    {accessToken : Option τ} (h : s.canCarry jwt accessToken = true) :
    t.canCarry jwt accessToken = true := by
  cases accessToken with
  | none => rfl
  | some token =>
    simp only [SessionsState.canCarry, Bool.or_eq_true, List.any_eq_true] at h ⊢
    rcases h with ⟨issued, hmem, he⟩ | hnone
    · exact Or.inl ⟨issued, hissued issued hmem, he⟩
    · exact Or.inr hnone

/-- A token that is carried and verified was issued for its claims. -/
theorem vouched_of_verifyCookie [DecidableEq τ] {accessToken : Option τ} {payload : JwtPayload}
    {now : Nat}
    (hcarry : s.canCarry jwt accessToken = true)
    (hverified : verifyCookie jwt accessToken now = .ok payload) : Vouched s payload now := by
  obtain ⟨issuedAt, rfl, hlive⟩ := verifyCookie_eq_ok.mp hverified
  simp only [SessionsState.canCarry, Bool.or_eq_true, List.any_eq_true, jwt.decode_sign,
    Option.isNone_some, Bool.false_eq_true, or_false, beq_iff_eq] at hcarry
  obtain ⟨issued, hmem, he⟩ := hcarry
  have hdecode := congrArg jwt.decode he
  rw [IssuedToken.text, jwt.decode_sign, jwt.decode_sign, Option.some.injEq, Prod.mk.injEq]
    at hdecode
  exact ⟨issued, hmem, hdecode.1.symm, hdecode.2 ▸ hlive⟩

variable [DecidableEq τ]

namespace Backed

/-- There are no requests at the start. -/
theorem initial (clock : Nat) (tables : AccountTables) : Backed jwt (.initial clock tables) where
  carried id request hnone := by cases hnone
  backed id request hnone := by cases hnone

/-- A step that leaves the requests alone and forgets no token. -/
theorem outside (h : Backed jwt s) (hrequests : t.requests = s.requests)
    (hissued : ∀ token ∈ s.issued, token ∈ t.issued) : Backed jwt t where
  carried id request hrequest := canCarry_mono hissued (h.carried id request (hrequests ▸ hrequest))
  backed id request hrequest := (h.backed id request (hrequests ▸ hrequest)).mono hissued

/-- A step of one request. -/
theorem setRequest (h : Backed jwt s) {id : Nat} {request : AdminRequest τ}
    (hcarried : s.canCarry jwt request.accessToken = true) (hbacked : RequestBacked s request) :
    Backed jwt (s.setRequest id request) where
  carried other found hfound := by
    rcases update_eq_some_iff.mp hfound with ⟨-, rfl⟩ | ⟨-, hold⟩
    · exact hcarried
    · exact h.carried other found hold
  backed other found hfound := by
    rcases update_eq_some_iff.mp hfound with ⟨-, rfl⟩ | ⟨-, hold⟩
    · exact hbacked
    · exact h.backed other found hold

/-- The verification of a request. -/
theorem verify (h : Backed jwt s) {id : Nat}
    (hstep : (sessions jwt).step s (.verify id) = some t) : Backed jwt t := by
  obtain ⟨⟨accessToken, phase, verifiedAt⟩, hrequest, hstep⟩ := Option.bind_eq_some_iff.mp hstep
  have hcarried := h.carried id _ hrequest
  cases phase with
  | verify =>
    simp only [SessionsState.verify] at hstep
    cases hverified : verifyCookie jwt accessToken s.clock with
    | error failure =>
      simp only [hverified] at hstep
      obtain rfl := Option.some.inj hstep
      exact h.setRequest hcarried trivial
    | ok payload =>
      simp only [hverified] at hstep
      obtain rfl := Option.some.inj hstep
      exact h.setRequest hcarried (vouched_of_verifyCookie hcarried hverified)
  | lookup | done => cases hstep

/-- The lookup of a request. -/
theorem lookup (h : Backed jwt s) {id : Nat}
    (hstep : (sessions jwt).step s (.lookup id) = some t) : Backed jwt t := by
  obtain ⟨⟨accessToken, phase, verifiedAt⟩, hrequest, hstep⟩ := Option.bind_eq_some_iff.mp hstep
  have hcarried := h.carried id _ hrequest
  cases phase with
  | lookup payload =>
    obtain rfl := Option.some.inj hstep
    refine h.setRequest hcarried ?_
    cases hroute : adminRoute payload (findUserById s.tables.users payload.sub) with
    | error failure => trivial
    | ok guarded =>
      obtain ⟨hrole, hrow, rfl⟩ := adminRoute_eq_ok.mp hroute
      refine ⟨h.backed id _ hrequest, hrole, fun row hfound => ?_⟩
      exact ⟨id_of_findUserById hfound, hrow row hfound⟩
  | verify | done => cases hstep

/-- Every step keeps the requests backed. -/
theorem step (h : Backed jwt s) {label : SessionsLabel τ}
    (hstep : (sessions jwt).step s label = some t) : Backed jwt t := by
  cases label with
  | tick | changeUser | content | setBanned | remove | removeSelf =>
    obtain rfl := Option.some.inj hstep
    exact h.outside rfl fun _ htoken => htoken
  | createUser user =>
    simp only [sessions, Option.ite_none_left_eq_some, Option.some.injEq] at hstep
    exact hstep.2 ▸ h.outside rfl fun _ htoken => htoken
  | readRow id userId =>
    simp only [sessions, SessionsState.readRow] at hstep
    cases hrow : findUserById s.tables.users userId with
    | none => simp only [hrow, reduceCtorEq] at hstep
    | some user =>
      simp only [hrow] at hstep
      obtain rfl := Option.some.inj hstep
      exact h.outside rfl fun _ htoken => htoken
  | issue id =>
    obtain ⟨row, -, rfl⟩ := Option.map_eq_some_iff.mp hstep
    exact h.outside rfl fun _ htoken => List.mem_append_left _ htoken
  | request id accessToken =>
    simp only [sessions, Option.ite_none_left_eq_some, Bool.or_eq_true, not_or, Bool.not_eq_true,
      Bool.not_eq_false', Option.some.injEq] at hstep
    obtain ⟨⟨-, hcarried⟩, rfl⟩ := hstep
    exact h.setRequest hcarried trivial
  | verify id => exact h.verify hstep
  | lookup id => exact h.lookup hstep

end Backed

/-- The requests are backed in every reachable state. -/
theorem backed_of_exec {clock : Nat} {tables : AccountTables} {labels : List (SessionsLabel τ)}
    (h : (sessions jwt).exec (.initial clock tables) labels = some s) : Backed jwt s :=
  (sessions jwt).exec_invariant (Backed.initial clock tables) (fun _ _ _ hm => hm.step) h

/-- What the lookup makes of a request whose token was verified. -/
theorem step_adminLookup {id verifiedAt : Nat} {accessToken : Option τ} {payload : JwtPayload}
    (hrequest : s.requests id = some ⟨accessToken, .lookup payload, verifiedAt⟩) :
    (sessions jwt).step s (.lookup id) = some t ↔ t = s.setRequest id ⟨accessToken,
      .done (adminRoute payload (findUserById s.tables.users payload.sub)), verifiedAt⟩ := by
  simp only [sessions, hrequest, Option.bind_some, SessionsState.lookup, Option.some.injEq,
    eq_comm (b := t)]

end Steps

/-- A request reached its handler. -/
def Reached (s : SessionsState τ) (id : Nat) (guarded : GuardedRequest) : Prop :=
  ∃ accessToken verifiedAt, s.requests id = some ⟨accessToken, .done (.ok guarded), verifiedAt⟩

/-- A request reaches its handler by what the guards answer. -/
theorem reached_setRequest {s : SessionsState τ} {id verifiedAt : Nat} {accessToken : Option τ}
    {result : Except HttpException GuardedRequest} {guarded : GuardedRequest} :
    Reached (s.setRequest id ⟨accessToken, .done result, verifiedAt⟩) id guarded ↔
      result = .ok guarded := by
  simp only [Reached, SessionsState.setRequest, Function.update_self, Option.some.injEq,
    AdminRequest.mk.injEq, AdminPhase.done.injEq]
  constructor
  · rintro ⟨_, _, -, hresult, -⟩
    exact hresult
  · intro hresult
    exact ⟨_, _, rfl, hresult, rfl⟩

/-- At the lookup the subject existed, was not banned, and was an admin. -/
def AdminAtLookup (guarded : GuardedRequest) : Prop :=
  ∃ row, guarded.currentUser = some row ∧ row.isBanned = false ∧ row.role = .admin

/-- In every run an admin route opens to the role among the claims of an issued token that
was live when it was verified, and closes to a subject whose row is banned at the lookup;
it opens to a verified token in no other case and in each of these. -/
theorem adminRoute_by_claims [DecidableEq τ] (jwt : JwtSigner τ) (clock : Nat)
    (tables : AccountTables) {labels : List (SessionsLabel τ)} {s : SessionsState τ}
    (h : (sessions jwt).exec (.initial clock tables) labels = some s) :
    (∀ id accessToken guarded verifiedAt,
      s.requests id = some ⟨accessToken, .done (.ok guarded), verifiedAt⟩ →
      guarded.user.role = .admin ∧
      (∀ row, guarded.currentUser = some row →
        row.id = guarded.user.sub ∧ row.isBanned = false) ∧
      ∃ token ∈ s.issued, guarded.user = toJwtPayload token.row ∧ token.row.role = .admin ∧
        tokenIsLive token.issuedAt verifiedAt = true) ∧
    ∀ id accessToken payload verifiedAt t,
      s.requests id = some ⟨accessToken, .lookup payload, verifiedAt⟩ →
      (sessions jwt).step s (.lookup id) = some t →
      ((∃ guarded, Reached t id guarded) ↔ payload.role = .admin ∧
        ∀ row, findUserById s.tables.users payload.sub = some row → row.isBanned = false) := by
  refine ⟨fun id accessToken guarded verifiedAt hrequest => ?_,
    fun id accessToken payload verifiedAt t hrequest hstep => ?_⟩
  · obtain ⟨⟨token, htoken, hclaims, hlive⟩, hrole, hrow⟩ :=
      (backed_of_exec h).backed id _ hrequest
    refine ⟨hrole, hrow, token, htoken, hclaims, ?_, hlive⟩
    rw [hclaims] at hrole
    exact hrole
  · obtain rfl := (step_adminLookup hrequest).mp hstep
    simp only [reached_setRequest, adminRoute_eq_ok]
    constructor
    · rintro ⟨guarded, hrole, hrow, -⟩
      exact ⟨hrole, hrow⟩
    · rintro ⟨hrole, hrow⟩
      exact ⟨_, hrole, hrow, rfl⟩

/-- An admin. -/
def someAdmin : User where
  id := "a"
  email := "admin@example.com"
  passwordHash := "h"
  name := none
  displayName := none
  avatarUrl := none
  githubId := none
  googleId := none
  isBanned := false
  role := .admin
  createdAt := 0
  updatedAt := 0

/-- The admin signs in, deletes his account, and visits an admin route with his token. -/
def deletedAdminRun : List (SessionsLabel (Option (JwtPayload × Nat))) :=
  [.readRow 0 "a", .issue 0, .tick 1000, .removeSelf "a",
    .request 0 (some (some (toJwtPayload someAdmin, 0))), .verify 0, .lookup 0]

/-- Where that leaves the sessions. -/
def adminDeleted : SessionsState (Option (JwtPayload × Nat)) :=
  (sessions claimsSigner).run (.initial 0 ⟨[someAdmin], [], [], []⟩) deletedAdminRun
    (by decide +kernel)

/-- The route opened to the claims of an admin. -/
theorem adminRoute_by_claims_adminDeleted :
    ∃ token ∈ adminDeleted.issued, toJwtPayload someAdmin = toJwtPayload token.row ∧
      token.row.role = .admin ∧ tokenIsLive token.issuedAt 1000 = true :=
  ((adminRoute_by_claims claimsSigner 0 ⟨[someAdmin], [], [], []⟩
    ((sessions claimsSigner).exec_run ..)).1 0 (some (some (toJwtPayload someAdmin, 0)))
      ⟨toJwtPayload someAdmin, none⟩ 1000 (by decide +kernel)).2.2

/-- Nobody was an admin any more when it did. -/
theorem not_adminAtLookup_adminDeleted :
    adminDeleted.tables.users = [] ∧
    ∃ guarded, Reached adminDeleted 0 guarded ∧ ¬AdminAtLookup guarded := by
  refine ⟨by decide +kernel, ⟨toJwtPayload someAdmin, none⟩, ?_, ?_⟩
  · exact ⟨some (some (toJwtPayload someAdmin, 0)), 1000, by decide +kernel⟩
  · rintro ⟨row, hrow, -⟩
    cases hrow

end VertexApi.Auth
