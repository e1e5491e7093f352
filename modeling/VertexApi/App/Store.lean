import VertexApi.Auth.ExchangeCodes
import VertexApi.Auth.Guards
import VertexApi.Auth.Strategies
import VertexApi.Comments.CommentsService
import VertexApi.Core.Turns
import VertexApi.Posts.PostsService
import VertexApi.Users.Accounts

/-!
# The database of the services

The tables that the services share, and the statements that they make. An operation is a
program over them: a statement runs at once, throws when it violates a constraint, and may
fail for any other reason. What the services hand to the token signer, to the mail sender
and to the bucket is recorded for statements only.
-/

namespace VertexApi.App

open Auth Comments Posts Users

/-- What a service hands over. -/
inductive Outbound where
  | signed (payload : JwtPayload)
  | mailed (email code : String)
  | deletedFiles (keys : List String)
  deriving DecidableEq, Repr

/-- The tables, the clock, and the record. -/
structure Store where
  clock : Nat
  users : List User
  emailOtps : List EmailOtp
  oauthExchangeCodes : List OauthExchangeCode
  posts : List Post
  topics : List Topic
  /-- Pairs of a post id and a topic id. -/
  postsToTopics : List (String × String)
  comments : List Comment
  outbound : List Outbound
  deriving DecidableEq, Repr

/-- What an operation throws. -/
inductive Failure where
  | refused (exception : HttpException)
  /-- The rejection of a taken slug names its field. -/
  | slugInUse (exception : HttpException) (field : String)
  /-- The error of a statement, or of the mail sender or the bucket. -/
  | thrown (error : ThrownError)
  /-- The read of a field of `undefined`. -/
  | typeError
  deriving DecidableEq, Repr

/-- The failure of an operation on posts. -/
def Failure.ofPost : PostFailure → Failure
  | .refused exception => .refused exception
  | .slugInUse exception field => .slugInUse exception field
  | .thrown error => .thrown error

/-- A program of the services. -/
abbrev Operation := Program Store Failure

namespace Store

/-- The store before the first write. -/
def empty : Store where
  clock := 0
  users := []
  emailOtps := []
  oauthExchangeCodes := []
  posts := []
  topics := []
  postsToTopics := []
  comments := []
  outbound := []

/-- The tables of a removal. -/
def accounts (s : Store) : AccountTables where
  users := s.users
  posts := s.posts
  comments := s.comments
  oauthExchangeCodes := s.oauthExchangeCodes

/-- The store after a removal. -/
def withAccounts (s : Store) (tables : AccountTables) : Store :=
  { s with
    users := tables.users
    posts := tables.posts
    comments := tables.comments
    oauthExchangeCodes := tables.oauthExchangeCodes }

/-- The tables of the blog. -/
def blog (s : Store) : PostTables where
  posts := s.posts
  topics := s.topics
  postsToTopics := s.postsToTopics

/-- The store after a write to the blog. -/
def withBlog (s : Store) (tables : PostTables) : Store :=
  { s with
    posts := tables.posts
    topics := tables.topics
    postsToTopics := tables.postsToTopics }

/-- The store after a write to the codes. -/
def withOtps (s : Store) (emailOtps : List EmailOtp) : Store := { s with emailOtps := emailOtps }

/-- The store after a write to the users. -/
def withUsers (s : Store) (users : List User) : Store := { s with users := users }

/-- The store after something was handed over. -/
def handing (s : Store) (outbound : Outbound) : Store :=
  { s with outbound := s.outbound ++ [outbound] }

section Fields

variable (s : Store)

@[simp] theorem withOtps_clock (rows : List EmailOtp) : (s.withOtps rows).clock = s.clock := rfl

@[simp] theorem withOtps_users (rows : List EmailOtp) : (s.withOtps rows).users = s.users := rfl

@[simp] theorem withOtps_emailOtps (rows : List EmailOtp) : (s.withOtps rows).emailOtps = rows :=
  rfl

@[simp] theorem withOtps_withOtps (former rows : List EmailOtp) :
    (s.withOtps former).withOtps rows = s.withOtps rows := rfl

@[simp] theorem withUsers_clock (users : List User) : (s.withUsers users).clock = s.clock := rfl

@[simp] theorem withUsers_users (users : List User) : (s.withUsers users).users = users := rfl

@[simp] theorem withUsers_emailOtps (users : List User) :
    (s.withUsers users).emailOtps = s.emailOtps := rfl

@[simp] theorem handing_clock (outbound : Outbound) : (s.handing outbound).clock = s.clock := rfl

@[simp] theorem handing_users (outbound : Outbound) : (s.handing outbound).users = s.users := rfl

@[simp] theorem handing_emailOtps (outbound : Outbound) :
    (s.handing outbound).emailOtps = s.emailOtps := rfl

end Fields

end Store

/-- The row that a lookup without an order returns, among those that match. -/
def pickedRow {ρ : Type} (rows : List ρ) (p : ρ → Bool) (pick : Nat) : Option ρ :=
  (rows.filter p)[pick % (rows.filter p).length]?

/-- Such a lookup returns any row that matches, and none only if none does. -/
theorem picks_iff_pickedRow {ρ : Type} {rows : List ρ} {p : ρ → Bool} {found : Option ρ} :
    Picks rows p found ↔ ∃ pick, pickedRow rows p pick = found := by
  have hmem : ∀ row, row ∈ rows ∧ p row = true ↔ row ∈ rows.filter p := fun row =>
    List.mem_filter.symm
  constructor
  · intro h
    cases found with
    | none =>
      have hnil : rows.filter p = [] :=
        List.filter_eq_nil_iff.mpr fun row hrow => by rw [h row hrow]; exact Bool.false_ne_true
      exact ⟨0, by rw [pickedRow, hnil]; rfl⟩
    | some row =>
      obtain ⟨pick, hlt, hpick⟩ := List.mem_iff_getElem.mp ((hmem row).mp h)
      refine ⟨pick, ?_⟩
      rw [pickedRow, Nat.mod_eq_of_lt hlt, List.getElem?_eq_getElem hlt, hpick]
  · rintro ⟨pick, rfl⟩
    cases hfound : pickedRow rows p pick with
    | none =>
      intro row hrow
      have hle := List.getElem?_eq_none_iff.mp hfound
      cases hp : p row with
      | false => rfl
      | true =>
        have hpos := List.length_pos_of_mem ((hmem row).mp ⟨hrow, hp⟩)
        exact absurd (Nat.mod_lt pick hpos) (Nat.not_lt.mpr hle)
    | some row => exact (hmem row).mpr (List.mem_of_getElem? hfound)

/-- Turns in which a statement fails with an error of the database, of the mail sender or of the
bucket. -/
def storeTurns (turns : List (Turn Store ThrownError)) : List (Turn Store Failure) :=
  turns.map (Turn.mapFault .thrown)

section Turns

variable (turns : List (Turn Store ThrownError)) (s : Store)

@[simp] theorem met_storeTurns : Turn.met (storeTurns turns) s = Turn.met turns s :=
  Turn.met_map_mapFault ..

@[simp] theorem nextFault_storeTurns :
    Turn.nextFault (storeTurns turns) = (Turn.nextFault turns).map .thrown :=
  Turn.nextFault_map_mapFault ..

@[simp] theorem tail_storeTurns : (storeTurns turns).tail = storeTurns turns.tail :=
  List.map_tail.symm

/-- A statement that does not fail has the outcome that it computes. -/
theorem outcome_storeTurns_of_no_fault {α : Type} {turns : List (Turn Store ThrownError)}
    (h : Turn.nextFault turns = none) (computed : Except Failure α) :
    Turn.outcome (storeTurns turns) computed = computed :=
  Turn.outcome_of_no_fault (by rw [nextFault_storeTurns, h, Option.map_none]) computed

/-- A statement that fails has that outcome. -/
theorem outcome_storeTurns_of_fault {α : Type} {turns : List (Turn Store ThrownError)}
    {error : ThrownError} (h : Turn.nextFault turns = some error) (computed : Except Failure α) :
    Turn.outcome (storeTurns turns) computed = .error (.thrown error) :=
  Turn.outcome_of_fault (by rw [nextFault_storeTurns, h, Option.map_some]) computed

/-- The run of a statement that fails. -/
theorem run_query_of_fault {α : Type} {turns : List (Turn Store ThrownError)} {s : Store}
    {error : ThrownError} (h : Turn.nextFault turns = some error)
    (run : Store → Except Failure (Store × α)) : (Program.query run).run (storeTurns turns) s =
      ⟨Turn.met turns s, storeTurns turns.tail, .error (.thrown error)⟩ := by
  rw [Program.run_query, outcome_storeTurns_of_fault h, Ending.ofOutcome_error, met_storeTurns,
    tail_storeTurns]

/-- The run of a statement that does not fail. -/
theorem run_query_of_no_fault {α : Type} {turns : List (Turn Store ThrownError)} {s : Store}
    (h : Turn.nextFault turns = none) (run : Store → Except Failure (Store × α)) :
    (Program.query run).run (storeTurns turns) s =
      Ending.ofOutcome (storeTurns turns.tail) (Turn.met turns s) (run (Turn.met turns s)) := by
  rw [Program.run_query, outcome_storeTurns_of_no_fault h, met_storeTurns, tail_storeTurns]

end Turns

/-- The failure is such an error. -/
def Failure.IsThrown (failure : Failure) : Prop := ∃ error, failure = .thrown error

/-- A statement fails with such an error. -/
theorem isThrown_of_mem_storeTurns {turns : List (Turn Store ThrownError)} :
    ∀ turn ∈ storeTurns turns, ∀ failure, turn.fault = some failure → failure.IsThrown := by
  intro turn hturn failure hfault
  obtain ⟨former, -, rfl⟩ := List.mem_map.mp hturn
  obtain ⟨error, -, rfl⟩ := Option.map_eq_some_iff.mp hfault
  exact ⟨error, rfl⟩

section Statements

variable {α : Type}

/-- A statement that only reads. -/
def read (f : Store → α) : Operation α := .query fun s => .ok (s, f s)

/-- A statement that cannot throw in its own right. -/
def write (f : Store → Store) : Operation Unit := .query fun s => .ok (f s, ())

/-- `Date.now()`. -/
def now : Operation Nat := .look Store.clock

/-- What a check admits. -/
def admitted : Except HttpException α → Operation α
  | .ok a => pure a
  | .error exception => throw (.refused exception)

/-- `findFirst` on `users` by primary key. -/
def findUser (id : String) : Operation (Option User) := read fun s => findUserById s.users id

/-- `insert(users)`, of a row that takes its dates from the database. -/
def insertIntoUsers (row : Nat → User) : Operation User := .query fun s =>
  match insertUser s.users (row s.clock) with
  | .error error => .error (.thrown error)
  | .ok users => .ok ({ s with users := users }, row s.clock)

/-- `update(users)` of the row with an id, with the row that it returns. -/
def updateUsers (id : String) (f : User → User) : Operation (Option User) := .query fun s =>
  match updateUser s.users id f with
  | .error error => .error (.thrown error)
  | .ok (users, user) => .ok ({ s with users := users }, user)

/-- The unique columns of `email_otps`. -/
def emailOtpColumns : List (String × (EmailOtp → Option String)) :=
  [("email_otps_pkey", fun row => some row.id),
    ("email_otps_email_unique", fun row => some row.email)]

/-- `insert(emailOtps)`. -/
def insertIntoEmailOtps (row : Nat → EmailOtp) : Operation Unit := .query fun s =>
  match insertRow emailOtpColumns s.emailOtps (row s.clock) with
  | .error constraintName => .error (.thrown (uniqueViolation constraintName))
  | .ok emailOtps => .ok ({ s with emailOtps := emailOtps }, ())

/-- `delete(emailOtps)` by a condition. -/
def deleteFromEmailOtps (p : EmailOtp → Bool) : Operation Unit :=
  write fun s => { s with emailOtps := s.emailOtps.filter fun row => !p row }

/-- `update(emailOtps)` of the row with an id. -/
def updateEmailOtps (id : String) (f : EmailOtp → EmailOtp) : Operation Unit :=
  write fun s => { s with emailOtps := updateWhere EmailOtp.id id f s.emailOtps }

/-- The unique column of `oauth_exchange_codes`. -/
def oauthExchangeCodeColumns : List (String × (OauthExchangeCode → Option String)) :=
  [("oauth_exchange_codes_code_hash_unique", fun row => some row.codeHash)]

/-- `insert(oauthExchangeCodes)`, of a row whose user must be there. -/
def insertIntoOauthExchangeCodes (row : OauthExchangeCode) : Operation Unit := .query fun s =>
  match insertRow oauthExchangeCodeColumns s.oauthExchangeCodes row with
  | .error constraintName => .error (.thrown (uniqueViolation constraintName))
  | .ok codes =>
    if (findUserById s.users row.userId).isNone then
      .error (.thrown (foreignKeyViolation "oauth_exchange_codes_user_id_users_id_fk"))
    else .ok ({ s with oauthExchangeCodes := codes }, ())

/-- `delete(oauthExchangeCodes)` of the rows of a hash, with the first that it returns. -/
def takeOauthExchangeCode (codeHash : String) : Operation (Option OauthExchangeCode) :=
  .query fun s => .ok
    ({ s with oauthExchangeCodes := s.oauthExchangeCodes.filter fun row =>
        row.codeHash != codeHash },
      s.oauthExchangeCodes.find? fun row => row.codeHash == codeHash)

/-- `delete(oauthExchangeCodes)` by a condition. -/
def deleteFromOauthExchangeCodes (p : OauthExchangeCode → Bool) : Operation Unit :=
  write fun s => { s with oauthExchangeCodes := s.oauthExchangeCodes.filter fun row => !p row }

/-- Hand something over. -/
def handOver (outbound : Outbound) : Operation Unit :=
  write fun s => { s with outbound := s.outbound ++ [outbound] }

end Statements

section Runs

variable {α : Type} (change : Store → Store) (turns : List (Turn Store Failure)) (s : Store)

@[simp] theorem run_read (f : Store → α) : (read f).run (⟨change, none⟩ :: turns) s =
    ⟨change s, turns, .ok (f (change s))⟩ := rfl

@[simp] theorem run_now (fault : Option Failure) : now.run (⟨change, fault⟩ :: turns) s =
    ⟨change s, turns, .ok (change s).clock⟩ := rfl

@[simp] theorem run_insertIntoUsers (row : Nat → User) :
    (insertIntoUsers row).run (⟨change, none⟩ :: turns) s =
      match insertUser (change s).users (row (change s).clock) with
      | .error error => ⟨change s, turns, .error (.thrown error)⟩
      | .ok users => ⟨(change s).withUsers users, turns, .ok (row (change s).clock)⟩ := by
  simp only [insertIntoUsers, Program.run_query, Turn.met_cons, Turn.outcome, Turn.nextFault_cons]
  cases insertUser (change s).users (row (change s).clock) <;> rfl

@[simp] theorem run_insertIntoEmailOtps (row : Nat → EmailOtp) :
    (insertIntoEmailOtps row).run (⟨change, none⟩ :: turns) s =
      match insertRow emailOtpColumns (change s).emailOtps (row (change s).clock) with
      | .error constraintName =>
        ⟨change s, turns, .error (.thrown (uniqueViolation constraintName))⟩
      | .ok rows => ⟨(change s).withOtps rows, turns, .ok ()⟩ := by
  simp only [insertIntoEmailOtps, Program.run_query, Turn.met_cons, Turn.outcome,
    Turn.nextFault_cons]
  cases insertRow emailOtpColumns (change s).emailOtps (row (change s).clock) <;> rfl

@[simp] theorem run_deleteFromEmailOtps (p : EmailOtp → Bool) :
    (deleteFromEmailOtps p).run (⟨change, none⟩ :: turns) s =
      ⟨(change s).withOtps ((change s).emailOtps.filter fun row => !p row), turns, .ok ()⟩ := rfl

@[simp] theorem run_updateEmailOtps (id : String) (f : EmailOtp → EmailOtp) :
    (updateEmailOtps id f).run (⟨change, none⟩ :: turns) s =
      ⟨(change s).withOtps (updateWhere EmailOtp.id id f (change s).emailOtps), turns, .ok ()⟩ :=
  rfl

@[simp] theorem run_handOver (outbound : Outbound) :
    (handOver outbound).run (⟨change, none⟩ :: turns) s =
      ⟨(change s).handing outbound, turns, .ok ()⟩ := rfl

@[simp] theorem run_handOver_of_fault (outbound : Outbound) (failure : Failure) :
    (handOver outbound).run (⟨change, some failure⟩ :: turns) s =
      ⟨change s, turns, .error failure⟩ := rfl

end Runs

end VertexApi.App
