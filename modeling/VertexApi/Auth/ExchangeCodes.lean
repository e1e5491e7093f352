import Mathlib.Logic.Function.Basic
import VertexApi.Auth.JwtPayload
import VertexApi.Common.ErrorCodes
import VertexApi.Core.Machine
import VertexApi.Core.OneShot

/-!
# OAuth exchange codes

Minting a code stamps its expiry, inserts the row, and prunes expired rows; an exchange
deletes the row of the presented code, checks the expiry on its own clock, and looks the
user up. Every database statement and every clock sample is one step, so a run
interleaves any number of mints and exchanges with changes to the users. The history of
issued and presented codes is kept for statements only.
-/

namespace VertexApi.Auth

/-- How long a code may be spent. -/
def oauthExchangeCodeTtlMs : Nat := 60000

/-- The one message of every refused exchange. -/
def invalidExchangeCode : HttpException :=
  unauthorizedException "Invalid or expired exchange code" none

/-- Where a `createOAuthExchangeCode` call stands. -/
inductive MintPhase where
  /-- Before the insert of the stamped row. -/
  | insert (row : OauthExchangeCode)
  /-- Before the prune's `new Date()`. -/
  | cutoff
  /-- Before the delete of the rows that expired before the cutoff. -/
  | prune (cutoff : Nat)
  /-- The code has been returned. -/
  | done
  /-- The insert violated a constraint. -/
  | failed
  deriving DecidableEq, Repr

/-- One `createOAuthExchangeCode` call. -/
structure Mint where
  code : String
  /-- The clock at the stamp. -/
  mintedAt : Nat
  phase : MintPhase
  deriving DecidableEq, Repr

/-- Where an `exchangeOAuthCode` call stands. -/
inductive ExchangePhase where
  /-- Before the delete. -/
  | delete
  /-- The delete returned this row, or none. -/
  | check (entry : Option OauthExchangeCode)
  /-- Before the lookup of the user. -/
  | lookup (userId : String)
  /-- Rejected, or answered with the signed claims. -/
  | done (result : Except HttpException JwtPayload)
  deriving DecidableEq

/-- One `exchangeOAuthCode` call. The last three fields are kept for statements only. -/
structure Exchange where
  code : String
  phase : ExchangePhase
  /-- The state of the presented code in front of the delete. -/
  found : Token (String × Nat)
  /-- The clock at the expiry check. -/
  checkedAt : Nat
  /-- The users table at the step that answered the call. -/
  users : List User
  deriving DecidableEq

/-- The database, the calls, and the history of the codes. -/
structure ExchangeState where
  clock : Nat
  users : List User
  /-- Every id a user ever had. -/
  usedIds : List String
  codes : List OauthExchangeCode
  /-- Every code ever drawn. -/
  usedCodes : List String
  mints : Nat → Option Mint
  exchanges : Nat → Option Exchange
  /-- Codes issued with their user and mint time, and codes presented by exchanges. -/
  history : List (TokenEvent String (String × Nat) Nat)

namespace ExchangeState

/-- Empty tables and no calls. -/
def initial (clock : Nat) : ExchangeState where
  clock := clock
  users := []
  usedIds := []
  codes := []
  usedCodes := []
  mints _ := none
  exchanges _ := none
  history := []

/-- Replace one mint. -/
def setMint (s : ExchangeState) (id : Nat) (mint : Mint) : ExchangeState :=
  { s with mints := Function.update s.mints id (some mint) }

/-- Replace one exchange. -/
def setExchange (s : ExchangeState) (id : Nat) (exchange : Exchange) : ExchangeState :=
  { s with exchanges := Function.update s.exchanges id (some exchange) }

@[simp] theorem setExchange_exchanges_self (s : ExchangeState) (id : Nat) (exchange : Exchange) :
    (s.setExchange id exchange).exchanges id = some exchange := Function.update_self ..

theorem setExchange_exchanges_of_ne (s : ExchangeState) {id other : Nat} (exchange : Exchange)
    (h : other ≠ id) : (s.setExchange id exchange).exchanges other = s.exchanges other :=
  Function.update_of_ne h ..

/-- A mint after one was set is that one, or was there before. -/
theorem of_setMint {s : ExchangeState} {id other : Nat} {mint found : Mint}
    (h : (s.setMint id mint).mints other = some found) :
    other = id ∧ found = mint ∨ other ≠ id ∧ s.mints other = some found :=
  update_eq_some_iff.mp h

/-- An exchange after one was set is that one, or was there before. -/
theorem of_setExchange {s : ExchangeState} {id other : Nat} {exchange found : Exchange}
    (h : (s.setExchange id exchange).exchanges other = some found) :
    other = id ∧ found = exchange ∨ other ≠ id ∧ s.exchanges other = some found :=
  update_eq_some_iff.mp h

/-- A new user under an id that no user ever had. -/
def createUser (s : ExchangeState) (user : User) : Option ExchangeState :=
  if user.id ∈ s.usedIds then none
  else some { s with users := s.users ++ [user], usedIds := user.id :: s.usedIds }

/-- Any change to a row that keeps its id. -/
def updateUser (s : ExchangeState) (user : User) : Option ExchangeState :=
  some { s with users := s.users.map fun row => if row.id = user.id then user else row }

/-- The deletion of a user, which cascades to the pending codes. -/
def deleteUser (s : ExchangeState) (id : String) : Option ExchangeState :=
  some { s with
    users := s.users.filter fun user => user.id != id
    codes := s.codes.filter fun row => row.userId != id }

/-- The table and history with one more issued code. -/
def issue (s : ExchangeState) (mint : Mint) (row : OauthExchangeCode) : ExchangeState :=
  { s with
    codes := s.codes ++ [row]
    history := s.history ++ [.issued mint.code (row.userId, mint.mintedAt)] }

/-- The table without the rows that expired before the cutoff. -/
def withoutExpired (s : ExchangeState) (cutoff : Nat) : ExchangeState :=
  { s with codes := s.codes.filter fun row => !decide (row.expiresAt < cutoff) }

/-- The table without the rows of a presented code, and the presentation. -/
def present (s : ExchangeState) (id : Nat) (code codeHash : String) : ExchangeState :=
  { s with
    codes := s.codes.filter fun row => row.codeHash != codeHash
    history := s.history ++ [.presented code id] }

/-- The insert of a stamped row, under the unique hash and the reference to its user. -/
def insert (s : ExchangeState) (id : Nat) (mint : Mint) : Option ExchangeState :=
  match mint.phase with
  | .insert row =>
    if (findUserById s.users row.userId).isNone ||
        s.codes.any fun other => other.codeHash == row.codeHash then
      some (s.setMint id { mint with phase := .failed })
    else some ((s.issue mint row).setMint id { mint with phase := .cutoff })
  | _ => none

/-- The cutoff of the housekeeping delete. -/
def sampleCutoff (s : ExchangeState) (id : Nat) (mint : Mint) : Option ExchangeState :=
  match mint.phase with
  | .cutoff => some (s.setMint id { mint with phase := .prune s.clock })
  | _ => none

/-- The housekeeping delete of expired codes. -/
def prune (s : ExchangeState) (id : Nat) (mint : Mint) : Option ExchangeState :=
  match mint.phase with
  | .prune cutoff => some ((s.withoutExpired cutoff).setMint id { mint with phase := .done })
  | _ => none

/-- A failed housekeeping delete is logged and does not fail the login. -/
def pruneFailed (s : ExchangeState) (id : Nat) (mint : Mint) : Option ExchangeState :=
  match mint.phase with
  | .prune _ => some (s.setMint id { mint with phase := .done })
  | _ => none

/-- The expiry check of the row that the delete returned. -/
def check (s : ExchangeState) (id : Nat) (exchange : Exchange) : Option ExchangeState :=
  match exchange.phase with
  | .check none => some (s.setExchange id { exchange with
      phase := .done (.error invalidExchangeCode), checkedAt := s.clock, users := s.users })
  | .check (some entry) =>
    if entry.expiresAt < s.clock then
      some (s.setExchange id { exchange with
        phase := .done (.error invalidExchangeCode), checkedAt := s.clock, users := s.users })
    else
      some (s.setExchange id { exchange with phase := .lookup entry.userId, checkedAt := s.clock })
  | _ => none

/-- The lookup of the user, and the token signed from the row it finds. -/
def lookup (s : ExchangeState) (id : Nat) (exchange : Exchange) : Option ExchangeState :=
  match exchange.phase with
  | .lookup userId =>
    match findUserById s.users userId with
    | none => some (s.setExchange id { exchange with
        phase := .done (.error invalidExchangeCode), users := s.users })
    | some user => some (s.setExchange id { exchange with
        phase := .done (.ok (toJwtPayload user)), users := s.users })
  | _ => none

end ExchangeState

/-- The steps of a run. -/
inductive ExchangeLabel where
  | tick (ms : Nat)
  | createUser (user : User)
  | updateUser (user : User)
  | deleteUser (id : String)
  /-- A mint draws its code and stamps the expiry. -/
  | mint (id : Nat) (userId code : String)
  | insert (id : Nat)
  | cutoff (id : Nat)
  | prune (id : Nat)
  | pruneFailed (id : Nat)
  | exchange (id : Nat) (code : String)
  | delete (id : Nat)
  | check (id : Nat)
  | lookup (id : Nat)
  deriving DecidableEq, Repr

section Machine

variable (sha256 : String → String)

/-- The stored form of a code. -/
def hashExchangeCode (code : String) : String := sha256 code

namespace ExchangeState

/-- A mint draws a code that was never drawn before, and stamps its row. -/
def mint (s : ExchangeState) (id : Nat) (userId code : String) : Option ExchangeState :=
  if (s.mints id).isSome || s.usedCodes.contains code then none
  else
    some ({ s with usedCodes := code :: s.usedCodes }.setMint id {
      code := code
      mintedAt := s.clock
      phase := .insert {
        codeHash := hashExchangeCode sha256 code
        userId := userId
        expiresAt := s.clock + oauthExchangeCodeTtlMs } })

/-- The start of an exchange. -/
def start (s : ExchangeState) (id : Nat) (code : String) : Option ExchangeState :=
  if (s.exchanges id).isSome then none
  else some (s.setExchange id {
    code := code, phase := .delete, found := .fresh, checkedAt := 0, users := [] })

/-- `DELETE ... RETURNING`: one statement reads and removes the row of the code. -/
def delete (s : ExchangeState) (id : Nat) (exchange : Exchange) : Option ExchangeState :=
  match exchange.phase with
  | .delete =>
    let codeHash := hashExchangeCode sha256 exchange.code
    some ((s.present id exchange.code codeHash).setExchange id { exchange with
      phase := .check (s.codes.find? fun row => row.codeHash == codeHash)
      found := tokenOf exchange.code s.history })
  | _ => none

end ExchangeState

/-- Mints, exchanges and user changes as one machine. -/
def exchangeCodes : Machine ExchangeState ExchangeLabel where
  step s
    | .tick ms => some { s with clock := s.clock + ms }
    | .createUser user => s.createUser user
    | .updateUser user => s.updateUser user
    | .deleteUser id => s.deleteUser id
    | .mint id userId code => s.mint sha256 id userId code
    | .insert id => (s.mints id).bind (s.insert id)
    | .cutoff id => (s.mints id).bind (s.sampleCutoff id)
    | .prune id => (s.mints id).bind (s.prune id)
    | .pruneFailed id => (s.mints id).bind (s.pruneFailed id)
    | .exchange id code => s.start id code
    | .delete id => (s.exchanges id).bind (s.delete sha256 id)
    | .check id => (s.exchanges id).bind (s.check id)
    | .lookup id => (s.exchanges id).bind (s.lookup id)

end Machine

section Inversion

variable {sha256 : String → String} {s t : ExchangeState} {id : Nat}

/-- What the start of a mint does. -/
theorem step_mint {userId code : String} :
    (exchangeCodes sha256).step s (.mint id userId code) = some t ↔
      s.mints id = none ∧ code ∉ s.usedCodes ∧
      t = { s with usedCodes := code :: s.usedCodes }.setMint id ⟨code, s.clock,
        .insert ⟨hashExchangeCode sha256 code, userId, s.clock + oauthExchangeCodeTtlMs⟩⟩ := by
  simp only [exchangeCodes, ExchangeState.mint]
  cases s.mints id with
  | some mint => simp only [Option.isSome_some, Bool.true_or, if_true, reduceCtorEq, false_and]
  | none =>
    by_cases hcode : code ∈ s.usedCodes
    · simp only [Option.isSome_none, Bool.false_or, List.contains_iff_mem, hcode, if_true,
        reduceCtorEq, not_true, false_and, and_false]
    · simp only [Option.isSome_none, Bool.false_or, List.contains_iff_mem, hcode, if_false,
        Option.some.injEq, not_false_eq_true, true_and, eq_comm (b := t)]

/-- What the insert does: it violates a constraint, or it issues the code. -/
theorem step_insert : (exchangeCodes sha256).step s (.insert id) = some t ↔
    ∃ code mintedAt row, s.mints id = some ⟨code, mintedAt, .insert row⟩ ∧
    (((findUserById s.users row.userId = none ∨ ∃ other ∈ s.codes, other.codeHash = row.codeHash) ∧
      t = s.setMint id ⟨code, mintedAt, .failed⟩) ∨
    (findUserById s.users row.userId ≠ none ∧ (∀ other ∈ s.codes, other.codeHash ≠ row.codeHash) ∧
      t = (s.issue ⟨code, mintedAt, .insert row⟩ row).setMint id ⟨code, mintedAt, .cutoff⟩)) := by
  simp only [exchangeCodes, Option.bind_eq_some_iff, ExchangeState.insert]
  have hrefused : ∀ row : OauthExchangeCode, ((findUserById s.users row.userId).isNone ||
      s.codes.any fun other => other.codeHash == row.codeHash) = true ↔
      findUserById s.users row.userId = none ∨
        ∃ other ∈ s.codes, other.codeHash = row.codeHash := by
    intro row
    rw [Bool.or_eq_true, Option.isNone_iff_eq_none, List.any_eq_true]
    simp only [beq_iff_eq]
  constructor
  · rintro ⟨⟨code, mintedAt, phase⟩, hmint, hstep⟩
    cases phase with
    | insert row =>
      refine ⟨code, mintedAt, row, hmint, ?_⟩
      simp only at hstep
      split at hstep
      · next h => exact Or.inl ⟨(hrefused row).mp h, (Option.some.inj hstep).symm⟩
      · next h =>
        rw [hrefused, not_or] at h
        exact Or.inr ⟨h.1, fun other hmem he => h.2 ⟨other, hmem, he⟩,
          (Option.some.inj hstep).symm⟩
    | cutoff | prune | done | failed => cases hstep
  · rintro ⟨code, mintedAt, row, hmint, ⟨h, rfl⟩ | ⟨huser, hfree, rfl⟩⟩
    · exact ⟨_, hmint, if_pos ((hrefused row).mpr h)⟩
    · refine ⟨_, hmint, if_neg fun h => ?_⟩
      rcases (hrefused row).mp h with h | ⟨other, hmem, he⟩
      · exact huser h
      · exact hfree other hmem he

/-- What the cutoff sample does. -/
theorem step_cutoff : (exchangeCodes sha256).step s (.cutoff id) = some t ↔
    ∃ code mintedAt, s.mints id = some ⟨code, mintedAt, .cutoff⟩ ∧
      t = s.setMint id ⟨code, mintedAt, .prune s.clock⟩ := by
  simp only [exchangeCodes, Option.bind_eq_some_iff, ExchangeState.sampleCutoff]
  constructor
  · rintro ⟨⟨code, mintedAt, phase⟩, hmint, hstep⟩
    cases phase with
    | cutoff => exact ⟨code, mintedAt, hmint, (Option.some.inj hstep).symm⟩
    | insert | prune | done | failed => cases hstep
  · rintro ⟨code, mintedAt, hmint, rfl⟩
    exact ⟨_, hmint, rfl⟩

/-- What the housekeeping delete does. -/
theorem step_prune : (exchangeCodes sha256).step s (.prune id) = some t ↔
    ∃ code mintedAt cutoff, s.mints id = some ⟨code, mintedAt, .prune cutoff⟩ ∧
      t = (s.withoutExpired cutoff).setMint id ⟨code, mintedAt, .done⟩ := by
  simp only [exchangeCodes, Option.bind_eq_some_iff, ExchangeState.prune]
  constructor
  · rintro ⟨⟨code, mintedAt, phase⟩, hmint, hstep⟩
    cases phase with
    | prune cutoff => exact ⟨code, mintedAt, cutoff, hmint, (Option.some.inj hstep).symm⟩
    | insert | cutoff | done | failed => cases hstep
  · rintro ⟨code, mintedAt, cutoff, hmint, rfl⟩
    exact ⟨_, hmint, rfl⟩

/-- What a failed housekeeping delete does. -/
theorem step_pruneFailed : (exchangeCodes sha256).step s (.pruneFailed id) = some t ↔
    ∃ code mintedAt cutoff, s.mints id = some ⟨code, mintedAt, .prune cutoff⟩ ∧
      t = s.setMint id ⟨code, mintedAt, .done⟩ := by
  simp only [exchangeCodes, Option.bind_eq_some_iff, ExchangeState.pruneFailed]
  constructor
  · rintro ⟨⟨code, mintedAt, phase⟩, hmint, hstep⟩
    cases phase with
    | prune cutoff => exact ⟨code, mintedAt, cutoff, hmint, (Option.some.inj hstep).symm⟩
    | insert | cutoff | done | failed => cases hstep
  · rintro ⟨code, mintedAt, cutoff, hmint, rfl⟩
    exact ⟨_, hmint, rfl⟩

/-- What the start of an exchange does. -/
theorem step_exchange {code : String} :
    (exchangeCodes sha256).step s (.exchange id code) = some t ↔
      s.exchanges id = none ∧ t = s.setExchange id ⟨code, .delete, .fresh, 0, []⟩ := by
  simp only [exchangeCodes, ExchangeState.start]
  cases s.exchanges id with
  | some exchange => simp only [Option.isSome_some, if_true, reduceCtorEq, false_and]
  | none => simp only [Option.isSome_none, Bool.false_eq_true, if_false, Option.some.injEq,
      true_and, eq_comm (b := t)]

/-- What the delete of an exchange does. -/
theorem step_delete : (exchangeCodes sha256).step s (.delete id) = some t ↔
    ∃ code found checkedAt users,
      s.exchanges id = some ⟨code, .delete, found, checkedAt, users⟩ ∧
      t = (s.present id code (hashExchangeCode sha256 code)).setExchange id
        ⟨code, .check (s.codes.find? fun row => row.codeHash == hashExchangeCode sha256 code),
          tokenOf code s.history, checkedAt, users⟩ := by
  simp only [exchangeCodes, Option.bind_eq_some_iff, ExchangeState.delete]
  constructor
  · rintro ⟨⟨code, phase, found, checkedAt, users⟩, hexchange, hstep⟩
    cases phase with
    | delete => exact ⟨code, found, checkedAt, users, hexchange, (Option.some.inj hstep).symm⟩
    | check | lookup | done => cases hstep
  · rintro ⟨code, found, checkedAt, users, hexchange, rfl⟩
    exact ⟨_, hexchange, rfl⟩

/-- What the expiry check does: it rejects, or it goes on to the lookup. -/
theorem step_check : (exchangeCodes sha256).step s (.check id) = some t ↔
    ∃ code entry found checkedAt users,
      s.exchanges id = some ⟨code, .check entry, found, checkedAt, users⟩ ∧
      (((∀ row, entry = some row → row.expiresAt < s.clock) ∧ t = s.setExchange id
        ⟨code, .done (.error invalidExchangeCode), found, s.clock, s.users⟩) ∨
      ∃ row, entry = some row ∧ s.clock ≤ row.expiresAt ∧ t = s.setExchange id
        ⟨code, .lookup row.userId, found, s.clock, users⟩) := by
  simp only [exchangeCodes, Option.bind_eq_some_iff, ExchangeState.check]
  constructor
  · rintro ⟨⟨code, phase, found, checkedAt, users⟩, hexchange, hstep⟩
    cases phase with
    | check entry =>
      refine ⟨code, entry, found, checkedAt, users, hexchange, ?_⟩
      cases entry with
      | none => exact Or.inl ⟨fun _ he => (by cases he), (Option.some.inj hstep).symm⟩
      | some row =>
        simp only at hstep
        split at hstep
        · next h =>
          exact Or.inl ⟨fun _ he => Option.some.inj he ▸ h, (Option.some.inj hstep).symm⟩
        · next h =>
          exact Or.inr ⟨row, rfl, Nat.le_of_not_lt h, (Option.some.inj hstep).symm⟩
    | delete | lookup | done => cases hstep
  · rintro ⟨code, entry, found, checkedAt, users, hexchange, ⟨h, rfl⟩ | ⟨row, rfl, h, rfl⟩⟩
    · refine ⟨_, hexchange, ?_⟩
      cases entry with
      | none => rfl
      | some row => exact if_pos (h row rfl)
    · exact ⟨_, hexchange, if_neg (Nat.not_lt_of_le h)⟩

/-- What the lookup does: it rejects, or it answers with the claims of the row. -/
theorem step_lookup : (exchangeCodes sha256).step s (.lookup id) = some t ↔
    ∃ code userId found checkedAt users,
      s.exchanges id = some ⟨code, .lookup userId, found, checkedAt, users⟩ ∧
      ((findUserById s.users userId = none ∧ t = s.setExchange id
        ⟨code, .done (.error invalidExchangeCode), found, checkedAt, s.users⟩) ∨
      ∃ user, findUserById s.users userId = some user ∧ t = s.setExchange id
        ⟨code, .done (.ok (toJwtPayload user)), found, checkedAt, s.users⟩) := by
  simp only [exchangeCodes, Option.bind_eq_some_iff, ExchangeState.lookup]
  constructor
  · rintro ⟨⟨code, phase, found, checkedAt, users⟩, hexchange, hstep⟩
    cases phase with
    | lookup userId =>
      refine ⟨code, userId, found, checkedAt, users, hexchange, ?_⟩
      cases huser : findUserById s.users userId with
      | none =>
        simp only [huser] at hstep
        exact Or.inl ⟨rfl, (Option.some.inj hstep).symm⟩
      | some user =>
        simp only [huser] at hstep
        exact Or.inr ⟨user, rfl, (Option.some.inj hstep).symm⟩
    | delete | check | done => cases hstep
  · rintro ⟨code, userId, found, checkedAt, users, hexchange, ⟨h, rfl⟩ | ⟨user, h, rfl⟩⟩
    · exact ⟨_, hexchange, by simp only [h]⟩
    · exact ⟨_, hexchange, by simp only [h]⟩

/-- What the creation of a user does. -/
theorem step_createUser {user : User} :
    (exchangeCodes sha256).step s (.createUser user) = some t ↔ user.id ∉ s.usedIds ∧
      t = { s with users := s.users ++ [user], usedIds := user.id :: s.usedIds } := by
  simp only [exchangeCodes, ExchangeState.createUser, Option.ite_none_left_eq_some,
    Option.some.injEq, eq_comm (b := t)]

end Inversion

end VertexApi.Auth
