import VertexApi.Auth.ExchangeCodes

/-!
# Exchange codes are one-shot tokens

A minted code is a token that its first presentation spends. The table holds a row for
every live token whose user still exists and whose time has not run out, so an exchange
answers exactly as redeeming the token it presented would. Pruning only removes rows that
every later exchange would reject, so it never shows in an answer.
-/

namespace VertexApi.Auth

/-- What a presentation of a one-shot token is worth: the claims of its user, in time. -/
def redeem (token : Token (String × Nat)) (now : Nat) (users : List User) :
    Except HttpException JwtPayload :=
  match token with
  | .live (userId, mintedAt) =>
    if now ≤ mintedAt + oauthExchangeCodeTtlMs then
      match findUserById users userId with
      | some user => .ok (toJwtPayload user)
      | none => .error invalidExchangeCode
    else .error invalidExchangeCode
  | .fresh => .error invalidExchangeCode
  | .spent => .error invalidExchangeCode

/-- A token is redeemed when it is live, in time, and its user exists. -/
theorem redeem_eq_ok {token : Token (String × Nat)} {now : Nat} {users : List User}
    {payload : JwtPayload} : redeem token now users = .ok payload ↔
      ∃ userId mintedAt user, token = .live (userId, mintedAt) ∧
        now ≤ mintedAt + oauthExchangeCodeTtlMs ∧ findUserById users userId = some user ∧
        payload = toJwtPayload user := by
  constructor
  · intro h
    cases token with
    | fresh => cases h
    | spent => cases h
    | live grant =>
      obtain ⟨userId, mintedAt⟩ := grant
      simp only [redeem] at h
      split at h
      · next hle =>
        split at h
        · next user huser =>
          exact ⟨userId, mintedAt, user, rfl, hle, huser, (Except.ok.inj h).symm⟩
        · cases h
      · cases h
  · rintro ⟨userId, mintedAt, user, rfl, hle, huser, rfl⟩
    simp only [redeem, hle, if_true, huser]

/-- A live token is worth nothing once it has run out or its user is gone. -/
theorem redeem_live_eq_error {grant : String × Nat} {now : Nat} {users : List User}
    (h : grant.2 + oauthExchangeCodeTtlMs < now ∨ findUserById users grant.1 = none) :
    redeem (.live grant) now users = .error invalidExchangeCode := by
  cases hredeem : redeem (.live grant) now users with
  | ok payload =>
    obtain ⟨userId, mintedAt, user, hgrant, hle, huser, -⟩ := redeem_eq_ok.mp hredeem
    obtain rfl := Token.live.inj hgrant
    rcases h with hout | hgone
    · exact absurd hle (Nat.not_le_of_lt hout)
    · rw [hgone] at huser
      cases huser
  | error e =>
    obtain ⟨userId, mintedAt⟩ := grant
    simp only [redeem] at hredeem
    split at hredeem
    · split at hredeem
      · cases hredeem
      · exact hredeem.symm
    · exact hredeem.symm

/-- The user once existed and does not exist any more. -/
def Absent (s : ExchangeState) (userId : String) : Prop :=
  userId ∈ s.usedIds ∧ findUserById s.users userId = none

section Invariant

variable (sha256 : String → String)

/-- The row of a code that was minted for a user. -/
def rowOf (code userId : String) (mintedAt : Nat) : OauthExchangeCode where
  codeHash := hashExchangeCode sha256 code
  userId := userId
  expiresAt := mintedAt + oauthExchangeCodeTtlMs

/-- The presentation of an exchange, and the state of the code in front of it and now. -/
def Presented (s : ExchangeState) (id : Nat) (exchange : Exchange) : Prop :=
  (∃ pre post, s.history = pre ++ .presented exchange.code id :: post ∧
    tokenOf exchange.code pre = exchange.found) ∧
  ∀ grant, exchange.found = .live grant → tokenOf exchange.code s.history = .spent

/-- What holds of an exchange in each of its phases. -/
def ExchangePlaced (s : ExchangeState) (id : Nat) (exchange : Exchange) : Prop :=
  match exchange.phase with
  | .delete => exchange.found = .fresh
  | .check (some entry) => Presented s id exchange ∧ ∃ userId mintedAt,
      entry = rowOf sha256 exchange.code userId mintedAt ∧
      exchange.found = .live (userId, mintedAt)
  | .check none => Presented s id exchange ∧ ∀ userId mintedAt,
      exchange.found = .live (userId, mintedAt) →
      mintedAt + oauthExchangeCodeTtlMs < s.clock ∨ Absent s userId
  | .lookup userId => Presented s id exchange ∧ ∃ mintedAt,
      exchange.found = .live (userId, mintedAt) ∧
      exchange.checkedAt ≤ mintedAt + oauthExchangeCodeTtlMs
  | .done result => Presented s id exchange ∧
      result = redeem exchange.found exchange.checkedAt exchange.users

/-- The invariant of the exchange codes. -/
structure Sound (s : ExchangeState) : Prop where
  issuedOnce : IssuedOnce s.history
  usersUsed : ∀ user ∈ s.users, user.id ∈ s.usedIds
  /-- Every row belongs to a live code. -/
  rows : ∀ row ∈ s.codes, ∃ code userId mintedAt, row = rowOf sha256 code userId mintedAt ∧
    tokenOf code s.history = .live (userId, mintedAt)
  /-- A live code without a row has run out, or its user is gone. -/
  kept : ∀ code userId mintedAt, tokenOf code s.history = .live (userId, mintedAt) →
    rowOf sha256 code userId mintedAt ∈ s.codes ∨
      mintedAt + oauthExchangeCodeTtlMs < s.clock ∨ Absent s userId
  liveUsed : ∀ code userId mintedAt, tokenOf code s.history = .live (userId, mintedAt) →
    userId ∈ s.usedIds
  drawn : ∀ code, tokenOf code s.history ≠ .fresh → code ∈ s.usedCodes
  stamped : ∀ id code mintedAt row, s.mints id = some ⟨code, mintedAt, .insert row⟩ →
    code ∈ s.usedCodes ∧ tokenOf code s.history = .fresh ∧
    row = rowOf sha256 code row.userId mintedAt
  stampedOnce : ∀ id id' code mintedAt mintedAt' row row',
    s.mints id = some ⟨code, mintedAt, .insert row⟩ →
    s.mints id' = some ⟨code, mintedAt', .insert row'⟩ → id = id'
  cutoffs : ∀ id code mintedAt cutoff, s.mints id = some ⟨code, mintedAt, .prune cutoff⟩ →
    cutoff ≤ s.clock
  placed : ∀ id exchange, s.exchanges id = some exchange → ExchangePlaced sha256 s id exchange
  /-- At most one exchange of a code found it live. -/
  once : ∀ id id' exchange exchange' grant grant', s.exchanges id = some exchange →
    s.exchanges id' = some exchange' → exchange.code = exchange'.code →
    exchange.found = .live grant → exchange'.found = .live grant' → id = id'

end Invariant

/-- What no step takes back. -/
structure Extends (s t : ExchangeState) : Prop where
  clock : s.clock ≤ t.clock
  absent : ∀ userId, Absent s userId → Absent t userId
  history : s.history <+: t.history
  spent : ∀ code, tokenOf code s.history = .spent → tokenOf code t.history = .spent

section Steps

variable {sha256 : String → String} {s t : ExchangeState}

/-- A presentation stays where it is in the history. -/
theorem Presented.mono {id : Nat} {exchange : Exchange} (h : Presented s id exchange)
    (hext : Extends s t) : Presented t id exchange := by
  obtain ⟨⟨pre, post, hsplit, hfound⟩, hspent⟩ := h
  obtain ⟨rest, hrest⟩ := hext.history
  refine ⟨⟨pre, post ++ rest, ?_, hfound⟩, fun grant hlive => hext.spent _ (hspent grant hlive)⟩
  rw [← hrest, hsplit, List.append_assoc, List.cons_append]

/-- Exchanges stay placed under steps that do not touch them. -/
theorem ExchangePlaced.mono {id : Nat} {exchange : Exchange}
    (h : ExchangePlaced sha256 s id exchange) (hext : Extends s t) :
    ExchangePlaced sha256 t id exchange := by
  obtain ⟨code, phase, found, checkedAt, users⟩ := exchange
  cases phase with
  | delete => exact h
  | check entry =>
    cases entry with
    | none =>
      refine ⟨h.1.mono hext, fun userId mintedAt hlive => ?_⟩
      rcases h.2 userId mintedAt hlive with hout | habsent
      · exact Or.inl (Nat.lt_of_lt_of_le hout hext.clock)
      · exact Or.inr (hext.absent userId habsent)
    | some entry => exact ⟨h.1.mono hext, h.2⟩
  | lookup userId => exact ⟨h.1.mono hext, h.2⟩
  | done result => exact ⟨h.1.mono hext, h.2⟩

/-- An exchange that found its code live has spent it. -/
theorem ExchangePlaced.spent {id : Nat} {exchange : Exchange}
    (h : ExchangePlaced sha256 s id exchange) {grant : String × Nat}
    (hlive : exchange.found = .live grant) : tokenOf exchange.code s.history = .spent := by
  obtain ⟨code, phase, found, checkedAt, users⟩ := exchange
  cases phase with
  | delete => cases hlive.symm.trans h
  | check entry =>
    cases entry with
    | none => exact h.1.2 grant hlive
    | some entry => exact h.1.2 grant hlive
  | lookup userId => exact h.1.2 grant hlive
  | done result => exact h.1.2 grant hlive

/-- A state that keeps users, clock and history extends. -/
theorem extends_of_same (hclock : t.clock = s.clock) (hused : t.usedIds = s.usedIds)
    (husers : t.users = s.users) (hhistory : t.history = s.history) : Extends s t where
  clock := Nat.le_of_eq hclock.symm
  absent _ h := by rwa [Absent, hused, husers]
  history := hhistory ▸ List.prefix_rfl
  spent _ h := by rwa [hhistory]

/-- Empty tables are sound. -/
theorem sound_initial (clock : Nat) : Sound sha256 (ExchangeState.initial clock) where
  issuedOnce := List.Pairwise.nil
  usersUsed _ h := nomatch h
  rows _ h := nomatch h
  kept _ _ _ h := nomatch h
  liveUsed _ _ _ h := nomatch h
  drawn _ h := absurd rfl h
  stamped _ _ _ _ h := nomatch h
  stampedOnce _ _ _ _ _ _ _ h := nomatch h
  cutoffs _ _ _ _ h := nomatch h
  placed _ _ h := nomatch h
  once _ _ _ _ _ _ h := nomatch h

namespace Sound

/-- Changes to the clock, the users and the table keep the invariant when the rows that go
have run out or lost their user. -/
theorem frame (h : Sound sha256 s) (hext : Extends s t) (hhistory : t.history = s.history)
    (hmints : t.mints = s.mints) (hexchanges : t.exchanges = s.exchanges)
    (hdrawn : t.usedCodes = s.usedCodes) (husers : ∀ user ∈ t.users, user.id ∈ t.usedIds)
    (hused : ∀ userId ∈ s.usedIds, userId ∈ t.usedIds) (hrows : ∀ row ∈ t.codes, row ∈ s.codes)
    (hkept : ∀ row ∈ s.codes, row ∈ t.codes ∨ row.expiresAt < t.clock ∨ Absent t row.userId) :
    Sound sha256 t where
  issuedOnce := hhistory ▸ h.issuedOnce
  usersUsed := husers
  rows row hrow := by
    rw [hhistory]
    exact h.rows row (hrows row hrow)
  kept code userId mintedAt hlive := by
    rw [hhistory] at hlive
    rcases h.kept code userId mintedAt hlive with hrow | hout | habsent
    · exact hkept _ hrow
    · exact Or.inr (Or.inl (Nat.lt_of_lt_of_le hout hext.clock))
    · exact Or.inr (Or.inr (hext.absent userId habsent))
  liveUsed code userId mintedAt hlive :=
    hused userId (h.liveUsed code userId mintedAt (hhistory ▸ hlive))
  drawn := by
    rw [hhistory, hdrawn]
    exact h.drawn
  stamped := by
    rw [hhistory, hdrawn, hmints]
    exact h.stamped
  stampedOnce := by
    rw [hmints]
    exact h.stampedOnce
  cutoffs id code mintedAt cutoff hmint :=
    Nat.le_trans (h.cutoffs id code mintedAt cutoff (hmints ▸ hmint)) hext.clock
  placed id exchange hexchange := (h.placed id exchange (hexchanges ▸ hexchange)).mono hext
  once := by
    rw [hexchanges]
    exact h.once

/-- A step of one exchange keeps the invariant when it leaves the exchange placed. -/
theorem setExchange (h : Sound sha256 s) {id : Nat} {exchange : Exchange}
    (hplaced : ExchangePlaced sha256 s id exchange)
    (honce : ∀ grant, exchange.found = .live grant → ∀ id' exchange' grant',
      s.exchanges id' = some exchange' → exchange'.code = exchange.code →
      exchange'.found = .live grant' → id' = id) :
    Sound sha256 (s.setExchange id exchange) where
  issuedOnce := h.issuedOnce
  usersUsed := h.usersUsed
  rows := h.rows
  kept := h.kept
  liveUsed := h.liveUsed
  drawn := h.drawn
  stamped := h.stamped
  stampedOnce := h.stampedOnce
  cutoffs := h.cutoffs
  placed other found hfound := by
    have hext : Extends s (s.setExchange id exchange) := extends_of_same rfl rfl rfl rfl
    rcases ExchangeState.of_setExchange hfound with ⟨rfl, rfl⟩ | ⟨-, hold⟩
    · exact hplaced.mono hext
    · exact (h.placed other found hold).mono hext
  once a b ea eb grant grant' ha hb hcode hlive hlive' := by
    rcases ExchangeState.of_setExchange ha with ⟨rfl, rfl⟩ | ⟨-, hold⟩
    · rcases ExchangeState.of_setExchange hb with ⟨rfl, -⟩ | ⟨-, hold'⟩
      · rfl
      · exact (honce grant hlive b eb grant' hold' hcode.symm hlive').symm
    · rcases ExchangeState.of_setExchange hb with ⟨rfl, rfl⟩ | ⟨-, hold'⟩
      · exact honce grant' hlive' a ea grant hold hcode hlive
      · exact h.once a b ea eb grant grant' hold hold' hcode hlive hlive'

/-- A later step of an exchange keeps what its delete found. -/
theorem setExchange_same (h : Sound sha256 s) {id : Nat} {old exchange : Exchange}
    (hold : s.exchanges id = some old) (hcode : exchange.code = old.code)
    (hfound : exchange.found = old.found) (hplaced : ExchangePlaced sha256 s id exchange) :
    Sound sha256 (s.setExchange id exchange) :=
  h.setExchange hplaced fun _ hlive _ _ _ hother hcode' hlive' =>
    h.once _ _ _ _ _ _ hother hold (hcode'.trans hcode) hlive' (hfound ▸ hlive)

/-- A step of one mint keeps the invariant when it stamps a fresh code, and samples the
cutoff from the clock. -/
theorem setMint (h : Sound sha256 s) {id : Nat} {mint : Mint}
    (hstamped : ∀ row, mint.phase = .insert row → mint.code ∈ s.usedCodes ∧
      tokenOf mint.code s.history = .fresh ∧ row = rowOf sha256 mint.code row.userId mint.mintedAt)
    (honce : ∀ row, mint.phase = .insert row → ∀ id' mintedAt' row',
      s.mints id' = some ⟨mint.code, mintedAt', .insert row'⟩ → id' = id)
    (hcutoff : ∀ cutoff, mint.phase = .prune cutoff → cutoff ≤ s.clock) :
    Sound sha256 (s.setMint id mint) where
  issuedOnce := h.issuedOnce
  usersUsed := h.usersUsed
  rows := h.rows
  kept := h.kept
  liveUsed := h.liveUsed
  drawn := h.drawn
  placed _ _ hexchange :=
    (h.placed _ _ hexchange).mono (extends_of_same rfl rfl rfl rfl)
  once := h.once
  stamped other code mintedAt row hfound := by
    rcases ExchangeState.of_setMint hfound with ⟨-, rfl⟩ | ⟨-, hold⟩
    · exact hstamped row rfl
    · exact h.stamped other code mintedAt row hold
  stampedOnce a b code mintedAt mintedAt' row row' ha hb := by
    rcases ExchangeState.of_setMint ha with ⟨rfl, rfl⟩ | ⟨-, hold⟩
    · rcases ExchangeState.of_setMint hb with ⟨rfl, -⟩ | ⟨-, hold'⟩
      · rfl
      · exact (honce row rfl b mintedAt' row' hold').symm
    · rcases ExchangeState.of_setMint hb with ⟨rfl, rfl⟩ | ⟨-, hold'⟩
      · exact honce row' rfl a mintedAt row hold
      · exact h.stampedOnce a b code mintedAt mintedAt' row row' hold hold'
  cutoffs other code mintedAt cutoff hfound := by
    rcases ExchangeState.of_setMint hfound with ⟨-, rfl⟩ | ⟨-, hold⟩
    · exact hcutoff cutoff rfl
    · exact h.cutoffs other code mintedAt cutoff hold

/-- Time passes. -/
theorem tick (h : Sound sha256 s) (ms : Nat) : Sound sha256 { s with clock := s.clock + ms } :=
  h.frame ⟨Nat.le_add_right .., fun _ habsent => habsent, List.prefix_rfl, fun _ hspent => hspent⟩
    rfl rfl rfl rfl h.usersUsed (fun _ hmem => hmem) (fun _ hmem => hmem) fun _ hmem => Or.inl hmem

/-- A new user does not bring an absent one back, since ids are not reused. -/
theorem createUser (h : Sound sha256 s) {user : User} (hnew : user.id ∉ s.usedIds) :
    Sound sha256 { s with users := s.users ++ [user], usedIds := user.id :: s.usedIds } := by
  refine h.frame ⟨Nat.le_refl _, ?_, List.prefix_rfl, fun _ hspent => hspent⟩ rfl rfl rfl rfl
    ?_ (fun _ hmem => List.mem_cons_of_mem _ hmem) (fun _ hmem => hmem)
    fun _ hmem => Or.inl hmem
  · rintro userId ⟨hused, hgone⟩
    refine ⟨List.mem_cons_of_mem _ hused, findUserById_eq_none.mpr fun other hother he => ?_⟩
    rcases List.mem_append.mp hother with hold | hlast
    · exact findUserById_eq_none.mp hgone other hold he
    · obtain rfl := List.mem_singleton.mp hlast
      exact hnew (he ▸ hused)
  · intro other hother
    rcases List.mem_append.mp hother with hold | hlast
    · exact List.mem_cons_of_mem _ (h.usersUsed other hold)
    · obtain rfl := List.mem_singleton.mp hlast
      exact List.mem_cons_self

/-- An update keeps the ids of the table. -/
theorem updateUser (h : Sound sha256 s) (user : User) :
    Sound sha256 { s with
      users := s.users.map fun row => if row.id = user.id then user else row } := by
  have hids : ∀ row ∈ s.users.map (fun row => if row.id = user.id then user else row),
      ∃ old ∈ s.users, row.id = old.id := by
    intro row hrow
    obtain ⟨old, hold, rfl⟩ := List.mem_map.mp hrow
    refine ⟨old, hold, ?_⟩
    split
    · next he => exact he.symm
    · rfl
  refine h.frame ⟨Nat.le_refl _, ?_, List.prefix_rfl, fun _ hspent => hspent⟩ rfl rfl rfl rfl
    ?_ (fun _ hmem => hmem) (fun _ hmem => hmem) fun _ hmem => Or.inl hmem
  · rintro userId ⟨hused, hgone⟩
    refine ⟨hused, findUserById_eq_none.mpr fun row hrow he => ?_⟩
    obtain ⟨old, hold, hid⟩ := hids row hrow
    exact findUserById_eq_none.mp hgone old hold (hid ▸ he)
  · intro row hrow
    obtain ⟨old, hold, hid⟩ := hids row hrow
    exact hid ▸ h.usersUsed old hold

/-- A deleted user takes the pending codes along. -/
theorem deleteUser (h : Sound sha256 s) (id : String) :
    Sound sha256 { s with
      users := s.users.filter fun user => user.id != id
      codes := s.codes.filter fun row => row.userId != id } := by
  refine h.frame ⟨Nat.le_refl _, ?_, List.prefix_rfl, fun _ hspent => hspent⟩ rfl rfl rfl rfl
    ?_ (fun _ hmem => hmem) (fun _ hmem => (List.mem_filter.mp hmem).1) fun row hrow => ?_
  · rintro userId ⟨hused, hgone⟩
    refine ⟨hused, findUserById_eq_none.mpr fun user huser => ?_⟩
    exact findUserById_eq_none.mp hgone user ((List.mem_filter.mp huser).1)
  · exact fun user huser => h.usersUsed user ((List.mem_filter.mp huser).1)
  · by_cases he : row.userId = id
    · refine Or.inr (Or.inr ⟨?_, findUserById_eq_none.mpr fun user huser => ?_⟩)
      · obtain ⟨code, userId, mintedAt, rfl, hlive⟩ := h.rows row hrow
        exact h.liveUsed code userId mintedAt hlive
      · have hne := (List.mem_filter.mp huser).2
        rw [he]
        simpa only [bne_iff_ne, ne_eq] using hne
    · refine Or.inl (List.mem_filter.mpr ⟨hrow, ?_⟩)
      simpa only [bne_iff_ne, ne_eq] using he

/-- The housekeeping delete takes rows that have run out. -/
theorem withoutExpired (h : Sound sha256 s) {cutoff : Nat} (hcutoff : cutoff ≤ s.clock) :
    Sound sha256 (s.withoutExpired cutoff) := by
  refine h.frame (extends_of_same rfl rfl rfl rfl) rfl rfl rfl rfl h.usersUsed
    (fun _ hmem => hmem) (fun _ hmem => (List.mem_filter.mp hmem).1) fun row hrow => ?_
  by_cases hlt : row.expiresAt < cutoff
  · exact Or.inr (Or.inl (Nat.lt_of_lt_of_le hlt hcutoff))
  · refine Or.inl (List.mem_filter.mpr ⟨hrow, ?_⟩)
    simp only [hlt, decide_false, Bool.not_false]

/-- Drawing a code that was never drawn stamps a fresh code. -/
theorem mint (h : Sound sha256 s) (id : Nat) (userId : String) {code : String}
    (hnew : code ∉ s.usedCodes) :
    Sound sha256 ({ s with usedCodes := code :: s.usedCodes }.setMint id ⟨code, s.clock,
      .insert ⟨hashExchangeCode sha256 code, userId, s.clock + oauthExchangeCodeTtlMs⟩⟩) := by
  have hdrawn : Sound sha256 { s with usedCodes := code :: s.usedCodes } := {
    issuedOnce := h.issuedOnce
    usersUsed := h.usersUsed
    rows := h.rows
    kept := h.kept
    liveUsed := h.liveUsed
    drawn := fun other hother => List.mem_cons_of_mem _ (h.drawn other hother)
    stamped := fun id other mintedAt row hmint =>
      have hstamp := h.stamped id other mintedAt row hmint
      ⟨List.mem_cons_of_mem _ hstamp.1, hstamp.2⟩
    stampedOnce := h.stampedOnce
    cutoffs := h.cutoffs
    placed := fun id exchange hexchange =>
      (h.placed id exchange hexchange).mono (extends_of_same rfl rfl rfl rfl)
    once := h.once }
  refine hdrawn.setMint (fun row hrow => ?_) (fun row _ id' mintedAt' row' hmint => ?_)
    fun cutoff hphase => (by cases hphase)
  · obtain rfl := (MintPhase.insert.inj hrow).symm
    refine ⟨List.mem_cons_self, ?_, rfl⟩
    by_contra hfresh
    exact hnew (h.drawn code hfresh)
  · exact absurd (h.stamped id' code mintedAt' row' hmint).1 hnew

/-- The insert makes a stamped code live. -/
theorem issue (h : Sound sha256 s) {id : Nat} {code : String} {mintedAt : Nat}
    {row : OauthExchangeCode} (hmint : s.mints id = some ⟨code, mintedAt, .insert row⟩)
    (huser : findUserById s.users row.userId ≠ none) :
    Sound sha256 ((s.issue ⟨code, mintedAt, .insert row⟩ row).setMint id
      ⟨code, mintedAt, .cutoff⟩) := by
  obtain ⟨hused, hfresh, hrow⟩ := h.stamped id code mintedAt row hmint
  have hself := tokenOf_issued_self code s.history (row.userId, mintedAt)
  have hother : ∀ {other : String}, other ≠ code →
      tokenOf other (s.history ++ [.issued code (row.userId, mintedAt)]) =
        tokenOf other s.history := fun hne => tokenOf_issued_of_ne hne ..
  have hne : ∀ {other : String}, tokenOf other s.history ≠ .fresh → other ≠ code := by
    rintro other hdrawn rfl
    exact hdrawn hfresh
  have hold : ∀ {other : Nat} {mint : Mint}, ((s.issue ⟨code, mintedAt, .insert row⟩ row).setMint
      id ⟨code, mintedAt, .cutoff⟩).mints other = some mint → mint.phase ≠ .cutoff →
      other ≠ id ∧ s.mints other = some mint := by
    intro other mint hfound hphase
    rcases ExchangeState.of_setMint hfound with ⟨-, rfl⟩ | hold
    · exact absurd rfl hphase
    · exact hold
  have hext : Extends s ((s.issue ⟨code, mintedAt, .insert row⟩ row).setMint id
      ⟨code, mintedAt, .cutoff⟩) := by
    refine ⟨Nat.le_refl _, fun _ habsent => habsent, List.prefix_append .., ?_⟩
    intro other hspent
    exact (hother (hne (by simp only [hspent, ne_eq, reduceCtorEq, not_false_eq_true]))).trans
      hspent
  refine ⟨?issuedOnce, h.usersUsed, ?rows, ?kept, ?liveUsed, ?drawn, ?stamped, ?stampedOnce,
    ?cutoffs, ?placed, h.once⟩
  case issuedOnce => exact h.issuedOnce.issue hfresh _
  case rows =>
    intro other hmem
    rcases List.mem_append.mp hmem with hmem | hmem
    · obtain ⟨other', userId, at', rfl, hlive⟩ := h.rows other hmem
      refine ⟨other', userId, at', rfl, (hother (hne ?_)).trans hlive⟩
      simp only [hlive, ne_eq, reduceCtorEq, not_false_eq_true]
    · obtain rfl := List.mem_singleton.mp hmem
      exact ⟨code, other.userId, mintedAt, hrow, hself⟩
  case kept =>
    intro other userId at' hlive
    by_cases he : other = code
    · subst he
      obtain ⟨rfl, rfl⟩ := Prod.mk.inj (Token.live.inj (hself.symm.trans hlive))
      exact Or.inl (List.mem_append_right _ (List.mem_singleton.mpr hrow.symm))
    · rcases h.kept other userId at' ((hother he).symm.trans hlive) with hmem | hout
      · exact Or.inl (List.mem_append_left _ hmem)
      · exact Or.inr hout
  case liveUsed =>
    intro other userId at' hlive
    by_cases he : other = code
    · subst he
      obtain ⟨rfl, rfl⟩ := Prod.mk.inj (Token.live.inj (hself.symm.trans hlive))
      obtain ⟨user, hfound⟩ := Option.ne_none_iff_exists'.mp huser
      exact id_of_findUserById hfound ▸ h.usersUsed user (List.mem_of_find?_eq_some hfound)
    · exact h.liveUsed other userId at' ((hother he).symm.trans hlive)
  case drawn =>
    intro other hdrawn
    by_cases he : other = code
    · exact he ▸ hused
    · exact h.drawn other fun hnone => hdrawn ((hother he).trans hnone)
  case stamped =>
    intro id' other at' row' hfound
    obtain ⟨hid, hmint'⟩ := hold hfound (by simp only [ne_eq, reduceCtorEq, not_false_eq_true])
    obtain ⟨hused', hfresh', hrow'⟩ := h.stamped id' other at' row' hmint'
    refine ⟨hused', (hother ?_).trans hfresh', hrow'⟩
    rintro rfl
    exact hid (h.stampedOnce id' id other at' mintedAt row' row hmint' hmint)
  case stampedOnce =>
    intro a b other ma mb ra rb ha hb
    exact h.stampedOnce a b other ma mb ra rb
      (hold ha (by simp only [ne_eq, reduceCtorEq, not_false_eq_true])).2
      (hold hb (by simp only [ne_eq, reduceCtorEq, not_false_eq_true])).2
  case cutoffs =>
    intro id' other at' cutoff hfound
    exact h.cutoffs id' other at' cutoff
      (hold hfound (by simp only [ne_eq, reduceCtorEq, not_false_eq_true])).2
  case placed =>
    intro id' exchange hexchange
    exact (h.placed id' exchange hexchange).mono hext

/-- A presentation spends the code and takes its row. -/
theorem present (hsha : Function.Injective sha256) (h : Sound sha256 s) (id : Nat)
    (code : String) : Sound sha256 (s.present id code (hashExchangeCode sha256 code)) := by
  have hother : ∀ {other : String}, other ≠ code →
      tokenOf other (s.history ++ [.presented code id]) = tokenOf other s.history :=
    fun hne => tokenOf_presented_of_ne hne ..
  have hext : Extends s (s.present id code (hashExchangeCode sha256 code)) :=
    ⟨Nat.le_refl _, fun _ habsent => habsent, List.prefix_append ..,
      fun _ hspent => tokenOf_presented_of_spent hspent ..⟩
  refine ⟨?issuedOnce, h.usersUsed, ?rows, ?kept, ?liveUsed, ?drawn, ?stamped, h.stampedOnce,
    h.cutoffs, ?placed, h.once⟩
  case issuedOnce => exact h.issuedOnce.present code id
  case rows =>
    intro row hmem
    obtain ⟨hmem, hne⟩ := List.mem_filter.mp hmem
    obtain ⟨other, userId, mintedAt, rfl, hlive⟩ := h.rows row hmem
    refine ⟨other, userId, mintedAt, rfl, (hother fun he => ?_).trans hlive⟩
    simp only [rowOf, he, bne_self_eq_false, Bool.false_eq_true] at hne
  case kept =>
    intro other userId mintedAt hlive
    have hne := ne_of_tokenOf_presented hlive
    rcases h.kept other userId mintedAt ((hother hne).symm.trans hlive) with hmem | hout
    · refine Or.inl (List.mem_filter.mpr ⟨hmem, ?_⟩)
      exact bne_iff_ne.mpr fun he => hne (hsha he)
    · exact Or.inr hout
  case liveUsed =>
    intro other userId mintedAt hlive
    have hne := ne_of_tokenOf_presented hlive
    exact h.liveUsed other userId mintedAt ((hother hne).symm.trans hlive)
  case drawn =>
    intro other hdrawn
    exact h.drawn other fun hnone => hdrawn (tokenOf_presented_of_fresh hnone ..)
  case stamped =>
    intro id' other mintedAt row hmint
    obtain ⟨hused, hnone, hrow⟩ := h.stamped id' other mintedAt row hmint
    exact ⟨hused, tokenOf_presented_of_fresh hnone .., hrow⟩
  case placed =>
    intro id' exchange hexchange
    exact (h.placed id' exchange hexchange).mono hext

/-- What the delete of an exchange returns is the row of a live code, or shows that the
code has none. -/
theorem delete (hsha : Function.Injective sha256) (h : Sound sha256 s) {id : Nat}
    {code : String} {found : Token (String × Nat)} {checkedAt : Nat} {users : List User}
    (hexchange : s.exchanges id = some ⟨code, .delete, found, checkedAt, users⟩) :
    Sound sha256 ((s.present id code (hashExchangeCode sha256 code)).setExchange id
      ⟨code, .check (s.codes.find? fun row => row.codeHash == hashExchangeCode sha256 code),
        tokenOf code s.history, checkedAt, users⟩) := by
  have hpresented : Presented (s.present id code (hashExchangeCode sha256 code)) id
      ⟨code, .check (s.codes.find? fun row => row.codeHash == hashExchangeCode sha256 code),
        tokenOf code s.history, checkedAt, users⟩ := by
    exact ⟨⟨s.history, [], rfl, rfl⟩, fun grant hlive => tokenOf_presented_of_live hlive id⟩
  refine (h.present hsha id code).setExchange ?_ fun grant hlive other exchange grant' hother hcode
    hlive' => ?_
  · cases hrow : s.codes.find? fun row => row.codeHash == hashExchangeCode sha256 code with
    | none =>
      refine ⟨hrow ▸ hpresented, fun userId mintedAt hlive => ?_⟩
      rcases h.kept code userId mintedAt hlive with hmem | hout
      · exact absurd (beq_self_eq_true _) (List.find?_eq_none.mp hrow _ hmem)
      · exact hout
    | some row =>
      obtain ⟨other, userId, mintedAt, rfl, hlive⟩ := h.rows row (List.mem_of_find?_eq_some hrow)
      obtain rfl : other = code := hsha (beq_iff_eq.mp (List.find?_some hrow :))
      exact ⟨hrow ▸ hpresented, userId, mintedAt, rfl, hlive⟩
  · -- A second winner would have spent the code before this delete.
    have hspent := (h.placed other exchange hother).spent hlive'
    rw [hcode, show tokenOf code s.history = .live grant from hlive] at hspent
    cases hspent

/-- The expiry check decides as redeeming the token would. -/
theorem check (h : Sound sha256 s) {id : Nat} {code : String} {entry : Option OauthExchangeCode}
    {found : Token (String × Nat)} {checkedAt : Nat} {users : List User}
    (hexchange : s.exchanges id = some ⟨code, .check entry, found, checkedAt, users⟩)
    (hout : ∀ row, entry = some row → row.expiresAt < s.clock) :
    Sound sha256 (s.setExchange id
      ⟨code, .done (.error invalidExchangeCode), found, s.clock, s.users⟩) := by
  have hplaced := h.placed id _ hexchange
  refine h.setExchange_same hexchange rfl rfl ?_
  cases entry with
  | none =>
    refine ⟨hplaced.1, ?_⟩
    cases found with
    | fresh => rfl
    | spent => rfl
    | live grant =>
      refine (redeem_live_eq_error ?_).symm
      exact (hplaced.2 grant.1 grant.2 rfl).imp_right And.right
  | some row =>
    obtain ⟨hpresented, userId, mintedAt, hrow, hlive⟩ := hplaced
    refine ⟨hpresented, ?_⟩
    obtain rfl : row = rowOf sha256 code userId mintedAt := hrow
    obtain rfl : found = .live (userId, mintedAt) := hlive
    exact (redeem_live_eq_error (Or.inl (hout _ rfl))).symm

/-- A row that has not run out goes on to the lookup of its user. -/
theorem checked (h : Sound sha256 s) {id : Nat} {code : String} {row : OauthExchangeCode}
    {found : Token (String × Nat)} {checkedAt : Nat} {users : List User}
    (hexchange : s.exchanges id = some ⟨code, .check (some row), found, checkedAt, users⟩)
    (hle : s.clock ≤ row.expiresAt) :
    Sound sha256 (s.setExchange id ⟨code, .lookup row.userId, found, s.clock, users⟩) := by
  obtain ⟨hpresented, userId, mintedAt, hrow, hlive⟩ := h.placed id _ hexchange
  obtain rfl : row = rowOf sha256 code userId mintedAt := hrow
  exact h.setExchange_same hexchange rfl rfl ⟨hpresented, mintedAt, hlive, hle⟩

/-- The lookup answers as redeeming the token would. -/
theorem lookup (h : Sound sha256 s) {id : Nat} {code userId : String}
    {found : Token (String × Nat)} {checkedAt : Nat} {users : List User}
    (hexchange : s.exchanges id = some ⟨code, .lookup userId, found, checkedAt, users⟩)
    {result : Except HttpException JwtPayload}
    (hresult : result = match findUserById s.users userId with
      | some user => .ok (toJwtPayload user)
      | none => .error invalidExchangeCode) :
    Sound sha256 (s.setExchange id ⟨code, .done result, found, checkedAt, s.users⟩) := by
  obtain ⟨hpresented, mintedAt, hlive, hle⟩ := h.placed id _ hexchange
  refine h.setExchange_same hexchange rfl rfl ⟨hpresented, ?_⟩
  obtain rfl : found = .live (userId, mintedAt) := hlive
  simp only [redeem, if_pos hle, hresult]

/-- Every step keeps the invariant. -/
theorem step (hsha : Function.Injective sha256) (h : Sound sha256 s) {label : ExchangeLabel}
    (hstep : (exchangeCodes sha256).step s label = some t) : Sound sha256 t := by
  cases label with
  | tick ms =>
    obtain rfl := Option.some.inj hstep
    exact h.tick ms
  | createUser user =>
    obtain ⟨hnew, rfl⟩ := step_createUser.mp hstep
    exact h.createUser hnew
  | updateUser user =>
    obtain rfl := Option.some.inj hstep
    exact h.updateUser user
  | deleteUser id =>
    obtain rfl := Option.some.inj hstep
    exact h.deleteUser id
  | mint id userId code =>
    obtain ⟨-, hnew, rfl⟩ := step_mint.mp hstep
    exact h.mint id userId hnew
  | insert id =>
    obtain ⟨code, mintedAt, row, hmint, ⟨-, rfl⟩ | ⟨huser, -, rfl⟩⟩ := step_insert.mp hstep
    · exact h.setMint (fun _ he => by cases he) (fun _ he => by cases he) fun _ he => by cases he
    · exact h.issue hmint huser
  | cutoff id =>
    obtain ⟨code, mintedAt, -, rfl⟩ := step_cutoff.mp hstep
    refine h.setMint (fun _ he => by cases he) (fun _ he => by cases he) fun cutoff he => ?_
    exact Nat.le_of_eq (MintPhase.prune.inj he).symm
  | prune id =>
    obtain ⟨code, mintedAt, cutoff, hmint, rfl⟩ := step_prune.mp hstep
    exact (h.withoutExpired (h.cutoffs id code mintedAt cutoff hmint)).setMint
      (fun _ he => by cases he) (fun _ he => by cases he) fun _ he => by cases he
  | pruneFailed id =>
    obtain ⟨code, mintedAt, cutoff, -, rfl⟩ := step_pruneFailed.mp hstep
    exact h.setMint (fun _ he => by cases he) (fun _ he => by cases he) fun _ he => by cases he
  | exchange id code =>
    obtain ⟨-, rfl⟩ := step_exchange.mp hstep
    exact h.setExchange rfl fun _ he => by cases he
  | delete id =>
    obtain ⟨code, found, checkedAt, users, hexchange, rfl⟩ := step_delete.mp hstep
    exact h.delete hsha hexchange
  | check id =>
    obtain ⟨code, entry, found, checkedAt, users, hexchange, ⟨hout, rfl⟩ | ⟨row, rfl, hle, rfl⟩⟩ :=
      step_check.mp hstep
    · exact h.check hexchange hout
    · exact h.checked hexchange hle
  | lookup id =>
    obtain ⟨code, userId, found, checkedAt, users, hexchange, ⟨hnone, rfl⟩ | ⟨user, huser, rfl⟩⟩ :=
      step_lookup.mp hstep
    · exact h.lookup hexchange (by rw [hnone])
    · exact h.lookup hexchange (by rw [huser])

end Sound

/-- The invariant holds in every state that a run reaches. -/
theorem sound_of_exec (hsha : Function.Injective sha256) {clock : Nat}
    {labels : List ExchangeLabel}
    (h : (exchangeCodes sha256).exec (.initial clock) labels = some s) : Sound sha256 s :=
  (exchangeCodes sha256).exec_invariant (sound_initial clock)
    (fun _ _ _ hm hstep => hm.step hsha hstep) h

namespace Sound

/-- An answered exchange answers as redeeming the token in front of its delete would. -/
theorem answered (h : Sound sha256 s) {id : Nat} {exchange : Exchange}
    {result : Except HttpException JwtPayload} (hexchange : s.exchanges id = some exchange)
    (hdone : exchange.phase = .done result) : ∃ pre post,
      s.history = pre ++ .presented exchange.code id :: post ∧
      result = redeem (tokenOf exchange.code pre) exchange.checkedAt exchange.users := by
  obtain ⟨code, phase, found, checkedAt, users⟩ := exchange
  obtain rfl : phase = .done result := hdone
  obtain ⟨⟨⟨pre, post, hsplit, hfound⟩, -⟩, hresult⟩ := h.placed id _ hexchange
  exact ⟨pre, post, hsplit, hresult.trans (by rw [hfound])⟩

/-- Two exchanges of one code do not both answer with a token. -/
theorem answered_once (h : Sound sha256 s) {id id' : Nat} {exchange exchange' : Exchange}
    {payload payload' : JwtPayload} (hexchange : s.exchanges id = some exchange)
    (hexchange' : s.exchanges id' = some exchange') (hcode : exchange.code = exchange'.code)
    (hdone : exchange.phase = .done (.ok payload))
    (hdone' : exchange'.phase = .done (.ok payload')) : id = id' := by
  have hlive : ∀ {id : Nat} {exchange : Exchange} {payload : JwtPayload},
      s.exchanges id = some exchange → exchange.phase = .done (.ok payload) →
      ∃ grant, exchange.found = .live grant := by
    intro id exchange payload hexchange hdone
    obtain ⟨code, phase, found, checkedAt, users⟩ := exchange
    obtain rfl : phase = .done (.ok payload) := hdone
    obtain ⟨-, hresult⟩ := h.placed id _ hexchange
    obtain ⟨userId, mintedAt, user, hfound, -⟩ := redeem_eq_ok.mp hresult.symm
    exact ⟨_, hfound⟩
  obtain ⟨grant, hfound⟩ := hlive hexchange hdone
  obtain ⟨grant', hfound'⟩ := hlive hexchange' hdone'
  exact h.once id id' exchange exchange' grant grant' hexchange hexchange' hcode hfound hfound'

/-- A row of the table belongs to no spent code. -/
theorem codeHash_ne_of_spent (hsha : Function.Injective sha256) (h : Sound sha256 s)
    {code : String} (hspent : tokenOf code s.history = .spent) {row : OauthExchangeCode}
    (hrow : row ∈ s.codes) : row.codeHash ≠ hashExchangeCode sha256 code := by
  intro he
  obtain ⟨other, userId, mintedAt, rfl, hlive⟩ := h.rows row hrow
  obtain rfl : other = code := hsha he
  rw [hspent] at hlive
  cases hlive

end Sound

end Steps

end VertexApi.Auth
