import Mathlib.Logic.Equiv.Basic
import VertexApi.Auth.ExchangeOnce

/-!
# Pruning changes no outcome

A run is compared with the run of the same steps in which every housekeeping delete fails.
The second table keeps more rows, all of which have run out, so an exchange that finds one
of them is rejected at its check, as the exchange that finds no row is.
-/

namespace VertexApi.Auth

/-- The same step with its housekeeping delete failing. -/
def withoutPrune : ExchangeLabel → ExchangeLabel
  | .prune id => .pruneFailed id
  | label => label

/-- Two exchanges agree, or the second holds a row that has run out where the first holds
none. -/
def ExchangeUnpruned (clock : Nat) (exchange exchange' : Option Exchange) : Prop :=
  exchange = exchange' ∨ ∃ code found checkedAt users row,
    exchange = some ⟨code, .check none, found, checkedAt, users⟩ ∧
    exchange' = some ⟨code, .check (some row), found, checkedAt, users⟩ ∧ row.expiresAt < clock

/-- The second state is the first one before any housekeeping delete. -/
structure Unpruned (s t : ExchangeState) : Prop where
  same : t = { s with codes := t.codes, exchanges := t.exchanges }
  codes : ∀ row ∈ s.codes, row ∈ t.codes
  /-- Only rows that have run out are missing. -/
  extra : ∀ row ∈ t.codes, row ∈ s.codes ∨ row.expiresAt < s.clock
  exchanges : ∀ id, ExchangeUnpruned s.clock (s.exchanges id) (t.exchanges id)

section Steps

variable {sha256 : String → String} {s t s' : ExchangeState}

/-- Rows that have run out stay so. -/
theorem ExchangeUnpruned.mono {clock clock' : Nat} {exchange exchange' : Option Exchange}
    (h : ExchangeUnpruned clock exchange exchange') (hle : clock ≤ clock') :
    ExchangeUnpruned clock' exchange exchange' := by
  rcases h with rfl | ⟨code, found, checkedAt, users, row, hleft, hright, hout⟩
  · exact Or.inl rfl
  · exact Or.inr ⟨code, found, checkedAt, users, row, hleft, hright, Nat.lt_of_lt_of_le hout hle⟩

/-- Two exchanges agree unless the first one waits for its check without a row. -/
theorem ExchangeUnpruned.eq_of_phase {clock : Nat} {exchange : Exchange}
    {exchange' : Option Exchange} (h : ExchangeUnpruned clock (some exchange) exchange')
    (hphase : exchange.phase ≠ .check none) : exchange' = some exchange := by
  rcases h with rfl | ⟨code, found, checkedAt, users, row, hleft, -, -⟩
  · rfl
  · obtain rfl := Option.some.inj hleft
    exact absurd rfl hphase

/-- A row of a sound table is determined by its hash. -/
theorem Sound.row_eq (hsha : Function.Injective sha256) (hs : Sound sha256 s)
    (ht : Sound sha256 t) (hhistory : t.history = s.history) {row other : OauthExchangeCode}
    (hrow : row ∈ s.codes) (hother : other ∈ t.codes) (hhash : row.codeHash = other.codeHash) :
    row = other := by
  obtain ⟨code, userId, mintedAt, rfl, hlive⟩ := hs.rows row hrow
  obtain ⟨code', userId', mintedAt', rfl, hlive'⟩ := ht.rows other hother
  obtain rfl : code = code' := hsha hhash
  rw [hhistory, hlive, Token.live.injEq, Prod.mk.injEq] at hlive'
  obtain ⟨rfl, rfl⟩ := hlive'
  rfl

/-- No row of a sound table has the hash of a stamped code. -/
theorem Sound.codeHash_ne_of_stamped (hsha : Function.Injective sha256) (h : Sound sha256 s)
    {id mintedAt : Nat} {code : String} {row : OauthExchangeCode}
    (hmint : s.mints id = some ⟨code, mintedAt, .insert row⟩) {other : OauthExchangeCode}
    (hother : other ∈ s.codes) : other.codeHash ≠ row.codeHash := by
  intro he
  obtain ⟨-, hfresh, hrow⟩ := h.stamped id code mintedAt row hmint
  obtain ⟨code', userId, at', rfl, hlive⟩ := h.rows other hother
  rw [hrow] at he
  obtain rfl : code' = code := hsha he
  rw [hfresh] at hlive
  cases hlive

namespace Unpruned

/-- Every state is its own comparison. -/
theorem refl (s : ExchangeState) : Unpruned s s where
  same := rfl
  codes _ hrow := hrow
  extra _ hrow := Or.inl hrow
  exchanges _ := Or.inl rfl

/-- A step of one exchange on both sides. -/
theorem setExchange (h : Unpruned s t) (id : Nat) {exchange exchange' : Exchange}
    (hsame : ExchangeUnpruned s.clock (some exchange) (some exchange')) :
    Unpruned (s.setExchange id exchange) (t.setExchange id exchange') where
  same := by
    rw [h.same]
    rfl
  codes := h.codes
  extra := h.extra
  exchanges other := by
    by_cases he : other = id
    · rw [he, ExchangeState.setExchange_exchanges_self, ExchangeState.setExchange_exchanges_self]
      exact hsame
    · rw [ExchangeState.setExchange_exchanges_of_ne _ _ he,
        ExchangeState.setExchange_exchanges_of_ne _ _ he]
      exact h.exchanges other

/-- A step of one mint on both sides. -/
theorem setMint (h : Unpruned s t) (id : Nat) (mint : Mint) :
    Unpruned (s.setMint id mint) (t.setMint id mint) where
  same := by
    rw [h.same]
    rfl
  codes := h.codes
  extra := h.extra
  exchanges := h.exchanges

/-- The insert of one row on both sides. -/
theorem issue (h : Unpruned s t) (mint : Mint) (row : OauthExchangeCode) :
    Unpruned (s.issue mint row) (t.issue mint row) where
  same := by
    rw [h.same]
    rfl
  codes other hother := by
    rcases List.mem_append.mp hother with hold | hlast
    · exact List.mem_append_left _ (h.codes other hold)
    · exact List.mem_append_right _ hlast
  extra other hother := by
    rcases List.mem_append.mp hother with hold | hlast
    · exact (h.extra other hold).imp_left (List.mem_append_left _)
    · exact Or.inl (List.mem_append_right _ hlast)
  exchanges := h.exchanges

/-- A presentation on both sides. -/
theorem present (h : Unpruned s t) (id : Nat) (code codeHash : String) :
    Unpruned (s.present id code codeHash) (t.present id code codeHash) where
  same := by
    rw [h.same]
    rfl
  codes row hrow := by
    obtain ⟨hmem, hne⟩ := List.mem_filter.mp hrow
    exact List.mem_filter.mpr ⟨h.codes row hmem, hne⟩
  extra row hrow := by
    obtain ⟨hmem, hne⟩ := List.mem_filter.mp hrow
    exact (h.extra row hmem).imp_left fun hmem => List.mem_filter.mpr ⟨hmem, hne⟩
  exchanges := h.exchanges

/-- A housekeeping delete on the first side only. -/
theorem withoutExpired (h : Unpruned s t) {cutoff : Nat} (hcutoff : cutoff ≤ s.clock) :
    Unpruned (s.withoutExpired cutoff) t where
  same := h.same
  codes row hrow := h.codes row (List.mem_filter.mp hrow).1
  extra row hrow := by
    rcases h.extra row hrow with hmem | hout
    · by_cases hlt : row.expiresAt < cutoff
      · exact Or.inr (Nat.lt_of_lt_of_le hlt hcutoff)
      · refine Or.inl (List.mem_filter.mpr ⟨hmem, ?_⟩)
        simp only [hlt, decide_false, Bool.not_false]
    · exact Or.inr hout
  exchanges := h.exchanges

/-- The deletes of the two sides return the same row, or one that has run out and none. -/
theorem find (hsha : Function.Injective sha256) (hs : Sound sha256 s) (ht : Sound sha256 t)
    (h : Unpruned s t) (codeHash : String) :
    t.codes.find? (fun row => row.codeHash == codeHash) =
      s.codes.find? (fun row => row.codeHash == codeHash) ∨
    s.codes.find? (fun row => row.codeHash == codeHash) = none ∧ ∃ row,
      t.codes.find? (fun row => row.codeHash == codeHash) = some row ∧ row.expiresAt < s.clock := by
  have hhistory : t.history = s.history := by rw [h.same]
  cases hleft : s.codes.find? fun row => row.codeHash == codeHash with
  | none =>
    cases hright : t.codes.find? fun row => row.codeHash == codeHash with
    | none => exact Or.inl rfl
    | some row =>
      refine Or.inr ⟨rfl, row, rfl, ?_⟩
      rcases h.extra row (List.mem_of_find?_eq_some hright) with hmem | hout
      · exact absurd (List.find?_some hright :) (List.find?_eq_none.mp hleft row hmem)
      · exact hout
  | some row =>
    refine Or.inl ?_
    have hmem := List.mem_of_find?_eq_some hleft
    have hhash := beq_iff_eq.mp (List.find?_some hleft :)
    cases hright : t.codes.find? fun row => row.codeHash == codeHash with
    | none => exact absurd (List.find?_some hleft :) (List.find?_eq_none.mp hright row
        (h.codes row hmem))
    | some other =>
      rw [hs.row_eq hsha ht hhistory hmem (List.mem_of_find?_eq_some hright)
        (hhash.trans (beq_iff_eq.mp (List.find?_some hright :)).symm)]

/-- An exchange that does not wait for its check without a row is the same on both sides. -/
theorem exchanges_eq (h : Unpruned s t) {id : Nat} {exchange : Exchange}
    (hexchange : s.exchanges id = some exchange) (hphase : exchange.phase ≠ .check none) :
    t.exchanges id = some exchange := (hexchange ▸ h.exchanges id).eq_of_phase hphase

/-- The insert violates a constraint on both sides or on none. -/
theorem insert (hsha : Function.Injective sha256) (ht : Sound sha256 t) (h : Unpruned s t)
    {id : Nat} (hstep : (exchangeCodes sha256).step s (.insert id) = some s') :
    ∃ t', (exchangeCodes sha256).step t (.insert id) = some t' ∧ Unpruned s' t' := by
  have husers : t.users = s.users := by rw [h.same]
  have hmints : t.mints = s.mints := by rw [h.same]
  obtain ⟨code, mintedAt, row, hmint, ⟨hviolated, rfl⟩ | ⟨huser, -, rfl⟩⟩ := step_insert.mp hstep
  · refine ⟨_, step_insert.mpr ⟨code, mintedAt, row, hmints ▸ hmint, Or.inl ⟨?_, rfl⟩⟩,
      h.setMint id _⟩
    rw [husers]
    exact hviolated.imp_right fun ⟨other, hmem, he⟩ => ⟨other, h.codes other hmem, he⟩
  · refine ⟨_, step_insert.mpr ⟨code, mintedAt, row, hmints ▸ hmint, Or.inr ⟨?_, ?_, rfl⟩⟩,
      (h.issue _ row).setMint id _⟩
    · rwa [husers]
    · exact fun other hmem => ht.codeHash_ne_of_stamped hsha (hmints ▸ hmint) hmem

/-- The delete of an exchange on both sides. -/
theorem delete (hsha : Function.Injective sha256) (hs : Sound sha256 s) (ht : Sound sha256 t)
    (h : Unpruned s t) {id : Nat}
    (hstep : (exchangeCodes sha256).step s (.delete id) = some s') :
    ∃ t', (exchangeCodes sha256).step t (.delete id) = some t' ∧ Unpruned s' t' := by
  obtain ⟨code, found, checkedAt, users, hexchange, rfl⟩ := step_delete.mp hstep
  have hexchange' := h.exchanges_eq hexchange
    (by simp only [ne_eq, reduceCtorEq, not_false_eq_true])
  have hhistory : t.history = s.history := by rw [h.same]
  refine ⟨_, step_delete.mpr ⟨code, found, checkedAt, users, hexchange', rfl⟩, ?_⟩
  rw [hhistory]
  refine (h.present id code _).setExchange id ?_
  rcases h.find hsha hs ht (hashExchangeCode sha256 code) with hsame | ⟨hnone, row, hrow, hout⟩
  · exact Or.inl (by rw [hsame])
  · exact Or.inr ⟨code, _, checkedAt, users, row, by rw [hnone], by rw [hrow], hout⟩

/-- The expiry check decides alike, since a row that only one side holds has run out. -/
theorem check (h : Unpruned s t) {id : Nat}
    (hstep : (exchangeCodes sha256).step s (.check id) = some s') :
    ∃ t', (exchangeCodes sha256).step t (.check id) = some t' ∧ Unpruned s' t' := by
  have hclock : t.clock = s.clock := by rw [h.same]
  have husers : t.users = s.users := by rw [h.same]
  obtain ⟨code, entry, found, checkedAt, users, hexchange, hcheck⟩ := step_check.mp hstep
  rcases h.exchanges id with he | ⟨code', found', checkedAt', users', row, hleft, hright, hout⟩
  · rw [hexchange] at he
    rcases hcheck with ⟨hreject, rfl⟩ | ⟨row, rfl, hle, rfl⟩
    · refine ⟨_, step_check.mpr ⟨code, entry, found, checkedAt, users, he.symm, Or.inl
        ⟨hclock ▸ hreject, rfl⟩⟩, ?_⟩
      rw [hclock, husers]
      exact h.setExchange id (Or.inl rfl)
    · refine ⟨_, step_check.mpr ⟨code, some row, found, checkedAt, users, he.symm, Or.inr
        ⟨row, rfl, hclock ▸ hle, rfl⟩⟩, ?_⟩
      rw [hclock]
      exact h.setExchange id (Or.inl rfl)
  · obtain ⟨rfl, hnone, rfl, rfl, rfl⟩ :=
      Exchange.mk.inj (Option.some.inj (hexchange.symm.trans hleft))
    obtain rfl := ExchangePhase.check.inj hnone
    rcases hcheck with ⟨-, rfl⟩ | ⟨_, hfound, -⟩
    · refine ⟨_, step_check.mpr ⟨code, some row, found, checkedAt, users, hright, Or.inl
        ⟨fun other he => ?_, rfl⟩⟩, ?_⟩
      · obtain rfl := Option.some.inj he
        rwa [hclock]
      · rw [hclock, husers]
        exact h.setExchange id (Or.inl rfl)
    · cases hfound

/-- The lookup of the user on both sides. -/
theorem lookup (h : Unpruned s t) {id : Nat}
    (hstep : (exchangeCodes sha256).step s (.lookup id) = some s') :
    ∃ t', (exchangeCodes sha256).step t (.lookup id) = some t' ∧ Unpruned s' t' := by
  have husers : t.users = s.users := by rw [h.same]
  obtain ⟨code, userId, found, checkedAt, users, hexchange, hlookup⟩ := step_lookup.mp hstep
  have hexchange' := h.exchanges_eq hexchange
    (by simp only [ne_eq, reduceCtorEq, not_false_eq_true])
  rcases hlookup with ⟨hnone, rfl⟩ | ⟨user, huser, rfl⟩
  · refine ⟨_, step_lookup.mpr ⟨code, userId, found, checkedAt, users, hexchange', Or.inl
      ⟨husers ▸ hnone, rfl⟩⟩, ?_⟩
    rw [husers]
    exact h.setExchange id (Or.inl rfl)
  · refine ⟨_, step_lookup.mpr ⟨code, userId, found, checkedAt, users, hexchange', Or.inr
      ⟨user, husers ▸ huser, rfl⟩⟩, ?_⟩
    rw [husers]
    exact h.setExchange id (Or.inl rfl)

/-- The two sides take the same steps. -/
theorem step (hsha : Function.Injective sha256) (hs : Sound sha256 s) (ht : Sound sha256 t)
    (h : Unpruned s t) {label : ExchangeLabel}
    (hstep : (exchangeCodes sha256).step s label = some s') :
    ∃ t', (exchangeCodes sha256).step t (withoutPrune label) = some t' ∧ Unpruned s' t' := by
  have hclock : t.clock = s.clock := by rw [h.same]
  have hmints : t.mints = s.mints := by rw [h.same]
  cases label with
  | tick ms =>
    obtain rfl := Option.some.inj hstep
    refine ⟨_, rfl, by rw [h.same], h.codes, fun row hrow => ?_, fun id => ?_⟩
    · exact (h.extra row hrow).imp_right fun hout => Nat.lt_of_lt_of_le hout (Nat.le_add_right ..)
    · exact (h.exchanges id).mono (Nat.le_add_right ..)
  | createUser user =>
    obtain ⟨hnew, rfl⟩ := step_createUser.mp hstep
    refine ⟨_, step_createUser.mpr ⟨?_, rfl⟩, by rw [h.same], h.codes, h.extra, h.exchanges⟩
    rw [h.same]
    exact hnew
  | updateUser user =>
    obtain rfl := Option.some.inj hstep
    exact ⟨_, rfl, by rw [h.same], h.codes, h.extra, h.exchanges⟩
  | deleteUser id =>
    obtain rfl := Option.some.inj hstep
    refine ⟨_, rfl, by rw [h.same], fun row hrow => ?_, fun row hrow => ?_, h.exchanges⟩
    · obtain ⟨hmem, hne⟩ := List.mem_filter.mp hrow
      exact List.mem_filter.mpr ⟨h.codes row hmem, hne⟩
    · obtain ⟨hmem, hne⟩ := List.mem_filter.mp hrow
      exact (h.extra row hmem).imp_left fun hmem => List.mem_filter.mpr ⟨hmem, hne⟩
  | mint id userId code =>
    obtain ⟨hnone, hnew, rfl⟩ := step_mint.mp hstep
    have hnew' : code ∉ t.usedCodes := by
      rw [h.same]
      exact hnew
    have hdrawn : Unpruned { s with usedCodes := code :: s.usedCodes }
        { t with usedCodes := code :: t.usedCodes } :=
      ⟨by rw [h.same], h.codes, h.extra, h.exchanges⟩
    exact ⟨_, step_mint.mpr ⟨hmints ▸ hnone, hnew', by rw [hclock]⟩, hdrawn.setMint id _⟩
  | insert id => exact h.insert hsha ht hstep
  | cutoff id =>
    obtain ⟨code, mintedAt, hmint, rfl⟩ := step_cutoff.mp hstep
    refine ⟨_, step_cutoff.mpr ⟨code, mintedAt, hmints ▸ hmint, rfl⟩, ?_⟩
    rw [hclock]
    exact h.setMint id _
  | prune id =>
    obtain ⟨code, mintedAt, cutoff, hmint, rfl⟩ := step_prune.mp hstep
    exact ⟨_, step_pruneFailed.mpr ⟨code, mintedAt, cutoff, hmints ▸ hmint, rfl⟩,
      (h.withoutExpired (hs.cutoffs id code mintedAt cutoff hmint)).setMint id _⟩
  | pruneFailed id =>
    obtain ⟨code, mintedAt, cutoff, hmint, rfl⟩ := step_pruneFailed.mp hstep
    exact ⟨_, step_pruneFailed.mpr ⟨code, mintedAt, cutoff, hmints ▸ hmint, rfl⟩, h.setMint id _⟩
  | exchange id code =>
    obtain ⟨hnone, rfl⟩ := step_exchange.mp hstep
    refine ⟨_, step_exchange.mpr ⟨?_, rfl⟩, h.setExchange id (Or.inl rfl)⟩
    rcases h.exchanges id with he | ⟨_, _, _, _, _, hleft, -⟩
    · rw [← he, hnone]
    · rw [hnone] at hleft
      cases hleft
  | delete id => exact h.delete hsha hs ht hstep
  | check id => exact h.check hstep
  | lookup id => exact h.lookup hstep

/-- The two sides give the same answers. -/
theorem answered (h : Unpruned s t) {id : Nat} {exchange : Exchange}
    {result : Except HttpException JwtPayload} (hdone : exchange.phase = .done result) :
    s.exchanges id = some exchange ↔ t.exchanges id = some exchange := by
  rcases h.exchanges id with he | ⟨code, found, checkedAt, users, row, hleft, hright, -⟩
  · rw [he]
  · rw [hleft, hright]
    constructor
    · intro he
      obtain rfl := Option.some.inj he
      cases hdone
    · intro he
      obtain rfl := Option.some.inj he
      cases hdone

end Unpruned

/-- The run without its housekeeping deletes gives the same answers. -/
theorem exec_withoutPrune (hsha : Function.Injective sha256) {clock : Nat}
    {labels : List ExchangeLabel}
    (h : (exchangeCodes sha256).exec (.initial clock) labels = some s) :
    ∃ t, (exchangeCodes sha256).exec (.initial clock) (labels.map withoutPrune) = some t ∧
      ∀ id exchange result, exchange.phase = .done result →
        (s.exchanges id = some exchange ↔ t.exchanges id = some exchange) := by
  obtain ⟨t, ht, -, -, hsame⟩ := (exchangeCodes sha256).exec_simulates (exchangeCodes sha256)
    (fun s t => Sound sha256 s ∧ Sound sha256 t ∧ Unpruned s t) (fun label => [withoutPrune label])
    (fun s t label s' ⟨hs, ht, hsame⟩ _ hstep => by
      obtain ⟨t', ht', hsame'⟩ := hsame.step hsha hs ht hstep
      refine ⟨t', ?_, hs.step hsha hstep, ht.step hsha ht', hsame'⟩
      rw [Machine.exec_cons, ht', Option.bind_some, Machine.exec_nil])
    ⟨sound_initial clock, sound_initial clock, .refl _⟩
    ((exchangeCodes sha256).meets_of_forall (p := fun _ => True) fun _ _ => trivial) h
  rw [← List.map_eq_flatMap] at ht
  exact ⟨t, ht, fun id exchange result hdone => hsame.answered hdone⟩

/-- Exchange codes refine one-shot tokens: an answered exchange returns a token exactly when
its delete is the first presentation since the code was issued, in time, for a user who
exists at the answer, whose row the claims are; a code yields at most one token; a presented
code has no row left; and no answer depends on the housekeeping deletes. -/
theorem exchange_codes_one_shot (hsha : Function.Injective sha256) {clock : Nat}
    {labels : List ExchangeLabel}
    (h : (exchangeCodes sha256).exec (.initial clock) labels = some s) :
    (∀ id exchange result, s.exchanges id = some exchange → exchange.phase = .done result →
      ∃ pre post, s.history = pre ++ .presented exchange.code id :: post ∧
        ∀ payload, result = .ok payload ↔ ∃ before after userId mintedAt user,
          pre = before ++ .issued exchange.code (userId, mintedAt) :: after ∧
          (∀ other, .presented exchange.code other ∉ after) ∧
          exchange.checkedAt ≤ mintedAt + oauthExchangeCodeTtlMs ∧
          findUserById exchange.users userId = some user ∧ payload = toJwtPayload user) ∧
    (∀ id id' exchange exchange' payload payload', s.exchanges id = some exchange →
      s.exchanges id' = some exchange' → exchange.code = exchange'.code →
      exchange.phase = .done (.ok payload) → exchange'.phase = .done (.ok payload') → id = id') ∧
    (∀ code before grant after id post,
      s.history = before ++ .issued code grant :: after ++ .presented code id :: post →
      ∀ row ∈ s.codes, row.codeHash ≠ hashExchangeCode sha256 code) ∧
    ∃ t, (exchangeCodes sha256).exec (.initial clock) (labels.map withoutPrune) = some t ∧
      ∀ id exchange result, exchange.phase = .done result →
        (s.exchanges id = some exchange ↔ t.exchanges id = some exchange) := by
  have hsound := sound_of_exec hsha h
  refine ⟨fun id exchange result hexchange hdone => ?_,
    fun id id' exchange exchange' payload payload' hexchange hexchange' hcode hdone hdone' =>
      hsound.answered_once hexchange hexchange' hcode hdone hdone',
    fun code before grant after id post hsplit row hrow => ?_, exec_withoutPrune hsha h⟩
  · obtain ⟨pre, post, hsplit, hresult⟩ := hsound.answered hexchange hdone
    have honce : IssuedOnce pre := (hsplit ▸ hsound.issuedOnce).left
    refine ⟨pre, post, hsplit, fun payload => ?_⟩
    rw [hresult, redeem_eq_ok]
    constructor
    · rintro ⟨userId, mintedAt, user, hlive, hle, huser, hpayload⟩
      obtain ⟨before, after, hpre, hfirst⟩ := honce.tokenOf_live_iff.mp hlive
      exact ⟨before, after, userId, mintedAt, user, hpre, hfirst, hle, huser, hpayload⟩
    · rintro ⟨before, after, userId, mintedAt, user, hpre, hfirst, hle, huser, hpayload⟩
      exact ⟨userId, mintedAt, user, honce.tokenOf_live_iff.mpr ⟨before, after, hpre, hfirst⟩,
        hle, huser, hpayload⟩
  · refine hsound.codeHash_ne_of_spent hsha ?_ hrow
    rw [hsplit]
    exact (hsplit ▸ hsound.issuedOnce).tokenOf_spent

end Steps

/-- A code as `randomBytes(32)` draws it. -/
def drawnCode : String := "9f86d081884c7d659a2feaa0c55ad015a3bf4f1b2b0b822cd15d6c15b0f00a08"

/-- An injective function with the digest of the drawn code. -/
def drawnSha256 : String → String :=
  Equiv.swap drawnCode "7b3d979ca8330a94fa7e9e1b466d8b99e0bcdea1ec90596c0dcc8d7ef6b4300c"

/-- A user who signs in with a provider. -/
def popupUser : User where
  id := "c6a5b0f2-1d7e-4c9b-8a3f-0e5d4c3b2a19"
  email := "ada@example.com"
  passwordHash := ""
  name := some "Ada"
  displayName := none
  avatarUrl := none
  githubId := some "1815"
  googleId := none
  isBanned := false
  role := .user
  createdAt := 0
  updatedAt := 0

/-- Two exchanges of one code race at the last instant, while the user becomes an admin. -/
def racedExchanges : List ExchangeLabel :=
  [.createUser popupUser, .mint 0 popupUser.id drawnCode, .insert 0, .cutoff 0, .prune 0,
    .exchange 0 drawnCode, .exchange 1 drawnCode, .tick 60000, .delete 0, .delete 1, .check 0,
    .check 1, .updateUser { popupUser with role := .admin }, .lookup 0]

/-- The state that the race reaches. -/
def racedState : ExchangeState :=
  (exchangeCodes drawnSha256).run (.initial 1000) racedExchanges (by decide +kernel)

/-- The first delete wins, and its token carries the new role. -/
theorem exchange_codes_one_shot_raced :
    (exchangeCodes drawnSha256).exec (.initial 1000) racedExchanges = some racedState ∧
      (∃ exchange, racedState.exchanges 0 = some exchange ∧
        exchange.phase = .done (.ok (toJwtPayload { popupUser with role := .admin }))) ∧
      ∀ exchange payload, racedState.exchanges 1 = some exchange →
        exchange.phase ≠ .done (.ok payload) := by
  have hrun : (exchangeCodes drawnSha256).exec (.initial 1000) racedExchanges = some racedState :=
    Machine.exec_run ..
  have hwinner : racedState.exchanges 0 = some {
      code := drawnCode
      phase := .done (.ok (toJwtPayload { popupUser with role := .admin }))
      found := .live (popupUser.id, 1000)
      checkedAt := 61000
      users := [{ popupUser with role := .admin }] } := by
    decide +kernel
  have hloser : (racedState.exchanges 1).map Exchange.code = some drawnCode := by
    decide +kernel
  refine ⟨hrun, ⟨_, hwinner, rfl⟩, fun exchange payload hexchange hdone => ?_⟩
  rw [hexchange, Option.map_some, Option.some.injEq] at hloser
  have honce := (exchange_codes_one_shot (Equiv.injective _) hrun).2.1
  cases honce 0 1 _ exchange _ payload hwinner hexchange hloser.symm rfl hdone

end VertexApi.Auth
