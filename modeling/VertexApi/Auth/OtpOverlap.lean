import VertexApi.Auth.Otp

/-!
# Overlapping verifications

A verification that read an open row stands between its read and its write until it has
counted its wrong code or deleted the row of the right one. When no such call is pending
on a row while another one of its kind reads it, at most one is pending at any time.
-/

namespace VertexApi.Auth

/-- The row that a verification read. -/
def VerifyPhase.entry : VerifyPhase → Option EmailOtp
  | .find => none
  | .check entry => entry
  | .drop entry _ => some entry
  | .count entry => some entry
  | .consume entry => some entry
  | .findUser entry => some entry
  | .insertUser entry => some entry
  | .done entry _ => entry

/-- The row takes guesses. -/
def Open (row : EmailOtp) (now : Nat) : Prop :=
  row.attempts < otpMaxAttempts ∧ now ≤ row.expiresAt

/-- The write after a right or a wrong code. -/
def writing : Bool → EmailOtp → VerifyPhase
  | true, entry => .consume entry
  | false, entry => .count entry

/-- Every row id in sight was drawn. -/
structure Drawn (s : OtpState) : Prop where
  rows : ∀ row ∈ s.otps, row.id ∈ s.usedIds
  entries : ∀ id verify entry, s.verifies id = some verify → verify.phase.entry = some entry →
    entry.id ∈ s.usedIds
  compared : ∀ guess ∈ s.compared, guess.1 ∈ s.usedIds

section Overlap

variable (sha256 : String → String)

/-- The call's code is right, or wrong, for the row. -/
def Verify.Presents (verify : Verify) (right : Bool) (row : EmailOtp) : Prop :=
  (row.codeHash == hashOtpCode sha256 verify.email verify.code) = right

/-- The call stands between its read of an open row and its write. -/
def Pending (right : Bool) (s : OtpState) (rowId : String) (id : Nat) : Prop :=
  ∃ verify entry, s.verifies id = some verify ∧ entry.id = rowId ∧
    verify.Presents sha256 right entry ∧
    (verify.phase = .check (some entry) ∧ Open entry s.clock ∨
      verify.phase = writing right entry)

/-- A call reads an open row only when no other call whose code is as right or wrong as its
own is pending on that row. -/
def NoOverlap (right : Bool) (s : OtpState) (label : OtpLabel) : Prop :=
  ∀ id verify row, label = .verify id .find → s.verifies id = some verify →
    findOtpByEmail s.otps verify.email = some row → Open row s.clock →
    verify.Presents sha256 right row → ∀ other, ¬Pending sha256 right s row.id other

/-- At most one call is pending on a row. -/
def PendingOnce (right : Bool) (s : OtpState) : Prop :=
  ∀ rowId id id', Pending sha256 right s rowId id → Pending sha256 right s rowId id' → id = id'

/-- A call before its read, or at its end. -/
def VerifyPhase.atRest : VerifyPhase → Bool
  | .find | .done .. => true
  | .check .. | .drop .. | .count .. | .consume .. | .findUser .. | .insertUser .. => false

/-- The verifications bear numbers below `n`, and all of them are at rest when one reads. -/
def OneByOne (n : Nat) (s : OtpState) : OtpLabel → Prop
  | .verify id step => id < n ∧ (step = .find → ∀ other < n, ∀ verify ∈ s.verifies other,
      verify.phase.atRest)
  | .tick _ | .users _ | .request .. => True

instance (n : Nat) (s : OtpState) : DecidablePred (OneByOne n s)
  | .verify .. => inferInstanceAs (Decidable (_ ∧ _))
  | .tick _ | .users _ | .request .. => isTrue trivial

end Overlap

section Steps

variable {sha256 : String → String} {adminEmail : Option String} {s t m : OtpState}
  {verify : Verify} {move : VerifyStep} {phase : VerifyPhase} {label : OtpLabel}

/-- A move leaves the calls alone. -/
theorem Moves.verifies (h : Moves sha256 adminEmail s verify move m phase) :
    m.verifies = s.verifies := by
  cases h <;> rfl

/-- A move takes no time. -/
theorem Moves.clock (h : Moves sha256 adminEmail s verify move m phase) : m.clock = s.clock := by
  cases h <;> rfl

/-- A move draws no row id. -/
theorem Moves.usedIds (h : Moves sha256 adminEmail s verify move m phase) :
    m.usedIds = s.usedIds := by
  cases h <;> rfl

/-- A move keeps the row that was read, or reads it. -/
theorem Moves.entry (h : Moves sha256 adminEmail s verify move m phase) {entry : EmailOtp}
    (hentry : phase.entry = some entry) :
    verify.phase.entry = some entry ∨
      verify.phase = .find ∧ findOtpByEmail s.otps verify.email = some entry := by
  cases h with
  | find h => exact Or.inr ⟨h, hentry⟩
  | unknown h => cases hentry
  | dropping h | wrong h | right h | drop h | count h | consume h | newUser h | found h
  | violated h | created h =>
    rw [h]
    exact Or.inl hentry

/-- A row that a move leaves in the table was there under its id. -/
theorem Moves.rows (h : Moves sha256 adminEmail s verify move m phase) {row : EmailOtp}
    (hrow : row ∈ m.otps) : ∃ old ∈ s.otps, old.id = row.id := by
  cases h with
  | drop h | consume h => exact ⟨row, (List.mem_filter.mp hrow).1, rfl⟩
  | count h =>
    obtain ⟨old, hold, rfl⟩ := List.mem_map.mp hrow
    refine ⟨old, hold, ?_⟩
    split <;> rfl
  | find | unknown | dropping | wrong | right | newUser | found | violated | created =>
    exact ⟨row, hrow, rfl⟩

/-- A call after one was set is that one, or was there before. -/
theorem of_setVerify (hsame : m.verifies = s.verifies) {id other : Nat} {found : Verify}
    (hfound : (m.setVerify id verify).verifies other = some found) :
    other = id ∧ found = verify ∨ other ≠ id ∧ s.verifies other = some found := by
  rw [← hsame]
  exact update_eq_some_iff.mp hfound

/-- A call other than the one that was set is still there. -/
theorem setVerify_of_verifies (hsame : m.verifies = s.verifies) {id other : Nat} {found : Verify}
    (hfound : s.verifies other = some found) (hne : other ≠ id) :
    (m.setVerify id verify).verifies other = some found := by
  rw [OtpState.setVerify_verifies_of_ne _ _ hne, hsame, hfound]

/-- No id is in sight at the start. -/
theorem drawn_initial (clock : Nat) : Drawn (OtpState.initial clock) where
  rows _ h := nomatch h
  entries _ _ _ h := nomatch h
  compared _ h := nomatch h

/-- Every step draws the ids that it uses. -/
theorem Drawn.step (h : Drawn s) (hstep : (otps sha256 adminEmail).step s label = some t) :
    Drawn t := by
  rcases step_cases hstep with ⟨id, email, code, -, -, rfl⟩ |
    ⟨id, step, verify, m, phase, -, hverify, hmoves, rfl⟩ | hout
  · refine ⟨h.rows, fun other found entry hfound hentry => ?_, h.compared⟩
    rcases of_setVerify rfl hfound with ⟨-, rfl⟩ | ⟨-, hold⟩
    · cases hentry
    · exact h.entries other found entry hold hentry
  · have hrows : ∀ row ∈ m.otps, row.id ∈ m.usedIds := by
      intro row hrow
      obtain ⟨old, hold, he⟩ := hmoves.rows hrow
      exact hmoves.usedIds ▸ he ▸ h.rows old hold
    have hentry : ∀ entry, verify.phase.entry = some entry → entry.id ∈ s.usedIds :=
      fun entry he => h.entries id verify entry hverify he
    refine ⟨hrows, fun other found entry hfound hread => ?_, fun guess hguess => ?_⟩
    · change entry.id ∈ m.usedIds
      rw [hmoves.usedIds]
      rcases of_setVerify hmoves.verifies hfound with ⟨-, rfl⟩ | ⟨-, hold⟩
      · rcases hmoves.entry hread with hsame | ⟨-, hrow⟩
        · exact hentry entry hsame
        · exact h.rows entry (List.mem_of_find?_eq_some hrow)
      · exact h.entries other found entry hold hread
    · change guess.1 ∈ m.usedIds
      rw [hmoves.usedIds]
      cases hmoves with
      | wrong hphase | right hphase =>
        rcases List.mem_append.mp hguess with hguess | hguess
        · exact h.compared guess hguess
        · rw [List.mem_singleton.mp hguess]
          exact hentry _ (hphase ▸ rfl)
      | find | unknown | dropping | drop | count | consume | newUser | found | violated
      | created => exact h.compared guess hguess
  · have hused : ∀ rowId ∈ s.usedIds, rowId ∈ t.usedIds := by
      intro rowId hmem
      rcases hout.rows with ⟨-, hsame⟩ | ⟨row, -, -, hsame, -⟩
      · rwa [hsame]
      · rw [hsame]
        exact List.mem_cons_of_mem _ hmem
    refine ⟨fun row hrow => ?_, fun id verify entry hverify hentry => ?_, fun guess hguess => ?_⟩
    · rcases hout.rows with ⟨hsub, hsame⟩ | ⟨new, hotps, -, hsame, -⟩
      · exact hsame ▸ h.rows row (hsub row hrow)
      · rw [hotps] at hrow
        rw [hsame]
        rcases List.mem_append.mp hrow with hrow | hrow
        · exact List.mem_cons_of_mem _ (h.rows row hrow)
        · rw [List.mem_singleton.mp hrow]
          exact List.mem_cons_self
    · exact hused _ (h.entries id verify entry (hout.verifies ▸ hverify) hentry)
    · exact hused _ (h.compared guess (hout.compared ▸ hguess))

/-- A call is pending after a step when it was before, or when it has just read the row on
which no call was pending. -/
theorem pending_step {right : Bool} (hguard : NoOverlap sha256 right s label)
    (hstep : (otps sha256 adminEmail).step s label = some t) {rowId : String} {id : Nat}
    (hpending : Pending sha256 right t rowId id) :
    Pending sha256 right s rowId id ∨
      label = .verify id .find ∧ (∃ row ∈ s.otps, row.id = rowId) ∧
        ∀ other, ¬Pending sha256 right s rowId other := by
  obtain ⟨found, entry, hfound, rfl, hpresents, hphase⟩ := hpending
  rcases step_cases hstep with ⟨id', email, code, -, -, rfl⟩ |
    ⟨id', step, verify, m, phase, rfl, hverify, hmoves, rfl⟩ | hout
  · rcases of_setVerify rfl hfound with ⟨-, rfl⟩ | ⟨-, hold⟩
    · cases right <;> simp only [writing, reduceCtorEq, false_and, or_self] at hphase
    · exact Or.inl ⟨found, entry, hold, rfl, hpresents, hphase⟩
  · rcases of_setVerify hmoves.verifies hfound with ⟨rfl, rfl⟩ | ⟨-, hold⟩
    · cases hmoves with
      | find hfind =>
        rcases hphase with ⟨hcheck, hopen⟩ | hwrite
        · have hrow := VerifyPhase.check.inj hcheck
          refine Or.inr ⟨rfl, ⟨entry, List.mem_of_find?_eq_some hrow, rfl⟩, ?_⟩
          exact hguard id verify entry rfl hverify hrow hopen hpresents
        · cases right <;> cases hwrite
      | wrong hcheck hlive hopen hhash =>
        rcases hphase with ⟨hcheck', -⟩ | hwrite
        · cases hcheck'
        · cases right with
          | true => cases hwrite
          | false =>
            obtain rfl := VerifyPhase.count.inj hwrite
            exact Or.inl ⟨verify, _, hverify, rfl, hpresents, Or.inl ⟨hcheck, hopen, hlive⟩⟩
      | right hcheck hlive hopen hhash =>
        rcases hphase with ⟨hcheck', -⟩ | hwrite
        · cases hcheck'
        · cases right with
          | false => cases hwrite
          | true =>
            obtain rfl := VerifyPhase.consume.inj hwrite
            exact Or.inl ⟨verify, _, hverify, rfl, hpresents, Or.inl ⟨hcheck, hopen, hlive⟩⟩
      | unknown | dropping | drop | count | consume | newUser | found | violated | created =>
        cases right <;> simp only [writing, reduceCtorEq, false_and, or_self] at hphase
    · refine Or.inl ⟨found, entry, hold, rfl, hpresents, ?_⟩
      rw [← hmoves.clock]
      exact hphase
  · rw [hout.verifies] at hfound
    refine Or.inl ⟨found, entry, hfound, rfl, hpresents, hphase.imp_left fun h => ?_⟩
    exact ⟨h.1, h.2.1, Nat.le_trans hout.clock h.2.2⟩

/-- No call is pending at the start. -/
theorem pendingOnce_initial (right : Bool) (clock : Nat) :
    PendingOnce sha256 right (OtpState.initial clock) := by
  rintro rowId id id' ⟨verify, entry, hverify, -⟩
  cases hverify

/-- Without overlaps, one step leaves at most one call pending on a row. -/
theorem PendingOnce.step {right : Bool} (h : PendingOnce sha256 right s)
    (hguard : NoOverlap sha256 right s label)
    (hstep : (otps sha256 adminEmail).step s label = some t) : PendingOnce sha256 right t := by
  intro rowId id id' hid hid'
  rcases pending_step hguard hstep hid with hold | ⟨hread, -, hnone⟩
  · rcases pending_step hguard hstep hid' with hold' | ⟨-, -, hnone⟩
    · exact h rowId id id' hold hold'
    · exact absurd hold (hnone id)
  · rcases pending_step hguard hstep hid' with hold' | ⟨hread', -, -⟩
    · exact absurd hold' (hnone id')
    · exact (OtpLabel.verify.inj (hread.symm.trans hread')).1

/-- No call at rest is pending. -/
theorem not_pending_of_atRest {right : Bool} {rowId : String} {id : Nat}
    (h : ∀ verify, s.verifies id = some verify → verify.phase.atRest) :
    ¬Pending sha256 right s rowId id := by
  rintro ⟨verify, entry, hverify, -, -, hphase⟩
  have hrest := h verify hverify
  rcases hphase with ⟨hphase, -⟩ | hphase
  · rw [hphase] at hrest
    cases hrest
  · rw [hphase] at hrest
    cases right <;> cases hrest

/-- Calls one after the other bear only the numbers that they may. -/
theorem numbered_step {n : Nat} (h : ∀ id, n ≤ id → s.verifies id = none)
    (hlabel : OneByOne n s label) (hstep : (otps sha256 adminEmail).step s label = some t) (id : Nat)
    (hid : n ≤ id) : t.verifies id = none := by
  rcases step_cases hstep with ⟨id', email, code, rfl, -, rfl⟩ |
    ⟨id', step, verify, m, phase, rfl, -, hmoves, rfl⟩ | hout
  · have hne : id ≠ id' := fun he => Nat.not_lt_of_le hid (he ▸ hlabel.1)
    rw [OtpState.setVerify_verifies_of_ne _ _ hne, h id hid]
  · have hne : id ≠ id' := fun he => Nat.not_lt_of_le hid (he ▸ hlabel.1)
    rw [OtpState.setVerify_verifies_of_ne _ _ hne, hmoves.verifies, h id hid]
  · rw [hout.verifies, h id hid]

/-- Nothing overlaps among calls one after the other. -/
theorem noOverlap_of_oneByOne {right : Bool} {n clock : Nat} {labels : List OtpLabel}
    (h : (otps sha256 adminEmail).Meets (OneByOne n) (.initial clock) labels) :
    (otps sha256 adminEmail).Meets (NoOverlap sha256 right) (.initial clock) labels := by
  have hboth := h.and (h.of_invariant (P := fun s => ∀ id, n ≤ id → s.verifies id = none)
    (D := fun s _ => ∀ id, n ≤ id → s.verifies id = none) (fun _ _ _ => numbered_step)
    (fun _ _ hs => hs) fun _ _ => rfl)
  refine hboth.imp ?_
  rintro s label ⟨hlabel, hnone⟩ id verify row rfl - - - - other
  refine not_pending_of_atRest fun found hfound => ?_
  rcases Nat.lt_or_ge other n with hlt | hge
  · exact hlabel.2 rfl other hlt found hfound
  · cases (hnone other hge).symm.trans hfound

end Steps

/-- The digests of two codes of one address. -/
def sampleSha256 (text : String) : String :=
  if text = "ada@example.com:123456" then
    "c240a58759bee2ad7500ec09f2c60968c02dea3aa985ba0896afc5892e99de78"
  else if text = "ada@example.com:000000" then
    "46f7c21d6f685494d67915a1b9fec53ca464db66938ff4f5cfc6ffd8fd634a75"
  else text

/-- A request that sends the code `123456`. -/
def codeSent : List OtpLabel :=
  [.start "ada@example.com", .find, .cooldown 123456, .replace, .stamp, .insert "row", .send].map
    (.request 0)

end VertexApi.Auth
