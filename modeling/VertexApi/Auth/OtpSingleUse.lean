import VertexApi.Auth.OtpOverlap

/-!
# Single use of a code

The row of the right code is deleted by a statement of its own, whose row count is not
looked at. As long as the calls with the right code do not overlap on a row, the delete of
the first one hides the row from all later ones. Calls that read the row together all
sign in.
-/

namespace VertexApi.Auth

/-- The call has deleted the row for its right code, and may have answered with a token. -/
def VerifyPhase.Spent (phase : VerifyPhase) (entry : EmailOtp) : Prop :=
  phase = .findUser entry ∨ phase = .insertUser entry ∨
    ∃ payload, phase = .done (some entry) (.token payload)

/-- The call has spent the row with this id. -/
def SpentBy (s : OtpState) (rowId : String) (id : Nat) : Prop :=
  ∃ verify entry, s.verifies id = some verify ∧ entry.id = rowId ∧ verify.phase.Spent entry

/-- A spent row is gone, and one call alone has spent it. -/
structure SpentOnce (sha256 : String → String) (s : OtpState) : Prop where
  right : ∀ id verify entry, s.verifies id = some verify → verify.phase = .consume entry →
    verify.Presents sha256 true entry
  gone : ∀ row ∈ s.otps, ∀ id, ¬SpentBy s row.id id
  /-- Nobody waits to spend it again. -/
  last : ∀ rowId id, Pending sha256 true s rowId id → ∀ other, ¬SpentBy s rowId other
  once : ∀ rowId id id', SpentBy s rowId id → SpentBy s rowId id' → id = id'

section Steps

variable {sha256 : String → String} {adminEmail : Option String} {s t m : OtpState}
  {id : Nat} {verify : Verify} {move : VerifyStep} {phase : VerifyPhase} {label : OtpLabel}

/-- Nothing is spent at the start. -/
theorem spentOnce_initial (clock : Nat) : SpentOnce sha256 (OtpState.initial clock) where
  right _ _ _ h := nomatch h
  gone _ h := nomatch h
  last := by
    rintro rowId id ⟨verify, entry, hverify, -⟩
    cases hverify
  once := by
    rintro rowId id id' ⟨verify, entry, hverify, -⟩
    cases hverify

/-- The phases of a call that has spent a row hold the row. -/
theorem VerifyPhase.Spent.entry {entry : EmailOtp} (h : phase.Spent entry) :
    phase.entry = some entry := by
  rcases h with rfl | rfl | ⟨payload, rfl⟩ <;> rfl

/-- A move spends a row only by the delete of the right code, or goes on with a spent one. -/
theorem Moves.spent (h : Moves sha256 adminEmail s verify move m phase) {entry : EmailOtp}
    (hspent : phase.Spent entry) :
    verify.phase.Spent entry ∨
      verify.phase = .consume entry ∧ m = s.withoutId entry.id := by
  cases h with
  | find | unknown | dropping | wrong | right | drop | count | violated =>
    rcases hspent with he | he | ⟨payload, he⟩ <;> cases he
  | consume h =>
    rcases hspent with he | he | ⟨payload, he⟩
    · obtain rfl := VerifyPhase.findUser.inj he
      exact Or.inr ⟨h, rfl⟩
    · cases he
    · cases he
  | newUser h =>
    rcases hspent with he | he | ⟨payload, he⟩
    · cases he
    · obtain rfl := VerifyPhase.insertUser.inj he
      exact Or.inl (Or.inl h)
    · cases he
  | found h =>
    rcases hspent with he | he | ⟨payload, he⟩
    · cases he
    · cases he
    · obtain rfl := Option.some.inj (VerifyPhase.done.inj he).1
      exact Or.inl (Or.inl h)
  | created h =>
    rcases hspent with he | he | ⟨payload, he⟩
    · cases he
    · cases he
    · obtain rfl := Option.some.inj (VerifyPhase.done.inj he).1
      exact Or.inl (Or.inr (Or.inl h))

/-- A call spends a row by its delete, which removes the row. -/
theorem spentBy_step (hstep : (otps sha256 adminEmail).step s label = some t) {rowId : String}
    {id : Nat} (hspent : SpentBy t rowId id) :
    SpentBy s rowId id ∨ (∃ verify entry, s.verifies id = some verify ∧
      verify.phase = .consume entry ∧ entry.id = rowId) ∧ ∀ row ∈ t.otps, row.id ≠ rowId := by
  obtain ⟨found, entry, hfound, rfl, hphase⟩ := hspent
  rcases step_cases hstep with ⟨id', email, code, -, -, rfl⟩ |
    ⟨id', step, verify, m, phase, -, hverify, hmoves, rfl⟩ | hout
  · rcases of_setVerify rfl hfound with ⟨-, rfl⟩ | ⟨-, hold⟩
    · rcases hphase with he | he | ⟨payload, he⟩ <;> cases he
    · exact Or.inl ⟨found, entry, hold, rfl, hphase⟩
  · rcases of_setVerify hmoves.verifies hfound with ⟨rfl, rfl⟩ | ⟨-, hold⟩
    · rcases hmoves.spent hphase with hbefore | ⟨hconsume, rfl⟩
      · exact Or.inl ⟨verify, entry, hverify, rfl, hbefore⟩
      · refine Or.inr ⟨⟨verify, entry, hverify, hconsume, rfl⟩, fun row hrow => ?_⟩
        exact bne_iff_ne.mp (List.mem_filter.mp hrow).2
    · exact Or.inl ⟨found, entry, hold, rfl, hphase⟩
  · exact Or.inl ⟨found, entry, hout.verifies ▸ hfound, rfl, hphase⟩

/-- A row of the table was there under its id, or comes under an id never drawn before. -/
theorem rows_step (hstep : (otps sha256 adminEmail).step s label = some t) {row : EmailOtp}
    (hrow : row ∈ t.otps) : (∃ old ∈ s.otps, old.id = row.id) ∨ row.id ∉ s.usedIds := by
  rcases step_cases hstep with ⟨id, email, code, -, -, rfl⟩ |
    ⟨id, step, verify, m, phase, -, hverify, hmoves, rfl⟩ | hout
  · exact Or.inl ⟨row, hrow, rfl⟩
  · exact Or.inl (hmoves.rows hrow)
  · rcases hout.rows with ⟨hsub, -⟩ | ⟨new, hotps, hnew, -⟩
    · exact Or.inl ⟨row, hsub row hrow, rfl⟩
    · rw [hotps] at hrow
      rcases List.mem_append.mp hrow with hrow | hrow
      · exact Or.inl ⟨row, hrow, rfl⟩
      · exact Or.inr (List.mem_singleton.mp hrow ▸ hnew)

namespace SpentOnce

/-- A call in front of the delete for its right code is pending on the row. -/
theorem pending_of_consume (h : SpentOnce sha256 s) {rowId : String} {id : Nat}
    (hconsume : ∃ verify entry, s.verifies id = some verify ∧ verify.phase = .consume entry ∧
      entry.id = rowId) : Pending sha256 true s rowId id := by
  obtain ⟨verify, entry, hverify, hphase, rfl⟩ := hconsume
  exact ⟨verify, entry, hverify, rfl, h.right id verify entry hverify hphase, Or.inr hphase⟩

/-- Only a call with the right code comes in front of the delete. -/
theorem right_step (h : SpentOnce sha256 s)
    (hstep : (otps sha256 adminEmail).step s label = some t) {id : Nat} {entry : EmailOtp}
    (hverify : t.verifies id = some verify) (hphase : verify.phase = .consume entry) :
    verify.Presents sha256 true entry := by
  rcases step_cases hstep with ⟨id', email, code, -, -, rfl⟩ |
    ⟨id', step, moved, m, phase, -, hmoved, hmoves, rfl⟩ | hout
  · rcases of_setVerify rfl hverify with ⟨-, rfl⟩ | ⟨-, hold⟩
    · cases hphase
    · exact h.right id verify entry hold hphase
  · rcases of_setVerify hmoves.verifies hverify with ⟨rfl, rfl⟩ | ⟨-, hold⟩
    · cases hmoves with
      | right hcheck hlive hopen hhash =>
        obtain rfl := VerifyPhase.consume.inj hphase
        exact beq_iff_eq.mpr hhash
      | find | unknown | dropping | wrong | drop | count | consume | newUser | found | violated
      | created => cases hphase
    · exact h.right id verify entry hold hphase
  · exact h.right id verify entry (hout.verifies ▸ hverify) hphase

/-- A pending call has not spent its row. -/
theorem not_spentBy_of_pending {rowId : String} {id : Nat}
    (hpending : Pending sha256 true s rowId id) : ¬SpentBy s rowId id := by
  rintro ⟨found, entry, hfound, -, hspent⟩
  obtain ⟨verify, read, hverify, -, -, hphase⟩ := hpending
  obtain rfl := Option.some.inj (hverify.symm.trans hfound)
  rcases hphase with ⟨he, -⟩ | he <;> rw [he] at hspent <;>
    rcases hspent with he | he | ⟨payload, he⟩ <;> cases he

/-- Without overlaps of the right code, every step keeps each row spent at most once. -/
theorem step (h : SpentOnce sha256 s) (honce : PendingOnce sha256 true s) (hdrawn : Drawn s)
    (hguard : NoOverlap sha256 true s label)
    (hstep : (otps sha256 adminEmail).step s label = some t) : SpentOnce sha256 t where
  right _ _ _ hverify hphase := h.right_step hstep hverify hphase
  gone row hrow id hspent := by
    rcases spentBy_step hstep hspent with hold | ⟨-, hgone⟩
    · rcases rows_step hstep hrow with ⟨old, hmem, he⟩ | hnew
      · exact h.gone old hmem id (he ▸ hold)
      · obtain ⟨verify, entry, hverify, he, hphase⟩ := hold
        exact hnew (he ▸ hdrawn.entries id verify entry hverify hphase.entry)
    · exact hgone row hrow rfl
  last rowId id hpending other hspent := by
    rcases pending_step hguard hstep hpending with hwaits | ⟨-, ⟨row, hrow, rfl⟩, hnone⟩
    · rcases spentBy_step hstep hspent with hold | ⟨hconsume, -⟩
      · exact h.last rowId id hwaits other hold
      · obtain rfl := honce rowId id other hwaits (h.pending_of_consume hconsume)
        exact not_spentBy_of_pending hpending hspent
    · rcases spentBy_step hstep hspent with hold | ⟨hconsume, -⟩
      · exact h.gone row hrow other hold
      · exact hnone other (h.pending_of_consume hconsume)
  once rowId id id' hspent hspent' := by
    rcases spentBy_step hstep hspent with hold | ⟨hconsume, -⟩
    · rcases spentBy_step hstep hspent' with hold' | ⟨hconsume', -⟩
      · exact h.once rowId id id' hold hold'
      · exact absurd hold (h.last rowId id' (h.pending_of_consume hconsume') id)
    · rcases spentBy_step hstep hspent' with hold' | ⟨hconsume', -⟩
      · exact absurd hold' (h.last rowId id (h.pending_of_consume hconsume) id')
      · exact honce rowId id id' (h.pending_of_consume hconsume) (h.pending_of_consume hconsume')

end SpentOnce

/-- Without overlaps of the right code, at most one call that read a row returns a token. -/
theorem token_once {clock : Nat} {labels : List OtpLabel}
    (h : (otps sha256 adminEmail).exec (.initial clock) labels = some s)
    (hguard : (otps sha256 adminEmail).Meets (NoOverlap sha256 true) (.initial clock) labels)
    {id id' : Nat} {verify verify' : Verify} {entry entry' : EmailOtp}
    {payload payload' : JwtPayload} (hverify : s.verifies id = some verify)
    (hverify' : s.verifies id' = some verify') (hrow : entry.id = entry'.id)
    (htoken : verify.phase = .done (some entry) (.token payload))
    (htoken' : verify'.phase = .done (some entry') (.token payload')) : id = id' := by
  obtain ⟨-, -, hspent⟩ := (otps sha256 adminEmail).exec_invariant_of_meets
    (P := fun s => PendingOnce sha256 true s ∧ Drawn s ∧ SpentOnce sha256 s)
    ⟨pendingOnce_initial true clock, drawn_initial clock, spentOnce_initial clock⟩
    (fun _ _ _ ⟨honce, hdrawn, hs⟩ hlabel hstep => ⟨honce.step hlabel hstep, hdrawn.step hstep,
      hs.step honce hdrawn hlabel hstep⟩) hguard h
  exact hspent.once entry.id id id'
    ⟨verify, entry, hverify, rfl, Or.inr (Or.inr ⟨payload, htoken⟩)⟩
    ⟨verify', entry', hverify', hrow.symm, Or.inr (Or.inr ⟨payload', htoken'⟩)⟩

end Steps

/-- One call signs in with the right code, up to the delete that hides the row. -/
def codeUsed : List OtpLabel :=
  codeSent ++ [.verify 0 (.start "ada@example.com" "123456"),
    .verify 1 (.start "ada@example.com" "123456")] ++ .verify 0 .find ::
    [.check, .consume, .findUser, .insertUser "user" "$argon2id$"].map (.verify 0)

/-- The second use of the code is refused. -/
theorem token_once_codeUsed : ∃ s,
    (otps sampleSha256 none).exec (.initial 1000)
      (codeUsed ++ [.verify 1 .find, .verify 1 .check]) = some s ∧
    ∀ verify entry payload, s.verifies 1 = some verify → entry.id = "row" →
      verify.phase ≠ .done (some entry) (.token payload) := by
  have hrun := (otps sampleSha256 none).exec_run (.initial 1000)
    (codeUsed ++ [.verify 1 .find, .verify 1 .check]) (by decide +kernel)
  have halone : (otps sampleSha256 none).Meets (OneByOne 2) (.initial 1000)
      (codeUsed ++ [.verify 1 .find, .verify 1 .check]) := by decide +kernel
  refine ⟨_, hrun, fun verify entry payload hverify hid htoken => ?_⟩
  have hfirst : (((otps sampleSha256 none).run (.initial 1000)
      (codeUsed ++ [.verify 1 .find, .verify 1 .check]) (by decide +kernel)).verifies 0) = some
      ⟨"ada@example.com", "123456", .done
        (some (newOtp sampleSha256 "ada@example.com" "123456" "row" 601000 1000))
        (.token (otpClaims (newOtpUser none "ada@example.com" "user" "$argon2id$" 1000)))⟩ := by
    decide +kernel
  cases token_once hrun (noOverlap_of_oneByOne halone) hfirst hverify hid.symm rfl htoken

/-- Two calls read the row before either deletes it. -/
def usedTogether : List OtpLabel :=
  codeSent ++ [.verify 0 (.start "ada@example.com" "123456"),
    .verify 1 (.start "ada@example.com" "123456"), .verify 0 .find, .verify 1 .find,
    .verify 0 .check, .verify 1 .check, .verify 0 .consume, .verify 1 .consume,
    .verify 0 .findUser, .verify 0 (.insertUser "user" "$argon2id$"), .verify 1 .findUser]

/-- One code signs in twice. -/
theorem token_usedTogether : ∃ s entry payload,
    (otps sampleSha256 none).exec (.initial 1000) usedTogether = some s ∧
      (s.verifies 0).map Verify.phase = some (.done (some entry) (.token payload)) ∧
      (s.verifies 1).map Verify.phase = some (.done (some entry) (.token payload)) :=
  ⟨(otps sampleSha256 none).run (.initial 1000) usedTogether (by decide +kernel),
    newOtp sampleSha256 "ada@example.com" "123456" "row" 601000 1000,
    otpClaims (newOtpUser none "ada@example.com" "user" "$argon2id$" 1000),
    Machine.exec_run .., by decide +kernel, by decide +kernel⟩

end VertexApi.Auth
