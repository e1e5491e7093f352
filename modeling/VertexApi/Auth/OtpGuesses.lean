import VertexApi.Auth.OtpOverlap

/-!
# The cap on wrong codes

The attempt count is read with the row and written back plus one, whatever the row holds
by then. As long as the calls with a wrong code do not overlap on a row, its count is the
number of wrong codes compared with it, less the one that waits to be written, so the cap
holds. Calls that read the row together are compared without any bound.
-/

namespace VertexApi.Auth

/-- How many wrong codes were compared with a row. -/
def wrongGuesses (s : OtpState) (rowId : String) : Nat := s.compared.count (rowId, false)

/-- A call is about to write its count to the row. -/
def Counting (s : OtpState) (rowId : String) : Prop :=
  ∃ id verify entry, s.verifies id = some verify ∧ verify.phase = .count entry ∧ entry.id = rowId

section Invariant

variable (sha256 : String → String)

/-- The counts of the rows and of the calls agree with the wrong codes compared. -/
structure Counted (s : OtpState) : Prop where
  cap : ∀ rowId, wrongGuesses s rowId ≤ otpMaxAttempts
  rows : ∀ row ∈ s.otps, wrongGuesses s row.id = row.attempts ∨ Counting s row.id
  checks : ∀ id verify entry, s.verifies id = some verify → verify.phase = .check (some entry) →
    Open entry s.clock → verify.Presents sha256 false entry →
    wrongGuesses s entry.id = entry.attempts
  counts : ∀ id verify entry, s.verifies id = some verify → verify.phase = .count entry →
    verify.Presents sha256 false entry ∧ wrongGuesses s entry.id = entry.attempts + 1

end Invariant

section Steps

variable {sha256 : String → String} {adminEmail : Option String} {s t m : OtpState}
  {id : Nat} {verify : Verify} {phase : VerifyPhase} {label : OtpLabel}

/-- Nothing was compared at the start. -/
theorem counted_initial (clock : Nat) : Counted sha256 (OtpState.initial clock) where
  cap _ := Nat.zero_le _
  rows _ h := nomatch h
  checks _ _ _ h := nomatch h
  counts _ _ _ h := nomatch h

/-- A comparison with another row, or with the right code, is no wrong guess. -/
theorem wrongGuesses_comparing_of_ne {rowId other : String} {right : Bool}
    (h : (other, right) ≠ (rowId, false)) :
    wrongGuesses (s.comparing other right) rowId = wrongGuesses s rowId := by
  simp only [wrongGuesses, OtpState.comparing, List.count_append, List.count_singleton,
    beq_iff_eq, if_neg h, Nat.add_zero]

/-- A comparison with a wrong code is one more wrong guess. -/
theorem wrongGuesses_comparing_self (rowId : String) :
    wrongGuesses (s.comparing rowId false) rowId = wrongGuesses s rowId + 1 := by
  simp only [wrongGuesses, OtpState.comparing, List.count_append, List.count_singleton_self]

/-- A call that is about to write goes on to do so while another call is set. -/
theorem Counting.setVerify {rowId : String} (h : Counting s rowId)
    (hsame : m.verifies = s.verifies)
    (hother : ∀ found entry, s.verifies id = some found → found.phase = .count entry →
      entry.id ≠ rowId) : Counting (m.setVerify id verify) rowId := by
  obtain ⟨other, found, entry, hfound, hphase, he⟩ := h
  refine ⟨other, found, entry, setVerify_of_verifies hsame hfound ?_, hphase, he⟩
  rintro rfl
  exact hother found entry hfound hphase he

namespace Counted

/-- A call in front of its count is pending on its row. -/
theorem pending_of_count (h : Counted sha256 s) {entry : EmailOtp}
    (hverify : s.verifies id = some verify) (hphase : verify.phase = .count entry) :
    Pending sha256 false s entry.id id :=
  ⟨verify, entry, hverify, rfl, (h.counts id verify entry hverify hphase).1, Or.inr hphase⟩

/-- Steps outside of the verifications keep the counts. -/
theorem outside (h : Counted sha256 s) (hdrawn : Drawn s) (hout : Outside s t) :
    Counted sha256 t := by
  have hguesses : ∀ rowId, wrongGuesses t rowId = wrongGuesses s rowId := fun rowId => by
    rw [wrongGuesses, hout.compared, wrongGuesses]
  refine ⟨?cap, ?rows, ?checks, ?counts⟩
  case cap =>
    intro rowId
    rw [hguesses]
    exact h.cap rowId
  case rows =>
    intro row hrow
    rw [hguesses, Counting, hout.verifies]
    rcases hout.rows with ⟨hsub, -⟩ | ⟨new, hotps, hnew, -, hzero⟩
    · exact h.rows row (hsub row hrow)
    · rw [hotps] at hrow
      rcases List.mem_append.mp hrow with hrow | hrow
      · exact h.rows row hrow
      · obtain rfl := List.mem_singleton.mp hrow
        refine Or.inl ((List.count_eq_zero.mpr fun hguess => ?_).trans hzero.symm)
        exact hnew (hdrawn.compared _ hguess)
  case checks =>
    intro id verify entry hverify hphase hopen hpresents
    rw [hguesses]
    refine h.checks id verify entry (hout.verifies ▸ hverify) hphase ?_ hpresents
    exact ⟨hopen.1, Nat.le_trans hout.clock hopen.2⟩
  case counts =>
    intro id verify entry hverify hphase
    rw [hguesses]
    exact h.counts id verify entry (hout.verifies ▸ hverify) hphase

/-- A new call has neither read nor counted. -/
theorem start (h : Counted sha256 s) {email code : String} (hnone : s.verifies id = none) :
    Counted sha256 (s.setVerify id ⟨email, code, .find⟩) := by
  refine ⟨h.cap, ?rows, ?checks, ?counts⟩
  case rows =>
    intro row hrow
    refine (h.rows row hrow).imp_right fun hcounting => hcounting.setVerify rfl ?_
    intro found entry hfound
    rw [hnone] at hfound
    cases hfound
  case checks =>
    intro other found entry hfound hphase hopen hpresents
    rcases of_setVerify rfl hfound with ⟨-, rfl⟩ | ⟨-, hold⟩
    · cases hphase
    · exact h.checks other found entry hold hphase hopen hpresents
  case counts =>
    intro other found entry hfound hphase
    rcases of_setVerify rfl hfound with ⟨-, rfl⟩ | ⟨-, hold⟩
    · cases hphase
    · exact h.counts other found entry hold hphase

/-- A call that neither counts nor is about to keeps the counts. -/
theorem move (h : Counted sha256 s) (hverify : s.verifies id = some verify)
    (hverifies : m.verifies = s.verifies) (hclock : m.clock = s.clock)
    (hguesses : ∀ rowId, wrongGuesses m rowId = wrongGuesses s rowId)
    (hrows : ∀ row ∈ m.otps, row ∈ s.otps) (hbefore : ∀ entry, verify.phase ≠ .count entry)
    (hcheck : ∀ entry, phase = .check (some entry) → Open entry s.clock →
      verify.Presents sha256 false entry → wrongGuesses s entry.id = entry.attempts)
    (hcount : ∀ entry, phase ≠ .count entry) :
    Counted sha256 (m.setVerify id { verify with phase := phase }) := by
  refine ⟨?cap, ?rows, ?checks, ?counts⟩
  case cap =>
    intro rowId
    exact Nat.le_trans (Nat.le_of_eq (hguesses rowId)) (h.cap rowId)
  case rows =>
    intro row hrow
    refine Or.imp (hguesses row.id).trans (fun hcounting => hcounting.setVerify hverifies ?_)
      (h.rows row (hrows row hrow))
    intro found entry hfound hphase
    obtain rfl := Option.some.inj (hverify.symm.trans hfound)
    exact absurd hphase (hbefore entry)
  case checks =>
    intro other found entry hfound hphase hopen hpresents
    have hopen' : Open entry s.clock := hclock ▸ hopen
    refine (hguesses _).trans ?_
    rcases of_setVerify hverifies hfound with ⟨-, rfl⟩ | ⟨-, hold⟩
    · exact hcheck entry hphase hopen' hpresents
    · exact h.checks other found entry hold hphase hopen' hpresents
  case counts =>
    intro other found entry hfound hphase
    rcases of_setVerify hverifies hfound with ⟨-, rfl⟩ | ⟨-, hold⟩
    · exact absurd hphase (hcount entry)
    · obtain ⟨hpresents, hwritten⟩ := h.counts other found entry hold hphase
      exact ⟨hpresents, (hguesses _).trans hwritten⟩

/-- A wrong comparison reaches the count that its call is about to write. -/
theorem wrong (h : Counted sha256 s) (honce : PendingOnce sha256 false s) {entry : EmailOtp}
    (hverify : s.verifies id = some verify) (hphase : verify.phase = .check (some entry))
    (hopen : Open entry s.clock)
    (hhash : entry.codeHash ≠ hashOtpCode sha256 verify.email verify.code) :
    Counted sha256 ((s.comparing entry.id false).setVerify id
      { verify with phase := .count entry }) := by
  have hpresents : verify.Presents sha256 false entry := beq_eq_false_iff_ne.mpr hhash
  have hpending : Pending sha256 false s entry.id id :=
    ⟨verify, entry, hverify, rfl, hpresents, Or.inl ⟨hphase, hopen⟩⟩
  have hattempts := h.checks id verify entry hverify hphase hopen hpresents
  have hself : wrongGuesses (s.comparing entry.id false) entry.id = entry.attempts + 1 := by
    rw [wrongGuesses_comparing_self, hattempts]
  have hother : ∀ {rowId : String}, rowId ≠ entry.id →
      wrongGuesses (s.comparing entry.id false) rowId = wrongGuesses s rowId := fun hne =>
    wrongGuesses_comparing_of_ne fun he => hne (congrArg Prod.fst he).symm
  -- No other call is pending on the row, so no count but this call's is involved.
  have halone : ∀ {rowId : String} {other : Nat}, other ≠ id →
      Pending sha256 false s rowId other → rowId ≠ entry.id := by
    rintro rowId other hne hother' rfl
    exact hne (honce _ other id hother' hpending)
  refine ⟨?cap, ?rows, ?checks, ?counts⟩
  case cap =>
    intro rowId
    by_cases he : rowId = entry.id
    · rw [he]
      exact Nat.le_trans (Nat.le_of_eq hself) hopen.1
    · exact Nat.le_trans (Nat.le_of_eq (hother he)) (h.cap rowId)
  case rows =>
    intro row hrow
    by_cases he : row.id = entry.id
    · exact Or.inr ⟨id, _, entry, OtpState.setVerify_verifies_self .., rfl, he.symm⟩
    · refine Or.imp (hother he).trans (fun hcounting => hcounting.setVerify rfl ?_)
        (h.rows row hrow)
      intro found counted hfound hcount
      obtain rfl := Option.some.inj (hverify.symm.trans hfound)
      cases hphase.symm.trans hcount
  case checks =>
    intro other found row hfound hcheck hopen' hpresents'
    rcases of_setVerify rfl hfound with ⟨-, rfl⟩ | ⟨hne, hold⟩
    · cases hcheck
    · have hwaits : Pending sha256 false s row.id other :=
        ⟨found, row, hold, rfl, hpresents', Or.inl ⟨hcheck, hopen'⟩⟩
      exact (hother (halone hne hwaits)).trans
        (h.checks other found row hold hcheck hopen' hpresents')
  case counts =>
    intro other found row hfound hcount
    rcases of_setVerify rfl hfound with ⟨-, rfl⟩ | ⟨hne, hold⟩
    · obtain rfl := VerifyPhase.count.inj hcount
      exact ⟨hpresents, hself⟩
    · obtain ⟨hwrong, hwritten⟩ := h.counts other found row hold hcount
      exact ⟨hwrong, (hother (halone hne (h.pending_of_count hold hcount))).trans hwritten⟩

/-- The write of a count brings the row up to the wrong codes compared. -/
theorem count (h : Counted sha256 s) {entry : EmailOtp} (hverify : s.verifies id = some verify)
    (hphase : verify.phase = .count entry) :
    Counted sha256 ((s.setAttempts entry.id (entry.attempts + 1)).setVerify id
      { verify with phase := .done (some entry) (.refused otpInvalid) }) := by
  have hwritten := (h.counts id verify entry hverify hphase).2
  refine ⟨h.cap, ?rows, ?checks, ?counts⟩
  case rows =>
    intro row hrow
    obtain ⟨old, hold, rfl⟩ := List.mem_map.mp hrow
    by_cases he : old.id = entry.id
    · rw [if_pos he]
      exact Or.inl ((congrArg (wrongGuesses s) he).trans hwritten)
    · rw [if_neg he]
      refine (h.rows old hold).imp_right fun hcounting => hcounting.setVerify rfl ?_
      intro found counted hfound hcount
      obtain rfl := Option.some.inj (hverify.symm.trans hfound)
      obtain rfl := VerifyPhase.count.inj (hphase.symm.trans hcount)
      exact fun hid => he hid.symm
  case checks =>
    intro other found row hfound hcheck hopen hpresents
    rcases of_setVerify rfl hfound with ⟨-, rfl⟩ | ⟨-, hold⟩
    · cases hcheck
    · exact h.checks other found row hold hcheck hopen hpresents
  case counts =>
    intro other found row hfound hcount
    rcases of_setVerify rfl hfound with ⟨-, rfl⟩ | ⟨-, hold⟩
    · cases hcount
    · exact h.counts other found row hold hcount

/-- Without overlaps of wrong codes, every step keeps the counts. -/
theorem step (h : Counted sha256 s) (honce : PendingOnce sha256 false s) (hdrawn : Drawn s)
    (hguard : NoOverlap sha256 false s label)
    (hstep : (otps sha256 adminEmail).step s label = some t) : Counted sha256 t := by
  rcases step_cases hstep with ⟨id, email, code, -, hnone, rfl⟩ |
    ⟨id, step, verify, m, phase, rfl, hverify, hmoves, rfl⟩ | hout
  · exact h.start hnone
  · cases hmoves with
    | find hfind =>
      refine h.move hverify rfl rfl (fun _ => rfl) (fun _ hrow => hrow) (fun _ hcount => ?_)
        (fun entry hread hopen hpresents => ?_) fun _ hcount => (by cases hcount)
      · cases hfind.symm.trans hcount
      · -- The row's count is complete, since nobody waits to write it.
        have hrow := VerifyPhase.check.inj hread
        rcases h.rows entry (List.mem_of_find?_eq_some hrow) with hsame | ⟨other, found, counted,
          hfound, hcount, hid⟩
        · exact hsame
        · refine absurd (h.pending_of_count hfound hcount) ?_
          rw [hid]
          exact hguard id verify entry rfl hverify hrow hopen hpresents other
    | wrong hphase hlive hopen hhash => exact h.wrong honce hverify hphase ⟨hopen, hlive⟩ hhash
    | right hphase hlive hopen hhash =>
      refine h.move hverify rfl rfl (fun rowId => wrongGuesses_comparing_of_ne fun he => ?_)
        (fun _ hrow => hrow) (fun _ hcount => ?_) (fun _ hread => (by cases hread))
        fun _ hcount => (by cases hcount)
      · cases congrArg Prod.snd he
      · cases hphase.symm.trans hcount
    | count hphase => exact h.count hverify hphase
    | drop hphase | consume hphase =>
      refine h.move hverify rfl rfl (fun _ => rfl) (fun _ hrow => (List.mem_filter.mp hrow).1)
        (fun _ hcount => ?_) (fun _ hread => (by cases hread)) fun _ hcount => (by cases hcount)
      cases hphase.symm.trans hcount
    | unknown hphase | dropping hphase | newUser hphase | found hphase | violated hphase
    | created hphase =>
      refine h.move hverify rfl rfl (fun _ => rfl) (fun _ hrow => hrow) (fun _ hcount => ?_)
        (fun _ hread => (by cases hread)) fun _ hcount => (by cases hcount)
      cases hphase.symm.trans hcount
  · exact h.outside hdrawn hout

end Counted

/-- Without overlaps of wrong codes, no row is compared with more of them than the cap. -/
theorem wrongGuesses_le {clock : Nat} {labels : List OtpLabel}
    (h : (otps sha256 adminEmail).exec (.initial clock) labels = some s)
    (hguard : (otps sha256 adminEmail).Meets (NoOverlap sha256 false) (.initial clock) labels)
    (rowId : String) : wrongGuesses s rowId ≤ otpMaxAttempts :=
  ((otps sha256 adminEmail).exec_invariant_of_meets
    (P := fun s => PendingOnce sha256 false s ∧ Drawn s ∧ Counted sha256 s)
    ⟨pendingOnce_initial false clock, drawn_initial clock, counted_initial clock⟩
    (fun _ _ _ ⟨honce, hdrawn, hs⟩ hlabel hstep => ⟨honce.step hlabel hstep, hdrawn.step hstep,
      hs.step honce hdrawn hlabel hstep⟩) hguard h).2.2.cap rowId

end Steps

/-- Five wrong codes one after the other, each counted before the next one is read, and a sixth
one. -/
def wrongCodes : List OtpLabel :=
  codeSent ++
    (List.range 5).flatMap (fun id => [.verify id (.start "ada@example.com" "000000"),
      .verify id .find, .verify id .check, .verify id .count]) ++
    [.verify 5 (.start "ada@example.com" "000000"), .verify 5 .find, .verify 5 .check,
      .verify 5 .drop]

/-- The five are compared with the row and the sixth one is refused. -/
theorem wrongGuesses_le_wrongCodes : ∃ s,
    (otps sampleSha256 none).exec (.initial 1000) wrongCodes = some s ∧
      wrongGuesses s "row" = otpMaxAttempts ∧
      (s.verifies 5).map Verify.phase = some (.done
        (some { newOtp sampleSha256 "ada@example.com" "123456" "row" 601000 1000 with
          attempts := 5 }) (.refused otpTooManyAttempts)) ∧
      ∀ rowId, wrongGuesses s rowId ≤ otpMaxAttempts := by
  have hrun := (otps sampleSha256 none).exec_run (.initial 1000) wrongCodes (by decide +kernel)
  have halone : (otps sampleSha256 none).Meets (OneByOne 6) (.initial 1000) wrongCodes := by
    decide +kernel
  exact ⟨_, hrun, by decide +kernel, by decide +kernel,
    wrongGuesses_le hrun (noOverlap_of_oneByOne halone)⟩

/-- Six wrong codes, all read before the first one is counted. -/
def sixTogether : List OtpLabel :=
  codeSent ++
    (List.range 6).flatMap (fun id =>
      [.verify id (.start "ada@example.com" "000000"), .verify id .find]) ++
    (List.range 6).flatMap fun id => [.verify id .check, .verify id .count]

/-- One row is compared with six wrong codes, and counts one. -/
theorem wrongGuesses_sixTogether : ∃ s,
    (otps sampleSha256 none).exec (.initial 1000) sixTogether = some s ∧
      otpMaxAttempts < wrongGuesses s "row" ∧
      (findOtpByEmail s.otps "ada@example.com").map EmailOtp.attempts = some 1 :=
  ⟨(otps sampleSha256 none).run (.initial 1000) sixTogether (by decide +kernel),
    Machine.exec_run .., by decide +kernel, by decide +kernel⟩

end VertexApi.Auth
