import VertexApi.Auth.OtpGuesses
import VertexApi.Auth.OtpRecord

/-!
# Delivered codes

A request deletes by address, in front of its insert and after a failed mail, so it takes
the row of another call with it. As long as no cleanup hits a row whose code is out or on
its way, and no row is dropped before its time, the newest row of an address stands until
it is consumed, exhausted or too old, and its code is not rejected as invalid. Otherwise
the failed mail of one call invalidates the code that another call delivered.
-/

namespace VertexApi.Auth

/-- The code of the row is out, or a call is about to send it. -/
def Deliverable (s : OtpState) (rowId : String) : Prop :=
  (∃ mail ∈ s.outbox, mail.row.id = rowId) ∨
    ∃ id email code row, s.requests id = some ⟨email, .send code row⟩ ∧ row.id = rowId

/-- The call has deleted the row of its address, and not stored its own. -/
def RequestPhase.Replacing : RequestPhase → Prop
  | .stamp _ => True
  | .insert _ _ => True
  | _ => False

/-- A call has deleted the row of the address, and not stored its own. -/
def Replacing (s : OtpState) (email : String) : Prop :=
  ∃ id phase, s.requests id = some ⟨email, phase⟩ ∧ phase.Replacing

/-- A cleanup deletes no row but its own whose code is out or on its way, and a row is dropped
only when it is too old or exhausted. -/
def SparesDelivered (s : OtpState) : OtpLabel → Prop
  | .request id .cleanup => ∀ email own, s.requests id = some ⟨email, .cleanup own⟩ →
      ∀ current ∈ s.otps, current.email = email → current.id ≠ own.id →
        ¬Deliverable s current.id
  | .verify id .drop => ∀ verify entry failure, s.verifies id = some verify →
      verify.phase = .drop entry failure → ∀ current ∈ s.otps, current.id = entry.id →
        current.createdAt + otpTtlMs < s.clock ∨ otpMaxAttempts ≤ entry.attempts
  | _ => True

/-- The mail was sent for the newest row of its address, which is not too old, not consumed
and not exhausted. -/
structure FreshMail (inserted : List EmailOtp) (consumed : List String) (s : OtpState)
    (mail : OtpMail) : Prop where
  sent : mail ∈ s.outbox
  young : s.clock ≤ mail.row.createdAt + otpTtlMs
  newest : latestOtp inserted mail.email = some mail.row
  unused : mail.row.id ∉ consumed
  guesses : wrongGuesses s mail.row.id < otpMaxAttempts

/-- No count of wrong codes exceeds the wrong codes compared with its row. -/
structure Tried (s : OtpState) : Prop where
  rows : ∀ current ∈ s.otps, current.attempts ≤ wrongGuesses s current.id
  entries : ∀ id verify entry, s.verifies id = some verify → verify.phase.entry = some entry →
    entry.attempts ≤ wrongGuesses s entry.id
  counts : ∀ id verify entry, s.verifies id = some verify → verify.phase = .count entry →
    entry.attempts + 1 ≤ wrongGuesses s entry.id

/-- The row is in the table, unless it was consumed, exhausted, is too old, is being replaced, or
nobody has its code. -/
def Kept (consumed : List String) (s : OtpState) (email : String) (row : EmailOtp) : Prop :=
  (∃ current ∈ s.otps, SameCode current row) ∨ row.id ∈ consumed ∨
    otpMaxAttempts ≤ wrongGuesses s row.id ∨ row.createdAt + otpTtlMs < s.clock ∨
    Replacing s email ∨ ¬Deliverable s row.id

section Steps

variable {sha256 : String → String} {adminEmail : Option String} {s t m : OtpState} {id : Nat}
  {verify : Verify} {act : VerifyStep} {judged : VerifyPhase} {label : OtpLabel}

/-- A move forgets no wrong code. -/
theorem Moves.wrongComparisons_le (h : Moves sha256 adminEmail s verify act m judged)
    (rowId : String) : wrongGuesses s rowId ≤ wrongGuesses m rowId := by
  cases h with
  | wrong | right =>
    simp only [wrongGuesses, OtpState.comparing, List.count_append]
    exact Nat.le_add_right ..
  | find | unknown | dropping | drop | count | consume | newUser | found | violated | created =>
    exact Nat.le_refl _

namespace Tried

/-- Nothing was tried at the start. -/
theorem initial (clock : Nat) : Tried (OtpState.initial clock) where
  rows _ h := nomatch h
  entries _ _ _ h := nomatch h
  counts _ _ _ h := nomatch h

/-- A move writes no count but that of a comparison. -/
theorem move (h : Tried s) (hverify : s.verifies id = some verify)
    (hmoves : Moves sha256 adminEmail s verify act m judged) :
    Tried (m.setVerify id { verify with phase := judged }) := by
  have hle := hmoves.wrongComparisons_le
  refine ⟨?rows, ?entries, ?counts⟩
  case rows =>
    intro current hcurrent
    cases hmoves with
    | drop | consume =>
      exact Nat.le_trans (h.rows current (List.mem_filter.mp hcurrent).1) (hle _)
    | count hphase =>
      obtain ⟨old, hold, rfl⟩ := List.mem_map.mp hcurrent
      split
      · next he =>
        change _ ≤ wrongGuesses s old.id
        rw [he]
        exact h.counts id verify _ hverify hphase
      · exact h.rows old hold
    | find | unknown | dropping | wrong | right | newUser | found | violated | created =>
      exact Nat.le_trans (h.rows current hcurrent) (hle _)
  case entries =>
    intro other found entry hfound hentry
    refine Nat.le_trans ?_ (hle _)
    rcases of_setVerify hmoves.verifies hfound with ⟨-, rfl⟩ | ⟨-, hold⟩
    · rcases hmoves.entry hentry with hsame | ⟨-, hrow⟩
      · exact h.entries id verify entry hverify hsame
      · exact h.rows entry (List.mem_of_find?_eq_some hrow)
    · exact h.entries other found entry hold hentry
  case counts =>
    intro other found entry hfound hcount
    rcases of_setVerify hmoves.verifies hfound with ⟨-, rfl⟩ | ⟨-, hold⟩
    · cases hmoves with
      | wrong hphase =>
        obtain rfl := VerifyPhase.count.inj hcount
        have hread := h.entries id verify _ hverify (congrArg VerifyPhase.entry hphase)
        exact Nat.le_trans (Nat.succ_le_succ hread)
          (Nat.le_of_eq (wrongGuesses_comparing_self _).symm)
      | find | unknown | dropping | right | drop | count | consume | newUser | found | violated
      | created => cases hcount
    · exact Nat.le_trans (h.counts other found entry hold hcount) (hle _)

/-- Every step keeps the counts below the comparisons. -/
theorem step (h : Tried s) (hstep : (otps sha256 adminEmail).step s label = some t) :
    Tried t := by
  rcases step_cases hstep with ⟨id, email, code, -, hnone, rfl⟩ |
    ⟨id, step, verify, m, phase, rfl, hverify, hmoves, rfl⟩ | hout
  · refine ⟨h.rows, fun other found entry hfound hentry => ?_,
      fun other found entry hfound hcount => ?_⟩
    · rcases of_setVerify rfl hfound with ⟨-, rfl⟩ | ⟨-, hold⟩
      · cases hentry
      · exact h.entries other found entry hold hentry
    · rcases of_setVerify rfl hfound with ⟨-, rfl⟩ | ⟨-, hold⟩
      · cases hcount
      · exact h.counts other found entry hold hcount
  · exact h.move hverify hmoves
  · have hguesses : ∀ rowId, wrongGuesses t rowId = wrongGuesses s rowId := fun rowId => by
      rw [wrongGuesses, hout.compared, wrongGuesses]
    refine ⟨fun current hcurrent => ?_, fun id verify entry hverify => ?_,
      fun id verify entry hverify => ?_⟩
    · rw [hguesses]
      rcases hout.rows with ⟨hsub, -⟩ | ⟨new, hotps, -, -, hzero⟩
      · exact h.rows current (hsub current hcurrent)
      · rw [hotps] at hcurrent
        rcases List.mem_append.mp hcurrent with hcurrent | hcurrent
        · exact h.rows current hcurrent
        · rw [List.mem_singleton.mp hcurrent, hzero]
          exact Nat.zero_le _
    · rw [hguesses]
      exact h.entries id verify entry (hout.verifies ▸ hverify)
    · rw [hguesses]
      exact h.counts id verify entry (hout.verifies ▸ hverify)

end Tried

/-- A replacement under way goes on while the calls change, unless its own call leaves it. -/
theorem Replacing.setRequest {email email' : String} {phase' : RequestPhase}
    (h : Replacing s email') (hsame : m.requests = s.requests)
    (hphase : ∀ phase, s.requests id = some ⟨email', phase⟩ → phase.Replacing →
      email = email' ∧ phase'.Replacing) : Replacing (m.setRequest id ⟨email, phase'⟩) email' := by
  obtain ⟨other, phase, hother, hreplacing⟩ := h
  by_cases he : other = id
  · subst he
    obtain ⟨rfl, hreplacing'⟩ := hphase phase hother hreplacing
    exact ⟨other, phase', Function.update_self .., hreplacing'⟩
  · refine ⟨other, phase, ?_, hreplacing⟩
    change Function.update m.requests id _ other = _
    rw [Function.update_of_ne he, hsame, hother]

/-- A code that is out or on its way was so before a call was set that does not hold it. -/
theorem deliverable_of_setRequest {email rowId : String} {phase' : RequestPhase}
    (h : Deliverable (m.setRequest id ⟨email, phase'⟩) rowId) (hsame : m.requests = s.requests)
    (houtbox : ∀ mail ∈ m.outbox, mail.row.id = rowId → Deliverable s rowId)
    (hphase : ∀ code row, phase' = .send code row → row.id ≠ rowId) : Deliverable s rowId := by
  rcases h with ⟨mail, hmail, he⟩ | ⟨other, email', code, row, hother, he⟩
  · exact houtbox mail hmail he
  · rcases update_eq_some_iff.mp hother with ⟨-, hset⟩ | ⟨-, hold⟩
    · exact absurd he (hphase code row (congrArg Request.phase hset).symm)
    · exact Or.inr ⟨other, email', code, row, hsame ▸ hold, he⟩

/-- The code of a call whose mail has failed is neither out nor on its way. -/
theorem not_deliverable_of_cleanup {inserted : List EmailOtp} (h : Recorded sha256 inserted s)
    {email : String} {own : EmailOtp} (hcleanup : s.requests id = some ⟨email, .cleanup own⟩) :
    ¬Deliverable s own.id := by
  rintro (⟨mail, hmail, he⟩ | ⟨other, email', code, row, hsend, he⟩)
  · exact h.unsent id email own (Or.inr hcleanup) mail hmail he
  · obtain rfl := h.once other id email' email row own (Or.inl ⟨code, hsend⟩) (Or.inr hcleanup) he
    cases hcleanup.symm.trans hsend

namespace Kept

variable {inserted : List EmailOtp} {consumed consumed' : List String} {email : String}
  {row : EmailOtp}

/-- A row stays kept when each of its excuses stays one. -/
theorem mono (h : Kept consumed s email row)
    (hrows : ∀ current ∈ s.otps, SameCode current row → Kept consumed' t email row)
    (hconsumed : ∀ rowId ∈ consumed, rowId ∈ consumed')
    (hguesses : wrongGuesses s row.id ≤ wrongGuesses t row.id) (hclock : s.clock ≤ t.clock)
    (hreplacing : Replacing s email → Kept consumed' t email row)
    (hdeliverable : Deliverable t row.id → Deliverable s row.id) :
    Kept consumed' t email row := by
  rcases h with ⟨current, hcurrent, hcode⟩ | hin | htried | hold | hbusy | hlost
  · exact hrows current hcurrent hcode
  · exact Or.inr (Or.inl (hconsumed row.id hin))
  · exact Or.inr (Or.inr (Or.inl (Nat.le_trans htried hguesses)))
  · exact Or.inr (Or.inr (Or.inr (Or.inl (Nat.lt_of_lt_of_le hold hclock))))
  · exact hreplacing hbusy
  · exact Or.inr (Or.inr (Or.inr (Or.inr (Or.inr fun hout => hlost (hdeliverable hout)))))

/-- A row in the table is kept. -/
theorem of_current {current : EmailOtp} (hcurrent : current ∈ s.otps)
    (hcode : SameCode current row) : Kept consumed s email row :=
  Or.inl ⟨current, hcurrent, hcode⟩

/-- A row that is being replaced is excused. -/
theorem of_replacing (h : Replacing s email) : Kept consumed s email row :=
  Or.inr (Or.inr (Or.inr (Or.inr (Or.inl h))))

/-- A verification moves: a row leaves the table consumed, exhausted or too old. -/
theorem verification (h : Kept consumed s email row) (htried : Tried s)
    (hverify : s.verifies id = some verify)
    (hmoves : Moves sha256 adminEmail s verify act m judged)
    (hspares : SparesDelivered s (.verify id act)) :
    Kept (consumed ++ consumedOtp (.verify id act)
      (m.setVerify id { verify with phase := judged }))
      (m.setVerify id { verify with phase := judged }) email row := by
  refine h.mono (fun current hcurrent hcode => ?rows) (fun _ hin => List.mem_append_left _ hin)
    (hmoves.wrongComparisons_le row.id) (Nat.le_of_eq hmoves.clock.symm)
    (fun hbusy => of_replacing ?busy) fun hout => ?out
  case busy =>
    obtain ⟨other, phase, hother, hreplacing⟩ := hbusy
    exact ⟨other, phase, hmoves.requests ▸ hother, hreplacing⟩
  case out =>
    rcases hout with ⟨mail, hmail, he⟩ | ⟨other, email', code, row', hsend, he⟩
    · exact Or.inl ⟨mail, hmoves.outbox ▸ hmail, he⟩
    · exact Or.inr ⟨other, email', code, row', hmoves.requests ▸ hsend, he⟩
  case rows =>
    cases hmoves with
    | @drop entry failure hphase =>
      by_cases he : current.id = entry.id
      · rcases hspares verify entry failure hverify hphase current hcurrent he with hold | hfull
        · exact Or.inr (Or.inr (Or.inr (Or.inl (hcode.createdAt ▸ hold))))
        · refine Or.inr (Or.inr (Or.inl (Nat.le_trans hfull ?_)))
          have hread := htried.entries id verify entry hverify (congrArg VerifyPhase.entry hphase)
          exact Nat.le_trans hread (Nat.le_of_eq (by rw [← he, hcode.id]; rfl))
      · exact of_current (List.mem_filter.mpr ⟨hcurrent, bne_iff_ne.mpr he⟩) hcode
    | @consume entry hphase =>
      by_cases he : current.id = entry.id
      · refine Or.inr (Or.inl (List.mem_append_right _ ?_))
        simp only [consumedOtp, OtpState.setVerify_verifies_self, ← hcode.id, he,
          List.mem_singleton]
      · exact of_current (List.mem_filter.mpr ⟨hcurrent, bne_iff_ne.mpr he⟩) hcode
    | @count entry hphase =>
      refine of_current (List.mem_map_of_mem hcurrent) ?_
      split
      · exact SameCode.trans rfl hcode
      · exact hcode
    | find | unknown | dropping | wrong | right | newUser | found | violated | created =>
      exact of_current hcurrent hcode

variable {email' : String} {phase : RequestPhase}

/-- A request moves on and leaves the tables alone. -/
theorem quiet (h : Kept consumed s email' row)
    (hphase : ∀ phase', s.requests id = some ⟨email', phase'⟩ → phase'.Replacing →
      email = email' ∧ phase.Replacing)
    (hsend : ∀ code row, phase ≠ .send code row) :
    Kept consumed (s.setRequest id ⟨email, phase⟩) email' row :=
  h.mono (fun _ hcurrent hcode => of_current hcurrent hcode) (fun _ hin => hin) (Nat.le_refl _)
    (Nat.le_refl _) (fun hbusy => of_replacing (hbusy.setRequest rfl hphase)) fun hout =>
      deliverable_of_setRequest hout rfl (fun mail hmail he => Or.inl ⟨mail, hmail, he⟩)
        fun code row he => absurd he (hsend code row)

/-- A request deletes the rows of its address. -/
theorem delete (h : Kept consumed s email' row)
    (hphase : ∀ phase', s.requests id = some ⟨email', phase'⟩ → phase'.Replacing →
      email = email' ∧ phase.Replacing)
    (hsend : ∀ code row, phase ≠ .send code row)
    (hown : ∀ current ∈ s.otps, SameCode current row → current.email = email →
      Kept consumed ((s.withoutEmail email).setRequest id ⟨email, phase⟩) email' row) :
    Kept consumed ((s.withoutEmail email).setRequest id ⟨email, phase⟩) email' row := by
  refine h.mono (fun current hcurrent hcode => ?rows) (fun _ hin => hin) (Nat.le_refl _)
    (Nat.le_refl _) (fun hbusy => of_replacing (hbusy.setRequest rfl hphase)) fun hout =>
      deliverable_of_setRequest hout rfl (fun mail hmail he => Or.inl ⟨mail, hmail, he⟩)
        fun code row he => absurd he (hsend code row)
  case rows =>
    by_cases he : current.email = email
    · exact hown current hcurrent hcode he
    · exact of_current (List.mem_filter.mpr ⟨hcurrent, bne_iff_ne.mpr he⟩) hcode

/-- A cleanup deletes a row whose code nobody has. -/
theorem cleanup (h : Kept consumed s email' row) (hrecorded : Recorded sha256 inserted s)
    {own : EmailOtp} (hrequest : s.requests id = some ⟨email, .cleanup own⟩)
    (hspares : SparesDelivered s (.request id .cleanup)) :
    Kept consumed ((s.withoutEmail email).setRequest id ⟨email, .done .undelivered⟩) email'
      row := by
  refine h.delete (fun phase' hother hbusy => ?_) (fun _ _ he => by cases he)
    fun current hcurrent hcode he => ?_
  · obtain ⟨-, rfl⟩ := Request.mk.inj (Option.some.inj (hrequest.symm.trans hother))
    exact hbusy.elim
  · have hlost : ¬Deliverable s row.id := by
      by_cases hself : current.id = own.id
      · rw [← hcode.id, hself]
        exact not_deliverable_of_cleanup hrecorded hrequest
      · rw [← hcode.id]
        exact hspares email own hrequest current hcurrent he hself
    refine Or.inr (Or.inr (Or.inr (Or.inr (Or.inr fun hout => hlost ?_))))
    exact deliverable_of_setRequest hout rfl (fun mail hmail he => Or.inl ⟨mail, hmail, he⟩)
      fun _ _ he => by cases he

/-- A stored row leaves the rows of the other addresses as they are. -/
theorem insert (h : Kept consumed s email' row) (hused : row.id ∈ s.usedIds)
    (hne : email ≠ email') {code code' rowId : String} {expiresAt : Nat} {new : EmailOtp}
    (hrequest : s.requests id = some ⟨email, .insert code' expiresAt⟩) (hnew : new.id ∉ s.usedIds) :
    Kept consumed ({ s with otps := s.otps ++ [new], usedIds := rowId :: s.usedIds }.setRequest id
      ⟨email, .send code new⟩) email' row := by
  refine h.mono (fun current hcurrent hcode => ?rows) (fun _ hin => hin) (Nat.le_refl _)
    (Nat.le_refl _) (fun hbusy => of_replacing (hbusy.setRequest rfl ?busy)) fun hout =>
      deliverable_of_setRequest hout rfl (fun mail hmail he => Or.inl ⟨mail, hmail, he⟩) ?send
  case rows => exact of_current (List.mem_append_left _ hcurrent) hcode
  case busy =>
    intro phase hother
    exact absurd (Request.mk.inj (Option.some.inj (hrequest.symm.trans hother))).1 hne
  case send =>
    intro code row' he hid
    obtain ⟨-, rfl⟩ := RequestPhase.send.inj he
    exact hnew (hid ▸ hused)

/-- A sent row was on its way. -/
theorem send (h : Kept consumed s email' row) {code : String} {own : EmailOtp}
    (hrequest : s.requests id = some ⟨email, .send code own⟩) :
    Kept consumed (({ s with outbox := s.outbox ++ [⟨email, code, own⟩] } : OtpState).setRequest id
      ⟨email, .done .sent⟩) email' row := by
  refine h.mono (fun current hcurrent hcode => of_current hcurrent hcode) (fun _ hin => hin)
    (Nat.le_refl _) (Nat.le_refl _) (fun hbusy => of_replacing (hbusy.setRequest rfl ?busy))
    fun hout => deliverable_of_setRequest hout rfl ?outbox fun _ _ he => by cases he
  case busy =>
    intro phase hother hbusy
    obtain ⟨-, rfl⟩ := Request.mk.inj (Option.some.inj (hrequest.symm.trans hother))
    exact hbusy.elim
  case outbox =>
    intro mail hmail he
    rcases List.mem_append.mp hmail with hmail | hmail
    · exact Or.inl ⟨mail, hmail, he⟩
    · obtain rfl := List.mem_singleton.mp hmail
      exact Or.inr ⟨id, email, code, own, hrequest, he⟩

/-- Every step that spares the delivered codes keeps the newest rows. -/
theorem step (h : ∀ email row, latestOtp inserted email = some row → Kept consumed s email row)
    (hrecorded : Recorded sha256 inserted s) (htried : Tried s) (hspares : SparesDelivered s label)
    (hstep : (otps sha256 adminEmail).step s label = some t) (email : String) (row : EmailOtp)
    (hlatest : latestOtp (inserted ++ insertedOtp label t) email = some row) :
    Kept (consumed ++ consumedOtp label t) t email row := by
  cases otpMoves_of_step hstep with
  | tick =>
    change latestOtp (inserted ++ []) email = some row at hlatest
    change Kept (consumed ++ []) _ email row
    rw [List.append_nil] at hlatest ⊢
    exact (h email row hlatest).mono (fun _ hcurrent hcode => of_current hcurrent hcode)
      (fun _ hin => hin) (Nat.le_refl _) (Nat.le_add_right ..)
      (fun hbusy => of_replacing hbusy) fun hout => hout
  | users | verifyStart =>
    change latestOtp (inserted ++ []) email = some row at hlatest
    change Kept (consumed ++ []) _ email row
    rw [List.append_nil] at hlatest ⊢
    exact (h email row hlatest).mono (fun _ hcurrent hcode => of_current hcurrent hcode)
      (fun _ hin => hin) (Nat.le_refl _) (Nat.le_refl _)
      (fun hbusy => of_replacing hbusy) fun hout => hout
  | verify hverify hmoves =>
    change latestOtp (inserted ++ []) email = some row at hlatest
    rw [List.append_nil] at hlatest
    exact (h email row hlatest).verification htried hverify hmoves hspares
  | requestStart hnone =>
    change latestOtp (inserted ++ []) email = some row at hlatest
    change Kept (consumed ++ []) _ email row
    rw [List.append_nil] at hlatest ⊢
    refine (h email row hlatest).quiet (fun phase hother => ?_) fun _ _ he => by cases he
    cases hnone.symm.trans hother
  | @request id _ own _ _ _ hrequest hmoves =>
    change Kept (consumed ++ []) _ email row
    rw [List.append_nil]
    have hphase : ∀ {phase phase' : RequestPhase}, s.requests id = some ⟨own, phase⟩ →
        (phase.Replacing → phase'.Replacing) → ∀ old, s.requests id = some ⟨email, old⟩ →
          old.Replacing → own = email ∧ phase'.Replacing := by
      intro phase phase' hrequest himp old hother hbusy
      obtain ⟨rfl, rfl⟩ := Request.mk.inj (Option.some.inj (hrequest.symm.trans hother))
      exact ⟨rfl, himp hbusy⟩
    cases hmoves with
    | inserted hnew hfree hrow =>
      subst hrow
      rw [insertedOtp_send] at hlatest
      by_cases he : own = email
      · subst he
        obtain rfl := Option.some.inj ((latestOtp_snoc_self inserted _).symm.trans hlatest)
        exact of_current (List.mem_append_right _ (List.mem_singleton_self _)) (.refl _)
      · rw [latestOtp_snoc_of_ne inserted he] at hlatest
        exact (h email row hlatest).insert (hrecorded.used row (mem_of_latestOtp hlatest)) he
          hrequest hnew
    | send =>
      rw [insertedOtp_of_ne_send (fun _ _ he => by cases he), List.append_nil] at hlatest
      exact (h email row hlatest).send hrequest
    | @replace code =>
      rw [insertedOtp_of_ne_send (fun _ _ he => by cases he), List.append_nil] at hlatest
      refine (h email row hlatest).delete (hphase hrequest fun hbusy => hbusy.elim)
        (fun _ _ he => by cases he) fun current hcurrent hcode he => of_replacing ?_
      refine ⟨id, .stamp code, ?_, trivial⟩
      rw [← email_of_latestOtp hlatest, ← hcode.email, he]
      exact Function.update_self ..
    | cleanup =>
      rw [insertedOtp_of_ne_send (fun _ _ he => by cases he), List.append_nil] at hlatest
      exact (h email row hlatest).cleanup hrecorded hrequest hspares
    | violated htaken =>
      rw [insertedOtp_of_ne_send (fun _ _ he => by cases he), List.append_nil] at hlatest
      by_cases he : own = email
      · -- The row that is in the way is the newest one of the address.
        obtain ⟨current, hcurrent, hemail⟩ := htaken
        obtain ⟨row', hrow', hcode⟩ := hrecorded.rows current hcurrent
        rw [hemail, he] at hrow'
        obtain rfl := Option.some.inj (hlatest.symm.trans hrow')
        exact of_current hcurrent hcode
      · refine (h email row hlatest).quiet (fun old hother => ?_) fun _ _ he => by cases he
        exact absurd (Request.mk.inj (Option.some.inj (hrequest.symm.trans hother))).1 he
    | find | refused | allowed | sendFailed =>
      rw [insertedOtp_of_ne_send (fun _ _ he => by cases he), List.append_nil] at hlatest
      exact (h email row hlatest).quiet (hphase hrequest fun hbusy => hbusy.elim)
        fun _ _ he => by cases he
    | stamp =>
      rw [insertedOtp_of_ne_send (fun _ _ he => by cases he), List.append_nil] at hlatest
      exact (h email row hlatest).quiet (hphase hrequest fun _ => trivial)
        fun _ _ he => by cases he

end Kept

/-- The call goes on to anything but the rejection of its code. -/
def Verify.Accepted (sha256 : String → String) (verify : Verify) : Prop :=
  match verify.phase with
  | .check (some entry) => entry.codeHash = hashOtpCode sha256 verify.email verify.code
  | .drop _ failure => failure ≠ otpInvalid
  | .consume _ | .findUser _ | .insertUser _ => True
  | .done _ answer => answer ≠ .refused otpInvalid
  | .find | .check none | .count _ => False

/-- The call was not rejected for an invalid code. -/
def NotInvalid (s : OtpState) (id : Nat) : Prop :=
  ∀ verify entry, s.verifies id = some verify → verify.phase ≠ .done entry (.refused otpInvalid)

/-- A row is dropped for another reason than its code. -/
theorem ne_otpInvalid_of_judge {entry entry' : EmailOtp} {email code : String} {now : Nat}
    {failure : HttpException} (h : judge sha256 entry email code now = .drop entry' failure) :
    failure ≠ otpInvalid := by
  unfold judge at h
  split at h
  · obtain ⟨-, rfl⟩ := VerifyPhase.drop.inj h
    decide
  · split at h
    · obtain ⟨-, rfl⟩ := VerifyPhase.drop.inj h
      decide
    · split at h <;> cases h

/-- A known user gets a token, or is refused for the ban. -/
theorem answerUser_ne (user : User) : answerUser user ≠ .refused otpInvalid := by
  unfold answerUser
  split
  · exact fun h => absurd (VerifyAnswer.refused.inj h) (by decide)
  · exact fun h => by cases h

/-- An accepted code stays accepted. -/
theorem Moves.accepted (h : Moves sha256 adminEmail s verify act m judged)
    (haccepted : verify.Accepted sha256) :
    ({ verify with phase := judged } : Verify).Accepted sha256 := by
  unfold Verify.Accepted at haccepted ⊢
  cases h with
  | find hphase | unknown hphase | count hphase =>
    simp only [hphase] at haccepted
  | wrong hphase _ _ hhash =>
    simp only [hphase] at haccepted
    exact absurd haccepted hhash
  | dropping hphase hjudge => exact ne_otpInvalid_of_judge hjudge
  | drop hphase =>
    simp only [hphase] at haccepted
    exact fun he => haccepted (VerifyAnswer.refused.inj he)
  | right | consume | newUser => trivial
  | found | created => exact answerUser_ne _
  | violated => exact fun he => by cases he

/-- A call whose code was accepted is not rejected for it in any continuation. -/
theorem notInvalid_of_accepted {labels : List OtpLabel}
    (h : (otps sha256 adminEmail).exec m labels = some s) (hverify : m.verifies id = some verify)
    (haccepted : verify.Accepted sha256) : NotInvalid s id := by
  obtain ⟨found, hfound, haccepted'⟩ : ∃ found, s.verifies id = some found ∧
      found.Accepted sha256 := by
    refine (otps sha256 adminEmail).exec_invariant
      (P := fun s => ∃ found, s.verifies id = some found ∧ found.Accepted sha256)
      ⟨verify, hverify, haccepted⟩ ?_ h
    rintro s label t ⟨found, hfound, hacc⟩ hstep
    rcases step_cases hstep with ⟨other, email, code, -, hnone, rfl⟩ |
      ⟨other, step, moved, m, phase, -, hmoved, hmoves, rfl⟩ | hout
    · refine ⟨found, setVerify_of_verifies rfl hfound ?_, hacc⟩
      rintro rfl
      cases hnone.symm.trans hfound
    · by_cases he : id = other
      · subst he
        obtain rfl := Option.some.inj (hfound.symm.trans hmoved)
        exact ⟨_, OtpState.setVerify_verifies_self .., hmoves.accepted hacc⟩
      · exact ⟨found, setVerify_of_verifies hmoves.verifies hfound he, hacc⟩
    · exact ⟨found, hout.verifies ▸ hfound, hacc⟩
  intro verify' entry hverify' hphase
  obtain rfl := Option.some.inj (hfound.symm.trans hverify')
  simp only [Verify.Accepted, hphase, ne_eq, not_true] at haccepted'

end Steps

section Runs

variable {sha256 : String → String} {adminEmail : Option String} {m s : OtpState} {clock : Nat}
  {before after : List OtpLabel} {id : Nat} {mail : OtpMail} {verify : Verify}

/-- Along a run that spares the delivered codes, the record is right and the newest rows are
kept. -/
theorem kept_of_exec (h : (otps sha256 adminEmail).exec (.initial clock) before = some m)
    (hspares : (otps sha256 adminEmail).Meets SparesDelivered (.initial clock) before) :
    Recorded sha256 ((otps sha256 adminEmail).trace insertedOtp (.initial clock) before) m ∧
      ∀ email row, latestOtp ((otps sha256 adminEmail).trace insertedOtp (.initial clock) before)
        email = some row →
        Kept ((otps sha256 adminEmail).trace consumedOtp (.initial clock) before) m email row := by
  have hkept := (otps sha256 adminEmail).exec_induction (P := fun labels m =>
      Tried m ∧ Recorded sha256 ((otps sha256 adminEmail).trace insertedOtp (.initial clock)
        labels) m ∧ ∀ email row, latestOtp ((otps sha256 adminEmail).trace insertedOtp
          (.initial clock) labels) email = some row → Kept ((otps sha256 adminEmail).trace
            consumedOtp (.initial clock) labels) m email row)
    ⟨.initial clock, .initial clock, fun _ _ hnone => by cases hnone⟩
    (fun labels m label t hm ⟨htried, hrecorded, hkept⟩ hlabel hstep => by
      simp only [(otps sha256 adminEmail).trace_snoc _ hm hstep]
      exact ⟨htried.step hstep, hrecorded.step hstep,
        Kept.step hkept hrecorded htried hlabel hstep⟩) hspares h
  exact hkept.2

/-- The read of a fresh code's address finds its row. -/
theorem findOtpByEmail_of_freshMail {inserted : List EmailOtp} {consumed : List String}
    (hrecorded : Recorded sha256 inserted m)
    (hkept : ∀ email row, latestOtp inserted email = some row → Kept consumed m email row)
    (hfresh : FreshMail inserted consumed m mail) (hreplacing : ¬Replacing m mail.email) :
    ∃ row, findOtpByEmail m.otps mail.email = some row ∧
      row.codeHash = hashOtpCode sha256 mail.email mail.code := by
  obtain ⟨-, hemail, hhash⟩ := hrecorded.mails mail hfresh.sent
  obtain ⟨current, hcurrent, hcode⟩ : ∃ current ∈ m.otps, SameCode current mail.row := by
    rcases hkept mail.email mail.row hfresh.newest with
      hthere | hin | htried | hold | hbusy | hlost
    · exact hthere
    · exact absurd hin hfresh.unused
    · exact absurd hfresh.guesses (Nat.not_lt_of_le htried)
    · exact absurd hfresh.young (Nat.not_le_of_lt hold)
    · exact absurd hbusy hreplacing
    · exact absurd (Or.inl ⟨mail, hfresh.sent, rfl⟩) hlost
  cases hfind : findOtpByEmail m.otps mail.email with
  | none =>
    have hnot := List.find?_eq_none.mp hfind current hcurrent
    exact absurd (beq_iff_eq.mpr (hcode.email.trans hemail)) hnot
  | some row =>
    -- Every row of the address is the newest one.
    obtain ⟨newest, hnewest, hsame⟩ := hrecorded.rows row (List.mem_of_find?_eq_some hfind)
    have hrow : row.email = mail.email :=
      beq_iff_eq.mp (List.find?_some (p := fun row : EmailOtp => row.email == mail.email) hfind)
    rw [hrow, hfresh.newest] at hnewest
    obtain rfl := Option.some.inj hnewest
    exact ⟨row, rfl, hsame.codeHash.trans hhash⟩

/-- While the steps before it spare the delivered codes and no request of the address is between
its delete and its insert, the read of a verification with a fresh code is not followed by the
rejection of the code. -/
theorem notInvalid_of_freshMail
    (hbefore : (otps sha256 adminEmail).exec (.initial clock) before = some m)
    (hspares : (otps sha256 adminEmail).Meets SparesDelivered (.initial clock) before)
    (hfresh : FreshMail ((otps sha256 adminEmail).trace insertedOtp (.initial clock) before)
      ((otps sha256 adminEmail).trace consumedOtp (.initial clock) before) m mail)
    (hreplacing : ¬Replacing m mail.email) (hverify : m.verifies id = some verify)
    (hemail : verify.email = mail.email) (hcode : verify.code = mail.code)
    (hafter : (otps sha256 adminEmail).exec m (.verify id .find :: after) = some s) :
    NotInvalid s id := by
  obtain ⟨hrecorded, hkept⟩ := kept_of_exec hbefore hspares
  obtain ⟨row, hrow, hhash⟩ := findOtpByEmail_of_freshMail hrecorded hkept hfresh hreplacing
  obtain ⟨read, hread, hrest⟩ := Option.bind_eq_some_iff.mp hafter
  cases otpMoves_of_step hread with
  | verify hfound hmoves =>
    obtain rfl := Option.some.inj (hverify.symm.trans hfound)
    cases hmoves with
    | find hphase =>
      refine notInvalid_of_accepted hrest (OtpState.setVerify_verifies_self ..) ?_
      rw [hemail, hrow]
      simp only [Verify.Accepted]
      rw [hhash, hcode]

/-- Without cleanups and drops the delivered codes are spared. -/
theorem meets_sparesDelivered {labels : List OtpLabel}
    (h : ∀ label ∈ labels, ∀ id, label ≠ .request id .cleanup ∧ label ≠ .verify id .drop) :
    (otps sha256 adminEmail).Meets SparesDelivered s labels := by
  refine ((otps sha256 adminEmail).meets_of_forall h).imp fun s label hlabel => ?_
  unfold SparesDelivered
  split
  · exact absurd rfl (hlabel _).1
  · exact absurd rfl (hlabel _).2
  · trivial

/-- A call that no label names has not been made. -/
theorem requests_eq_none_of_exec {labels : List OtpLabel}
    (h : (otps sha256 adminEmail).exec (.initial clock) labels = some s)
    (hlabels : ∀ label ∈ labels, ∀ step, label ≠ .request id step) : s.requests id = none := by
  refine (otps sha256 adminEmail).exec_invariant_of_meets (P := fun s => s.requests id = none)
    rfl (fun s label t hs hlabel hstep => ?_)
    ((otps sha256 adminEmail).meets_of_forall hlabels) h
  cases otpMoves_of_step hstep with
  | tick | users | verifyStart => exact hs
  | verify hverify hmoves => exact (congrFun hmoves.requests id).trans hs
  | @requestStart other =>
    have hne : id ≠ other := fun he => hlabel _ (congrArg (OtpLabel.request · _) he.symm)
    exact (Function.update_of_ne hne _ _).trans hs
  | @request other _ _ _ _ _ hrequest hmoves =>
    have hne : id ≠ other := fun he => hlabel _ (congrArg (OtpLabel.request · _) he.symm)
    exact (Function.update_of_ne hne _ _).trans ((congrFun hmoves.requests id).trans hs)

end Runs

/-- A code is sent to another address. Two requests then find no row pending, and the mail of the
first one fails. -/
def mailFails : List OtpLabel :=
  [.start "bob@example.com", .find, .cooldown 271828, .replace, .stamp, .insert "other",
    .send].map (.request 2) ++
  [.request 0 (.start "ada@example.com"), .request 1 (.start "ada@example.com"),
    .request 0 .find, .request 1 .find, .request 0 (.cooldown 654321),
    .request 1 (.cooldown 123456), .request 0 .replace, .request 0 .stamp,
    .request 0 (.insert "lost"), .request 0 .sendFailed]

/-- The first one deletes its row, and the second one sends its code, which is about to be
verified. -/
def otherSent : List OtpLabel :=
  mailFails ++ .request 0 .cleanup ::
    [.request 1 .replace, .request 1 .stamp, .request 1 (.insert "row"), .request 1 .send,
      .tick 5000, .verify 0 (.start "ada@example.com" "123456")]

/-- The state in front of that verification. -/
def otherDelivered : OtpState :=
  (otps sampleSha256 none).run (.initial 1000) otherSent (by decide +kernel)

/-- The row of the sent code. -/
def sentRow : EmailOtp :=
  newOtp sampleSha256 "ada@example.com" "123456" "row" 601000 1000

/-- A cleanup of the failed call's own row spares the codes of the other calls. -/
theorem meets_sparesDelivered_otherSent :
    (otps sampleSha256 none).Meets SparesDelivered (.initial 1000) otherSent := by
  have hfailed := (otps sampleSha256 none).exec_run (.initial 1000) mailFails (by decide +kernel)
  have hquiet : ∀ label ∈ mailFails, ∀ id,
      label ≠ .request id .cleanup ∧ label ≠ .verify id .drop := by simp [mailFails]
  refine (meets_sparesDelivered hquiet).append hfailed ⟨?_, ?_⟩
  · intro email own hrequest current hcurrent hemail hother
    have hcleaning : ((otps sampleSha256 none).run (.initial 1000) mailFails
        (by decide +kernel)).requests 0 = some ⟨"ada@example.com", .cleanup
          (newOtp sampleSha256 "ada@example.com" "654321" "lost" 601000 1000)⟩ := by
      decide +kernel
    obtain ⟨rfl, he⟩ := Request.mk.inj (Option.some.inj (hcleaning.symm.trans hrequest))
    obtain rfl := RequestPhase.cleanup.inj he
    -- The only row of the address is that of the call.
    have hown : ∀ row ∈ ((otps sampleSha256 none).run (.initial 1000) mailFails
        (by decide +kernel)).otps, row.email = "ada@example.com" → row.id = "lost" := by
      decide +kernel
    exact absurd (hown current hcurrent hemail) hother
  · split
    · trivial
    · exact meets_sparesDelivered (by simp)

/-- A code that was sent after the other call's cleanup is accepted. -/
theorem notInvalid_of_freshMail_otherSent : ∃ s,
    (otps sampleSha256 none).exec (.initial 1000) otherSent = some otherDelivered ∧
      (otps sampleSha256 none).exec otherDelivered
        [.verify 0 .find, .verify 0 .check, .verify 0 .consume] = some s ∧ NotInvalid s 0 := by
  have hbefore : (otps sampleSha256 none).exec (.initial 1000) otherSent = some otherDelivered :=
    (otps sampleSha256 none).exec_run ..
  have hafter := (otps sampleSha256 none).exec_run otherDelivered
    [.verify 0 .find, .verify 0 .check, .verify 0 .consume] (by decide +kernel)
  have hfresh : FreshMail ((otps sampleSha256 none).trace insertedOtp (.initial 1000) otherSent)
      ((otps sampleSha256 none).trace consumedOtp (.initial 1000) otherSent) otherDelivered
      ⟨"ada@example.com", "123456", sentRow⟩ :=
    ⟨by decide +kernel, by decide +kernel, by decide +kernel, by decide +kernel,
      by decide +kernel⟩
  have hverify : otherDelivered.verifies 0 = some ⟨"ada@example.com", "123456", .find⟩ := by
    decide +kernel
  have hdone : ∀ id < 3, ∀ request ∈ otherDelivered.requests id,
      request.phase = .done .sent ∨ request.phase = .done .undelivered := by
    decide +kernel
  refine ⟨_, hbefore, hafter, notInvalid_of_freshMail hbefore meets_sparesDelivered_otherSent
    hfresh ?_ hverify rfl rfl hafter⟩
  rintro ⟨id, phase, hrequest, hbusy⟩
  rcases Nat.lt_or_ge id 3 with hlt | hge
  · rcases hdone id hlt _ hrequest with rfl | rfl <;> exact hbusy
  · have hunnamed : ∀ label ∈ otherSent, ∀ step, label ≠ .request id step := by
      have h0 : 0 ≠ id := by omega
      have h1 : 1 ≠ id := by omega
      have h2 : 2 ≠ id := by omega
      simp [otherSent, mailFails, h0, h1, h2]
    rw [requests_eq_none_of_exec hbefore hunnamed] at hrequest
    cases hrequest

/-- Two requests that both find no row pending: the second one deletes the row of the first one
and sends its own code, and the first one's mail fails. -/
def otherMailFails : List OtpLabel :=
  [.request 0 (.start "ada@example.com"), .request 1 (.start "ada@example.com"),
    .request 0 .find, .request 1 .find, .request 0 (.cooldown 654321),
    .request 1 (.cooldown 123456), .request 0 .replace, .request 0 .stamp,
    .request 0 (.insert "lost"), .request 1 .replace, .request 1 .stamp,
    .request 1 (.insert "row"), .request 1 .send, .request 0 .sendFailed, .request 0 .cleanup,
    .verify 0 (.start "ada@example.com" "123456")]

/-- The failed mail of one call invalidates the code that the other one delivered. -/
theorem not_notInvalid_otherMailFails : ∃ m s,
    (otps sampleSha256 none).exec (.initial 1000) otherMailFails = some m ∧
      FreshMail ((otps sampleSha256 none).trace insertedOtp (.initial 1000) otherMailFails)
        ((otps sampleSha256 none).trace consumedOtp (.initial 1000) otherMailFails) m
        ⟨"ada@example.com", "123456", sentRow⟩ ∧
      m.requests 1 = some ⟨"ada@example.com", .done .sent⟩ ∧
      m.verifies 0 = some ⟨"ada@example.com", "123456", .find⟩ ∧
      (otps sampleSha256 none).exec m [.verify 0 .find, .verify 0 .check] = some s ∧
      ¬NotInvalid s 0 := by
  have hbefore := (otps sampleSha256 none).exec_run (.initial 1000) otherMailFails
    (by decide +kernel)
  have hafter := (otps sampleSha256 none).exec_run ((otps sampleSha256 none).run (.initial 1000)
    otherMailFails (by decide +kernel)) [.verify 0 .find, .verify 0 .check] (by decide +kernel)
  refine ⟨_, _, hbefore, ⟨by decide +kernel, by decide +kernel, by decide +kernel,
    by decide +kernel, by decide +kernel⟩, by decide +kernel, by decide +kernel, hafter, ?_⟩
  intro hvalid
  exact hvalid ⟨"ada@example.com", "123456", .done none (.refused otpInvalid)⟩ none
    (by decide +kernel) rfl

end VertexApi.Auth
