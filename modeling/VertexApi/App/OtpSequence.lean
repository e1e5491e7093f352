import VertexApi.App.OtpCalls

/-!
# Runs of sign-in codes

Requests and verifications run one after another. The row of an address then follows the code
of the address, through mails that fail, wrong codes, expiry and use, so a verification passes
its checks exactly when the history accepts its code.
-/

namespace VertexApi.App

open Auth

section Rows

variable {email other : String} {rows : List EmailOtp} {row : EmailOtp}

/-- The rows of the other addresses are the same. -/
def SameElsewhere (email : String) (former rows : List EmailOtp) : Prop :=
  rows.filter (fun row => row.email != email) = former.filter fun row => row.email != email

/-- The lookup of another address finds the same row. -/
theorem SameElsewhere.findOtpByEmail {former : List EmailOtp} (h : SameElsewhere email former rows)
    (hne : other ≠ email) : findOtpByEmail rows other = findOtpByEmail former other := by
  have hfind : ∀ rows : List EmailOtp, VertexApi.findOtpByEmail rows other =
      VertexApi.findOtpByEmail (rows.filter fun row => row.email != email) other := by
    intro rows
    simp only [VertexApi.findOtpByEmail, List.find?_filter]
    congr 1
    funext row
    by_cases hrow : row.email = other
    · simp [hrow, hne]
    · simp [hrow]
  rw [hfind, h, ← hfind]

/-- The row of an address carries it. -/
theorem email_of_findOtpByEmail (h : findOtpByEmail rows email = some row) : row.email = email := by
  simpa only [beq_iff_eq] using List.find?_some h

/-- An address whose rows are deleted has no row. -/
theorem findOtpByEmail_filter_email :
    findOtpByEmail (rows.filter fun row => !(row.email == email)) email = none := by
  rw [findOtpByEmail, List.find?_eq_none]
  exact fun row hrow => by simpa using (List.mem_filter.mp hrow).2

/-- A new row is the one of its address. -/
theorem findOtpByEmail_append (hrow : row.email = email) :
    findOtpByEmail ((rows.filter fun row => !(row.email == email)) ++ [row]) email = some row := by
  rw [findOtpByEmail, List.find?_append, show List.find? _ _ = none from
    findOtpByEmail_filter_email, Option.none_or]
  exact List.find?_cons_of_pos (beq_iff_eq.mpr hrow)

/-- What a request writes is a row of its address. -/
theorem sameElsewhere_replace {added : List EmailOtp} (hadded : ∀ row ∈ added, row.email = email) :
    SameElsewhere email rows ((rows.filter fun row => !(row.email == email)) ++ added) := by
  have hnone : added.filter (fun row => row.email != email) = [] :=
    List.filter_eq_nil_iff.mpr fun row hrow => by simp [hadded row hrow]
  rw [SameElsewhere, List.filter_append, hnone, List.append_nil, List.filter_filter]
  exact List.filter_congr fun row _ => Bool.and_self _

/-- The update of the row of an address is found. -/
theorem findOtpByEmail_updateWhere {f : EmailOtp → EmailOtp} (hf : ∀ row, (f row).email = row.email)
    (hrow : findOtpByEmail rows email = some row) :
    findOtpByEmail (updateWhere EmailOtp.id row.id f rows) email = some (f row) := by
  rw [findOtpByEmail, find?_updateWhere fun row => by rw [hf],
    show rows.find? _ = some row from hrow, Option.map_some, if_pos rfl]

variable (hcolumns : UniqueColumns emailOtpColumns rows)
  (hrow : findOtpByEmail rows email = some row)

include hcolumns hrow

/-- The row of an address is the only one with its id. -/
theorem eq_of_id (other : EmailOtp) (hother : other ∈ rows) (hid : other.id = row.id) :
    other = row :=
  (hcolumns _ (List.mem_cons_self ..)).eq_of_mem hother (List.mem_of_find?_eq_some hrow) rfl
    (congrArg some hid.symm)

/-- Only one row of an address. -/
theorem eq_of_email (other : EmailOtp) (hother : other ∈ rows) (hemail : other.email = email) :
    other = row :=
  (hcolumns _ (List.mem_cons_of_mem _ (List.mem_cons_self ..))).eq_of_mem hother
    (List.mem_of_find?_eq_some hrow) rfl
    (congrArg some ((email_of_findOtpByEmail hrow).trans hemail.symm))

/-- The delete of the row of an address leaves none. -/
theorem findOtpByEmail_filter_id :
    findOtpByEmail (rows.filter fun other => !(other.id == row.id)) email = none := by
  rw [findOtpByEmail, List.find?_eq_none]
  intro other hother hemail
  obtain ⟨hmem, hid⟩ := List.mem_filter.mp hother
  obtain rfl := eq_of_email hcolumns hrow other hmem (beq_iff_eq.mp hemail)
  simp at hid

/-- The delete of the row of an address touches no other. -/
theorem sameElsewhere_filter_id :
    SameElsewhere email rows (rows.filter fun other => !(other.id == row.id)) := by
  rw [SameElsewhere, List.filter_filter]
  refine List.filter_congr fun other hother => ?_
  by_cases hid : other.id = row.id
  · obtain rfl := eq_of_id hcolumns hrow other hother hid
    simp [email_of_findOtpByEmail hrow]
  · simp [hid]

/-- The update of the row of an address touches no other. -/
theorem sameElsewhere_updateWhere {f : EmailOtp → EmailOtp}
    (hf : ∀ row, (f row).email = row.email) :
    SameElsewhere email rows (updateWhere EmailOtp.id row.id f rows) := by
  refine filter_updateWhere_of_ne (fun row => by rw [hf]) fun other hother hne hid => ?_
  obtain rfl := eq_of_id hcolumns hrow other hother hid
  exact bne_iff_ne.mp hne (email_of_findOtpByEmail hrow)

end Rows

section Invariant

variable {sha256 : String → String} {email : String} {clock : Nat}

/-- The row of an address follows its code. -/
inductive Tracks (sha256 : String → String) (email : String) (clock : Nat) :
    Option EmailOtp → Option Issue → Prop
  | unasked : Tracks sha256 email clock none none
  | closed {issue : Issue} (h : ¬ issue.Open clock) : Tracks sha256 email clock none (some issue)
  | pending {row : EmailOtp} {issue : Issue} (hdigits : SixDigits issue.code)
    (hhash : row.codeHash = hashOtpCode sha256 email issue.code)
    (hexpires : row.expiresAt = issue.insertedAt + otpTtlMs)
    (hattempts : row.attempts = issue.wrong)
    (hsent : issue.sent = true) (hpassed : issue.passed = false) :
    Tracks sha256 email clock (some row) (some issue)

/-- Time passes. -/
theorem Tracks.of_le {row : Option EmailOtp} {issue : Option Issue} {now : Nat}
    (h : Tracks sha256 email clock row issue) (hclock : clock ≤ now) :
    Tracks sha256 email now row issue := by
  cases h with
  | unasked => exact .unasked
  | closed h => exact .closed fun hopen => h (hopen.of_le hclock)
  | pending hdigits hhash hexpires hattempts hsent hpassed =>
    exact .pending hdigits hhash hexpires hattempts hsent hpassed

/-- The rows of all addresses follow their codes. -/
structure Follows (sha256 : String → String) (s : OtpRun) : Prop where
  columns : UniqueColumns emailOtpColumns s.store.emailOtps
  tracks : ∀ email, Tracks sha256 email s.store.clock (findOtpByEmail s.store.emailOtps email)
    (issueOf email s.history)

/-- A call for one address leaves the rows and the codes of the others alone. -/
theorem Follows.of_call {s t : OtpRun} (h : Follows sha256 s) (email : String)
    (hclock : s.store.clock ≤ t.store.clock)
    (hrows : SameElsewhere email s.store.emailOtps t.store.emailOtps)
    (hhistory : ∀ other, other ≠ email → issueOf other t.history = issueOf other s.history)
    (hcolumns : UniqueColumns emailOtpColumns t.store.emailOtps)
    (htracks : Tracks sha256 email t.store.clock (findOtpByEmail t.store.emailOtps email)
      (issueOf email t.history)) : Follows sha256 t := by
  refine ⟨hcolumns, fun other => ?_⟩
  by_cases hother : other = email
  · subst hother
    exact htracks
  · rw [hrows.findOtpByEmail hother, hhistory other hother]
    exact (h.tracks other).of_le hclock

section Calls

variable {τ : Type} {config : ApiConfig τ} {email code userId passwordHash rowId : String}
  {drawn : Fin 1000000} {pause : Nat → Nat} {mailError : Option ThrownError} {s : OtpRun}

/-- A rejected code has not passed. -/
theorem passesChecks_refused {exception : HttpException}
    (h : exception ∈ [otpInvalid, otpExpired, otpTooManyAttempts]) :
    passesChecks (.error (.refused exception) : Except Failure τ) = false := by
  rw [passesChecks, List.contains_iff_mem.mpr (List.mem_map_of_mem h)]
  rfl

/-- A sign-in has passed, whether or not it returns a token. -/
theorem SignsIn.passesChecks {t : Store} {ending : Ending Store Failure τ}
    (h : SignsIn config email userId passwordHash t ending) :
    passesChecks ending.result = true := by
  obtain ⟨user, -, -, issuedAt, hresult⟩ := h.account
  rw [hresult]
  cases user.isBanned with
  | false => rfl
  | true =>
    have hbanned : Failure.refused userBanned ∉
        [otpInvalid, otpExpired, otpTooManyAttempts].map Failure.refused := by decide
    rw [if_pos rfl, App.passesChecks, Bool.eq_false_iff.mpr (mt List.contains_iff_mem.mp hbanned)]
    rfl

/-- A verification passes exactly when its code is accepted. -/
theorem passesChecks_iff_accepted (hsha : CollisionFree config.sha256)
    (h : Follows config.sha256 s) (hdigits : SixDigits code)
    (hfresh : ∀ user ∈ s.store.users, user.id ≠ userId) :
    passesChecks (verifyEnding config email code userId passwordHash pause s.store).result = true ↔
      Accepted s.history email code (checkedAt pause s.store) := by
  have htracks := h.tracks email
  have hclock : s.store.clock ≤ checkedAt pause s.store :=
    Nat.le_trans (Nat.le_add_right ..) (Nat.le_add_right ..)
  have hrefused : ∀ exception ∈ [otpInvalid, otpExpired, otpTooManyAttempts],
      ¬ passesChecks (.error (.refused exception) : Except Failure τ) = true :=
    fun exception hmem => Bool.not_eq_true _ ▸ passesChecks_refused hmem
  rw [accepted_iff_issueOf]
  generalize issueOf email s.history = issue at htracks ⊢
  cases @verifyOutcome_verifyEnding τ config email code userId passwordHash pause s.store
      hfresh with
  | absent hrow hresult =>
    rw [hrow] at htracks
    refine iff_of_false (by rw [hresult]; exact hrefused _ (by decide)) ?_
    rintro ⟨issue, rfl, rfl, hopen⟩
    cases htracks with
    | closed hclosed => exact hclosed (hopen.of_le hclock)
  | dropped hrow hdead hresult =>
    rw [hrow] at htracks
    refine iff_of_false ?_ ?_
    · rcases hresult with hresult | hresult <;> rw [hresult] <;> exact hrefused _ (by decide)
    · rintro ⟨issue, rfl, rfl, -, hlive, hwrong, -⟩
      cases htracks with
      | pending _ _ hexpires hattempts =>
        rw [hexpires, hattempts] at hdead
        omega
  | counted hrow hcode hresult =>
    rw [hrow] at htracks
    refine iff_of_false (by rw [hresult]; exact hrefused _ (by decide)) ?_
    rintro ⟨issue, rfl, rfl, -⟩
    cases htracks with
    | pending _ hhash => exact hcode hhash
  | consumed hrow hlive hattempts hcode hsigns =>
    rw [hrow] at htracks
    cases htracks with
    | pending hissued hhash hexpires hwrong hsent hpassed =>
      refine iff_of_true hsigns.passesChecks ⟨_, rfl, ?_, hsent, ?_, ?_, hpassed⟩
      · exact hsha email _ _ hissued hdigits (hhash.symm.trans hcode)
      · exact hexpires ▸ hlive
      · exact hwrong ▸ hattempts

/-- A verification that passes deletes the row of its address, and signs the user in. -/
theorem signsIn_of_passesChecks (hfresh : ∀ user ∈ s.store.users, user.id ≠ userId)
    (hpass : passesChecks (verifyEnding config email code userId passwordHash pause
      s.store).result = true) :
    ∃ row, findOtpByEmail s.store.emailOtps email = some row ∧
      SignsIn config email userId passwordHash
        (s.store.withOtps (s.store.emailOtps.filter fun other => !(other.id == row.id)))
        (verifyEnding config email code userId passwordHash pause s.store) := by
  cases @verifyOutcome_verifyEnding τ config email code userId passwordHash pause s.store
      hfresh with
  | absent _ hresult | counted _ _ hresult =>
    rw [hresult, passesChecks_refused (by decide)] at hpass
    cases hpass
  | dropped _ _ hresult =>
    rcases hresult with hresult | hresult <;>
      rw [hresult, passesChecks_refused (by decide)] at hpass <;> cases hpass
  | consumed hrow _ _ _ hsigns => exact ⟨_, hrow, hsigns⟩

/-- The rows of the other addresses are the same after a verification. -/
theorem sameElsewhere_verifyEnding (h : Follows config.sha256 s)
    (hfresh : ∀ user ∈ s.store.users, user.id ≠ userId) :
    SameElsewhere email s.store.emailOtps
      (verifyEnding config email code userId passwordHash pause s.store).state.emailOtps := by
  cases @verifyOutcome_verifyEnding τ config email code userId passwordHash pause s.store
      hfresh with
  | absent _ _ hotps =>
    rw [hotps]
    exact rfl
  | dropped hrow _ _ hotps =>
    rw [hotps]
    exact sameElsewhere_filter_id h.columns hrow
  | counted hrow _ _ hotps =>
    rw [hotps]
    exact sameElsewhere_updateWhere h.columns hrow fun _ => rfl
  | consumed hrow _ _ _ hsigns =>
    rw [hsigns.emailOtps]
    exact sameElsewhere_filter_id h.columns hrow

/-- A verification keeps the unique columns. -/
theorem uniqueColumns_verifyEnding (h : Follows config.sha256 s)
    (hfresh : ∀ user ∈ s.store.users, user.id ≠ userId) :
    UniqueColumns emailOtpColumns
      (verifyEnding config email code userId passwordHash pause s.store).state.emailOtps := by
  cases @verifyOutcome_verifyEnding τ config email code userId passwordHash pause s.store
      hfresh with
  | absent _ _ hotps =>
    rw [hotps]
    exact h.columns
  | dropped hrow _ _ hotps =>
    rw [hotps]
    exact h.columns.filter _
  | counted hrow _ _ hotps =>
    rw [hotps]
    refine h.columns.updateWhere_of_eq ?_
    simp only [emailOtpColumns, List.forall_mem_cons, List.not_mem_nil, false_implies,
      implies_true, and_true]
  | consumed hrow _ _ _ hsigns =>
    rw [hsigns.emailOtps]
    exact h.columns.filter _

/-- The code of the address of a verification. -/
theorem issueOf_afterVerify :
    issueOf email (s.afterVerify config email code userId passwordHash pause).history =
      (issueOf email s.history).map fun issue => issue.presented code
        (passesChecks (verifyEnding config email code userId passwordHash pause s.store).result) :=
  (issueOf_append_singleton _).trans (if_pos rfl)

/-- Time does not go back in a verification, and the row of its address follows the code. -/
theorem tracks_afterVerify (h : Follows config.sha256 s)
    (hfresh : ∀ user ∈ s.store.users, user.id ≠ userId) :
    let t := s.afterVerify config email code userId passwordHash pause
    s.store.clock ≤ t.store.clock ∧ Tracks config.sha256 email t.store.clock
      (findOtpByEmail t.store.emailOtps email) (issueOf email t.history) := by
  have hclock : s.store.clock ≤ checkedAt pause s.store :=
    Nat.le_trans (Nat.le_add_right ..) (Nat.le_add_right ..)
  have htracks := h.tracks email
  simp only [issueOf_afterVerify]
  simp only [OtpRun.afterVerify]
  generalize issueOf email s.history = issue at htracks ⊢
  cases @verifyOutcome_verifyEnding τ config email code userId passwordHash pause s.store
      hfresh with
  | absent hrow hresult hotps hlater =>
    rw [hrow] at htracks
    rw [hotps, hrow]
    refine ⟨hlater, ?_⟩
    cases htracks with
    | unasked => exact .unasked
    | closed hclosed => exact .closed fun hopen => hclosed (hopen.of_presented.of_le hlater)
  | dropped hrow hdead hresult hotps hlater =>
    rw [hrow] at htracks
    rw [hotps, findOtpByEmail_filter_id h.columns hrow]
    refine ⟨Nat.le_trans hclock hlater, ?_⟩
    cases htracks with
    | pending _ _ hexpires hattempts =>
      refine .closed fun hopen => ?_
      obtain ⟨-, hlive, hwrong, -⟩ := hopen.of_presented.of_le hlater
      rw [hexpires, hattempts] at hdead
      omega
  | @counted row hrow hcode hresult hotps hlater =>
    have hfound := findOtpByEmail_updateWhere
      (f := fun other => { other with attempts := row.attempts + 1 }) (fun _ => rfl) hrow
    rw [hrow] at htracks
    rw [hotps, hfound, hresult, passesChecks_refused (List.mem_cons_self ..)]
    refine ⟨Nat.le_trans hclock hlater, ?_⟩
    cases htracks with
    | @pending row issue hissued hhash hexpires hattempts hsent hpassed =>
      have hne : code ≠ issue.code := by
        rintro rfl
        exact hcode hhash
      refine .pending hissued hhash hexpires ?_ hsent ?_
      · simp only [Issue.presented, if_neg hne, hattempts]
      · simp only [Issue.presented, hpassed, Bool.or_false]
  | consumed hrow hlive hattempts hcode hsigns hlater =>
    rw [hrow] at htracks
    rw [hsigns.emailOtps, Store.withOtps_emailOtps, hsigns.passesChecks,
      findOtpByEmail_filter_id h.columns hrow]
    refine ⟨Nat.le_trans hclock hlater, ?_⟩
    cases htracks with
    | @pending row issue =>
      refine .closed fun hopen => ?_
      have hpassed : (issue.passed || true) = false := hopen.2.2.2
      rw [Bool.or_true] at hpassed
      cases hpassed

/-- The rows follow their codes after a verification. -/
theorem Follows.afterVerify (h : Follows config.sha256 s)
    (hfresh : ∀ user ∈ s.store.users, user.id ≠ userId) :
    Follows config.sha256 (s.afterVerify config email code userId passwordHash pause) := by
  obtain ⟨hclock, htracks⟩ := @tracks_afterVerify τ config email code userId passwordHash pause s h
    hfresh
  refine h.of_call email hclock (sameElsewhere_verifyEnding h hfresh) (fun other hne => ?_)
    (uniqueColumns_verifyEnding h hfresh) htracks
  exact (issueOf_append_singleton _).trans (if_neg hne.symm)

/-- The rows of the other addresses are the same after a request. -/
theorem sameElsewhere_requestEnding (hfresh : ∀ row ∈ s.store.emailOtps, row.id ≠ rowId) :
    SameElsewhere email s.store.emailOtps
      (requestEnding config.sha256 email drawn rowId pause mailError s.store).state.emailOtps := by
  cases hcool : (findOtpByEmail s.store.emailOtps email).any
      (coolingDown · (checkedAt pause s.store)) with
  | true =>
    rw [(requestEnding_of_cooling hcool).1]
    exact rfl
  | false =>
    rw [(requestEnding_of_not_cooling hcool hfresh).2.2]
    exact sameElsewhere_replace fun row => email_of_mem_addedRows

/-- A request past the cooldown is recorded. -/
theorem history_afterRequest {sha256 : String → String}
    (hcool : (findOtpByEmail s.store.emailOtps email).any
      (coolingDown · (checkedAt pause s.store)) = false)
    (hfresh : ∀ row ∈ s.store.emailOtps, row.id ≠ rowId) :
    (s.afterRequest sha256 email drawn rowId pause mailError).history = s.history ++
      [.requested email (otpCode drawn) (insertedAt pause s.store) mailError.isNone] := by
  simp only [OtpRun.afterRequest, (requestEnding_of_not_cooling hcool hfresh).2.1]
  cases mailError <;> rfl

/-- The row of the address of a request past the cooldown follows its code. -/
theorem tracks_afterRequest
    (hcool : (findOtpByEmail s.store.emailOtps email).any
      (coolingDown · (checkedAt pause s.store)) = false)
    (hfresh : ∀ row ∈ s.store.emailOtps, row.id ≠ rowId) :
    let t := s.afterRequest config.sha256 email drawn rowId pause mailError
    Tracks config.sha256 email t.store.clock (findOtpByEmail t.store.emailOtps email)
      (issueOf email t.history) := by
  simp only [history_afterRequest hcool hfresh, issueOf_append_singleton, Issue.next, if_true]
  simp only [OtpRun.afterRequest, (requestEnding_of_not_cooling hcool hfresh).2.2, addedRows]
  cases mailError with
  | none =>
    simp only [Option.isSome_none, Bool.false_eq_true, if_false]
    rw [findOtpByEmail_append]
    · exact .pending (sixDigits_otpCode drawn) rfl rfl rfl rfl rfl
    · rfl
  | some error =>
    simp only [Option.isSome_some, if_true, List.append_nil]
    rw [findOtpByEmail_filter_email]
    exact .closed fun hopen => Bool.false_ne_true hopen.1

/-- The rows follow their codes after a request. -/
theorem Follows.afterRequest (h : Follows config.sha256 s)
    (hfresh : ∀ row ∈ s.store.emailOtps, row.id ≠ rowId) :
    Follows config.sha256 (s.afterRequest config.sha256 email drawn rowId pause mailError) := by
  cases hcool : (findOtpByEmail s.store.emailOtps email).any
      (coolingDown · (checkedAt pause s.store)) with
  | true =>
    obtain ⟨hstate, hresult⟩ := @requestEnding_of_cooling config.sha256 email rowId drawn pause
      mailError s.store hcool
    have hrun : s.afterRequest config.sha256 email drawn rowId pause mailError =
        ⟨later (pause 0 + pause 1) s.store, s.history⟩ := by
      rw [OtpRun.afterRequest, hstate, hresult]
      exact congrArg (OtpRun.mk _) (List.append_nil _)
    rw [hrun]
    exact ⟨h.columns, fun email => (h.tracks email).of_le (Nat.le_add_right ..)⟩
  | false =>
    obtain ⟨hlater, -, hotps⟩ := @requestEnding_of_not_cooling config.sha256 email rowId drawn
      pause mailError s.store hcool hfresh
    have hclock : s.store.clock ≤ insertedAt pause s.store := by
      simp only [insertedAt, checkedAt, Nat.add_assoc]
      exact Nat.le_add_right ..
    refine h.of_call email (Nat.le_trans hclock hlater) (sameElsewhere_requestEnding hfresh)
      (fun other hne => ?others) ?columns (tracks_afterRequest hcool hfresh)
    case others =>
      rw [history_afterRequest hcool hfresh, issueOf_append_singleton]
      exact if_neg hne.symm
    case columns =>
      simp only [OtpRun.afterRequest, hotps, addedRows]
      cases mailError with
      | none =>
        exact (h.columns.filter _).append (insertRow_eq_ok.mp (insertRow_newOtp hfresh ..)).1
      | some error =>
        rw [Option.isSome_some, if_pos rfl, List.append_nil]
        exact h.columns.filter _

end Calls

end Invariant

section Specification

variable {τ : Type} {config : ApiConfig τ}

/-- What a verification does after a run. -/
structure VerifyMeets (config : ApiConfig τ) (s : OtpRun)
    (email code userId passwordHash : String) (pause : Nat → Nat)
    (ending : Ending Store Failure τ) :
    Prop where
  passes : passesChecks ending.result = true ↔
    Accepted s.history email code (checkedAt pause s.store)
  consumes : passesChecks ending.result = true → findOtpByEmail ending.state.emailOtps email = none
  token : passesChecks ending.result = true →
    ∃ user, findUserByEmail ending.state.users email = some user ∧
      (findUserByEmail s.store.users email = some user ∨
        findUserByEmail s.store.users email = none ∧ ∃ createdAt,
          user = newOtpUser config.adminEmail email userId passwordHash createdAt) ∧
      ((∃ token, ending.result = .ok token) ↔ user.isBanned = false)
  elsewhere : SameElsewhere email s.store.emailOtps ending.state.emailOtps

/-- What a request does after a run. -/
structure RequestMeets (s : OtpRun) (email : String) (pause : Nat → Nat)
    (ending : Ending Store Failure Unit) : Prop where
  refused : refusedByCooldown ending.result = true →
    ending.state = later (pause 0 + pause 1) s.store
  elsewhere : SameElsewhere email s.store.emailOtps ending.state.emailOtps

/-- The next call of a run does what its history calls for. -/
def NextMeets (config : ApiConfig τ) (s : OtpRun) : OtpStep → Prop
  | .request email drawn rowId pause mailError => RequestMeets s email pause
      (requestEnding config.sha256 email drawn rowId pause mailError s.store)
  | .verify email code userId passwordHash pause =>
    VerifyMeets config s email code userId passwordHash pause
      (verifyEnding config email code userId passwordHash pause s.store)
  | .others _ => True

/-- The rows follow their codes in every run. -/
theorem follows_of_exec {start : Store} (hempty : start.emailOtps = []) {steps : List OtpStep}
    {s : OtpRun} (h : (otpSequence config).exec ⟨start, []⟩ steps = some s) :
    Follows config.sha256 s := by
  refine (otpSequence config).exec_invariant ?start (fun s step t hs hstep => ?step) h
  case start =>
    have hcolumns : UniqueColumns emailOtpColumns start.emailOtps := hempty ▸ UniqueColumns.nil
    refine ⟨hcolumns, fun email => ?_⟩
    simp only [hempty]
    exact .unasked
  case step =>
    cases step with
    | request email drawn rowId pause mailError =>
      obtain ⟨hfresh, ht⟩ := Option.ite_none_left_eq_some.mp hstep
      obtain rfl := Option.some.inj ht
      exact hs.afterRequest fun row hrow hid => hfresh ⟨row, hrow, hid⟩
    | verify email code userId passwordHash pause =>
      obtain ⟨henabled, ht⟩ := Option.ite_none_left_eq_some.mp hstep
      obtain rfl := Option.some.inj ht
      exact hs.afterVerify fun user huser hid => henabled (Or.inl ⟨user, huser, hid⟩)
    | others store =>
      obtain ⟨⟨hotps, hclock⟩, ht⟩ := Option.ite_none_right_eq_some.mp hstep
      obtain rfl := Option.some.inj ht
      refine ⟨hotps ▸ hs.columns, fun email => ?_⟩
      simp only [hotps]
      exact (hs.tracks email).of_le hclock

/-- A refused request has been refused by the cooldown, and changes nothing. -/
theorem requestMeets_requestEnding {s : OtpRun} {email rowId : String} {drawn : Fin 1000000}
    {pause : Nat → Nat} {mailError : Option ThrownError}
    (hfresh : ∀ row ∈ s.store.emailOtps, row.id ≠ rowId) : RequestMeets s email pause
      (requestEnding config.sha256 email drawn rowId pause mailError s.store) := by
  refine ⟨fun hrefused => ?_, sameElsewhere_requestEnding hfresh⟩
  cases hcool : (findOtpByEmail s.store.emailOtps email).any
      (coolingDown · (checkedAt pause s.store)) with
  | true => exact (requestEnding_of_cooling hcool).1
  | false =>
    rw [(requestEnding_of_not_cooling hcool hfresh).2.1] at hrefused
    cases mailError <;> cases hrefused

/-- A verification that passes consumes the code, and signs the user in unless banned. -/
theorem verifyMeets_verifyEnding (hsha : CollisionFree config.sha256) {s : OtpRun}
    {email code userId passwordHash : String} {pause : Nat → Nat} (h : Follows config.sha256 s)
    (hdigits : SixDigits code) (hfresh : ∀ user ∈ s.store.users, user.id ≠ userId) :
    VerifyMeets config s email code userId passwordHash pause
      (verifyEnding config email code userId passwordHash pause s.store) := by
  refine ⟨passesChecks_iff_accepted hsha h hdigits hfresh, fun hpass => ?consumes,
    fun hpass => ?token, sameElsewhere_verifyEnding h hfresh⟩
  case consumes =>
    obtain ⟨row, hrow, hsigns⟩ := signsIn_of_passesChecks hfresh hpass
    rw [hsigns.emailOtps]
    exact findOtpByEmail_filter_id h.columns hrow
  case token =>
    obtain ⟨row, -, hsigns⟩ := signsIn_of_passesChecks hfresh hpass
    obtain ⟨user, hfound, haccount, issuedAt, hresult⟩ := hsigns.account
    refine ⟨user, hfound, haccount, ?_⟩
    rw [hresult]
    cases user.isBanned with
    | false => exact iff_of_true ⟨_, rfl⟩ rfl
    | true => exact iff_of_false (fun ⟨token, htoken⟩ => by cases htoken) Bool.noConfusion

/-- One call at a time, after every run, a verification passes its checks exactly when its code is
the latest one of the address whose request got past the cooldown, sent, not expired, and neither
guessed at too often nor used; it then consumes the code, and returns a token unless the user is
banned. A request inside the cooldown changes nothing, and no call touches another address. -/
theorem otpSequence_meets_spec (hsha : CollisionFree config.sha256) {start : Store}
    (hempty : start.emailOtps = []) {steps : List OtpStep} {s : OtpRun}
    (h : (otpSequence config).exec ⟨start, []⟩ steps = some s) {step : OtpStep}
    (hstep : (otpSequence config).step s step ≠ none) : NextMeets config s step := by
  have hfollows := follows_of_exec hempty h
  obtain ⟨t, ht⟩ := Option.ne_none_iff_exists'.mp hstep
  cases step with
  | request email drawn rowId pause mailError =>
    obtain ⟨hfresh, -⟩ := Option.ite_none_left_eq_some.mp ht
    exact requestMeets_requestEnding fun row hrow hid => hfresh ⟨row, hrow, hid⟩
  | verify email code userId passwordHash pause =>
    obtain ⟨henabled, -⟩ := Option.ite_none_left_eq_some.mp ht
    rw [not_or, not_not] at henabled
    exact verifyMeets_verifyEnding hsha hfollows henabled.2 fun user huser hid =>
      henabled.1 ⟨user, huser, hid⟩
  | others store => trivial

/-- The codes that are stored as they are do not collide. -/
theorem collisionFree_bytesApi : CollisionFree bytesApi.sha256 := by
  intro email code given _ _ h
  have hlist := congrArg String.toList h
  simp only [hashOtpCode, bytesApi, id, String.toList_append] at hlist
  exact String.ext (List.append_cancel_left hlist)

/-- A code is sent, and another one is presented. -/
def mistypedSteps : List OtpStep :=
  [.request "ada@example.com" 123456 "row" (fun _ => 0) none,
    .verify "ada@example.com" "000000" "ada" "hash" fun _ => 1000]

/-- The code is still accepted. -/
theorem otpSequence_meets_spec_mistyped : ∃ s,
    (otpSequence bytesApi).exec ⟨Store.empty, []⟩ mistypedSteps = some s ∧
    Accepted s.history "ada@example.com" "123456" (checkedAt (fun _ => 1000) s.store) := by
  refine ⟨_, rfl, ?_⟩
  have hmeets := @otpSequence_meets_spec _ bytesApi collisionFree_bytesApi Store.empty rfl
    mistypedSteps _ rfl (.verify "ada@example.com" "123456" "ada" "hash" fun _ => 1000)
    (by decide +kernel)
  exact hmeets.passes.mp (by decide +kernel)

end Specification

end VertexApi.App
