import Mathlib.Data.List.Pairwise
import VertexApi.Auth.OtpRecord

/-!
# The cooldown between two mails

The cooldown is checked on the row that a request read, and the delete that follows takes
whatever row the address has by then. As long as no request deletes a row younger than the
cooldown, a row is in the table or older than the cooldown, so the unique address keeps
the rows of an address apart. Two requests that pass the check together send two mails at
once.
-/

namespace VertexApi.Auth

/-- No verification takes place, and no mail fails. -/
def Quiet : OtpLabel → Prop
  | .verify _ _ => False
  | .request _ .sendFailed => False
  | _ => True

/-- A request deletes no row younger than the cooldown. -/
def SparesYoung (s : OtpState) : OtpLabel → Prop
  | .request id .replace => ∀ request ∈ s.requests id, ∀ row ∈ s.otps,
      row.email = request.email → row.createdAt + otpResendCooldownMs ≤ s.clock
  | _ => True

/-- The rows were created at least one cooldown apart. -/
def Apart (row row' : EmailOtp) : Prop :=
  row.createdAt + otpResendCooldownMs ≤ row'.createdAt ∨
    row'.createdAt + otpResendCooldownMs ≤ row.createdAt

/-- Any two mails to an address come from rows created at least one cooldown apart. -/
def MailsApart (s : OtpState) : Prop :=
  s.outbox.Pairwise fun mail mail' => mail.email = mail'.email → Apart mail.row mail'.row

instance decidableQuiet : (label : OtpLabel) → Decidable (Quiet label)
  | .verify _ _ | .request _ .sendFailed => inferInstanceAs (Decidable False)
  | .tick _ | .users _ | .request _ (.start _) | .request _ .find | .request _ (.cooldown _)
  | .request _ .replace | .request _ .stamp | .request _ (.insert _) | .request _ .send
  | .request _ .cleanup => inferInstanceAs (Decidable True)

instance decidableSparesYoung (s : OtpState) :
    (label : OtpLabel) → Decidable (SparesYoung s label)
  | .request id .replace => inferInstanceAs (Decidable (∀ request ∈ s.requests id,
      ∀ row ∈ s.otps, row.email = request.email →
        row.createdAt + otpResendCooldownMs ≤ s.clock))
  | .tick _ | .users _ | .verify _ _ | .request _ (.start _) | .request _ .find
  | .request _ (.cooldown _) | .request _ .stamp | .request _ (.insert _) | .request _ .send
  | .request _ .sendFailed | .request _ .cleanup => inferInstanceAs (Decidable True)

instance decidableApart (row row' : EmailOtp) : Decidable (Apart row row') :=
  inferInstanceAs (Decidable (_ ∨ _))

instance decidableMailsApart (s : OtpState) : Decidable (MailsApart s) :=
  inferInstanceAs (Decidable (List.Pairwise _ _))

/-- Every row inserted is still there or older than the cooldown, and the rows of an address
were created in turn. -/
structure Rested (inserted : List EmailOtp) (s : OtpState) : Prop where
  rows : ∀ row ∈ inserted, row ∈ s.otps ∨ row.createdAt + otpResendCooldownMs ≤ s.clock
  apart : inserted.Pairwise fun row later => row.email = later.email →
    row.createdAt + otpResendCooldownMs ≤ later.createdAt
  /-- No mail has failed. -/
  sent : ∀ id email row, s.requests id ≠ some ⟨email, .cleanup row⟩

namespace Rested

variable {sha256 : String → String} {adminEmail : Option String} {inserted : List EmailOtp}
  {s t m : OtpState} {id : Nat} {email : String} {phase : RequestPhase} {label : OtpLabel}

/-- Nothing was inserted at the start. -/
theorem initial (clock : Nat) : Rested [] (OtpState.initial clock) where
  rows _ h := nomatch h
  apart := List.Pairwise.nil
  sent _ _ _ h := nomatch h

/-- A request that takes no young row away keeps the rows rested. -/
theorem request (h : Rested inserted s) (hclock : m.clock = s.clock)
    (hrequests : m.requests = s.requests)
    (hrows : ∀ row ∈ s.otps, row ∈ m.otps ∨ row.createdAt + otpResendCooldownMs ≤ s.clock)
    (hphase : ∀ row, phase ≠ .cleanup row) : Rested inserted (m.setRequest id ⟨email, phase⟩) where
  rows row hrow := by
    change row ∈ m.otps ∨ row.createdAt + otpResendCooldownMs ≤ m.clock
    rw [hclock]
    rcases h.rows row hrow with hthere | hold
    · exact hrows row hthere
    · exact Or.inr hold
  apart := h.apart
  sent other email' row hcleanup := by
    rcases update_eq_some_iff.mp hcleanup with ⟨-, he⟩ | ⟨-, hother⟩
    · exact hphase row (congrArg Request.phase he).symm
    · exact h.sent other email' row (hrequests ▸ hother)

/-- A row stored for a free address comes a cooldown after the rows before it. -/
theorem insert (h : Rested inserted s) {row : EmailOtp} {code rowId : String}
    (hcreated : row.createdAt = s.clock) (hfree : ∀ other ∈ s.otps, other.email ≠ row.email) :
    Rested (inserted ++ [row])
      ({ s with otps := s.otps ++ [row], usedIds := rowId :: s.usedIds }.setRequest id
        ⟨email, .send code row⟩) := by
  refine ⟨?rows, ?apart, ?sent⟩
  case rows =>
    intro other hother
    rcases List.mem_append.mp hother with hother | hother
    · exact (h.rows other hother).imp_left fun hthere => List.mem_append_left _ hthere
    · exact Or.inl (List.mem_append_right _ hother)
  case apart =>
    refine List.pairwise_append.mpr ⟨h.apart, List.pairwise_singleton .., ?_⟩
    intro other hother new hnew hemail
    obtain rfl := List.mem_singleton.mp hnew
    rw [hcreated]
    rcases h.rows other hother with hthere | hold
    · exact absurd hemail (hfree other hthere)
    · exact hold
  case sent =>
    intro other email' row' hcleanup
    rcases update_eq_some_iff.mp hcleanup with ⟨-, he⟩ | ⟨-, hold⟩
    · cases congrArg Request.phase he
    · exact h.sent other email' row' hold

/-- Every quiet step that spares the young rows keeps them rested. -/
theorem step (h : Rested inserted s) (hquiet : Quiet label) (hspares : SparesYoung s label)
    (hstep : (otps sha256 adminEmail).step s label = some t) :
    Rested (inserted ++ insertedOtp label t) t := by
  cases otpMoves_of_step hstep with
  | verifyStart | verify => exact hquiet.elim
  | tick =>
    change Rested (inserted ++ []) _
    rw [List.append_nil]
    exact ⟨fun row hrow => (h.rows row hrow).imp_right fun hold => Nat.le_add_right_of_le hold,
      h.apart, h.sent⟩
  | users =>
    change Rested (inserted ++ []) _
    rw [List.append_nil]
    exact ⟨h.rows, h.apart, h.sent⟩
  | requestStart =>
    change Rested (inserted ++ []) _
    rw [List.append_nil]
    exact h.request rfl rfl (fun _ hrow => Or.inl hrow) fun _ he => by cases he
  | @request id _ email _ _ _ hrequest hmoves =>
    cases hmoves with
    | inserted hnew hfree hrow =>
      subst hrow
      rw [insertedOtp_send]
      exact h.insert rfl hfree
    | sendFailed => exact hquiet.elim
    | cleanup => exact absurd hrequest (h.sent _ _ _)
    | replace =>
      rw [insertedOtp_of_ne_send (fun _ _ he => by cases he), List.append_nil]
      refine h.request rfl rfl (fun row hrow => ?_) fun _ he => by cases he
      by_cases he : row.email = email
      · exact Or.inr (hspares _ hrequest row hrow he)
      · exact Or.inl (List.mem_filter.mpr ⟨hrow, bne_iff_ne.mpr he⟩)
    | find | refused | allowed | stamp | violated | send =>
      rw [insertedOtp_of_ne_send (fun _ _ he => by cases he), List.append_nil]
      exact h.request rfl rfl (fun _ hrow => Or.inl hrow) fun _ he => by cases he

/-- Two rows of one address were created one cooldown apart. -/
theorem apart_of_mem (h : Rested inserted s) {row row' : EmailOtp} (hrow : row ∈ inserted)
    (hrow' : row' ∈ inserted) (hne : row ≠ row') (hemail : row.email = row'.email) :
    Apart row row' := by
  let Spread (row row' : EmailOtp) : Prop := row.email = row'.email → Apart row row'
  have hsymm : Std.Symm Spread := ⟨fun _ _ hspread he => (hspread he.symm).symm⟩
  have hspread : inserted.Pairwise Spread := h.apart.imp fun hlater he => Or.inl (hlater he)
  exact hspread.forall hrow hrow' hne hemail

end Rested

section Runs

variable {sha256 : String → String} {adminEmail : Option String} {s : OtpState} {clock : Nat}
  {labels : List OtpLabel}

/-- While no request deletes a row younger than the cooldown, the mails of an address come from
rows created at least one cooldown apart. -/
theorem mailsApart_of_exec (h : (otps sha256 adminEmail).exec (.initial clock) labels = some s)
    (hquiet : ∀ label ∈ labels, Quiet label)
    (hspares : (otps sha256 adminEmail).Meets SparesYoung (.initial clock) labels) :
    MailsApart s := by
  obtain ⟨hrecorded, hrested⟩ : ∃ inserted, Recorded sha256 inserted s ∧ Rested inserted s := by
    refine (otps sha256 adminEmail).exec_invariant_of_meets
      (P := fun s => ∃ inserted, Recorded sha256 inserted s ∧ Rested inserted s)
      ⟨[], .initial clock, .initial clock⟩ ?_
      (((otps sha256 adminEmail).meets_of_forall hquiet).and hspares) h
    rintro m label t ⟨inserted, hrecorded, hrested⟩ ⟨hlabel, hspare⟩ hstep
    exact ⟨_, hrecorded.step hstep, hrested.step hlabel hspare hstep⟩
  obtain ⟨hrecorded, hrested⟩ := hrested
  refine hrecorded.sentOnce.imp_of_mem fun {mail mail'} hmail hmail' hne hemail => ?_
  obtain ⟨hmem, he, -⟩ := hrecorded.mails mail hmail
  obtain ⟨hmem', he', -⟩ := hrecorded.mails mail' hmail'
  refine hrested.apart_of_mem hmem hmem' (fun hsame => hne (congrArg EmailOtp.id hsame)) ?_
  rw [he, he', hemail]

end Runs

/-- A request sends a code, and another one sends the next code after the cooldown. -/
def oneAfterTheOther : List OtpLabel :=
  codeSent ++ .tick 60000 ::
    [.start "ada@example.com", .find, .cooldown 654321, .replace, .stamp, .insert "next",
      .send].map (.request 1)

/-- Two codes after one another are one cooldown apart. -/
theorem mailsApart_of_exec_oneAfterTheOther : ∃ s,
    (otps sampleSha256 none).exec (.initial 1000) oneAfterTheOther = some s ∧
      s.outbox.length = 2 ∧ MailsApart s :=
  ⟨_, (otps sampleSha256 none).exec_run (.initial 1000) oneAfterTheOther (by decide +kernel),
    by decide +kernel,
    mailsApart_of_exec ((otps sampleSha256 none).exec_run .. ) (by decide) (by decide +kernel)⟩

/-- Two requests that both find no row pending, and replace each other's row. -/
def bothThrough : List OtpLabel :=
  [.request 0 (.start "ada@example.com"), .request 1 (.start "ada@example.com"),
    .request 0 .find, .request 1 .find, .request 0 (.cooldown 123456),
    .request 1 (.cooldown 654321), .request 0 .replace, .request 0 .stamp,
    .request 0 (.insert "row"), .request 0 .send, .request 1 .replace, .request 1 .stamp,
    .request 1 (.insert "next"), .request 1 .send]

/-- Requests that overlap send two mails to an address at the same time. -/
theorem not_mailsApart_bothThrough : ∃ s,
    (otps sampleSha256 none).exec (.initial 1000) bothThrough = some s ∧
      (∀ label ∈ bothThrough, Quiet label) ∧ ¬MailsApart s :=
  ⟨(otps sampleSha256 none).run (.initial 1000) bothThrough (by decide +kernel),
    Machine.exec_run .., by decide, by decide +kernel⟩

end VertexApi.Auth
