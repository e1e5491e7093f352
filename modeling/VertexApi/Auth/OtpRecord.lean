import VertexApi.Auth.OtpOverlap

/-!
# The record of the codes

The rows that the requests insert are recorded in order, so that the newest row of an
address is known whatever becomes of it. The table only holds newest rows, a call that
inserted a row is the only one that sends it, and a mail carries the code of its row.
-/

namespace VertexApi.Auth

/-- The row that a step inserted. -/
def insertedOtp : OtpLabel → OtpState → List EmailOtp
  | .request id (.insert _), t => match t.requests id with
    | some ⟨_, .send _ row⟩ => [row]
    | _ => []
  | _, _ => []

/-- The id of the row that a step consumed. -/
def consumedOtp : OtpLabel → OtpState → List String
  | .verify id .consume, t => match t.verifies id with
    | some ⟨_, _, .findUser entry⟩ => [entry.id]
    | _ => []
  | _, _ => []

/-- The newest row of an address. -/
def latestOtp (inserted : List EmailOtp) (email : String) : Option EmailOtp :=
  inserted.reverse.find? fun row => row.email == email

/-- The first row is the second one, up to the wrong codes that it counts. -/
def SameCode (current row : EmailOtp) : Prop :=
  current = { row with attempts := current.attempts }

section Rows

variable {inserted : List EmailOtp} {current old row : EmailOtp}

/-- A row that was just inserted is the newest one of its address. -/
theorem latestOtp_snoc_self (inserted : List EmailOtp) (row : EmailOtp) :
    latestOtp (inserted ++ [row]) row.email = some row := by
  rw [latestOtp, List.reverse_append, List.reverse_singleton, List.singleton_append]
  exact List.find?_cons_of_pos (beq_self_eq_true row.email)

/-- The other addresses keep their newest rows. -/
theorem latestOtp_snoc_of_ne (inserted : List EmailOtp) {email : String} (h : row.email ≠ email) :
    latestOtp (inserted ++ [row]) email = latestOtp inserted email := by
  rw [latestOtp, List.reverse_append, List.reverse_singleton, List.singleton_append]
  exact List.find?_cons_of_neg fun he => h (beq_iff_eq.mp he)

/-- The newest row of an address was inserted. -/
theorem mem_of_latestOtp {email : String} (h : latestOtp inserted email = some row) :
    row ∈ inserted :=
  List.mem_reverse.mp (List.mem_of_find?_eq_some h)

/-- The newest row of an address is a row of the address. -/
theorem email_of_latestOtp {email : String} (h : latestOtp inserted email = some row) :
    row.email = email :=
  beq_iff_eq.mp (List.find?_some (p := fun row : EmailOtp => row.email == email) h)

theorem SameCode.refl (row : EmailOtp) : SameCode row row := rfl

theorem SameCode.trans (h : SameCode current old) (h' : SameCode old row) :
    SameCode current row := by
  unfold SameCode at *
  rw [h, h']

theorem SameCode.id (h : SameCode current row) : current.id = row.id := by rw [h]

theorem SameCode.email (h : SameCode current row) : current.email = row.email := by rw [h]

theorem SameCode.codeHash (h : SameCode current row) : current.codeHash = row.codeHash := by
  rw [h]

theorem SameCode.createdAt (h : SameCode current row) : current.createdAt = row.createdAt := by
  rw [h]

end Rows

section Steps

variable (sha256 : String → String) (adminEmail : Option String)

/-- What one step of a request does to the rest of the state, and the phases it leads from
and to. -/
inductive RequestMoves (s : OtpState) (email : String) :
    RequestPhase → RequestStep → OtpState → RequestPhase → Prop where
  | find : RequestMoves s email .find .find s (.cooldown (findOtpByEmail s.otps email))
  | refused {existing : EmailOtp} {drawn : Nat} (h : coolingDown existing s.clock = true) :
    RequestMoves s email (.cooldown (some existing)) (.cooldown drawn) s
      (.done (.refused otpCooldown))
  | allowed {existing : Option EmailOtp} {drawn : Nat}
    (h : ∀ row, existing = some row → coolingDown row s.clock = false) :
    RequestMoves s email (.cooldown existing) (.cooldown drawn) s (.replace (otpCode drawn))
  | replace {code : String} :
    RequestMoves s email (.replace code) .replace (s.withoutEmail email) (.stamp code)
  | stamp {code : String} :
    RequestMoves s email (.stamp code) .stamp s (.insert code (s.clock + otpTtlMs))
  | violated {code rowId : String} {expiresAt : Nat} (h : ∃ row ∈ s.otps, row.email = email) :
    RequestMoves s email (.insert code expiresAt) (.insert rowId) s (.done .violated)
  | inserted {code rowId : String} {expiresAt : Nat} {row : EmailOtp} (hnew : rowId ∉ s.usedIds)
    (hfree : ∀ row ∈ s.otps, row.email ≠ email)
    (hrow : row = newOtp sha256 email code rowId expiresAt s.clock) :
    RequestMoves s email (.insert code expiresAt) (.insert rowId)
      { s with otps := s.otps ++ [row], usedIds := rowId :: s.usedIds } (.send code row)
  | send {code : String} {row : EmailOtp} :
    RequestMoves s email (.send code row) .send
      { s with outbox := s.outbox ++ [⟨email, code, row⟩] } (.done .sent)
  | sendFailed {code : String} {row : EmailOtp} :
    RequestMoves s email (.send code row) .sendFailed s (.cleanup row)
  | cleanup {row : EmailOtp} :
    RequestMoves s email (.cleanup row) .cleanup (s.withoutEmail email) (.done .undelivered)

/-- A step passes time, changes the users, starts a call, or moves one. -/
inductive OtpMoves (s : OtpState) : OtpLabel → OtpState → Prop where
  | tick {ms : Nat} : OtpMoves s (.tick ms) { s with clock := s.clock + ms }
  | users {users : List User} : OtpMoves s (.users users) { s with users := users }
  | requestStart {id : Nat} {email : String} (h : s.requests id = none) :
    OtpMoves s (.request id (.start email)) (s.setRequest id ⟨email, .find⟩)
  | request {id : Nat} {step : RequestStep} {email : String} {phase phase' : RequestPhase}
    {m : OtpState} (h : s.requests id = some ⟨email, phase⟩)
    (hmoves : RequestMoves sha256 s email phase step m phase') :
    OtpMoves s (.request id step) (m.setRequest id ⟨email, phase'⟩)
  | verifyStart {id : Nat} {email code : String} (h : s.verifies id = none) :
    OtpMoves s (.verify id (.start email code)) (s.setVerify id ⟨email, code, .find⟩)
  | verify {id : Nat} {step : VerifyStep} {verify : Verify} {phase : VerifyPhase} {m : OtpState}
    (h : s.verifies id = some verify) (hmoves : Moves sha256 adminEmail s verify step m phase) :
    OtpMoves s (.verify id step) (m.setVerify id { verify with phase := phase })

end Steps

section Inversion

variable {sha256 : String → String} {adminEmail : Option String} {s t : OtpState} {email : String}
  {phase : RequestPhase} {id : Nat}

/-- The cooldown check refuses a request, or lets it through. -/
theorem requestMoves_of_cooldown {drawn : Nat}
    (h : s.requestStep sha256 id ⟨email, phase⟩ (.cooldown drawn) = some t) :
    ∃ m phase', RequestMoves sha256 s email phase (.cooldown drawn) m phase' ∧
      t = m.setRequest id ⟨email, phase'⟩ := by
  cases phase with
  | cooldown existing =>
    simp only [OtpState.requestStep] at h
    split at h
    · next hcooling =>
      obtain rfl := Option.some.inj h
      cases existing with
      | none => cases hcooling
      | some row =>
        rw [Option.any_some] at hcooling
        exact ⟨_, _, .refused hcooling, rfl⟩
    · next hclear =>
      obtain ⟨-, hsome⟩ := Option.ite_none_right_eq_some.mp h
      obtain rfl := Option.some.inj hsome
      refine ⟨_, _, .allowed fun row hrow => ?_, rfl⟩
      subst hrow
      rw [Option.any_some, Bool.not_eq_true] at hclear
      exact hclear
  | find | replace | stamp | insert | send | cleanup | done => cases h

/-- The insert violates the unique address, or stores its row. -/
theorem requestMoves_of_insert {rowId : String}
    (h : s.requestStep sha256 id ⟨email, phase⟩ (.insert rowId) = some t) :
    ∃ m phase', RequestMoves sha256 s email phase (.insert rowId) m phase' ∧
      t = m.setRequest id ⟨email, phase'⟩ := by
  cases phase with
  | insert code expiresAt =>
    simp only [OtpState.requestStep] at h
    split at h
    · cases h
    · next hnew =>
      split at h
      · next htaken =>
        obtain rfl := Option.some.inj h
        obtain ⟨row, hrow, he⟩ := List.any_eq_true.mp htaken
        exact ⟨_, _, .violated ⟨row, hrow, beq_iff_eq.mp he⟩, rfl⟩
      · next hfree =>
        obtain rfl := Option.some.inj h
        refine ⟨_, _, .inserted hnew (fun row hrow he => hfree ?_) rfl, rfl⟩
        exact List.any_eq_true.mpr ⟨row, hrow, beq_iff_eq.mpr he⟩
  | find | cooldown | replace | stamp | send | cleanup | done => cases h

/-- A step of a request is one of its moves. -/
theorem requestMoves_of_requestStep {step : RequestStep}
    (h : s.requestStep sha256 id ⟨email, phase⟩ step = some t) :
    ∃ m phase', RequestMoves sha256 s email phase step m phase' ∧
      t = m.setRequest id ⟨email, phase'⟩ := by
  cases step with
  | start => cases h
  | cooldown drawn => exact requestMoves_of_cooldown h
  | insert rowId => exact requestMoves_of_insert h
  | find =>
    cases phase with
    | find => exact ⟨_, _, .find, (Option.some.inj h).symm⟩
    | cooldown | replace | stamp | insert | send | cleanup | done => cases h
  | replace =>
    cases phase with
    | replace code => exact ⟨_, _, .replace, (Option.some.inj h).symm⟩
    | find | cooldown | stamp | insert | send | cleanup | done => cases h
  | stamp =>
    cases phase with
    | stamp code => exact ⟨_, _, .stamp, (Option.some.inj h).symm⟩
    | find | cooldown | replace | insert | send | cleanup | done => cases h
  | send =>
    cases phase with
    | send code row => exact ⟨_, _, .send, (Option.some.inj h).symm⟩
    | find | cooldown | replace | stamp | insert | cleanup | done => cases h
  | sendFailed =>
    cases phase with
    | send code row => exact ⟨_, _, .sendFailed, (Option.some.inj h).symm⟩
    | find | cooldown | replace | stamp | insert | cleanup | done => cases h
  | cleanup =>
    cases phase with
    | cleanup row => exact ⟨_, _, .cleanup, (Option.some.inj h).symm⟩
    | find | cooldown | replace | stamp | insert | send | done => cases h

/-- Every step of the machine is one of its moves. -/
theorem otpMoves_of_step {label : OtpLabel} (h : (otps sha256 adminEmail).step s label = some t) :
    OtpMoves sha256 adminEmail s label t := by
  cases label with
  | tick ms => exact Option.some.inj h ▸ .tick
  | users users => exact Option.some.inj h ▸ .users
  | request id step =>
    rcases request_step_cases h with ⟨email, rfl, hnone, rfl⟩ | ⟨⟨email, phase⟩, hrequest, hstep⟩
    · exact .requestStart hnone
    · obtain ⟨m, phase', hmoves, rfl⟩ := requestMoves_of_requestStep hstep
      exact .request hrequest hmoves
  | verify id step =>
    rcases verify_step_cases h with ⟨email, code, rfl, hnone, rfl⟩ | ⟨verify, hverify, hstep⟩
    · exact .verifyStart hnone
    · obtain ⟨m, phase, hmoves, rfl⟩ := moves_of_verifyStep hstep
      exact .verify hverify hmoves

end Inversion

/-- The call has inserted the row, and has not ended yet. -/
def Held (s : OtpState) (id : Nat) (email : String) (row : EmailOtp) : Prop :=
  (∃ code, s.requests id = some ⟨email, .send code row⟩) ∨
    s.requests id = some ⟨email, .cleanup row⟩

/-- The tables, the calls and the outbox agree with the rows inserted. -/
structure Recorded (sha256 : String → String) (inserted : List EmailOtp) (s : OtpState) :
    Prop where
  used : ∀ row ∈ inserted, row.id ∈ s.usedIds
  rows : ∀ current ∈ s.otps, ∃ row, latestOtp inserted current.email = some row ∧
    SameCode current row
  held : ∀ id email row, Held s id email row → row ∈ inserted ∧ row.email = email
  once : ∀ id id' email email' row row', Held s id email row → Held s id' email' row' →
    row.id = row'.id → id = id'
  sending : ∀ id email code row, s.requests id = some ⟨email, .send code row⟩ →
    row.codeHash = hashOtpCode sha256 email code
  mails : ∀ mail ∈ s.outbox, mail.row ∈ inserted ∧ mail.row.email = mail.email ∧
    mail.row.codeHash = hashOtpCode sha256 mail.email mail.code
  unsent : ∀ id email row, Held s id email row → ∀ mail ∈ s.outbox, mail.row.id ≠ row.id
  sentOnce : s.outbox.Pairwise fun mail mail' => mail.row.id ≠ mail'.row.id

section Moves

variable {sha256 : String → String} {adminEmail : Option String} {s t m : OtpState}
  {verify : Verify} {move : VerifyStep} {judged : VerifyPhase}

/-- A move of a request leaves the calls alone. -/
theorem RequestMoves.requests {email : String} {step : RequestStep}
    {phase phase' : RequestPhase} (h : RequestMoves sha256 s email phase step m phase') :
    m.requests = s.requests := by
  cases h <;> rfl

/-- A move of a verification leaves the requests alone. -/
theorem Moves.requests (h : Moves sha256 adminEmail s verify move m judged) :
    m.requests = s.requests := by
  cases h <;> rfl

/-- It sends nothing. -/
theorem Moves.outbox (h : Moves sha256 adminEmail s verify move m judged) :
    m.outbox = s.outbox := by
  cases h <;> rfl

/-- It writes nothing into a row but the count of wrong codes. -/
theorem Moves.sameCode (h : Moves sha256 adminEmail s verify move m judged) {current : EmailOtp}
    (hcurrent : current ∈ m.otps) : ∃ old ∈ s.otps, SameCode current old := by
  cases h with
  | drop h | consume h => exact ⟨current, (List.mem_filter.mp hcurrent).1, .refl current⟩
  | count h =>
    obtain ⟨old, hold, rfl⟩ := List.mem_map.mp hcurrent
    refine ⟨old, hold, ?_⟩
    split <;> rfl
  | find | unknown | dropping | wrong | right | newUser | found | violated | created =>
    exact ⟨current, hcurrent, .refl current⟩

/-- A call that holds a row after another call was set held it before, or is the one set. -/
theorem held_setRequest (hsame : m.requests = s.requests) {id other : Nat} {email email' : String}
    {phase : RequestPhase} {row : EmailOtp}
    (h : Held (m.setRequest id ⟨email, phase⟩) other email' row) :
    other = id ∧ email' = email ∧ ((∃ code, phase = .send code row) ∨ phase = .cleanup row) ∨
      other ≠ id ∧ Held s other email' row := by
  rcases h with ⟨code, h⟩ | h
  · rcases update_eq_some_iff.mp h with ⟨rfl, he⟩ | ⟨hne, hold⟩
    · obtain ⟨rfl, rfl⟩ := Request.mk.inj he
      exact Or.inl ⟨rfl, rfl, Or.inl ⟨code, rfl⟩⟩
    · exact Or.inr ⟨hne, Or.inl ⟨code, hsame ▸ hold⟩⟩
  · rcases update_eq_some_iff.mp h with ⟨rfl, he⟩ | ⟨hne, hold⟩
    · obtain ⟨rfl, rfl⟩ := Request.mk.inj he
      exact Or.inl ⟨rfl, rfl, Or.inr rfl⟩
    · exact Or.inr ⟨hne, Or.inr (hsame ▸ hold)⟩

/-- The step that stores a row is recorded with it. -/
theorem insertedOtp_send (id : Nat) (rowId email code : String) (row : EmailOtp) :
    insertedOtp (.request id (.insert rowId)) (m.setRequest id ⟨email, .send code row⟩) =
      [row] := by
  simp only [insertedOtp, OtpState.setRequest, Function.update_self]

/-- A step of a request that stores no row is recorded without one. -/
theorem insertedOtp_of_ne_send {id : Nat} {step : RequestStep} {email : String}
    {phase : RequestPhase} (h : ∀ code row, phase ≠ .send code row) :
    insertedOtp (.request id step) (m.setRequest id ⟨email, phase⟩) = [] := by
  cases step with
  | insert rowId =>
    simp only [insertedOtp, OtpState.setRequest, Function.update_self]
    split
    · next heq => exact absurd (congrArg Request.phase (Option.some.inj heq)) (h _ _)
    · rfl
  | start | find | cooldown | replace | stamp | send | sendFailed | cleanup => rfl

end Moves

namespace Recorded

variable {sha256 : String → String} {adminEmail : Option String} {inserted : List EmailOtp}
  {s t m : OtpState} {id : Nat} {email code : String} {phase : RequestPhase} {row : EmailOtp}

/-- Nothing is recorded at the start. -/
theorem initial (clock : Nat) : Recorded sha256 [] (OtpState.initial clock) where
  used _ h := nomatch h
  rows _ h := nomatch h
  held _ _ _ h := h.elim (fun ⟨_, h⟩ => nomatch h) fun h => nomatch h
  once _ _ _ _ _ _ h := h.elim (fun ⟨_, h⟩ => nomatch h) fun h => nomatch h
  sending _ _ _ _ h := nomatch h
  mails _ h := nomatch h
  unsent _ _ _ h := h.elim (fun ⟨_, h⟩ => nomatch h) fun h => nomatch h
  sentOnce := List.Pairwise.nil

/-- The record stays right while rows go or count wrong codes, and calls end. -/
theorem mono (h : Recorded sha256 inserted s) (hused : t.usedIds = s.usedIds)
    (houtbox : t.outbox = s.outbox)
    (hrows : ∀ current ∈ t.otps, ∃ old ∈ s.otps, SameCode current old)
    (hheld : ∀ id email row, Held t id email row → Held s id email row)
    (hsending : ∀ id email code row, t.requests id = some ⟨email, .send code row⟩ →
      s.requests id = some ⟨email, .send code row⟩) : Recorded sha256 inserted t where
  used row hrow := hused ▸ h.used row hrow
  rows current hcurrent := by
    obtain ⟨old, hold, hsame⟩ := hrows current hcurrent
    obtain ⟨row, hrow, hcode⟩ := h.rows old hold
    exact ⟨row, hsame.email ▸ hrow, hsame.trans hcode⟩
  held id email row hrow := h.held id email row (hheld id email row hrow)
  once id id' email email' row row' hrow hrow' :=
    h.once id id' email email' row row' (hheld id email row hrow) (hheld id' email' row' hrow')
  sending id email code row hsend := h.sending id email code row (hsending id email code row hsend)
  mails mail hmail := h.mails mail (houtbox ▸ hmail)
  unsent id email row hrow mail hmail :=
    h.unsent id email row (hheld id email row hrow) mail (houtbox ▸ hmail)
  sentOnce := houtbox ▸ h.sentOnce

/-- So it does while the requests stand still. -/
theorem frame (h : Recorded sha256 inserted s) (hused : t.usedIds = s.usedIds)
    (houtbox : t.outbox = s.outbox) (hrequests : t.requests = s.requests)
    (hrows : ∀ current ∈ t.otps, ∃ old ∈ s.otps, SameCode current old) :
    Recorded sha256 inserted t :=
  h.mono hused houtbox hrows (fun id email row hrow => by rwa [Held, hrequests] at hrow)
    fun id email code row hsend => hrequests ▸ hsend

/-- A request that moves on without storing a row or sending one keeps the record. -/
theorem request (h : Recorded sha256 inserted s) (hused : m.usedIds = s.usedIds)
    (houtbox : m.outbox = s.outbox) (hrequests : m.requests = s.requests)
    (hrows : ∀ current ∈ m.otps, current ∈ s.otps)
    (hcleanup : ∀ row, phase = .cleanup row → Held s id email row)
    (hsend : ∀ code row, phase ≠ .send code row) :
    Recorded sha256 inserted (m.setRequest id ⟨email, phase⟩) := by
  refine h.mono hused houtbox (fun current hcurrent => ⟨current, hrows current hcurrent, .refl _⟩)
    (fun other email' row hrow => ?_) fun other email' code row hrow => ?_
  · rcases held_setRequest hrequests hrow with ⟨rfl, rfl, ⟨code, he⟩ | he⟩ | ⟨-, hold⟩
    · exact absurd he (hsend code row)
    · exact hcleanup row he
    · exact hold
  · rcases update_eq_some_iff.mp hrow with ⟨rfl, he⟩ | ⟨-, hold⟩
    · exact absurd (congrArg Request.phase he).symm (hsend code row)
    · exact hrequests ▸ hold

/-- A stored row is recorded as the newest of its address. -/
theorem insert (h : Recorded sha256 inserted s) (hnew : row.id ∉ s.usedIds)
    (hemail : row.email = email) (hhash : row.codeHash = hashOtpCode sha256 email code)
    (hfree : ∀ row ∈ s.otps, row.email ≠ email) :
    Recorded sha256 (inserted ++ [row])
      ({ s with otps := s.otps ++ [row], usedIds := row.id :: s.usedIds }.setRequest id
        ⟨email, .send code row⟩) := by
  have hother : ∀ {row' : EmailOtp}, row' ∈ inserted → row'.id ≠ row.id := fun hrow' he =>
    hnew (he ▸ h.used _ hrow')
  have hkept : ∀ {row' : EmailOtp}, row' ∈ inserted → row' ∈ inserted ++ [row] :=
    fun hrow' => List.mem_append_left _ hrow'
  -- A call holds the new row, or held an old one.
  have hheld : ∀ {other email' row'}, Held ({ s with
      otps := s.otps ++ [row], usedIds := row.id :: s.usedIds }.setRequest id
        ⟨email, .send code row⟩) other email' row' →
      other = id ∧ email' = email ∧ row' = row ∨ other ≠ id ∧ Held s other email' row' := by
    intro other email' row' hrow'
    rcases held_setRequest rfl hrow' with ⟨rfl, rfl, ⟨code', he⟩ | he⟩ | hold
    · exact Or.inl ⟨rfl, rfl, (RequestPhase.send.inj he).2.symm⟩
    · cases he
    · exact Or.inr hold
  refine ⟨?used, ?rows, ?held, ?once, ?sending, ?mails, ?unsent, h.sentOnce⟩
  case used =>
    intro row' hrow'
    rcases List.mem_append.mp hrow' with hrow' | hrow'
    · exact List.mem_cons_of_mem _ (h.used row' hrow')
    · rw [List.mem_singleton.mp hrow']
      exact List.mem_cons_self
  case rows =>
    intro current hcurrent
    rcases List.mem_append.mp hcurrent with hcurrent | hcurrent
    · obtain ⟨row', hrow', hcode⟩ := h.rows current hcurrent
      refine ⟨row', ?_, hcode⟩
      rw [latestOtp_snoc_of_ne inserted fun he => ?_, hrow']
      exact hfree current hcurrent (he.symm.trans hemail)
    · obtain rfl := List.mem_singleton.mp hcurrent
      exact ⟨current, latestOtp_snoc_self inserted current, .refl current⟩
  case held =>
    intro other email' row' hrow'
    rcases hheld hrow' with ⟨-, rfl, rfl⟩ | ⟨-, hold⟩
    · exact ⟨List.mem_append_right _ (List.mem_singleton_self _), hemail⟩
    · exact (h.held other email' row' hold).imp_left hkept
  case once =>
    intro one two email₁ email₂ row₁ row₂ hone htwo he
    rcases hheld hone with ⟨rfl, -, rfl⟩ | ⟨-, hone'⟩ <;>
      rcases hheld htwo with ⟨rfl, -, rfl⟩ | ⟨-, htwo'⟩
    · rfl
    · exact absurd he.symm (hother (h.held two email₂ row₂ htwo').1)
    · exact absurd he (hother (h.held one email₁ row₁ hone').1)
    · exact h.once one two email₁ email₂ row₁ row₂ hone' htwo' he
  case sending =>
    intro other email' code' row' hsend
    rcases update_eq_some_iff.mp hsend with ⟨rfl, he⟩ | ⟨-, hold⟩
    · obtain ⟨rfl, hphase⟩ := Request.mk.inj he
      obtain ⟨rfl, rfl⟩ := RequestPhase.send.inj hphase
      exact hhash
    · exact h.sending other email' code' row' hold
  case mails =>
    intro mail hmail
    exact (h.mails mail hmail).imp_left hkept
  case unsent =>
    intro other email' row' hrow' mail hmail
    rcases hheld hrow' with ⟨-, -, rfl⟩ | ⟨-, hold⟩
    · exact hother (h.mails mail hmail).1
    · exact h.unsent other email' row' hold mail hmail

/-- A sent row is the row of its mail. -/
theorem send (h : Recorded sha256 inserted s)
    (hsend : s.requests id = some ⟨email, .send code row⟩) :
    Recorded sha256 inserted (({ s with
      outbox := s.outbox ++ [⟨email, code, row⟩] } : OtpState).setRequest id
        ⟨email, .done .sent⟩) := by
  have hself : Held s id email row := Or.inl ⟨code, hsend⟩
  have hheld : ∀ {other email' row'}, Held (({ s with
      outbox := s.outbox ++ [⟨email, code, row⟩] } : OtpState).setRequest id
        ⟨email, .done .sent⟩) other email' row' → other ≠ id ∧ Held s other email' row' := by
    intro other email' row' hrow'
    rcases held_setRequest rfl hrow' with ⟨-, -, ⟨code', he⟩ | he⟩ | hold
    · cases he
    · cases he
    · exact hold
  refine ⟨h.used, h.rows, ?held, ?once, ?sending, ?mails, ?unsent, ?sentOnce⟩
  case held =>
    intro other email' row' hrow'
    exact h.held other email' row' (hheld hrow').2
  case once =>
    intro one two email₁ email₂ row₁ row₂ hone htwo
    exact h.once one two email₁ email₂ row₁ row₂ (hheld hone).2 (hheld htwo).2
  case sending =>
    intro other email' code' row' hother
    rcases update_eq_some_iff.mp hother with ⟨-, he⟩ | ⟨-, hold⟩
    · cases congrArg Request.phase he
    · exact h.sending other email' code' row' hold
  case mails =>
    intro mail hmail
    rcases List.mem_append.mp hmail with hmail | hmail
    · exact h.mails mail hmail
    · obtain rfl := List.mem_singleton.mp hmail
      obtain ⟨hmem, hemail⟩ := h.held id email row hself
      exact ⟨hmem, hemail, h.sending id email code row hsend⟩
  case unsent =>
    intro other email' row' hrow' mail hmail
    obtain ⟨hne, hold⟩ := hheld hrow'
    rcases List.mem_append.mp hmail with hmail | hmail
    · exact h.unsent other email' row' hold mail hmail
    · obtain rfl := List.mem_singleton.mp hmail
      exact fun he => hne (h.once id other email email' row row' hself hold he).symm
  case sentOnce =>
    refine List.pairwise_append.mpr ⟨h.sentOnce, List.pairwise_singleton .., ?_⟩
    intro mail hmail mail' hmail'
    rw [List.mem_singleton.mp hmail']
    exact h.unsent id email row hself mail hmail

/-- Every step keeps the record. -/
theorem step (h : Recorded sha256 inserted s) {label : OtpLabel}
    (hstep : (otps sha256 adminEmail).step s label = some t) :
    Recorded sha256 (inserted ++ insertedOtp label t) t := by
  cases otpMoves_of_step hstep with
  | tick | users | verifyStart =>
    change Recorded sha256 (inserted ++ []) _
    rw [List.append_nil]
    exact h.frame rfl rfl rfl fun current hcurrent => ⟨current, hcurrent, .refl current⟩
  | requestStart hnone =>
    rw [insertedOtp_of_ne_send (fun _ _ he => by cases he), List.append_nil]
    exact h.request rfl rfl rfl (fun _ hcurrent => hcurrent) (fun _ he => by cases he)
      fun _ _ he => by cases he
  | verify hverify hmoves =>
    change Recorded sha256 (inserted ++ []) _
    rw [List.append_nil]
    exact h.frame hmoves.usedIds hmoves.outbox hmoves.requests fun _ => hmoves.sameCode
  | request hrequest hmoves =>
    cases hmoves with
    | inserted hnew hfree hrow =>
      subst hrow
      rw [insertedOtp_send]
      exact h.insert hnew rfl rfl hfree
    | send =>
      rw [insertedOtp_of_ne_send (fun _ _ he => by cases he), List.append_nil]
      exact h.send hrequest
    | sendFailed =>
      rw [insertedOtp_of_ne_send (fun _ _ he => by cases he), List.append_nil]
      refine h.request rfl rfl rfl (fun _ hcurrent => hcurrent) (fun row he => ?_)
        fun _ _ he => by cases he
      obtain rfl := RequestPhase.cleanup.inj he
      exact Or.inl ⟨_, hrequest⟩
    | replace | cleanup =>
      rw [insertedOtp_of_ne_send (fun _ _ he => by cases he), List.append_nil]
      exact h.request rfl rfl rfl (fun _ hcurrent => (List.mem_filter.mp hcurrent).1)
        (fun _ he => by cases he) fun _ _ he => by cases he
    | find | refused | allowed | stamp | violated =>
      rw [insertedOtp_of_ne_send (fun _ _ he => by cases he), List.append_nil]
      exact h.request rfl rfl rfl (fun _ hcurrent => hcurrent) (fun _ he => by cases he)
        fun _ _ he => by cases he

end Recorded

end VertexApi.Auth
