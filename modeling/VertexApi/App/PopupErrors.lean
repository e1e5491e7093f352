import VertexApi.App.CallbackFlows
import VertexApi.App.UniqueViolations

/-!
# Errors in the popup

The filter on the callback routes catches the exceptions of a list, which a callback throws
in three cases: its state does not match, a link meets an account of another user, or the
insert of a first GitHub login throws an error that carries the code of a unique violation.
Every other failure ends in an error response inside the popup.
-/

namespace VertexApi.App

open Auth

/-- The response redirects to the frontend with an error. -/
def RedirectsWithError (config : OAuthRoutesConfig) (ending : Ending Store Failure Response) :
    Prop :=
  ∃ response code, ending.result = .ok response ∧ response.reply =
    .redirect (config.callbackPage ++ "?oauth_error=" ++ JsString.encodeURIComponent code)

/-- The lookup of a link finds the account with another user. -/
def LinkedElsewhere (identity : ProviderIdentity) (linkUserId : String)
    (turns : List (Turn Store ThrownError)) (s : Store) : Prop :=
  Turn.nextFault turns = none ∧
  ∃ other, ((Turn.met turns s).users.find? fun user =>
    linkedId identity.provider user == some identity.providerId) = some other ∧
    other.id ≠ linkUserId

/-- The lookup of a first login finds no row, and the insert fails with an error that carries the
code of a unique violation itself. -/
def InsertReported (identity : ProviderIdentity) (pick : Nat)
    (turns : List (Turn Store ThrownError)) (s : Store) : Prop :=
  Turn.nextFault turns = none ∧
  pickedRow (Turn.met turns s).users (matchesIdentity identity) pick = none ∧
  ∃ error, Turn.nextFault turns.tail = some error ∧ isUniqueViolation error = true

/-- The three cases. -/
def FailsReported (config : OAuthRoutesConfig) (visit : CallbackVisit)
    (turns : List (Turn Store ThrownError)) (s : Store) : Prop :=
  visit.StateMatches config →
    config.isConfigured visit.provider = true ∧
    ∃ profile identity, visit.exchange = .ok profile ∧
      identityOf (profileOf profile) = .ok identity ∧
      match getVerifiedLinkUserId config.signer visit.linkCookie with
      | some linkUserId => LinkedElsewhere identity linkUserId turns s
      | none => visit.provider = .github ∧ InsertReported identity visit.pick turns s

/-- The filter catches the failure. -/
def Failure.IsCaught (failure : Failure) : Prop :=
  ∃ exception ∈ popupExceptions, failure = .refused exception

/-- What the statements of a link throw after their lookup, and what those of a login do. -/
def Failure.IsInternal (provider : OAuthProvider) (failure : Failure) : Prop :=
  failure.IsThrown ∨ failure = .typeError ∨ failure = .refused (linkUserNotFound provider)

section Failures

variable {config : OAuthRoutesConfig} {provider : OAuthProvider} {failure : Failure}

/-- A redirect with an error is the response of a caught exception. -/
theorem redirectsWithError_iff {visit : CallbackVisit} {turns : List (Turn Store Failure)}
    {s : Store} (h : ((handled config visit).run turns s).result = .error failure) :
    RedirectsWithError config ((callback config visit).run turns s) ↔ failure.IsCaught := by
  rw [run_callback, h]
  constructor
  · rintro ⟨response, code, hresponse, hreply⟩
    obtain rfl := Except.ok.inj hresponse
    cases failure with
    | refused exception =>
      by_cases hcaught : exception ∈ popupExceptions
      · exact ⟨exception, hcaught, rfl⟩
      · simp only [guarded, answered, popupResponse, if_neg hcaught] at hreply
        cases hreply
    | slugInUse | thrown | typeError => cases hreply
  · rintro ⟨exception, hcaught, rfl⟩
    refine ⟨_, exception.code.getD "", rfl, ?_⟩
    simp only [guarded, answered, popupResponse, if_pos hcaught, errorRedirect]

/-- The errors of a database are not caught. -/
theorem not_isCaught_of_isThrown (h : failure.IsThrown) : ¬ failure.IsCaught := by
  obtain ⟨error, rfl⟩ := h
  rintro ⟨exception, -, hfailure⟩
  cases hfailure

/-- An exception that is not on the list is not caught. -/
theorem not_isCaught_refused {exception : HttpException} (h : exception ∉ popupExceptions) :
    ¬ (Failure.refused exception).IsCaught := by
  rintro ⟨other, hother, hfailure⟩
  obtain rfl := Failure.refused.inj hfailure
  exact h hother

/-- What the handler of a link makes of an internal failure is not caught. -/
theorem not_isCaught_linkError (h : failure.IsInternal provider) :
    ¬ (OAuthStrategy.linkError provider failure).IsCaught := by
  rcases h with ⟨error, rfl⟩ | rfl | rfl
  · cases provider <;> exact not_isCaught_refused (by decide)
  · cases provider <;> exact not_isCaught_refused (by decide)
  · cases provider <;> exact not_isCaught_refused (by decide)

/-- Nor is what the handler of a login makes of one. -/
theorem not_isCaught_loginError (h : failure.IsThrown ∨ failure = .typeError) :
    ¬ (OAuthStrategy.loginError provider failure).IsCaught := by
  rcases h with ⟨error, rfl⟩ | rfl
  · cases provider with
    | google => exact not_isCaught_of_isThrown ⟨error, rfl⟩
    | github => exact not_isCaught_refused (by decide)
  · cases provider with
    | google => rintro ⟨exception, -, ⟨⟩⟩
    | github => exact not_isCaught_refused (by decide)

end Failures

section Statements

/-- A read fails with errors of the database only. -/
theorem throwsOnly_read {α : Type} (f : Store → α) :
    (read f).ThrowsOnly Failure.IsThrown Failure.IsThrown :=
  .query (fun _ _ h => by cases h) fun _ h => h

/-- So does an update of a user. -/
theorem throwsOnly_updateUsers (id : String) (f : User → User) :
    (updateUsers id f).ThrowsOnly Failure.IsThrown Failure.IsThrown := by
  refine .query (fun s failure h => ?_) fun _ h => h
  split at h
  · next error _ => exact ⟨error, (Except.error.inj h).symm⟩
  · cases h

end Statements

section Links

variable {identity : ProviderIdentity} {linkUserId : String} {turns : List (Turn Store ThrownError)}
  {s : Store} {failure : Failure}

/-- The statements of a link after its lookup. -/
theorem throwsOnly_afterLookup :
    (do
      let some current ← findUser linkUserId
        | throw (.refused (linkUserNotFound identity.provider))
      let some updated ← updateUsers linkUserId (linked identity current) | throw .typeError
      return toJwtPayload updated : Operation JwtPayload).ThrowsOnly Failure.IsThrown
        (Failure.IsInternal identity.provider) := by
  refine .bind ((throwsOnly_read _).mono fun _ h => Or.inl h) fun current => ?_
  cases current with
  | none => exact Or.inr (Or.inr rfl)
  | some current =>
    refine .bind ((throwsOnly_updateUsers ..).mono fun _ h => Or.inl h) fun updated => ?_
    cases updated with
    | none => exact Or.inr (Or.inl rfl)
    | some updated => trivial

/-- A link throws that the account is linked when its lookup says so, and an internal failure
otherwise. -/
theorem link_throws
    (h : ((OAuthStrategy.link identity linkUserId).run (storeTurns turns) s).result =
      .error failure) :
    LinkedElsewhere identity linkUserId turns s ∧
        failure = .refused (alreadyLinked identity.provider) ∨
      ¬ LinkedElsewhere identity linkUserId turns s ∧ failure.IsInternal identity.provider := by
  cases hread : Turn.nextFault turns with
  | some error =>
    refine Or.inr ⟨fun hlinked => ?_, Or.inl ⟨error, ?_⟩⟩
    · cases hread.symm.trans hlinked.1
    · simp only [OAuthStrategy.link, read, Program.run_bind, run_query_of_fault hread,
        Ending.andThen_error] at h
      exact (Except.error.inj h).symm
  | none =>
    simp only [OAuthStrategy.link, read, Program.run_bind, run_query_of_no_fault hread,
      Ending.ofOutcome_ok, Ending.andThen_ok] at h
    split at h
    · next hconflicting =>
      obtain ⟨other, hother, hne⟩ := (Option.any_eq_true ..).mp hconflicting
      exact Or.inl ⟨⟨hread, other, hother, bne_iff_ne.mp hne⟩, (Except.error.inj h).symm⟩
    · next hconflicting =>
      refine Or.inr ⟨?_, ?_⟩
      · rintro ⟨-, other, hother, hne⟩
        rw [hother] at hconflicting
        exact hconflicting (bne_iff_ne.mpr hne)
      · exact throwsOnly_afterLookup.of_run isThrown_of_mem_storeTurns h

/-- A link that fails is reported exactly when its lookup finds the account with another user. -/
theorem linkToExistingUser_isCaught_iff
    (h : ((OAuthStrategy.linkToExistingUser identity linkUserId).run (storeTurns turns) s).result =
      .error failure) : failure.IsCaught ↔ LinkedElsewhere identity linkUserId turns s := by
  simp only [OAuthStrategy.linkToExistingUser, Program.run_tryCatch] at h
  generalize hlink : (OAuthStrategy.link identity linkUserId).run (storeTurns turns) s = ending at h
  obtain ⟨t, later, result⟩ := ending
  cases result with
  | ok user => cases h
  | error inner =>
    obtain rfl : OAuthStrategy.linkError identity.provider inner = failure := Except.error.inj h
    rcases link_throws (congrArg Ending.result hlink) with ⟨hlinked, rfl⟩ | ⟨hnot, hinternal⟩
    · refine iff_of_true ⟨alreadyLinked identity.provider, ?_, ?_⟩ hlinked
      · cases identity.provider <;> decide
      · cases identity.provider <;> rfl
    · exact iff_of_false (not_isCaught_linkError hinternal) hnot

end Links

section Logins

variable {adminEmail : Option String} {identity : ProviderIdentity} {userId passwordHash : String}
  {pick : Nat} {turns : List (Turn Store ThrownError)} {s : Store} {failure : Failure}

/-- An insert throws the error with which it fails, or one without a code. -/
theorem insertIntoUsers_throws {row : Nat → User}
    (h : ((insertIntoUsers row).run (storeTurns turns) s).result = .error failure) :
    ∃ error, failure = .thrown error ∧ (isUniqueViolation error = true ↔
      ∃ fault, Turn.nextFault turns = some fault ∧ isUniqueViolation fault = true) := by
  rw [insertIntoUsers] at h
  cases hfault : Turn.nextFault turns with
  | some fault =>
    rw [run_query_of_fault hfault] at h
    refine ⟨fault, (Except.error.inj h).symm, ?_⟩
    simp only [Option.some.injEq, exists_eq_left']
  | none =>
    rw [run_query_of_no_fault hfault] at h
    simp only [reduceCtorEq, false_and, exists_false, iff_false]
    cases hinsert : insertUser (Turn.met turns s).users (row (Turn.met turns s).clock) with
    | ok users =>
      rw [hinsert] at h
      cases h
    | error error =>
      rw [hinsert] at h
      refine ⟨error, (Except.error.inj h).symm, ?_⟩
      simp only [insertUser] at hinsert
      cases hrow : insertRow userColumns (Turn.met turns s).users
          (row (Turn.met turns s).clock) with
      | ok users =>
        rw [hrow] at hinsert
        cases hinsert
      | error constraintName =>
        rw [hrow] at hinsert
        obtain rfl : uniqueViolation constraintName = error := Except.error.inj hinsert
        exact Bool.false_ne_true

/-- What the lookup of a login and the statement after it throw. -/
theorem findOrRegister_throws
    (h : ((OAuthStrategy.findOrRegister adminEmail identity userId passwordHash pick).run
      (storeTurns turns) s).result = .error failure) :
    (∃ error, failure = OAuthStrategy.insertError identity.provider (.thrown error) ∧
      (isUniqueViolation error = true ↔ InsertReported identity pick turns s)) ∨
    ¬ InsertReported identity pick turns s ∧ failure.IsThrown := by
  cases hread : Turn.nextFault turns with
  | some error =>
    refine Or.inr ⟨fun hreported => ?_, error, ?_⟩
    · cases hread.symm.trans hreported.1
    · simp only [OAuthStrategy.findOrRegister, read, Program.run_bind, run_query_of_fault hread,
        Ending.andThen_error] at h
      exact (Except.error.inj h).symm
  | none =>
    simp only [OAuthStrategy.findOrRegister, read, Program.run_bind, run_query_of_no_fault hread,
      Ending.ofOutcome_ok, Ending.andThen_ok] at h
    cases hpick : pickedRow (Turn.met turns s).users (matchesIdentity identity) pick with
    | some existing =>
      rw [hpick] at h
      refine Or.inr ⟨fun hreported => ?_, ?_⟩
      · cases hpick.symm.trans hreported.2.1
      · exact (throwsOnly_updateUsers ..).of_run isThrown_of_mem_storeTurns h
    | none =>
      simp only [hpick, OAuthStrategy.register, Program.run_tryCatch, Program.run_map] at h
      generalize hinsert : (insertIntoUsers _).run (storeTurns turns.tail) _ = ending at h
      obtain ⟨t, later, result⟩ := ending
      cases result with
      | ok user => cases h
      | error inner =>
        obtain ⟨error, rfl, hcode⟩ := insertIntoUsers_throws (congrArg Ending.result hinsert)
        refine Or.inl ⟨error, (Except.error.inj h).symm, hcode.trans ?_⟩
        exact ⟨fun hreported => ⟨hread, hpick, hreported⟩, fun hreported => hreported.2.2⟩

/-- A login whose insert is reported throws. -/
theorem findOrRegister_of_insertReported (h : InsertReported identity pick turns s) :
    ∃ failure, ((OAuthStrategy.findOrRegister adminEmail identity userId passwordHash pick).run
      (storeTurns turns) s).result = .error failure := by
  obtain ⟨hread, hpick, fault, hfault, -⟩ := h
  refine ⟨OAuthStrategy.insertError identity.provider (.thrown fault), ?_⟩
  simp only [OAuthStrategy.findOrRegister, read, Program.run_bind, run_query_of_no_fault hread,
    Ending.ofOutcome_ok, Ending.andThen_ok, hpick, OAuthStrategy.register, Program.run_tryCatch,
    Program.run_map, insertIntoUsers, run_query_of_fault hfault, Ending.andThen_error,
    Ending.orElse_error, Program.run_throw]

/-- What the handlers make of the error of an insert is caught with GitHub, when the error carries
the code of a unique violation. -/
theorem isCaught_insertError_iff (provider : OAuthProvider) (error : ThrownError) :
    (OAuthStrategy.loginError provider
      (OAuthStrategy.insertError provider (.thrown error))).IsCaught ↔
    provider = .github ∧ isUniqueViolation error = true := by
  cases provider with
  | google =>
    refine iff_of_false (not_isCaught_of_isThrown ⟨error, rfl⟩) fun h => ?_
    cases h.1
  | github =>
    rw [loginError_insertError_github]
    by_cases hcode : isUniqueViolation error = true
    · rw [if_pos hcode]
      exact iff_of_true ⟨githubEmailConflict, by decide, rfl⟩ ⟨rfl, hcode⟩
    · rw [if_neg hcode]
      exact iff_of_false (not_isCaught_refused (by decide)) fun h => hcode h.2

/-- A login that fails is reported exactly when it is one with GitHub whose insert throws an error
that carries the code of a unique violation. -/
theorem loginOrRegister_isCaught_iff
    (h : ((OAuthStrategy.loginOrRegister adminEmail identity userId passwordHash pick).run
      (storeTurns turns) s).result = .error failure) :
    failure.IsCaught ↔ identity.provider = .github ∧ InsertReported identity pick turns s := by
  simp only [OAuthStrategy.loginOrRegister, Program.run_bind, Program.run_tryCatch] at h
  generalize hfound : (OAuthStrategy.findOrRegister adminEmail identity userId passwordHash
    pick).run (storeTurns turns) s = ending at h
  obtain ⟨t, later, result⟩ := ending
  cases result with
  | ok user =>
    cases user with
    | some user => cases h
    | none =>
      obtain rfl : Failure.typeError = failure := Except.error.inj h
      refine iff_of_false (fun hcaught => ?_) fun hreported => ?_
      · obtain ⟨exception, -, hexception⟩ := hcaught
        cases hexception
      · have hfails : ∃ failure, (OAuthStrategy.findOrRegister adminEmail identity userId
            passwordHash pick |>.run (storeTurns turns) s).result = .error failure :=
          findOrRegister_of_insertReported hreported.2
        rw [hfound] at hfails
        obtain ⟨failure, ⟨⟩⟩ := hfails
  | error inner =>
    obtain rfl : OAuthStrategy.loginError identity.provider inner = failure := Except.error.inj h
    rcases findOrRegister_throws (congrArg Ending.result hfound) with
      ⟨error, rfl, hcode⟩ | ⟨hnot, hthrown⟩
    · rw [isCaught_insertError_iff, hcode]
    · exact iff_of_false (not_isCaught_loginError (Or.inl hthrown)) fun h => hnot h.2

/-- A first login whose insert is reported throws. -/
theorem loginOrRegister_of_insertReported (h : InsertReported identity pick turns s) :
    ∃ failure, ((OAuthStrategy.loginOrRegister adminEmail identity userId passwordHash pick).run
      (storeTurns turns) s).result = .error failure := by
  obtain ⟨inner, hinner⟩ : ∃ failure, (OAuthStrategy.findOrRegister adminEmail identity userId
      passwordHash pick |>.run (storeTurns turns) s).result = .error failure :=
    findOrRegister_of_insertReported h
  simp only [OAuthStrategy.loginOrRegister, Program.run_bind, Program.run_tryCatch]
  generalize (OAuthStrategy.findOrRegister adminEmail identity userId passwordHash
    pick).run (storeTurns turns) s = ending at hinner
  obtain ⟨t, later, result⟩ := ending
  obtain rfl : result = _ := hinner
  exact ⟨_, rfl⟩

end Logins

section Mints

/-- A mint throws errors of the database only. -/
theorem throwsOnly_handleOAuthCallback (config : OAuthRoutesConfig) (visit : CallbackVisit)
    (user : JwtPayload) : (handleOAuthCallback config visit user).ThrowsOnly Failure.IsThrown
      Failure.IsThrown := by
  refine .bind (.bind (.look _) fun createdAt => .bind (.query ?insert fun _ h => h) fun _ =>
    .bind ?prune fun _ => trivial) fun _ => trivial
  case insert =>
    intro s failure h
    split at h
    · exact ⟨_, (Except.error.inj h).symm⟩
    · split at h
      · exact ⟨_, (Except.error.inj h).symm⟩
      · cases h
  case prune =>
    refine .tryCatch (.bind (.look _) fun cutoff => .query ?_ fun _ h => h) fun _ _ => trivial
    exact fun _ _ h => by cases h

end Mints

/-- A profile that a strategy does not take is not reported. -/
theorem identityOf_error {profile : Profile} {exception : HttpException}
    (h : identityOf profile = .error exception) : exception ∉ popupExceptions := by
  cases profile with
  | google profile =>
    simp only [identityOf, googleIdentity] at h
    split at h
    · obtain rfl := Except.error.inj h
      decide
    · cases h
  | github profile =>
    simp only [identityOf, githubIdentity] at h
    split at h
    · obtain rfl := Except.error.inj h
      decide
    · cases h

section Callbacks

variable {config : OAuthRoutesConfig} {visit : CallbackVisit}
  {turns : List (Turn Store ThrownError)} {s : Store} {failure : Failure}

/-- The case of a profile that the strategy takes. -/
theorem failsReported_iff {profile : ProviderProfile visit.provider} {identity : ProviderIdentity}
    (hstate : visit.StateMatches config) (hconfigured : config.isConfigured visit.provider = true)
    (hexchange : visit.exchange = .ok profile)
    (hidentity : identityOf (profileOf profile) = .ok identity) :
    FailsReported config visit turns s ↔
      match getVerifiedLinkUserId config.signer visit.linkCookie with
      | some linkUserId => LinkedElsewhere identity linkUserId turns s
      | none => visit.provider = .github ∧ InsertReported identity visit.pick turns s := by
  constructor
  · intro h
    obtain ⟨-, other, otherIdentity, hother, hotherIdentity, hcase⟩ := h hstate
    obtain rfl : profile = other := Except.ok.inj (hexchange.symm.trans hother)
    obtain rfl : identity = otherIdentity := Except.ok.inj (hidentity.symm.trans hotherIdentity)
    exact hcase
  · exact fun h _ => ⟨hconfigured, profile, identity, hexchange, hidentity, h⟩

/-- The failure of a callback whose strategy has a user to make. -/
theorem isCaught_iff_of_identity {profile : ProviderProfile visit.provider}
    {identity : ProviderIdentity} (hidentity : identityOf (profileOf profile) = .ok identity)
    (h : (((validate config visit profile).run (storeTurns turns) s).andThen
      (authCallback config visit)).result = .error failure) :
    failure.IsCaught ↔ match getVerifiedLinkUserId config.signer visit.linkCookie with
      | some linkUserId => LinkedElsewhere identity linkUserId turns s
      | none => visit.provider = .github ∧ InsertReported identity visit.pick turns s := by
  have hsuffix := (validate config visit profile).run_turns_suffix (storeTurns turns) s
  have hvalidate : (validate config visit profile).run (storeTurns turns) s = _ :=
    run_validate hidentity
  rw [hvalidate] at h hsuffix
  cases hverified : getVerifiedLinkUserId config.signer visit.linkCookie with
  | some linkUserId =>
    simp only [hverified] at h ⊢
    generalize hlink : (OAuthStrategy.linkToExistingUser identity linkUserId).run
      (storeTurns turns) s = ending at h
    obtain ⟨t, later, result⟩ := ending
    cases result with
    | error inner =>
      obtain rfl : inner = failure := Except.error.inj h
      exact linkToExistingUser_isCaught_iff (congrArg Ending.result hlink)
    | ok user =>
      have hflow : visit.isLinkFlow = true :=
        isLinkFlow_of_performsLink (by rw [CallbackVisit.performsLink, hverified]; rfl)
      rw [Ending.andThen_ok, authCallback, if_pos hflow] at h
      cases h
  | none =>
    simp only [hverified] at h hsuffix ⊢
    rw [← provider_of_identityOf hidentity]
    generalize hlogin : (OAuthStrategy.loginOrRegister config.adminEmail identity visit.userId
      visit.passwordHash visit.pick).run (storeTurns turns) s = ending at h hsuffix
    obtain ⟨t, later, result⟩ := ending
    cases result with
    | error inner =>
      obtain rfl : inner = failure := Except.error.inj h
      exact loginOrRegister_isCaught_iff (congrArg Ending.result hlogin)
    | ok user =>
      rw [Ending.andThen_ok, authCallback] at h
      split at h
      · cases h
      · -- The mint fails.
        have hthrown := (throwsOnly_handleOAuthCallback config visit user).of_run
          (fun turn hturn => isThrown_of_mem_storeTurns turn (hsuffix.mem hturn)) h
        refine iff_of_false (not_isCaught_of_isThrown hthrown) fun hreported => ?_
        have hfails : ∃ failure, (OAuthStrategy.loginOrRegister config.adminEmail identity
            visit.userId visit.passwordHash visit.pick |>.run (storeTurns turns) s).result =
              .error failure := loginOrRegister_of_insertReported hreported.2
        rw [hlogin] at hfails
        obtain ⟨failure, ⟨⟩⟩ := hfails

/-- The failure of a callback with a code is caught exactly in the three cases. -/
theorem isCaught_iff_failsReported (hcode : visit.carriesCode)
    (hfails : ((handled config visit).run (storeTurns turns) s).result = .error failure) :
    failure.IsCaught ↔ FailsReported config visit turns s := by
  by_cases hstate : visit.StateMatches config
  · cases hconfigured : config.isConfigured visit.provider with
    | false =>
      rw [run_handled_of_not_configured hcode hstate hconfigured] at hfails
      obtain rfl := Except.error.inj hfails
      refine iff_of_false (not_isCaught_refused ?_) fun h => ?_
      · cases visit.provider <;> decide
      · cases hconfigured.symm.trans (h hstate).1
    | true =>
      rw [run_handled_of_stateMatches hcode hstate hconfigured] at hfails
      cases hexchange : visit.exchange with
      | error refusal =>
        rw [hexchange] at hfails
        obtain rfl := Except.error.inj hfails
        refine iff_of_false ?_ fun h => ?_
        · cases refusal with
          | declined => exact not_isCaught_refused (by decide)
          | failed error => exact not_isCaught_of_isThrown ⟨error, rfl⟩
        · obtain ⟨-, profile, -, hprofile, -⟩ := h hstate
          cases hexchange.symm.trans hprofile
      | ok profile =>
        simp only [hexchange] at hfails
        cases hidentity : identityOf (profileOf profile) with
        | error exception =>
          have hvalidate : (validate config visit profile).run (storeTurns turns) s = _ :=
            run_validate_of_refused hidentity
          rw [hvalidate] at hfails
          obtain rfl := Except.error.inj hfails
          refine iff_of_false (not_isCaught_refused (identityOf_error hidentity)) fun h => ?_
          obtain ⟨-, other, identity, hother, hotherIdentity, -⟩ := h hstate
          obtain rfl : profile = other := Except.ok.inj (hexchange.symm.trans hother)
          cases hidentity.symm.trans hotherIdentity
        | ok identity =>
          rw [isCaught_iff_of_identity hidentity hfails,
            failsReported_iff hstate hconfigured hexchange hidentity]
  · rw [run_handled_of_not_stateMatches hcode hstate] at hfails
    obtain rfl := Except.error.inj hfails
    exact iff_of_true ⟨oAuthStateMismatchException, by decide, rfl⟩ fun h => absurd h hstate

/-- A callback with a code that fails redirects with an error exactly in the three cases. -/
theorem redirectsWithError_iff_failsReported (hcode : visit.carriesCode)
    (hfails : ((handled config visit).run (storeTurns turns) s).result = .error failure) :
    RedirectsWithError config ((callback config visit).run (storeTurns turns) s) ↔
      FailsReported config visit turns s :=
  (redirectsWithError_iff hfails).trans (isCaught_iff_failsReported hcode hfails)

end Callbacks

/-- A callback that brings no state back. -/
def statelessVisit : CallbackVisit :=
  { adaVisit bytesRoutes .google none with query := some ⟨.missing, .text "code", .missing⟩ }

/-- It redirects with an error. -/
theorem redirectsWithError_iff_failsReported_stateless :
    RedirectsWithError bytesRoutes
      ((callback bytesRoutes statelessVisit).run (storeTurns []) Store.empty) := by
  have hcode : statelessVisit.carriesCode := ⟨rfl, show ("code" != "") = true by decide⟩
  have hstate : ¬ statelessVisit.StateMatches bytesRoutes := by
    rintro ⟨attempt, -, hmatch⟩
    cases hmatch
  have hfails : ((handled bytesRoutes statelessVisit).run (storeTurns []) Store.empty).result =
      .error (.refused oAuthStateMismatchException) :=
    congrArg Ending.result (run_handled_of_not_stateMatches hcode hstate)
  exact (redirectsWithError_iff_failsReported hcode hfails).mpr fun h => absurd h hstate

/-- A connection that is lost. -/
def connectionLost : ThrownError := wrapped ⟨"08006", none⟩

/-- It is lost before the exchange code is stored. -/
def mintFails : List (Turn Store ThrownError) :=
  [⟨id, none⟩, ⟨id, none⟩, ⟨id, none⟩, ⟨id, some connectionLost⟩]

/-- The failure of the mint ends in an error response. -/
theorem not_redirectsWithError_mintFails :
    (adaVisit bytesRoutes .google none).carriesCode ∧
    ((handled bytesRoutes (adaVisit bytesRoutes .google none)).run (storeTurns mintFails)
      Store.empty).result = .error (.thrown connectionLost) ∧
    (∃ cookies, ((callback bytesRoutes (adaVisit bytesRoutes .google none)).run
      (storeTurns mintFails) Store.empty).result =
        .ok ⟨cookies, .unhandled (.thrown connectionLost)⟩) ∧
    ¬ RedirectsWithError bytesRoutes ((callback bytesRoutes (adaVisit bytesRoutes .google none)).run
      (storeTurns mintFails) Store.empty) := by
  have hlink := adaVisit_linkCookie bytesRoutes .google none
  have hflow : ¬ (adaVisit bytesRoutes .google none).isLinkFlow = true := by
    rw [CallbackVisit.isLinkFlow, hlink]
    decide
  have hreaches := @adaVisit_reaches bytesRoutes .google none rfl rfl
    (storeTurns [⟨id, none⟩, ⟨id, some connectionLost⟩])
  have hfails : ((handled bytesRoutes (adaVisit bytesRoutes .google none)).run
      (storeTurns mintFails) Store.empty).result = .error (.thrown connectionLost) := by
    change ((handled _ _).run (⟨id, none⟩ :: ⟨id, none⟩ ::
      storeTurns [⟨id, none⟩, ⟨id, some connectionLost⟩]) Store.empty).result = _
    rw [hreaches.run_handled, authCallback, if_neg hflow]
    rfl
  refine ⟨adaVisit_carriesCode .., hfails, ?response, ?raw⟩
  case response =>
    rw [run_callback, hfails]
    exact ⟨_ ++ [], rfl⟩
  case raw =>
    rw [redirectsWithError_iff hfails]
    exact not_isCaught_of_isThrown ⟨_, rfl⟩

end VertexApi.App
