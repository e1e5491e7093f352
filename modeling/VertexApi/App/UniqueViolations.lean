import VertexApi.App.Services
import VertexApi.Core.Turns

/-!
# Unique violations that a service handles

The query builder throws an error of its own, whose cause is the error of the driver. The
posts service looks at the cause; the handler of a first GitHub login looks at the error
itself, which carries no code.
-/

namespace VertexApi.App

open Auth Posts

/-- The rejection is a conflict. -/
def Failure.IsConflict : Failure → Prop
  | .refused exception => exception.status = 409
  | .slugInUse exception _ => exception.status = 409
  | .thrown _ | .typeError => False

/-- The driver has reported a unique violation, with the name of the constraint. -/
def Violates (error : ThrownError) (constraintName : String) : Prop :=
  error.cause = some ⟨postgresUniqueViolation, some constraintName⟩

/-- It has reported one constraint. -/
theorem Violates.unique {error : ThrownError} {name other : String}
    (h : Violates error name) (hother : Violates error other) :
    name = other := by
  have hcause := h.symm.trans hother
  simpa only [Option.some.injEq, PostgresError.mk.injEq, true_and] using hcause

/-- The rejection of a slug that is in use names its field. -/
def slugConflict (field : String) : Failure :=
  .slugInUse (conflictException ("The \"" ++ field ++ "\" slug is already in use by another post.")
    .slugInUse) field

/-- What a run throws. -/
def Throws {α : Type} (ending : Ending Store Failure α) (failure : Failure) : Prop :=
  ending.result = .error failure

/-- A run throws one failure. -/
theorem Throws.unique {α : Type} {ending : Ending Store Failure α} {failure other : Failure}
    (h : Throws ending failure) (hother : Throws ending other) : failure = other :=
  Except.error.inj (h.symm.trans hother)

/-- A login with GitHub, and the course of its statements. -/
structure GithubLogin where
  adminEmail : Option String
  identity : ProviderIdentity
  provider_eq : identity.provider = .github
  userId : String
  passwordHash : String
  pick : Nat
  turns : List (Turn Store Failure)
  store : Store

namespace GithubLogin

/-- Its run. -/
def ending (login : GithubLogin) : Ending Store Failure JwtPayload :=
  (OAuthStrategy.loginOrRegister login.adminEmail login.identity login.userId login.passwordHash
    login.pick).run login.turns login.store

/-- It finds no row, and its insert throws. -/
def InsertThrows (login : GithubLogin) (error : ThrownError) : Prop :=
  Turn.nextFault login.turns = none ∧
  pickedRow (Turn.met login.turns login.store).users (matchesIdentity login.identity) login.pick =
    none ∧
  Throws ((insertIntoUsers (newProviderUser login.adminEmail login.identity login.userId
    login.passwordHash)).run login.turns.tail (Turn.met login.turns login.store)) (.thrown error)

end GithubLogin

/-- A new post, and the course of its statements. -/
structure PostCreation where
  createPostDto : CreatePostDto
  authorId : String
  postId : String
  turns : List (Turn Store Failure)
  store : Store

namespace PostCreation

/-- Its run. -/
def ending (creation : PostCreation) : Ending Store Failure PostsService.PostWithAuthor :=
  (PostsService.create creation.createPostDto creation.authorId creation.postId).run
    creation.turns creation.store

/-- Its transaction throws. -/
def TransactionThrows (creation : PostCreation) (error : ThrownError) : Prop :=
  let s := Turn.met creation.turns creation.store
  let row := newPost creation.createPostDto creation.authorId creation.postId
    (createdPublishedAt creation.createPostDto s.clock)
  Throws ((PostsService.insertPostTransaction row creation.createPostDto.topicIds).run
    creation.turns.tail s) (.thrown error)

end PostCreation

/-- An edit of a post, and the course of its statements. -/
structure PostEdition where
  publicUrlPrefix : String
  id : String
  updatePostDto : UpdatePostDto
  turns : List (Turn Store Failure)
  store : Store

namespace PostEdition

/-- Its run. -/
def ending (edition : PostEdition) : Ending Store Failure PostsService.PostWithAuthor :=
  (PostsService.update edition.publicUrlPrefix edition.id edition.updatePostDto).run
    edition.turns edition.store

/-- It finds the post, and its transaction throws. -/
def TransactionThrows (edition : PostEdition) (error : ThrownError) : Prop :=
  let s := Turn.met edition.turns edition.store
  let t := Turn.met edition.turns.tail s
  Turn.nextFault edition.turns = none ∧
  ∃ existing, findPostById s.posts edition.id = some existing ∧
    Throws ((PostsService.updatePostTransaction edition.id
      (postEdit existing edition.updatePostDto t.clock) edition.updatePostDto.topicIds).run
      edition.turns.tail.tail t) (.thrown error)

end PostEdition

/-- A unique violation is answered with the conflict, and every other error with none. -/
def ReportsGithubConflict (error : ThrownError) (ending : Ending Store Failure JwtPayload) : Prop :=
  ((∃ name, Violates error name) → Throws ending (.refused githubEmailConflict)) ∧
  ((¬ ∃ name, Violates error name) →
    ∃ failure, Throws ending failure ∧ ¬ failure.IsConflict)

/-- A violation of a slug constraint is answered with the conflict of its field, and every
other error with none. -/
def ReportsSlugConflict (error : ThrownError)
    (ending : Ending Store Failure PostsService.PostWithAuthor) : Prop :=
  (∀ entry ∈ slugConstraintFields, Violates error entry.1 →
    Throws ending (slugConflict entry.2)) ∧
  ((¬ ∃ entry ∈ slugConstraintFields, Violates error entry.1) →
    ∃ failure, Throws ending failure ∧ ¬ failure.IsConflict)

/-- An error is recognised wherever it is handled. -/
structure Recognised (error : ThrownError) : Prop where
  github : ∀ login : GithubLogin, login.InsertThrows error →
    ReportsGithubConflict error login.ending
  created : ∀ creation : PostCreation, creation.TransactionThrows error →
    ReportsSlugConflict error creation.ending
  updated : ∀ edition : PostEdition, edition.TransactionThrows error →
    ReportsSlugConflict error edition.ending

section Endings

variable {error : ThrownError}

/-- Both handlers of a GitHub login look at the code of the error itself. -/
theorem loginError_insertError_github (error : ThrownError) :
    OAuthStrategy.loginError .github (OAuthStrategy.insertError .github (.thrown error)) =
      if isUniqueViolation error then .refused githubEmailConflict
      else .refused (internalServerErrorException "Failed to authenticate with GitHub") := by
  simp only [OAuthStrategy.insertError, insertFailed]
  split
  · exact if_pos rfl
  · rfl

/-- The answer to a GitHub login whose insert throws: the error itself decides. -/
theorem GithubLogin.throws_of_insertThrows {login : GithubLogin} (h : login.InsertThrows error) :
    Throws login.ending (if isUniqueViolation error then .refused githubEmailConflict
      else .refused (internalServerErrorException "Failed to authenticate with GitHub")) := by
  obtain ⟨hread, hpick, hinsert⟩ := h
  simp only [Throws, GithubLogin.ending, OAuthStrategy.loginOrRegister, Program.run_bind,
    Program.run_tryCatch, OAuthStrategy.findOrRegister, read, Program.run_query,
    Turn.outcome_of_no_fault hread, Ending.ofOutcome_ok, Ending.andThen_ok, hpick,
    OAuthStrategy.register, Program.run_map]
  generalize hending : (insertIntoUsers _).run _ _ = ending at hinsert ⊢
  obtain ⟨state, turns, result⟩ := ending
  obtain rfl : result = _ := hinsert
  simp only [Ending.andThen_error, Ending.orElse_error, Program.run_throw, login.provider_eq]
  rw [loginError_insertError_github]

/-- The answer to a new post whose transaction throws. -/
theorem PostCreation.throws_of_transactionThrows {creation : PostCreation}
    (h : creation.TransactionThrows error) : Throws creation.ending
      (.ofPost (Posts.rethrowFriendlySlugConflict (.thrown error))) := by
  simp only [Throws, PostCreation.ending, PostsService.create, now, Program.run_bind,
    Program.run_look, Ending.andThen_ok, Program.run_tryCatch]
  simp only [PostCreation.TransactionThrows] at h
  generalize (PostsService.insertPostTransaction _ _).run _ _ = ending at h ⊢
  obtain ⟨state, turns, result⟩ := ending
  obtain rfl : result = _ := h
  rfl

/-- The answer to an edit whose transaction throws. -/
theorem PostEdition.throws_of_transactionThrows {edition : PostEdition}
    (h : edition.TransactionThrows error) : Throws edition.ending
      (.ofPost (Posts.rethrowFriendlySlugConflict (.thrown error))) := by
  obtain ⟨hread, existing, hexisting, hthrows⟩ := h
  simp only [Throws, PostEdition.ending, PostsService.update, read, now, Program.run_bind,
    Program.run_look, Program.run_query, Turn.outcome_of_no_fault hread, Ending.ofOutcome_ok,
    Ending.andThen_ok, hexisting, Program.run_tryCatch]
  generalize (PostsService.updatePostTransaction _ _ _).run _ _ = ending at hthrows ⊢
  obtain ⟨state, turns, result⟩ := ending
  obtain rfl : result = _ := hthrows
  rfl

/-- A slug constraint has its field. -/
theorem slugConstraintField_of_mem {entry : String × String} (h : entry ∈ slugConstraintFields) :
    slugConstraintField entry.1 = some entry.2 := by
  simp only [slugConstraintFields, List.mem_cons, List.not_mem_nil, or_false] at h
  rcases h with rfl | rfl | rfl
  · rfl
  · rfl
  · rfl

/-- Every other name is looked up among the inherited ones. -/
theorem slugConstraintField_of_not_mem {name : String}
    (h : ∀ entry ∈ slugConstraintFields, name ≠ entry.1) :
    slugConstraintField name = JsString.inheritedProperty name := by
  have hnone : slugConstraintFields.lookup name = none :=
    List.lookup_eq_none_iff.mpr fun entry hentry => bne_iff_ne.mpr (h entry hentry)
  rw [slugConstraintField, hnone, Option.none_or]

/-- No slug constraint has an inherited name. -/
theorem inheritedProperty_of_mem {entry : String × String} (h : entry ∈ slugConstraintFields) :
    JsString.inheritedProperty entry.1 = none := by
  simp only [slugConstraintFields, List.mem_cons, List.not_mem_nil, or_false] at h
  rcases h with rfl | rfl | rfl
  · decide +kernel
  · decide +kernel
  · decide +kernel

/-- A violation of a constraint that has a field is rejected with that field. -/
theorem rethrowFriendlySlugConflict_of_violates {name field : String}
    (h : Violates error name) (hfield : slugConstraintField name = some field) :
    Failure.ofPost (Posts.rethrowFriendlySlugConflict (.thrown error)) = slugConflict field := by
  have hcause : error.cause = some ⟨postgresUniqueViolation, some name⟩ := h
  simp only [Posts.rethrowFriendlySlugConflict, hcause, hfield, if_true, Failure.ofPost,
    slugConflict]

/-- An error that violates no constraint with a field is let through. -/
theorem rethrowFriendlySlugConflict_of_not_violates
    (h : ∀ name, Violates error name → slugConstraintField name = none) :
    Posts.rethrowFriendlySlugConflict (.thrown error) = .thrown error := by
  simp only [Posts.rethrowFriendlySlugConflict]
  split
  · next code constraintName hcause =>
    split
    · next hcode =>
      subst hcode
      rw [h constraintName hcause]
    · rfl
  · rfl

end Endings

/-- The error itself carries the code of a unique violation exactly when its cause is one, and
its constraint has no name that every object inherits. -/
structure Recognisable (error : ThrownError) : Prop where
  ownCode : error.code = some postgresUniqueViolation ↔ ∃ name, Violates error name
  ownName : ∀ name, Violates error name → JsString.inheritedProperty name = none

section Recognition

variable {error : ThrownError}

/-- The answer of a transaction on posts reports the conflict when no name is inherited. -/
theorem reportsSlugConflict_of_ownName
    {ending : Ending Store Failure PostsService.PostWithAuthor}
    (hname : ∀ name, Violates error name → JsString.inheritedProperty name = none)
    (h : Throws ending (.ofPost (Posts.rethrowFriendlySlugConflict (.thrown error)))) :
    ReportsSlugConflict error ending := by
  refine ⟨?slug, ?other⟩
  case slug =>
    intro entry hentry hviolates
    rwa [rethrowFriendlySlugConflict_of_violates hviolates (slugConstraintField_of_mem hentry)] at h
  case other =>
    intro hnone
    have hfield : ∀ name, Violates error name → slugConstraintField name = none := by
      intro name hviolates
      rw [slugConstraintField_of_not_mem, hname name hviolates]
      rintro entry hentry rfl
      exact hnone ⟨entry, hentry, hviolates⟩
    rw [rethrowFriendlySlugConflict_of_not_violates hfield] at h
    exact ⟨_, h, id⟩

/-- A login whose insert throws reports a conflict by the code of the error itself. -/
theorem reportsGithubConflict_iff {login : GithubLogin} (hthrows : login.InsertThrows error) :
    ReportsGithubConflict error login.ending ↔
      (error.code = some postgresUniqueViolation ↔ ∃ name, Violates error name) := by
  have hlogin := GithubLogin.throws_of_insertThrows hthrows
  simp only [isUniqueViolation, beq_iff_eq] at hlogin
  constructor
  · rintro ⟨hviolation, hother⟩
    constructor
    · intro hcode
      by_contra hnone
      obtain ⟨failure, hfailure, hnot⟩ := hother hnone
      rw [if_pos hcode] at hlogin
      obtain rfl := hfailure.unique hlogin
      exact hnot rfl
    · intro hviolates
      by_contra hcode
      rw [if_neg hcode] at hlogin
      cases hlogin.unique (hviolation hviolates)
  · intro hcode
    refine ⟨fun hviolates => ?violation, fun hnone => ?other⟩
    case violation => rwa [if_pos (hcode.mpr hviolates)] at hlogin
    case other =>
      rw [if_neg fun h => hnone (hcode.mp h)] at hlogin
      exact ⟨_, hlogin, show ¬ 500 = 409 by decide⟩

/-- A first login whose insert throws an error. -/
def loginThrowing (error : ThrownError) : GithubLogin where
  adminEmail := none
  identity := ⟨.github, "1", "ada@example.com", "Ada", none⟩
  provider_eq := rfl
  userId := "u"
  passwordHash := "hash"
  pick := 0
  turns := [⟨id, none⟩, ⟨id, some (.thrown error)⟩]
  store := Store.empty

/-- A new post whose transaction throws an error. -/
def creationThrowing (error : ThrownError) : PostCreation where
  createPostDto :=
    { toOptionalPostFields := bareFields, title := "t", slug := "s", content := "c" }
  authorId := "u"
  postId := "p"
  turns := [⟨id, none⟩, ⟨id, some (.thrown error)⟩]
  store := Store.empty

/-- An error is recognised wherever it is handled exactly when it carries the code that its
cause carries, and its constraint has no inherited name. -/
theorem recognised_iff_recognisable (error : ThrownError) :
    Recognised error ↔ Recognisable error := by
  constructor
  · intro h
    refine ⟨?ownCode, ?ownName⟩
    case ownCode =>
      have hthrows : (loginThrowing error).InsertThrows error := ⟨rfl, rfl, rfl⟩
      exact (reportsGithubConflict_iff hthrows).mp (h.github _ hthrows)
    case ownName =>
      intro name hviolates
      have hthrows : (creationThrowing error).TransactionThrows error := rfl
      cases hfield : JsString.inheritedProperty name with
      | none => rfl
      | some field =>
        have hnot : ∀ entry ∈ slugConstraintFields, name ≠ entry.1 := by
          rintro entry hentry rfl
          rw [inheritedProperty_of_mem hentry] at hfield
          cases hfield
        have hnone : ¬ ∃ entry ∈ slugConstraintFields, Violates error entry.1 := by
          rintro ⟨entry, hentry, hother⟩
          exact hnot entry hentry (Violates.unique hviolates hother)
        have hconflict := (creationThrowing error).throws_of_transactionThrows hthrows
        rw [rethrowFriendlySlugConflict_of_violates hviolates
          ((slugConstraintField_of_not_mem hnot).trans hfield)] at hconflict
        obtain ⟨failure, hfailure, hfails⟩ := (h.created _ hthrows).2 hnone
        obtain rfl := hfailure.unique hconflict
        exact absurd rfl hfails
  · intro h
    refine ⟨?github, ?created, ?updated⟩
    case github =>
      exact fun login hthrows => (reportsGithubConflict_iff hthrows).mpr h.ownCode
    case created =>
      exact fun creation hthrows =>
        reportsSlugConflict_of_ownName h.ownName (creation.throws_of_transactionThrows hthrows)
    case updated =>
      exact fun edition hthrows =>
        reportsSlugConflict_of_ownName h.ownName (edition.throws_of_transactionThrows hthrows)

end Recognition

/-- A first GitHub login, before whose insert someone registers with its address. -/
def emailTaken : GithubLogin where
  adminEmail := none
  identity := ⟨.github, "1", "ada@example.com", "Ada", none⟩
  provider_eq := rfl
  userId := "u"
  passwordHash := "hash"
  pick := 0
  turns := [⟨id, none⟩, ⟨fun s =>
    { s with users := s.users ++ [newOtpUser none "ada@example.com" "v" "hash" 0] }, none⟩]
  store := Store.empty

/-- The insert violates the unique address, and the login reports an internal error. -/
theorem not_recognised_emailTaken :
    emailTaken.InsertThrows (uniqueViolation "users_email_unique") ∧
    Throws emailTaken.ending
      (.refused (internalServerErrorException "Failed to authenticate with GitHub")) ∧
    ¬ Recognised (uniqueViolation "users_email_unique") := by
  have hthrows : emailTaken.InsertThrows (uniqueViolation "users_email_unique") :=
    ⟨rfl, by decide +kernel, by rw [Throws]; decide +kernel⟩
  have hending := GithubLogin.throws_of_insertThrows hthrows
  refine ⟨hthrows, hending, fun h => ?_⟩
  have hviolates : Violates (uniqueViolation "users_email_unique")
      "users_email_unique" := rfl
  cases hending.unique ((h.github _ hthrows).1 ⟨_, hviolates⟩)

end VertexApi.App
