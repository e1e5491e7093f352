import VertexApi.App.Services
import VertexApi.Auth.ProviderIdentity

/-!
# The comments of a post, without the addresses

A public route lists the comments of a post. Its guard identifies the caller and never
refuses: without a cookie, with a token that is not valid, and with the token of a banned
user, a request goes on as anonymous. The addresses of the authors are selected for the
claims of an admin only, so that two databases that differ in addresses answer every other
caller alike.
-/

namespace VertexApi.App

open Auth Comments

variable {τ : Type}

/-- `OptionalJwtAuthGuard.canActivate`, with the `request.user` that it leaves. -/
def OptionalJwtAuthGuard.canActivate (jwt : JwtSigner τ) :
    Option τ → Operation (Option JwtPayload)
  | none => return none
  | some token => do
    let checkedAt ← now
    let some payload := verifyAsync jwt token checkedAt | return none
    let user ← findUser payload.sub
    if user.any fun user => user.isBanned then return none
    return some payload

/-- `request.user?.role === 'admin'`. -/
def isAdmin (user : Option JwtPayload) : Bool := user.any fun user => user.role == .admin

/-- `CommentsController.findAllForPost` behind its guard. -/
def CommentsController.findAllForPost (jwt : JwtSigner τ) (postId : String)
    (accessToken : Option τ) : Operation (List CommentWithAuthor) := do
  let user ← OptionalJwtAuthGuard.canActivate jwt accessToken
  CommentsService.findAllForPost postId (isAdmin user)

/-- A row without its address. -/
def withoutEmail (user : User) : User := { user with email := "" }

@[simp] theorem withoutEmail_id (user : User) : (withoutEmail user).id = user.id := rfl

/-- A store without the addresses of its users. -/
def Store.withoutEmails (s : Store) : Store := { s with users := s.users.map withoutEmail }

/-- The stores differ only in the addresses of the users. -/
def SameButEmails (s t : Store) : Prop := s.withoutEmails = t.withoutEmails

instance (s t : Store) : Decidable (SameButEmails s t) :=
  inferInstanceAs (Decidable (s.withoutEmails = t.withoutEmails))

/-- The callers who are no admins: the clock is read when the token is verified, and the ban when
the row of the subject is looked up. -/
inductive NotAdmin (jwt : JwtSigner τ) (turns : List (Turn Store ThrownError)) (s : Store) :
    Option τ → Prop where
  | absent : NotAdmin jwt turns s none
  /-- The token is malformed, signed by others, or expired. -/
  | invalid {token : τ} (htoken : verifyAsync jwt token (Turn.met turns s).clock = none) :
    NotAdmin jwt turns s (some token)
  | banned {token : τ} {payload : JwtPayload} {user : User}
    (htoken : verifyAsync jwt token (Turn.met turns s).clock = some payload)
    (hrow : findUserById (Turn.changed 2 turns s).users payload.sub = some user)
    (hbanned : user.isBanned = true) : NotAdmin jwt turns s (some token)
  | claimsUser {token : τ} {payload : JwtPayload}
    (htoken : verifyAsync jwt token (Turn.met turns s).clock = some payload)
    (hrole : payload.role = .user) : NotAdmin jwt turns s (some token)

/-- How the guard ends. -/
inductive GuardEnd (jwt : JwtSigner τ) (turns : List (Turn Store ThrownError)) (s : Store)
    (accessToken : Option τ) : Except Failure (Option JwtPayload) → Prop where
  | anonymous : GuardEnd jwt turns s accessToken (.ok none)
  | identified {token : τ} {payload : JwtPayload} (hcookie : accessToken = some token)
    (htoken : verifyAsync jwt token (Turn.met turns s).clock = some payload)
    (hrow : ∀ user, findUserById (Turn.changed 2 turns s).users payload.sub = some user →
      user.isBanned = false) : GuardEnd jwt turns s accessToken (.ok (some payload))
  /-- The lookup of the row has failed. -/
  | failed {error : ThrownError} (hfault : Turn.nextFault turns.tail = some error) :
    GuardEnd jwt turns s accessToken (.error (.thrown error))

section Guard

variable (jwt : JwtSigner τ)

/-- The guard ends in one of these ways. -/
theorem canActivate_end (accessToken : Option τ) (turns : List (Turn Store ThrownError))
    (s : Store) : GuardEnd jwt turns s accessToken
      ((OptionalJwtAuthGuard.canActivate jwt accessToken).run (storeTurns turns) s).result := by
  cases accessToken with
  | none => exact .anonymous
  | some token =>
    simp only [OptionalJwtAuthGuard.canActivate, now, Program.run_bind, Program.run_look,
      Ending.andThen_ok, met_storeTurns, tail_storeTurns]
    cases htoken : verifyAsync jwt token (Turn.met turns s).clock with
    | none => exact .anonymous
    | some payload =>
      simp only [findUser, read, Program.run_bind]
      cases hfault : Turn.nextFault turns.tail with
      | some error =>
        rw [run_query_of_fault hfault]
        exact .failed hfault
      | none =>
        rw [run_query_of_no_fault hfault, Ending.ofOutcome_ok, Ending.andThen_ok]
        cases hbanned : (findUserById (Turn.met turns.tail (Turn.met turns s)).users
            payload.sub).any fun user => user.isBanned with
        | true => exact .anonymous
        | false =>
          refine .identified rfl htoken fun user hrow => ?_
          change findUserById (Turn.met turns.tail (Turn.met turns s)).users payload.sub =
            some user at hrow
          rw [hrow] at hbanned
          exact hbanned

/-- The claims of an admin are left for admins only. -/
theorem isAdmin_eq_false {accessToken : Option τ} {turns : List (Turn Store ThrownError)}
    {s : Store} (hcaller : NotAdmin jwt turns s accessToken) {user : Option JwtPayload}
    (h : GuardEnd jwt turns s accessToken (.ok user)) : isAdmin user = false := by
  cases h with
  | anonymous => rfl
  | identified hcookie htoken hrow =>
    subst hcookie
    cases hcaller with
    | invalid hinvalid => rw [hinvalid] at htoken; cases htoken
    | banned hlive hfound hbanned =>
      obtain rfl := Option.some.inj (htoken.symm.trans hlive)
      rw [hrow _ hfound] at hbanned
      cases hbanned
    | claimsUser hlive hrole =>
      obtain rfl := Option.some.inj (htoken.symm.trans hlive)
      simp only [isAdmin, Option.any_some, hrole]
      rfl

end Guard

section Secrecy

/-- Erasing a store twice is erasing it once. -/
theorem Store.withoutEmails_twice (s : Store) :
    s.withoutEmails.withoutEmails = s.withoutEmails := by
  simp only [withoutEmails, List.map_map]
  rfl

/-- A lookup shows all but the address. -/
theorem findUser_oblivious (id : String) :
    (findUser id).Oblivious Store.withoutEmails (Option.map withoutEmail) := by
  refine .query_of_commutes Store.withoutEmails_twice (fun found => ?_) fun s => ?_
  · cases found <;> rfl
  · have hfound : findUserById (s.users.map withoutEmail) id =
        (findUserById s.users id).map withoutEmail := findUserById_map withoutEmail_id s.users id
    exact congrArg (fun found => Except.ok (_, found)) hfound

variable (jwt : JwtSigner τ)

/-- The guard looks at the ban. -/
theorem canActivate_oblivious (accessToken : Option τ) :
    (OptionalJwtAuthGuard.canActivate jwt accessToken).Oblivious Store.withoutEmails id := by
  cases accessToken with
  | none => exact .pure none
  | some token =>
    have hclock : now.Oblivious Store.withoutEmails id := .look fun _ => rfl
    refine hclock.bindId fun checkedAt => ?_
    cases verifyAsync jwt token checkedAt with
    | none => exact .pure none
    | some payload =>
      refine (findUser_oblivious payload.sub).bind (fun found => ?same) fun found => ?rest
      case same => cases found <;> rfl
      case rest =>
        split
        · exact .pure none
        · exact .pure (some payload)

/-- The public list selects other columns of the authors. -/
theorem findAllForPost_oblivious (postId : String) :
    (CommentsService.findAllForPost postId false).Oblivious Store.withoutEmails id := by
  refine .query_of_commutes Store.withoutEmails_twice (fun _ => rfl) fun s => ?_
  have hauthor : ∀ id : String,
      (findUserById (s.users.map withoutEmail) id).map (commentAuthor false) =
        (findUserById s.users id).map (commentAuthor false) := by
    intro id
    rw [findUserById_map withoutEmail_id, Option.map_map]
    rfl
  have hlist : Comments.findAllForPost (s.users.map withoutEmail) s.comments postId false =
      Comments.findAllForPost s.users s.comments postId false := by
    simp only [Comments.findAllForPost, hauthor]
  exact congrArg (fun list => Except.ok (_, list)) hlist

/-- Two databases that differ only in the addresses of the users answer every caller who is no
admin alike, whatever runs in between; the guard refuses none of these callers. -/
theorem findAllForPost_hides_emails (postId : String) {accessToken : Option τ}
    {turns turns' : List (Turn Store ThrownError)}
    (hturns : Turn.AllAlike SameButEmails turns turns') {s t : Store} (h : SameButEmails s t)
    (hcaller : NotAdmin jwt turns s accessToken) :
    ((CommentsController.findAllForPost jwt postId accessToken).run (storeTurns turns) s).result =
      ((CommentsController.findAllForPost jwt postId accessToken).run
        (storeTurns turns') t).result ∧
    ∀ failure, ((OptionalJwtAuthGuard.canActivate jwt accessToken).run
        (storeTurns turns) s).result = .error failure →
      ∃ error, Turn.nextFault turns.tail = some error ∧ failure = .thrown error := by
  have hend := canActivate_end jwt accessToken turns s
  constructor
  · have hstoreTurns : Turn.AllAlike SameButEmails (storeTurns turns) (storeTurns turns') :=
      hturns.mapFault Failure.thrown
    have halike := (canActivate_oblivious jwt accessToken).run hstoreTurns h
    simp only [CommentsController.findAllForPost, Program.run_bind]
    refine (halike.andThen fun user other hresult hsame => ?list).result_eq
    case list =>
      rw [hresult] at hend
      obtain rfl : user = other := hsame
      rw [isAdmin_eq_false jwt hcaller hend]
      exact findAllForPost_oblivious postId
  · intro failure hfailure
    rw [hfailure] at hend
    cases hend with
    | failed hfault => exact ⟨_, hfault, rfl⟩

end Secrecy

/-- A database with one comment, whose author has an address. -/
def commentStore (email : String) : Store where
  clock := 0
  users := [newOtpUser none email "alice" "" 0]
  emailOtps := []
  oauthExchangeCodes := []
  posts := []
  topics := []
  postsToTopics := []
  comments := [⟨"comment", "post", "alice", "Hello", 0⟩]
  outbound := []

/-- A token of the author, with a role among its claims. -/
def authorToken (role : UserRole) : Option (JwtPayload × Nat) :=
  some (⟨"alice", "alice@example.com", role, none, none⟩, 0)

/-- A second passes. -/
def aSecondLater : Turn Store ThrownError where
  change s := { s with clock := s.clock + 1000 }
  fault := none

/-- A request for the comments with such a token, a second later. -/
def listComments (role : UserRole) (s : Store) : Except Failure (List CommentWithAuthor) :=
  ((CommentsController.findAllForPost claimsSigner "post" (some (authorToken role))).run
    (storeTurns [aSecondLater]) s).result

/-- A user's list is the same for another address of the author. -/
theorem findAllForPost_hides_emails_author :
    commentStore "alice@example.com" ≠ commentStore "alice@example.org" ∧
    listComments .user (commentStore "alice@example.com") =
      listComments .user (commentStore "alice@example.org") := by
  refine ⟨by decide +kernel, ?_⟩
  have hturn : Turn.Alike SameButEmails aSecondLater aSecondLater :=
    ⟨fun _ _ h => congrArg aSecondLater.change h, rfl⟩
  have htoken : verifyAsync claimsSigner (authorToken .user) 1000 =
      some ⟨"alice", "alice@example.com", .user, none, none⟩ := by decide +kernel
  exact (findAllForPost_hides_emails claimsSigner "post" (.cons hturn .nil) (by decide +kernel)
    (.claimsUser htoken rfl)).1

/-- An admin's list tells the addresses apart. -/
example : listComments .admin (commentStore "alice@example.com") ≠
    listComments .admin (commentStore "alice@example.org") := by decide +kernel

end VertexApi.App
