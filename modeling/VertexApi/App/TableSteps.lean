import VertexApi.App.AccountRemoval
import VertexApi.Core.Conduct
import VertexApi.Topics.TopicsService

/-!
# The tables as a machine of their own

What the tables take, whoever asks: each step is one write that the constraints of the schema
let through, or the passing of time. The operations of the services, however they run
interleaved, are to be runs of this machine.
-/

namespace VertexApi.App

open Auth Comments Posts Topics Users

/-- The writes to a row of `users` that is there, over what they have read. -/
inductive UserEdit where
  | profile (dto : UpdateProfileDto) (existing : User) (now : Nat)
  | login (identity : ProviderIdentity) (existing : User)
  | link (identity : ProviderIdentity) (current : User)
  deriving DecidableEq, Repr

/-- The row after such a write. -/
def UserEdit.apply : UserEdit → User → User
  | .profile dto existing now => edited dto existing now
  | .login identity existing => loggedIn identity existing
  | .link identity current => linked identity current

/-- One step of the tables. -/
inductive TableStep where
  | tick (ms : Nat)
  | handOver (outbound : Outbound)
  | insertUser (row : User)
  | updateUser (id : String) (edit : UserEdit)
  | setBanned (id : String) (isBanned : Bool)
  | removeAccount (id : String)
  | insertOtp (row : EmailOtp)
  | deleteOtpsOf (email : String)
  | deleteOtp (id : String)
  | setAttempts (id : String) (attempts : Nat)
  | insertExchangeCode (row : OauthExchangeCode)
  | takeExchangeCode (codeHash : String)
  | pruneExchangeCodes (cutoff : Nat)
  | createPost (row : Post) (topicIds : Option (List String))
  /-- The write of an edit over the post that it has read. -/
  | updatePost (id : String) (existing : Post) (updatePostDto : UpdatePostDto) (now : Nat)
  | removePost (id : String)
  | insertTopic (row : Topic)
  | renameTopic (id name slug : String)
  | removeTopic (id : String)
  | insertComment (row : Comment)
  | removeComment (id : String)
  deriving DecidableEq, Repr

/-- The posts with their links, as the transaction of a new post leaves them; its author must be
there. -/
def createdPost (s : Store) (row : Post) (topicIds : Option (List String)) : Option PostTables :=
  if (findUserById s.users row.authorId).isNone then none
  else ((createTransaction s.blog row topicIds).toOption).map Prod.fst

/-- The tables after a step that they take. -/
def performed (s : Store) : TableStep → Option Store
  | .tick ms => some { s with clock := s.clock + ms }
  | .handOver outbound => some (s.handing outbound)
  | .insertUser row => (insertUser s.users row).toOption.map s.withUsers
  | .updateUser id edit =>
    match updateUser s.users id edit.apply with
    | .ok (users, some _) => some (s.withUsers users)
    | _ => none
  | .setBanned id isBanned =>
    if (findUserById s.users id).isNone then none
    else some (s.withUsers (updateWhere User.id id (fun row => { row with isBanned }) s.users))
  | .removeAccount id =>
    if (s.posts.any fun post => post.authorId == id) ∨ (findUserById s.users id).isNone then none
    else some (s.withoutAccount id)
  | .insertOtp row => (insertRow emailOtpColumns s.emailOtps row).toOption.map s.withOtps
  | .deleteOtpsOf email => some (s.withOtps (s.emailOtps.filter fun row => !(row.email == email)))
  | .deleteOtp id => some (s.withOtps (s.emailOtps.filter fun row => !(row.id == id)))
  | .setAttempts id attempts =>
    some (s.withOtps (updateWhere EmailOtp.id id (fun row => { row with attempts }) s.emailOtps))
  | .insertExchangeCode row =>
    if (findUserById s.users row.userId).isNone then none
    else (insertRow oauthExchangeCodeColumns s.oauthExchangeCodes row).toOption.map fun codes =>
      { s with oauthExchangeCodes := codes }
  | .takeExchangeCode codeHash =>
    some { s with oauthExchangeCodes := s.oauthExchangeCodes.filter fun row =>
      row.codeHash != codeHash }
  | .pruneExchangeCodes cutoff =>
    some { s with oauthExchangeCodes := s.oauthExchangeCodes.filter fun row =>
      !(decide (row.expiresAt < cutoff)) }
  | .createPost row topicIds => (createdPost s row topicIds).map s.withBlog
  | .updatePost id existing updatePostDto now =>
    ((updateTransaction s.blog id (postEdit existing updatePostDto now)
      updatePostDto.topicIds).toOption).map fun outcome => s.withBlog outcome.1
  | .removePost id =>
    let remaining := s.withBlog (s.blog.withoutPost id)
    some { remaining with comments := s.comments.filter fun comment => comment.postId != id }
  | .insertTopic row => (insertTopic s.topics row).toOption.map fun topics =>
      { s with topics := topics }
  | .renameTopic id name slug =>
    match updateTopic s.topics id (fun row => { row with name, slug }) with
    | .ok (topics, some _) => some { s with topics := topics }
    | _ => none
  | .removeTopic id =>
    if (findTopicById s.topics id).isNone then none
    else some (s.withBlog (withoutTopic s.blog id))
  | .insertComment row =>
    (insertComment s.users s.posts s.comments row).toOption.map fun comments =>
      { s with comments := comments }
  | .removeComment id => some { s with comments := withoutComment s.comments id }

/-- The tables, which take steps in any order. -/
def tables : Machine Store TableStep where
  step := performed

section Statements

variable {R : Rely Store} {P : Store → TableStep → Prop} {s : Store} {α : Type}

/-- A read returns what it reads, and changes nothing. -/
theorem read_behaves (f : Store → α) : (read f).Behaves R (tables.Performs P)
    (fun t a => R.grows s t ∧ a = f t) s := by
  refine .query (fun _ => .nothing) fun t u a ht hrun => ?_
  obtain ⟨rfl, rfl⟩ := Prod.mk.inj (Except.ok.inj hrun)
  exact ⟨.nothing, ht, rfl⟩

theorem now_behaves : now.Behaves R (tables.Performs P) (fun t a => R.grows s t ∧ a = t.clock) s :=
  .look fun _ ht => ⟨ht, rfl⟩

/-- A check returns what it admits. -/
theorem admitted_behaves (x : Except HttpException α) : (admitted x).Behaves R (tables.Performs P)
    (fun t a => t = s ∧ x = .ok a) s := by
  cases x with
  | ok a => exact .pure ⟨rfl, rfl⟩
  | error exception => exact .throw _

/-- A write that is one step of the tables. -/
theorem write_behaves {f : Store → Store} (step : TableStep)
    (hstep : ∀ t, performed t step = some (f t)) (hP : ∀ t, R.grows s t → P t step) :
    (write f).Behaves R (tables.Performs P) (fun t _ => R.grows s t) s := by
  refine .query (fun _ => .nothing) fun t u a ht hrun => ⟨?_, ht⟩
  obtain ⟨rfl, -⟩ := Prod.mk.inj (Except.ok.inj hrun)
  exact .label (hP t ht) (hstep t)

/-- Something is handed over, or its failure is caught. -/
theorem handOver_behaves {outbound : Outbound}
    (hP : ∀ t, R.grows s t → P t (.handOver outbound)) :
    (handOver outbound).Behaves R (tables.Performs P) (fun t _ => R.grows s t) s :=
  write_behaves (.handOver outbound) (fun _ => rfl) hP

theorem insertIntoUsers_behaves {row : Nat → User}
    (hP : ∀ t, R.grows s t → P t (.insertUser (row t.clock))) :
    (insertIntoUsers row).Behaves R (tables.Performs P)
      (fun t a => R.grows s t ∧ a = row t.clock) s := by
  refine .query (fun _ => .nothing) fun t u a ht hrun => ?_
  split at hrun
  · cases hrun
  · next users hinsert =>
    obtain ⟨rfl, rfl⟩ := Prod.mk.inj (Except.ok.inj hrun)
    refine ⟨.label (hP t ht) ?_, ht, rfl⟩
    simp only [tables, performed, hinsert]
    rfl

theorem updateUsers_behaves {id : String} (edit : UserEdit)
    (hP : ∀ t, R.grows s t → P t (.updateUser id edit)) :
    (updateUsers id edit.apply).Behaves R (tables.Performs P) (fun t a => R.grows s t ∧
      ∀ user, a = some user → ∃ old, findUserById t.users id = some old ∧ user = edit.apply old)
      s := by
  refine .query (fun _ => .nothing) fun t u a ht hrun => ?_
  split at hrun
  · cases hrun
  · next users user hupdate =>
    obtain ⟨rfl, rfl⟩ := Prod.mk.inj (Except.ok.inj hrun)
    cases user with
    | none =>
      -- The row is gone, and the update changes nothing.
      obtain rfl := (updateUser_eq_ok_none.mp hupdate).2
      exact ⟨.nothing, ht, fun _ => nofun⟩
    | some user =>
      obtain ⟨old, hold, -, -, hrow⟩ := updateUser_eq_ok_some.mp hupdate
      refine ⟨.label (hP t ht) ?_, ht, ?_⟩
      · simp only [tables, performed, hupdate]
        rfl
      · rintro _ ⟨⟩
        exact ⟨old, hold, hrow⟩

theorem insertIntoEmailOtps_behaves {row : Nat → EmailOtp}
    (hP : ∀ t, R.grows s t → P t (.insertOtp (row t.clock))) :
    (insertIntoEmailOtps row).Behaves R (tables.Performs P) (fun t _ => R.grows s t) s := by
  refine .query (fun _ => .nothing) fun t u a ht hrun => ⟨?_, ht⟩
  split at hrun
  · cases hrun
  · next rows hinsert =>
    obtain ⟨rfl, -⟩ := Prod.mk.inj (Except.ok.inj hrun)
    refine .label (hP t ht) ?_
    simp only [tables, performed, hinsert]
    rfl

theorem insertIntoOauthExchangeCodes_behaves {row : OauthExchangeCode}
    (hP : ∀ t, R.grows s t → P t (.insertExchangeCode row)) :
    (insertIntoOauthExchangeCodes row).Behaves R (tables.Performs P)
      (fun t _ => R.grows s t) s := by
  refine .query (fun _ => .nothing) fun t u a ht hrun => ⟨?_, ht⟩
  split at hrun
  · cases hrun
  · next codes hinsert =>
    split at hrun
    · cases hrun
    · next huser =>
      obtain ⟨rfl, -⟩ := Prod.mk.inj (Except.ok.inj hrun)
      refine .label (hP t ht) ?_
      simp only [tables, performed, hinsert, if_neg huser]
      rfl

theorem takeOauthExchangeCode_behaves {codeHash : String}
    (hP : ∀ t, R.grows s t → P t (.takeExchangeCode codeHash)) :
    (takeOauthExchangeCode codeHash).Behaves R (tables.Performs P) (fun t a => R.grows s t ∧
      a = t.oauthExchangeCodes.find? fun row => row.codeHash == codeHash) s := by
  refine .query (fun _ => .nothing) fun t u a ht hrun => ?_
  obtain ⟨rfl, rfl⟩ := Prod.mk.inj (Except.ok.inj hrun)
  exact ⟨.label (hP t ht) rfl, ht, rfl⟩

theorem insertIntoComments_behaves {row : Nat → Comment}
    (hP : ∀ t, R.grows s t → P t (.insertComment (row t.clock))) :
    (CommentsService.insertIntoComments row).Behaves R (tables.Performs P)
      (fun t a => R.grows s t ∧ a = row t.clock) s := by
  refine .query (fun _ => .nothing) fun t u a ht hrun => ?_
  split at hrun
  · cases hrun
  · next comments hinsert =>
    obtain ⟨rfl, rfl⟩ := Prod.mk.inj (Except.ok.inj hrun)
    refine ⟨.label (hP t ht) ?_, ht, rfl⟩
    simp only [tables, performed, hinsert]
    rfl

/-- The ban of another user, whose row must be there. -/
theorem setBanned_behaves {id : String} {isBanned : Bool} {requestingUserId : String}
    (hP : ∀ t, R.grows s t → id ≠ requestingUserId → P t (.setBanned id isBanned)) :
    (UsersService.setBanned id isBanned requestingUserId).Behaves R (tables.Performs P)
      (fun t _ => R.grows s t) s := by
  refine .query (fun _ => .nothing) fun t u a ht hrun => ⟨?_, ht⟩
  by_cases hself : id = requestingUserId
  · simp only [Users.setBanned, if_pos hself] at hrun
    cases hrun
  · simp only [Users.setBanned, if_neg hself] at hrun
    have hfound := findUserById_map (f := fun row => if row.id = id then { row with isBanned }
      else row) (fun row => by split <;> rfl) t.users id
    cases hrow : findUserById t.users id with
    | none =>
      rw [hfound, hrow] at hrun
      cases hrun
    | some row =>
      rw [hfound, hrow] at hrun
      obtain ⟨rfl, -⟩ := Prod.mk.inj (Except.ok.inj hrun)
      refine .label (hP t ht hself) ?_
      simp only [tables, performed, hrow]
      rfl

/-- The transaction of a removal. -/
theorem removeSelf_behaves {id : String} (hP : ∀ t, R.grows s t → P t (.removeAccount id)) :
    (UsersService.removeSelf id).Behaves R (tables.Performs P) (fun t _ => R.grows s t) s := by
  refine .query (fun _ => .nothing) fun t u a ht hremoval => ⟨?_, ht⟩
  simp only [Users.removeSelf, Users.deleteUserAndCascadeComments] at hremoval
  split at hremoval
  · cases hremoval
  · next tables user houtcome =>
    split at houtcome
    · cases houtcome
    · next hposts =>
      split at houtcome
      · cases houtcome
      · next row hrow =>
        obtain ⟨rfl, -⟩ := Prod.mk.inj houtcome
        obtain ⟨rfl, -⟩ := Prod.mk.inj (Except.ok.inj hremoval)
        refine .label (hP t ht) ?_
        have hthere : findUserById t.users id = some row := hrow
        have hfree : ¬ (t.posts.any fun post => post.authorId == id) = true := hposts
        simp only [App.tables, performed, hthere, hfree]
        rfl

/-- The removal of another user. -/
theorem remove_behaves {id requestingUserId : String}
    (hP : ∀ t, R.grows s t → id ≠ requestingUserId → P t (.removeAccount id)) :
    (UsersService.remove id requestingUserId).Behaves R (tables.Performs P)
      (fun t _ => R.grows s t) s := by
  by_cases hself : id = requestingUserId
  · refine .query (fun _ => .nothing) fun t u a ht hremoval => ?_
    simp only [Users.remove, if_pos hself] at hremoval
    cases hremoval
  · have hsame : UsersService.remove id requestingUserId = UsersService.removeSelf id := by
      simp only [UsersService.remove, UsersService.removeSelf, Users.remove, if_neg hself]
      rfl
    rw [hsame]
    exact removeSelf_behaves fun t ht => hP t ht hself

/-- The transaction of a new post. -/
theorem insertPostTransaction_behaves {row : Nat → Post} {topicIds : Option (List String)}
    (hP : ∀ t, R.grows s t → P t (.createPost (row t.clock) topicIds)) :
    (PostsService.insertPostTransaction row topicIds).Behaves R (tables.Performs P)
      (fun t a => R.grows s t ∧ a.post = row t.clock) s := by
  refine .query (fun _ => .nothing) fun t u a ht hrun => ?_
  split at hrun
  · cases hrun
  · split at hrun
    · cases hrun
    · next hauthor =>
      split at hrun
      · cases hrun
      · next later post hcreate =>
        obtain ⟨rfl, rfl⟩ := Prod.mk.inj (Except.ok.inj hrun)
        refine ⟨.label (hP t ht) ?_, ht, (createTransaction_eq_ok hcreate).2.2⟩
        simp only [tables, performed, createdPost, if_neg hauthor, hcreate]
        rfl

/-- The transaction of an edit. -/
theorem updatePostTransaction_behaves {id : String} {existing : Post}
    {updatePostDto : UpdatePostDto} {now : Nat}
    (hP : ∀ t, R.grows s t → P t (.updatePost id existing updatePostDto now)) :
    (PostsService.updatePostTransaction id (postEdit existing updatePostDto now)
      updatePostDto.topicIds).Behaves R (tables.Performs P) (fun t a => R.grows s t ∧
        ∃ old, findPostById t.posts id = some old ∧
          a.post = postEdit existing updatePostDto now old) s := by
  refine .query (fun _ => .nothing) fun t u a ht hrun => ?_
  split at hrun
  · cases hrun
  · next later post hupdate =>
    obtain ⟨rfl, rfl⟩ := Prod.mk.inj (Except.ok.inj hrun)
    obtain ⟨old, hold, -, -, hanswer⟩ := updateTransaction_eq_ok hupdate
    refine ⟨.label (hP t ht) ?_, ht, old, hold, hanswer⟩
    simp only [tables, performed, hupdate]
    rfl

/-- The delete of a post, which returns the row if there was one. -/
theorem deleteFromPosts_behaves {id : String} (hP : ∀ t, R.grows s t → P t (.removePost id)) :
    (PostsService.deleteFromPosts id).Behaves R (tables.Performs P)
      (fun t a => R.grows s t ∧ a = findPostById t.posts id) s := by
  refine .query (fun _ => .nothing) fun t u a ht hrun => ?_
  obtain ⟨rfl, rfl⟩ := Prod.mk.inj (Except.ok.inj hrun)
  exact ⟨.label (hP t ht) rfl, ht, rfl⟩

/-- Objects are deleted, and a failure to do so changes nothing. -/
theorem deleteMediaKeys_behaves {keys : List String}
    (hP : ∀ t, R.grows s t → P t (.handOver (.deletedFiles keys))) :
    (PostsService.deleteMediaKeys keys).Behaves R (tables.Performs P)
      (fun t _ => R.grows s t) s := by
  rw [PostsService.deleteMediaKeys]
  split
  · exact (handOver_behaves hP).tryCatch fun t _ ht => .pure ht
  · exact .pure (R.refl s)

end Statements

end VertexApi.App
