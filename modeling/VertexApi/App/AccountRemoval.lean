import VertexApi.App.Services
import VertexApi.Core.References
import VertexApi.Core.Transaction

/-!
# Removals, statement by statement

The transaction of a removal looks for posts of the user, deletes the comments, deletes the
row, and finds out only then whether there was one. The database lets a user go to whom no
post and no comment refers, and the exchange codes go along. Whatever fails, the working
copy is dropped; what is committed lacks the account and nothing else, and its references
hold.
-/

namespace VertexApi.App

open Auth Comments Posts Users

/-- The whole database: the tables of the services, and those that no statement here names. -/
structure Database (ρ : Type) where
  store : Store
  others : ρ
  deriving DecidableEq, Repr

/-- The foreign keys of the schema. -/
structure Store.ReferencesHold (s : Store) : Prop where
  oauthExchangeCodes_userId :
    RefersTo OauthExchangeCode.userId s.oauthExchangeCodes (s.users.map User.id)
  posts_authorId : RefersTo Post.authorId s.posts (s.users.map User.id)
  postsToTopics_postId : RefersTo Prod.fst s.postsToTopics (s.posts.map Post.id)
  postsToTopics_topicId : RefersTo Prod.snd s.postsToTopics (s.topics.map Topic.id)
  comments_postId : RefersTo Comment.postId s.comments (s.posts.map Post.id)
  comments_authorId : RefersTo Comment.authorId s.comments (s.users.map User.id)

/-- The store after a delete of comments. -/
def Store.withoutComments (s : Store) (p : Comment → Bool) : Store :=
  { s with comments := s.comments.filter fun comment => !p comment }

/-- The store after a delete of users, which cascades to their exchange codes. -/
def Store.withoutUsers (s : Store) (p : User → Bool) : Store :=
  { s with
    users := s.users.filter fun row => !p row
    oauthExchangeCodes := withoutReferences OauthExchangeCode.userId s.oauthExchangeCodes
      ((s.users.filter p).map User.id) }

/-- The store without the row of a user, the comments and the pending exchange codes. -/
def Store.withoutAccount (s : Store) (id : String) : Store :=
  { s with
    users := s.users.filter fun row => row.id != id
    comments := s.comments.filter fun comment => comment.authorId != id
    oauthExchangeCodes := s.oauthExchangeCodes.filter fun row => row.userId != id }

namespace AccountRemoval

variable {ρ : Type}

/-- `findFirst` on `posts` by author, without an order; only its presence is read. -/
def findPostOf (authorId : String) : Program (Database ρ) Failure (Option Post) :=
  .query fun d => .ok (d, d.store.posts.find? fun post => post.authorId == authorId)

/-- `delete(comments)` by a condition; nothing refers to comments. -/
def deleteFromComments (p : Comment → Bool) : Program (Database ρ) Failure Unit :=
  .query fun d => .ok ({ d with store := d.store.withoutComments p }, ())

/-- `delete(users)` by a condition, with the rows that it returns, unless posts or comments refer to
them. -/
def deleteFromUsers (p : User → Bool) : Program (Database ρ) Failure (List SafeUser) :=
  .query fun d =>
    let deleted := d.store.users.filter p
    if isReferenced Post.authorId d.store.posts (deleted.map User.id) then
      .error (.thrown (foreignKeyViolation "posts_author_id_users_id_fk"))
    else if isReferenced Comment.authorId d.store.comments (deleted.map User.id) then
      .error (.thrown (foreignKeyViolation "comments_author_id_users_id_fk"))
    else .ok ({ d with store := d.store.withoutUsers p }, deleted.map safeReturning)

/-- The body of the transaction in `deleteUserAndCascadeComments`. -/
def deleteUserAndCascadeComments (id : String) : Program (Database ρ) Failure SafeUser := do
  let authoredPost ← findPostOf id
  if authoredPost.isSome then throw (.refused hasAuthoredPosts)
  deleteFromComments fun comment => comment.authorId == id
  let deleted ← deleteFromUsers fun row => row.id == id
  match deleted.head? with
  | none => throw (.refused userNotFound)
  | some deleted => return deleted

/-- `removeSelf`, where the statements of the transaction have the faults. -/
def removeSelf (id : String) (faults : List (Option ThrownError)) (d : Database ρ) :
    Database ρ × Except Failure SafeUser :=
  (deleteUserAndCascadeComments id).transaction (faults.map (Option.map .thrown)) d

/-- `remove`, where the statements of the transaction have the faults. -/
def remove (id requestingUserId : String) (faults : List (Option ThrownError)) (d : Database ρ) :
    Database ρ × Except Failure SafeUser :=
  if id = requestingUserId then (d, .error (.refused cannotRemoveSelf))
  else (deleteUserAndCascadeComments id).transaction (faults.map (Option.map .thrown)) d

end AccountRemoval

namespace Store.ReferencesHold

variable {s : Store}

/-- A delete of comments keeps the references. -/
theorem withoutComments (h : s.ReferencesHold) (p : Comment → Bool) :
    (s.withoutComments p).ReferencesHold :=
  { h with
    comments_postId := h.comments_postId.filter _
    comments_authorId := h.comments_authorId.filter _ }

/-- A delete of users that nothing restricts keeps them. -/
theorem withoutUsers (h : s.ReferencesHold) {p : User → Bool}
    (hposts : isReferenced Post.authorId s.posts ((s.users.filter p).map User.id) = false)
    (hcomments : isReferenced Comment.authorId s.comments
      ((s.users.filter p).map User.id) = false) :
    (s.withoutUsers p).ReferencesHold :=
  { h with
    oauthExchangeCodes_userId := h.oauthExchangeCodes_userId.cascade
    posts_authorId := h.posts_authorId.restrict hposts
    comments_authorId := h.comments_authorId.restrict hcomments }

end Store.ReferencesHold

section Account

variable {s : Store} {id : String}

/-- The rows with an id have that id. -/
theorem mem_ids_filter (users : List User) {k : String}
    (h : k ∈ (users.filter fun row => row.id == id).map User.id) : k = id := by
  obtain ⟨row, hrow, rfl⟩ := List.mem_map.mp h
  exact beq_iff_eq.mp (List.mem_filter.mp hrow).2

/-- The restrictions look at the rows that refer to the user. -/
theorem isReferenced_account {κ : Type} {column : κ → String} {rows : List κ}
    (h : ∀ row ∈ rows, column row ≠ id) (users : List User) :
    isReferenced column rows ((users.filter fun row => row.id == id).map User.id) = false :=
  isReferenced_eq_false.mpr fun row hrow hgone => h row hrow (mem_ids_filter users hgone)

/-- The two deletes take the account. -/
theorem withoutUsers_withoutComments {user : User} (huser : findUserById s.users id = some user) :
    (s.withoutComments fun comment => comment.authorId == id).withoutUsers
        (fun row => row.id == id) = s.withoutAccount id := by
  have hid : id ∈ (s.users.filter fun row => row.id == id).map User.id := by
    have hmem := List.mem_of_find?_eq_some huser
    have hkey := List.find?_some huser
    exact List.mem_map.mpr ⟨user, List.mem_filter.mpr ⟨hmem, hkey⟩, beq_iff_eq.mp hkey⟩
  have hcodes : withoutReferences OauthExchangeCode.userId s.oauthExchangeCodes
      ((s.users.filter fun row => row.id == id).map User.id) =
      s.oauthExchangeCodes.filter fun row => row.userId != id := by
    refine List.filter_congr fun row _ => ?_
    have hcontains : ((s.users.filter fun row => row.id == id).map User.id).contains row.userId =
        (row.userId == id) := by
      rw [Bool.eq_iff_iff, List.contains_iff_mem, beq_iff_eq]
      exact ⟨mem_ids_filter s.users, fun he => he ▸ hid⟩
    rw [hcontains]
    rfl
  simp only [Store.withoutUsers, Store.withoutComments, hcodes]
  rfl

end Account

namespace AccountRemoval

variable {ρ : Type} {d : Database ρ} {id : String}

/-- A post of the user ends the body before its first write. -/
theorem run_authored (h : ∃ post ∈ d.store.posts, post.authorId = id) :
    (deleteUserAndCascadeComments id).run [] d = ⟨d, [], .error (.refused hasAuthoredPosts)⟩ := by
  obtain ⟨post, hpost, hauthor⟩ := h
  have hsome : (d.store.posts.find? fun post => post.authorId == id).isSome = true :=
    List.find?_isSome.mpr ⟨post, hpost, beq_iff_eq.mpr hauthor⟩
  simp only [deleteUserAndCascadeComments, findPostOf, Program.run_bind, Program.run_query_nil,
    Ending.ofOutcome_ok, Ending.andThen_ok, hsome, if_true]
  rfl

/-- Nothing restricts the delete of a user without posts and comments. -/
theorem run_deleteFromUsers (hposts : ∀ post ∈ d.store.posts, post.authorId ≠ id)
    (hcomments : ∀ comment ∈ d.store.comments, comment.authorId ≠ id) :
    (deleteFromUsers fun row => row.id == id).run [] d =
      ⟨{ d with store := d.store.withoutUsers fun row => row.id == id }, [],
        .ok ((d.store.users.filter fun row => row.id == id).map safeReturning)⟩ := by
  simp only [deleteFromUsers, Program.run_query_nil, isReferenced_account hposts,
    isReferenced_account hcomments, Bool.false_eq_true, if_false, Ending.ofOutcome_ok]

/-- Without posts, the comments go, and then the row, if there is one. -/
theorem run_unauthored (hposts : ∀ post ∈ d.store.posts, post.authorId ≠ id) :
    (deleteUserAndCascadeComments id).run [] d =
      match findUserById d.store.users id with
      | none =>
        ⟨{ d with
          store := (d.store.withoutComments fun comment => comment.authorId == id).withoutUsers
            fun row => row.id == id }, [], .error (.refused userNotFound)⟩
      | some user =>
        ⟨{ d with store := d.store.withoutAccount id }, [], .ok (safeReturning user)⟩ := by
  have hnone : (d.store.posts.find? fun post => post.authorId == id) = none :=
    List.find?_eq_none.mpr fun post hpost he => hposts post hpost (beq_iff_eq.mp he)
  have hcomments : ∀ comment ∈ (d.store.withoutComments fun comment =>
      comment.authorId == id).comments, comment.authorId ≠ id := fun comment hcomment =>
    bne_iff_ne.mp (List.mem_filter.mp hcomment).2
  have husers := run_deleteFromUsers (d := { d with
    store := d.store.withoutComments fun comment => comment.authorId == id }) hposts hcomments
  simp only [deleteUserAndCascadeComments, findPostOf, deleteFromComments, Program.run_bind,
    Program.run_query_nil, hnone, Ending.ofOutcome_ok, Ending.andThen_ok, Option.isSome_none,
    Bool.false_eq_true, if_false, husers]
  have hhead : (((d.store.withoutComments fun comment => comment.authorId == id).users.filter
      fun row => row.id == id).map safeReturning).head? =
      (findUserById d.store.users id).map safeReturning := by
    rw [List.head?_map, List.head?_filter]
    rfl
  rw [hhead]
  cases huser : findUserById d.store.users id with
  | none => rfl
  | some user =>
    rw [← withoutUsers_withoutComments huser]
    rfl

/-- A removal that runs at once, as the other modules model it. -/
def atOnce (run : AccountTables → AccountTables × Except HttpException SafeUser) (d : Database ρ) :
    Database ρ × Except Failure SafeUser :=
  ({ d with store := d.store.withAccounts (run d.store.accounts).1 },
    (run d.store.accounts).2.mapError .refused)

/-- Without failures, the statements of the transaction do what the removal at once does. -/
theorem transaction_eq_atOnce (id : String) (d : Database ρ) :
    (deleteUserAndCascadeComments id).transaction [] d =
      atOnce (fun tables => Users.deleteUserAndCascadeComments tables id) d := by
  change ((deleteUserAndCascadeComments id).run [] d).committed d = _
  simp only [atOnce, Users.deleteUserAndCascadeComments]
  by_cases hauthored : ∃ post ∈ d.store.posts, post.authorId = id
  · have hany : (d.store.accounts.posts.any fun post => post.authorId == id) = true :=
      List.any_eq_true.mpr (hauthored.imp fun post h => ⟨h.1, beq_iff_eq.mpr h.2⟩)
    rw [run_authored hauthored, if_pos hany]
    rfl
  · have hposts : ∀ post ∈ d.store.posts, post.authorId ≠ id := fun post hpost hauthor =>
      hauthored ⟨post, hpost, hauthor⟩
    have hany : ¬ (d.store.accounts.posts.any fun post => post.authorId == id) = true := fun h => by
      obtain ⟨post, hpost, hauthor⟩ := List.any_eq_true.mp h
      exact hposts post hpost (beq_iff_eq.mp hauthor)
    have haccounts : d.store.accounts.users = d.store.users := rfl
    rw [run_unauthored hposts, if_neg hany, haccounts]
    cases findUserById d.store.users id with
    | none => rfl
    | some user => rfl

/-- Without failures, a removal is the one of the other modules. -/
theorem removeSelf_eq_atOnce (id : String) (d : Database ρ) :
    removeSelf id [] d = atOnce (fun tables => Users.removeSelf tables id) d :=
  transaction_eq_atOnce id d

theorem remove_eq_atOnce (id requestingUserId : String) (d : Database ρ) :
    remove id requestingUserId [] d =
      atOnce (fun tables => Users.remove tables id requestingUserId) d := by
  by_cases hself : id = requestingUserId
  · simp only [remove, atOnce, Users.remove, if_pos hself]
    rfl
  · simp only [remove, atOnce, Users.remove, if_neg hself]
    exact transaction_eq_atOnce id d

end AccountRemoval

end VertexApi.App
