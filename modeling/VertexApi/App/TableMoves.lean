import VertexApi.App.TableSteps

/-!
# What a step of the tables does

A step that the tables take has met what it requires, and changes them in one way. The
invariants of the tables are proved from this list.
-/

namespace VertexApi.App

open Auth Comments Posts Topics Users

/-- What no edit of a row writes. -/
structure SameAccount (user other : User) : Prop where
  id : user.id = other.id
  email : user.email = other.email
  passwordHash : user.passwordHash = other.passwordHash
  isBanned : user.isBanned = other.isBanned
  role : user.role = other.role
  createdAt : user.createdAt = other.createdAt

/-- The account of a row stays under an edit. -/
theorem UserEdit.apply_same (edit : UserEdit) (row : User) : SameAccount (edit.apply row) row := by
  cases edit with
  | profile dto existing now => exact ⟨rfl, rfl, rfl, rfl, rfl, rfl⟩
  | login identity existing | link identity existing =>
    cases identity with
    | mk provider => cases provider <;> exact ⟨rfl, rfl, rfl, rfl, rfl, rfl⟩

/-- The links after an edit of a post, which may replace its own. -/
def relinked (links : List (String × String)) (id : String) :
    Option (List String) → List (String × String)
  | none => links
  | some topicIds =>
    (links.filter fun link => link.1 != id) ++ topicIds.map fun topicId => (id, topicId)

/-- What a step requires of the tables, and what it makes of them. -/
inductive TableMoves (s : Store) : TableStep → Store → Prop where
  | tick {ms : Nat} : TableMoves s (.tick ms) { s with clock := s.clock + ms }
  | handOver {outbound : Outbound} : TableMoves s (.handOver outbound) (s.handing outbound)
  | insertUser {row : User} (hfree : violatedColumn userColumns s.users row = none) :
    TableMoves s (.insertUser row) (s.withUsers (s.users ++ [row]))
  | updateUser {id : String} {edit : UserEdit} {old : User}
    (hold : findUserById s.users id = some old)
    (hfree : violatedColumn userColumns (s.users.filter fun other => other.id != id)
      (edit.apply old) = none) :
    TableMoves s (.updateUser id edit) (s.withUsers (updateWhere User.id id edit.apply s.users))
  | setBanned {id : String} {isBanned : Bool} {row : User}
    (hrow : findUserById s.users id = some row) :
    TableMoves s (.setBanned id isBanned)
      (s.withUsers (updateWhere User.id id (fun row => { row with isBanned }) s.users))
  | removeAccount {id : String} {row : User} (hposts : ∀ post ∈ s.posts, post.authorId ≠ id)
    (hrow : findUserById s.users id = some row) :
    TableMoves s (.removeAccount id) (s.withoutAccount id)
  | insertOtp {row : EmailOtp} (hfree : violatedColumn emailOtpColumns s.emailOtps row = none) :
    TableMoves s (.insertOtp row) (s.withOtps (s.emailOtps ++ [row]))
  | deleteOtpsOf {email : String} : TableMoves s (.deleteOtpsOf email)
      (s.withOtps (s.emailOtps.filter fun row => !(row.email == email)))
  | deleteOtp {id : String} : TableMoves s (.deleteOtp id)
      (s.withOtps (s.emailOtps.filter fun row => !(row.id == id)))
  | setAttempts {id : String} {attempts : Nat} : TableMoves s (.setAttempts id attempts)
      (s.withOtps (updateWhere EmailOtp.id id (fun row => { row with attempts }) s.emailOtps))
  | insertExchangeCode {row : OauthExchangeCode} {user : User}
    (huser : findUserById s.users row.userId = some user)
    (hfree : violatedColumn oauthExchangeCodeColumns s.oauthExchangeCodes row = none) :
    TableMoves s (.insertExchangeCode row)
      { s with oauthExchangeCodes := s.oauthExchangeCodes ++ [row] }
  | takeExchangeCode {codeHash : String} : TableMoves s (.takeExchangeCode codeHash)
      { s with oauthExchangeCodes := s.oauthExchangeCodes.filter fun row =>
        row.codeHash != codeHash }
  | pruneExchangeCodes {cutoff : Nat} : TableMoves s (.pruneExchangeCodes cutoff)
      { s with oauthExchangeCodes := s.oauthExchangeCodes.filter fun row =>
        !(decide (row.expiresAt < cutoff)) }
  | createPost {row : Post} {topicIds : Option (List String)} {author : User}
    (hauthor : findUserById s.users row.authorId = some author)
    (hfree : violatedColumn postColumns s.posts row = none)
    (hlinks : topicIds.getD [] ≠ [] → (s.postsToTopics ++
      (topicIds.getD []).map fun topicId => (row.id, topicId)).Nodup)
    (htopics : ∀ topicId ∈ topicIds.getD [], ∃ topic ∈ s.topics, topic.id = topicId) :
    TableMoves s (.createPost row topicIds) { s with
      posts := s.posts ++ [row]
      postsToTopics := s.postsToTopics ++ (topicIds.getD []).map fun topicId => (row.id, topicId) }
  | updatePost {id : String} {existing old : Post} {updatePostDto : UpdatePostDto} {now : Nat}
    (hold : findPostById s.posts id = some old)
    (hfree : violatedColumn postColumns (s.posts.filter fun other => other.id != id)
      (postEdit existing updatePostDto now old) = none)
    (hlinks : ∀ topicIds, updatePostDto.topicIds = some topicIds → topicIds ≠ [] →
      (relinked s.postsToTopics id (some topicIds)).Nodup)
    (htopics : ∀ topicIds, updatePostDto.topicIds = some topicIds → ∀ topicId ∈ topicIds,
      ∃ topic ∈ s.topics, topic.id = topicId) :
    TableMoves s (.updatePost id existing updatePostDto now) { s with
      posts := updateWhere Post.id id (postEdit existing updatePostDto now) s.posts
      postsToTopics := relinked s.postsToTopics id updatePostDto.topicIds }
  | removePost {id : String} : TableMoves s (.removePost id) { s with
      posts := s.posts.filter fun post => post.id != id
      postsToTopics := s.postsToTopics.filter fun link => link.1 != id
      comments := s.comments.filter fun comment => comment.postId != id }
  | insertTopic {row : Topic} (hfree : violatedColumn topicColumns s.topics row = none) :
    TableMoves s (.insertTopic row) { s with topics := s.topics ++ [row] }
  | renameTopic {id name slug : String} {old : Topic} (hold : findTopicById s.topics id = some old)
    (hfree : violatedColumn topicColumns (s.topics.filter fun other => other.id != id)
      { old with name, slug } = none) :
    TableMoves s (.renameTopic id name slug) { s with
      topics := updateWhere Topic.id id (fun row => { row with name, slug }) s.topics }
  | removeTopic {id : String} {topic : Topic} (htopic : findTopicById s.topics id = some topic) :
    TableMoves s (.removeTopic id) { s with
      topics := s.topics.filter fun topic => topic.id != id
      postsToTopics := s.postsToTopics.filter fun link => link.2 != id }
  | insertComment {row : Comment} {post : Post} {author : User}
    (hpost : findPostById s.posts row.postId = some post)
    (hauthor : findUserById s.users row.authorId = some author)
    (hfree : violatedColumn commentColumns s.comments row = none) :
    TableMoves s (.insertComment row) { s with comments := s.comments ++ [row] }
  | removeComment {id : String} : TableMoves s (.removeComment id)
      { s with comments := withoutComment s.comments id }

section Inversion

variable {s t : Store}

/-- A lookup that has not found nothing. -/
theorem exists_of_not_isNone {α : Type} {found : Option α} (h : ¬ found.isNone = true) :
    ∃ a, found = some a :=
  Option.ne_none_iff_exists'.mp fun hnone => h (Option.isNone_iff_eq_none.mpr hnone)

/-- An insert that goes through. -/
theorem insertRow_toOption {ρ σ : Type} {columns : List (String × (ρ → Option String))}
    {rows : List ρ} {row : ρ} {f : List ρ → σ} {later : σ}
    (h : (insertRow columns rows row).toOption.map f = some later) :
    violatedColumn columns rows row = none ∧ later = f (rows ++ [row]) := by
  cases hinsert : insertRow columns rows row with
  | error constraintName =>
    rw [hinsert] at h
    cases h
  | ok inserted =>
    rw [hinsert] at h
    obtain ⟨hfree, rfl⟩ := insertRow_eq_ok.mp hinsert
    exact ⟨hfree, (Option.some.inj h).symm⟩

/-- An insert that reports a violation as an error of the database. -/
theorem mapError_toOption {ρ σ : Type} {columns : List (String × (ρ → Option String))}
    {rows : List ρ} {row : ρ} {f : List ρ → σ} {later : σ}
    (h : (((insertRow columns rows row).mapError uniqueViolation).toOption).map f = some later) :
    violatedColumn columns rows row = none ∧ later = f (rows ++ [row]) := by
  refine insertRow_toOption ?_
  cases hinsert : insertRow columns rows row with
  | error constraintName =>
    rw [hinsert] at h
    cases h
  | ok inserted =>
    rw [hinsert] at h
    exact h

/-- A new post with its links. -/
theorem createdPost_moves {row : Post} {topicIds : Option (List String)} {later : PostTables}
    (h : createdPost s row topicIds = some later) :
    TableMoves s (.createPost row topicIds) (s.withBlog later) := by
  simp only [createdPost] at h
  split at h
  · cases h
  · next hauthor =>
    obtain ⟨author, hauthor⟩ := exists_of_not_isNone hauthor
    cases hcreate : createTransaction s.blog row topicIds with
    | error failure =>
      rw [hcreate] at h
      cases h
    | ok outcome =>
      rw [hcreate] at h
      obtain rfl := Option.some.inj h
      simp only [createTransaction] at hcreate
      split at hcreate
      · cases hcreate
      · next posts hinsert =>
        obtain ⟨hfree, rfl⟩ := insertRow_eq_ok.mp (mapError_eq_ok.mp hinsert)
        split at hcreate
        · cases hcreate
        · next linked hlinked =>
          obtain ⟨rfl, hlinks, htopics⟩ := linkTopics_eq_ok hlinked
          obtain rfl := Except.ok.inj hcreate
          exact .createPost hauthor hfree hlinks htopics

/-- An edited post with its links. -/
theorem updateTransaction_moves {id : String} {existing : Post} {updatePostDto : UpdatePostDto}
    {now : Nat} {later : PostTables} (answer : PostWithTopics)
    (h : updateTransaction s.blog id (postEdit existing updatePostDto now)
      updatePostDto.topicIds = .ok (later, answer)) :
    TableMoves s (.updatePost id existing updatePostDto now) (s.withBlog later) := by
  simp only [updateTransaction] at h
  split at h
  · cases h
  · cases h
  · next posts row hupdate =>
    obtain ⟨old, hold, hfree, rfl, rfl⟩ := updateRow_eq_ok_some.mp (mapError_eq_ok.mp hupdate)
    cases htopicIds : updatePostDto.topicIds with
    | none =>
      rw [htopicIds] at h
      obtain ⟨rfl, -⟩ := Prod.mk.inj (Except.ok.inj h)
      have hmoves : TableMoves s (.updatePost id existing updatePostDto now) _ :=
        .updatePost hold hfree (fun list hlist => by rw [htopicIds] at hlist; cases hlist)
        fun list hlist => by rw [htopicIds] at hlist; cases hlist
      rw [htopicIds] at hmoves
      exact hmoves
    | some topicIds =>
      rw [htopicIds] at h
      dsimp only at h
      split at h
      · cases h
      · next linked hlinked =>
        obtain ⟨rfl, hlinks, htopics⟩ := linkTopics_eq_ok hlinked
        obtain ⟨rfl, -⟩ := Prod.mk.inj (Except.ok.inj h)
        have hmoves : TableMoves s (.updatePost id existing updatePostDto now) _ := .updatePost hold
          hfree (fun list hlist => by
            rw [htopicIds] at hlist
            obtain rfl := Option.some.inj hlist
            exact hlinks)
          fun list hlist => by
            rw [htopicIds] at hlist
            obtain rfl := Option.some.inj hlist
            exact htopics
        rw [htopicIds] at hmoves
        exact hmoves

/-- A new comment. -/
theorem insertComment_moves {row : Comment} {later : List Comment}
    (h : insertComment s.users s.posts s.comments row = .ok later) :
    TableMoves s (.insertComment row) { s with comments := later } := by
  simp only [insertComment] at h
  split at h
  · cases h
  · next inserted hinsert =>
    obtain ⟨hfree, rfl⟩ := insertRow_eq_ok.mp hinsert
    split at h
    · cases h
    · next hpost =>
      split at h
      · cases h
      · next hauthor =>
        obtain rfl := Except.ok.inj h
        obtain ⟨post, hpost⟩ := exists_of_not_isNone hpost
        obtain ⟨author, hauthor⟩ := exists_of_not_isNone hauthor
        exact .insertComment hpost hauthor hfree

/-- The tables take a step in one way only. -/
theorem performed_moves {step : TableStep} (h : performed s step = some t) :
    TableMoves s step t := by
  cases step with
  | tick ms => exact Option.some.inj h ▸ .tick
  | handOver outbound => exact Option.some.inj h ▸ .handOver
  | deleteOtpsOf email => exact Option.some.inj h ▸ .deleteOtpsOf
  | deleteOtp id => exact Option.some.inj h ▸ .deleteOtp
  | setAttempts id attempts => exact Option.some.inj h ▸ .setAttempts
  | takeExchangeCode codeHash => exact Option.some.inj h ▸ .takeExchangeCode
  | pruneExchangeCodes cutoff => exact Option.some.inj h ▸ .pruneExchangeCodes
  | removePost id => exact Option.some.inj h ▸ .removePost
  | removeComment id => exact Option.some.inj h ▸ .removeComment
  | insertUser row =>
    obtain ⟨hfree, rfl⟩ := mapError_toOption h
    exact .insertUser hfree
  | insertOtp row =>
    obtain ⟨hfree, rfl⟩ := insertRow_toOption h
    exact .insertOtp hfree
  | insertTopic row =>
    obtain ⟨hfree, rfl⟩ := mapError_toOption h
    exact .insertTopic hfree
  | updateUser id edit =>
    simp only [performed] at h
    split at h
    · next users user hupdate =>
      obtain ⟨old, hold, hfree, rfl, -⟩ := updateUser_eq_ok_some.mp hupdate
      exact Option.some.inj h ▸ .updateUser hold hfree
    · cases h
  | setBanned id isBanned =>
    obtain ⟨hthere, ht⟩ := Option.ite_none_left_eq_some.mp h
    obtain ⟨row, hrow⟩ := exists_of_not_isNone hthere
    exact Option.some.inj ht ▸ .setBanned hrow
  | removeAccount id =>
    obtain ⟨hnot, ht⟩ := Option.ite_none_left_eq_some.mp h
    obtain ⟨hposts, hthere⟩ := not_or.mp hnot
    obtain ⟨row, hrow⟩ := exists_of_not_isNone hthere
    refine Option.some.inj ht ▸ .removeAccount (fun post hpost he => hposts ?_) hrow
    exact List.any_eq_true.mpr ⟨post, hpost, beq_iff_eq.mpr he⟩
  | insertExchangeCode row =>
    obtain ⟨hthere, ht⟩ := Option.ite_none_left_eq_some.mp h
    obtain ⟨user, huser⟩ := exists_of_not_isNone hthere
    obtain ⟨hfree, rfl⟩ := insertRow_toOption ht
    exact .insertExchangeCode huser hfree
  | createPost row topicIds =>
    obtain ⟨later, hlater, rfl⟩ := Option.map_eq_some_iff.mp h
    exact createdPost_moves hlater
  | updatePost id existing updatePostDto now =>
    obtain ⟨outcome, houtcome, rfl⟩ := Option.map_eq_some_iff.mp h
    refine updateTransaction_moves outcome.2 ?_
    cases hupdate : updateTransaction s.blog id (postEdit existing updatePostDto now)
        updatePostDto.topicIds with
    | error failure =>
      rw [hupdate] at houtcome
      cases houtcome
    | ok result =>
      rw [hupdate] at houtcome
      exact congrArg Except.ok (Option.some.inj houtcome)
  | renameTopic id name slug =>
    simp only [performed] at h
    split at h
    · next topics topic hupdate =>
      obtain ⟨old, hold, hfree, rfl, -⟩ := updateRow_eq_ok_some.mp (mapError_eq_ok.mp hupdate)
      exact Option.some.inj h ▸ .renameTopic hold hfree
    · cases h
  | removeTopic id =>
    obtain ⟨hthere, ht⟩ := Option.ite_none_left_eq_some.mp h
    obtain ⟨topic, htopic⟩ := exists_of_not_isNone hthere
    exact Option.some.inj ht ▸ .removeTopic htopic
  | insertComment row =>
    obtain ⟨comments, hcomments, rfl⟩ := Option.map_eq_some_iff.mp h
    cases hinsert : insertComment s.users s.posts s.comments row with
    | error error =>
      rw [hinsert] at hcomments
      cases hcomments
    | ok later =>
      rw [hinsert] at hcomments
      obtain rfl := Option.some.inj hcomments
      exact insertComment_moves hinsert

end Inversion

/-- Time passes. -/
def elapses : Rely Store where
  grows s t := s.clock ≤ t.clock
  refl s := Nat.le_refl s.clock
  trans := Nat.le_trans

/-- No step turns the clock back. -/
theorem clock_le_of_moves {s t : Store} {step : TableStep} (h : TableMoves s step t) :
    s.clock ≤ t.clock := by
  cases h with
  | tick => exact Nat.le_add_right ..
  | _ => exact Nat.le_refl _

end VertexApi.App
