import Mathlib.Logic.Function.Basic
import VertexApi.Core.Machine
import VertexApi.Posts.PostStore
import VertexApi.Uploads.Markdown

/-!
# Posts

A new post samples its publish date and goes through in one transaction. An edit reads the
post, decides from what it read whether to stamp a publish date, goes through in one
transaction, and deletes the objects that the post has dropped since it was read. A removal
deletes the row and then its objects. Every such statement is one step, so a run interleaves
any number of calls.
-/

namespace VertexApi.Posts

open Uploads

/-- `collectMediaKeys`: the bucket keys in the contents and covers of a post, each once. -/
def collectMediaKeys (publicUrlPrefix : String) (post : Post) : List String :=
  let contents := [some post.content, post.contentEn, post.contentEs].filterMap JsString.truthy
  let covers := [post.coverUrl, post.coverUrlEn, post.coverUrlEs].filterMap fun url =>
    JsString.truthy (extractBucketKeyFromUrl publicUrlPrefix url)
  (contents.flatMap (extractBucketKeysFromContent publicUrlPrefix) ++ covers).eraseDups

/-- A post refers to the keys of the images in its contents, and to those of its covers. -/
theorem mem_collectMediaKeys {publicUrlPrefix key : String} {post : Post} :
    key ∈ collectMediaKeys publicUrlPrefix post ↔
      (∃ content, (post.content = content ∨ post.contentEn = some content ∨
        post.contentEs = some content) ∧ content ≠ "" ∧
        publicUrlPrefix ++ key ∈ markdownImageUrls content) ∨
      (key ≠ "" ∧ (post.coverUrl = some (publicUrlPrefix ++ key) ∨
        post.coverUrlEn = some (publicUrlPrefix ++ key) ∨
        post.coverUrlEs = some (publicUrlPrefix ++ key))) := by
  have hcover : ∀ url : Option String,
      JsString.truthy (extractBucketKeyFromUrl publicUrlPrefix url) = some key ↔
        key ≠ "" ∧ url = some (publicUrlPrefix ++ key) := by
    intro url
    rw [JsString.truthy_eq_some, and_comm]
    cases url with
    | none => simp only [extractBucketKeyFromUrl, reduceCtorEq]
    | some url => rw [extractBucketKeyFromUrl_eq_some, Option.some.injEq]
  simp only [collectMediaKeys, List.mem_eraseDups, List.mem_append, List.mem_flatMap,
    List.mem_filterMap, List.mem_cons, List.not_mem_nil, or_false, exists_eq_or_imp,
    exists_eq_left, JsString.truthy_eq_some, hcover, mem_extractBucketKeysFromContent,
    ← and_or_left, ← or_and_right, Option.some.injEq, and_assoc]

/-- The keys of a post as it was read that it does not have any more. -/
def removedMediaKeys (publicUrlPrefix : String) (existing updated : Post) : List String :=
  (collectMediaKeys publicUrlPrefix existing).filter fun key =>
    !(collectMediaKeys publicUrlPrefix updated).contains key

/-- An edit stamps the publish date of a post that it read without one. -/
def shouldStampPublishedAt (existing : Post) (updatePostDto : UpdatePostDto) : Bool :=
  existing.publishedAt.isNone && updatePostDto.isPublished == some true

/-- The publish date of a new post. -/
def createdPublishedAt (createPostDto : CreatePostDto) (now : Nat) : Option Nat :=
  if createPostDto.isPublished = some true then some now else none

/-- The date that an edit stamps. -/
def stampOf (existing : Post) (updatePostDto : UpdatePostDto) (now : Nat) : Option Nat :=
  if shouldStampPublishedAt existing updatePostDto then some now else none

/-- The write of an edit that has read a post. -/
def postEdit (existing : Post) (updatePostDto : UpdatePostDto) (now : Nat) : Post → Post :=
  editedPost updatePostDto (stampOf existing updatePostDto now) now

/-- The order of the public listing: no date first, and then the latest. -/
def publishedBefore (a b : Post) : Bool :=
  match a.publishedAt, b.publishedAt with
  | none, _ => true
  | some _, none => false
  | some x, some y => y ≤ x

/-- `findAllPublished`, without the topics. -/
def findAllPublished (posts : List Post) : List Post :=
  (posts.filter Post.isPublished).mergeSort publishedBefore

/-- The column of a translation's own slug. -/
def localeSlug (locale : Option String) (post : Post) : Option String :=
  if locale = some "en" then post.slugEn
  else if locale = some "es" then post.slugEs
  else none

/-- The condition of `findPublishedBySlug`. -/
def isPublishedUnder (slug : String) (locale : Option String) (post : Post) : Bool :=
  let localeSlugMatch :=
    if locale = some "en" then
      post.slugEn == some slug || (post.slugEn.isNone && post.slug == slug)
    else if locale = some "es" then
      post.slugEs == some slug || (post.slugEs.isNone && post.slug == slug)
    else post.slug == slug
  localeSlugMatch && post.isPublished

/-- `findPublishedBySlug`, with the row that the lookup returns. -/
def findPublishedBySlug (tables : PostTables) (pick : Option Post) :
    Except HttpException PostWithTopics :=
  match pick with
  | none => .error postNotFound
  | some post => .ok (withFlattenedTopics tables post)

/-- How a call on posts ends. -/
inductive PostAnswer where
  | saved (post : PostWithTopics)
  | removed (post : Post)
  | failed (failure : PostFailure)
  deriving DecidableEq, Repr

/-- Where a call on posts stands. -/
inductive PostPhase where
  /-- Before the clock sample of a new post. -/
  | stampNew (createPostDto : CreatePostDto) (authorId : String)
  /-- Before the transaction of a new post. -/
  | insert (createPostDto : CreatePostDto) (authorId : String) (publishedAt : Option Nat)
  /-- Before the read of the post to edit. -/
  | find (id : String) (updatePostDto : UpdatePostDto)
  /-- Before the clock sample of an edit, over the row that was read. -/
  | stamp (existing : Post) (updatePostDto : UpdatePostDto)
  /-- Before the transaction of an edit. -/
  | commit (existing : Post) (updatePostDto : UpdatePostDto) (now : Nat)
  /-- Before the delete of a post. -/
  | erase (id : String)
  /-- Before the delete of objects, whose failure is only logged. -/
  | deleteMedia (keys : List String) (answer : PostAnswer)
  | done (answer : PostAnswer)
  deriving DecidableEq, Repr

/-- The tables, and the calls. -/
structure PostsState where
  clock : Nat
  tables : PostTables
  /-- Every post id ever drawn. -/
  usedIds : List String
  calls : Nat → Option PostPhase

namespace PostsState

/-- Tables and no calls. -/
def initial (clock : Nat) (tables : PostTables) : PostsState where
  clock := clock
  tables := tables
  usedIds := tables.posts.map Post.id
  calls _ := none

/-- Set the phase of one call. -/
def setCall (s : PostsState) (id : Nat) (phase : PostPhase) : PostsState :=
  { s with calls := Function.update s.calls id (some phase) }

@[simp] theorem setCall_calls_self (s : PostsState) (id : Nat) (phase : PostPhase) :
    (s.setCall id phase).calls id = some phase := Function.update_self ..

end PostsState

/-- The steps of a call. -/
inductive PostStep where
  | create (input : PostInput) (authorId : String)
  | update (postId : String) (input : PostInput)
  | remove (postId : String)
  /-- The clock sample of a new post or of an edit. -/
  | stamp
  /-- The transaction of a new post, which draws its id. -/
  | insert (postId : String)
  | find
  | commit
  | erase
  | deleteMedia
  /-- A statement fails, whatever it is, and its transaction rolls back. -/
  | fail (error : ThrownError)
  deriving DecidableEq, Repr

/-- The steps of a run. -/
inductive PostLabel where
  | tick (ms : Nat)
  /-- Any other operation on the topics, which takes links along. -/
  | topics (topics : List Topic)
  | call (id : Nat) (step : PostStep)
  deriving DecidableEq, Repr

/-- What the blog takes from its surroundings. -/
structure PostsConfig where
  publicUrlPrefix : String
  parseUrl : String → Option String
  isUuid : String → Bool

/-- What follows a write: the delete of objects, when there are any, or the answer. -/
def afterWrite (keys : List String) (answer : PostAnswer) : PostPhase :=
  if keys = [] then .done answer else .deleteMedia keys answer

/-- The links whose topic is still there. -/
def linksTo (topics : List Topic) (links : List (String × String)) : List (String × String) :=
  links.filter fun link => topics.any fun topic => topic.id == link.2

/-- `posts` without one post, and its links. -/
def PostTables.withoutPost (tables : PostTables) (id : String) : PostTables :=
  { unlinkTopics tables id with posts := tables.posts.filter fun post => post.id != id }

section Machine

variable (config : PostsConfig)

/-- The start of a call, for a body that is valid. -/
def startPhase : PostStep → Option PostPhase
  | .create input authorId =>
    (createPostSchema config.parseUrl config.isUuid input).map (.stampNew · authorId)
  | .update postId input =>
    (updatePostSchema config.parseUrl config.isUuid input).map (.find postId ·)
  | .remove postId => some (.erase postId)
  | _ => none

namespace PostsState

/-- One step of a call. -/
def callStep (s : PostsState) (id : Nat) : PostPhase → PostStep → Option PostsState
  | .stampNew createPostDto authorId, .stamp =>
    some (s.setCall id (.insert createPostDto authorId (createdPublishedAt createPostDto s.clock)))
  | .insert createPostDto authorId publishedAt, .insert postId =>
    if postId ∈ s.usedIds then none
    else
      let row := newPost createPostDto authorId postId publishedAt s.clock
      match createTransaction s.tables row createPostDto.topicIds with
      | .error failure =>
        some (s.setCall id (.done (.failed (rethrowFriendlySlugConflict failure))))
      | .ok (tables, post) =>
        some ({ s with tables := tables, usedIds := postId :: s.usedIds }.setCall id
          (.done (.saved post)))
  | .find postId updatePostDto, .find =>
    match findPostById s.tables.posts postId with
    | none => some (s.setCall id (.done (.failed (.refused postNotFound))))
    | some existing => some (s.setCall id (.stamp existing updatePostDto))
  | .stamp existing updatePostDto, .stamp =>
    some (s.setCall id (.commit existing updatePostDto s.clock))
  | .commit existing updatePostDto now, .commit =>
    match updateTransaction s.tables existing.id (postEdit existing updatePostDto now)
      updatePostDto.topicIds with
    | .error failure => some (s.setCall id (.done (.failed (rethrowFriendlySlugConflict failure))))
    | .ok (tables, updated) =>
      some ({ s with tables := tables }.setCall id (afterWrite
        (removedMediaKeys config.publicUrlPrefix existing updated.post) (.saved updated)))
  | .erase postId, .erase =>
    match findPostById s.tables.posts postId with
    | none => some (s.setCall id (.done (.failed (.refused postNotFound))))
    | some deleted =>
      some ({ s with tables := s.tables.withoutPost postId }.setCall id (afterWrite
        (collectMediaKeys config.publicUrlPrefix deleted) (.removed deleted)))
  | .deleteMedia _ answer, .deleteMedia => some (s.setCall id (.done answer))
  | .insert .., .fail error | .commit .., .fail error =>
    some (s.setCall id (.done (.failed (rethrowFriendlySlugConflict (.thrown error)))))
  | .find .., .fail error | .erase .., .fail error =>
    some (s.setCall id (.done (.failed (.thrown error))))
  | _, _ => none

end PostsState

/-- Calls on posts, and operations on topics, as one machine. A body that is not valid
makes no call. -/
def blog : Machine PostsState PostLabel where
  step s
    | .tick ms => some { s with clock := s.clock + ms }
    | .topics topics => some { s with tables := { s.tables with
        topics := topics
        postsToTopics := linksTo topics s.tables.postsToTopics } }
    | .call id step =>
      match s.calls id with
      | none => (startPhase config step).map (s.setCall id)
      | some phase => s.callStep config id phase step

end Machine

/-- What one step of a call does to the rest of the state, and the phase it leads to. -/
inductive PostMoves (config : PostsConfig) (s : PostsState) :
    PostPhase → PostStep → PostsState → PostPhase → Prop where
  | stampedNew {createPostDto : CreatePostDto} {authorId : String} :
    PostMoves config s (.stampNew createPostDto authorId) .stamp s
      (.insert createPostDto authorId (createdPublishedAt createPostDto s.clock))
  | inserted {createPostDto : CreatePostDto} {authorId postId : String} {publishedAt : Option Nat}
    {tables : PostTables} {post : PostWithTopics} (hfresh : postId ∉ s.usedIds)
    (hcreate : createTransaction s.tables
      (newPost createPostDto authorId postId publishedAt s.clock) createPostDto.topicIds =
        .ok (tables, post)) :
    PostMoves config s (.insert createPostDto authorId publishedAt) (.insert postId)
      { s with tables := tables, usedIds := postId :: s.usedIds } (.done (.saved post))
  | insertFailed {createPostDto : CreatePostDto} {authorId postId : String}
    {publishedAt : Option Nat} {failure : PostFailure}
    (hcreate : createTransaction s.tables
      (newPost createPostDto authorId postId publishedAt s.clock) createPostDto.topicIds =
        .error failure) :
    PostMoves config s (.insert createPostDto authorId publishedAt) (.insert postId) s
      (.done (.failed (rethrowFriendlySlugConflict failure)))
  | absent {postId : String} {updatePostDto : UpdatePostDto}
    (hexisting : findPostById s.tables.posts postId = none) :
    PostMoves config s (.find postId updatePostDto) .find s
      (.done (.failed (.refused postNotFound)))
  | found {postId : String} {updatePostDto : UpdatePostDto} {existing : Post}
    (hexisting : findPostById s.tables.posts postId = some existing) :
    PostMoves config s (.find postId updatePostDto) .find s (.stamp existing updatePostDto)
  | stamped {existing : Post} {updatePostDto : UpdatePostDto} :
    PostMoves config s (.stamp existing updatePostDto) .stamp s
      (.commit existing updatePostDto s.clock)
  | committed {existing : Post} {updatePostDto : UpdatePostDto} {now : Nat} {tables : PostTables}
    {updated : PostWithTopics}
    (hupdate : updateTransaction s.tables existing.id (postEdit existing updatePostDto now)
      updatePostDto.topicIds = .ok (tables, updated)) :
    PostMoves config s (.commit existing updatePostDto now) .commit { s with tables := tables }
      (afterWrite (removedMediaKeys config.publicUrlPrefix existing updated.post) (.saved updated))
  | commitFailed {existing : Post} {updatePostDto : UpdatePostDto} {now : Nat}
    {failure : PostFailure}
    (hupdate : updateTransaction s.tables existing.id (postEdit existing updatePostDto now)
      updatePostDto.topicIds = .error failure) :
    PostMoves config s (.commit existing updatePostDto now) .commit s
      (.done (.failed (rethrowFriendlySlugConflict failure)))
  | eraseAbsent {postId : String} (hdeleted : findPostById s.tables.posts postId = none) :
    PostMoves config s (.erase postId) .erase s (.done (.failed (.refused postNotFound)))
  | erased {postId : String} {deleted : Post}
    (hdeleted : findPostById s.tables.posts postId = some deleted) :
    PostMoves config s (.erase postId) .erase { s with tables := s.tables.withoutPost postId }
      (afterWrite (collectMediaKeys config.publicUrlPrefix deleted) (.removed deleted))
  | deletedMedia {keys : List String} {answer : PostAnswer} :
    PostMoves config s (.deleteMedia keys answer) .deleteMedia s (.done answer)
  | failed {phase : PostPhase} {error : ThrownError} {failure : PostFailure}
    (hfailure : failure = .thrown error ∨
      failure = rethrowFriendlySlugConflict (.thrown error)) :
    PostMoves config s phase (.fail error) s (.done (.failed failure))

section Inversion

variable {config : PostsConfig} {s t : PostsState} {id : Nat} {phase : PostPhase}

/-- A step of a call moves it. -/
theorem moves_of_callStep {step : PostStep} (h : s.callStep config id phase step = some t) :
    ∃ m after, PostMoves config s phase step m after ∧ t = m.setCall id after := by
  unfold PostsState.callStep at h
  split at h
  · exact ⟨s, _, .stampedNew, (Option.some.inj h).symm⟩
  · obtain ⟨hfresh, hinsert⟩ := Option.ite_none_left_eq_some.mp h
    dsimp only at hinsert
    split at hinsert
    · next hcreate => exact ⟨s, _, .insertFailed hcreate, (Option.some.inj hinsert).symm⟩
    · next hcreate => exact ⟨_, _, .inserted hfresh hcreate, (Option.some.inj hinsert).symm⟩
  · split at h
    · next hexisting => exact ⟨s, _, .absent hexisting, (Option.some.inj h).symm⟩
    · next hexisting => exact ⟨s, _, .found hexisting, (Option.some.inj h).symm⟩
  · exact ⟨s, _, .stamped, (Option.some.inj h).symm⟩
  · split at h
    · next hupdate => exact ⟨s, _, .commitFailed hupdate, (Option.some.inj h).symm⟩
    · next hupdate => exact ⟨_, _, .committed hupdate, (Option.some.inj h).symm⟩
  · split at h
    · next hdeleted => exact ⟨s, _, .eraseAbsent hdeleted, (Option.some.inj h).symm⟩
    · next hdeleted => exact ⟨_, _, .erased hdeleted, (Option.some.inj h).symm⟩
  · exact ⟨s, _, .deletedMedia, (Option.some.inj h).symm⟩
  -- A failing statement: of an insert, an edit, a read, a removal.
  · exact ⟨s, _, .failed (Or.inr rfl), (Option.some.inj h).symm⟩
  · exact ⟨s, _, .failed (Or.inr rfl), (Option.some.inj h).symm⟩
  · exact ⟨s, _, .failed (Or.inl rfl), (Option.some.inj h).symm⟩
  · exact ⟨s, _, .failed (Or.inl rfl), (Option.some.inj h).symm⟩
  · cases h

/-- A call starts before a clock sample, a read, or a delete. -/
theorem startPhase_cases {step : PostStep} (h : startPhase config step = some phase) :
    (∃ createPostDto authorId, phase = .stampNew createPostDto authorId) ∨
    (∃ postId updatePostDto, phase = .find postId updatePostDto) ∨
    ∃ postId, phase = .erase postId := by
  cases step with
  | create input authorId =>
    obtain ⟨createPostDto, -, rfl⟩ := Option.map_eq_some_iff.mp h
    exact Or.inl ⟨createPostDto, authorId, rfl⟩
  | update postId input =>
    obtain ⟨updatePostDto, -, rfl⟩ := Option.map_eq_some_iff.mp h
    exact Or.inr (Or.inl ⟨postId, updatePostDto, rfl⟩)
  | remove postId =>
    obtain rfl := Option.some.inj h
    exact Or.inr (Or.inr ⟨postId, rfl⟩)
  | stamp | insert | find | commit | erase | deleteMedia | fail => cases h

/-- A step leaves the posts and the calls, starts a call, or moves one. -/
theorem blog_step_cases {label : PostLabel} (h : (blog config).step s label = some t) :
    (t.tables.posts = s.tables.posts ∧ t.usedIds = s.usedIds ∧ t.calls = s.calls ∧
      ∀ id step, label ≠ .call id step) ∨
    (∃ id step phase, label = .call id step ∧ s.calls id = none ∧
      startPhase config step = some phase ∧ t = s.setCall id phase) ∨
    ∃ id step phase m after, label = .call id step ∧ s.calls id = some phase ∧
      PostMoves config s phase step m after ∧ t = m.setCall id after := by
  cases label with
  | tick ms =>
    obtain rfl := Option.some.inj h
    exact Or.inl ⟨rfl, rfl, rfl, fun _ _ => PostLabel.noConfusion⟩
  | topics topics =>
    obtain rfl := Option.some.inj h
    exact Or.inl ⟨rfl, rfl, rfl, fun _ _ => PostLabel.noConfusion⟩
  | call id step =>
    simp only [blog] at h
    split at h
    · next hfree =>
      obtain ⟨phase, hphase, rfl⟩ := Option.map_eq_some_iff.mp h
      exact Or.inr (Or.inl ⟨id, step, phase, rfl, hfree, hphase, rfl⟩)
    · next phase hphase =>
      obtain ⟨m, after, hmoves, ht⟩ := moves_of_callStep h
      exact Or.inr (Or.inr ⟨id, step, phase, m, after, rfl, hphase, hmoves, ht⟩)

/-- The step is the transaction of an edit, and goes through. -/
def Commits (s : PostsState) (existing : Post) (updatePostDto : UpdatePostDto) (now : Nat)
    (step : PostStep) : Prop :=
  step = .commit ∧ ∃ result, updateTransaction s.tables existing.id
    (postEdit existing updatePostDto now) updatePostDto.topicIds = .ok result

/-- A move leaves the posts, adds one, edits one, or removes one. -/
theorem PostMoves.posts_cases {step : PostStep} {m : PostsState} {after : PostPhase}
    (h : PostMoves config s phase step m after) :
    (m.tables.posts = s.tables.posts) ∨
    (∃ createPostDto authorId publishedAt postId row,
      phase = .insert createPostDto authorId publishedAt ∧ postId ∉ s.usedIds ∧
      row = newPost createPostDto authorId postId publishedAt s.clock ∧
      violatedColumn postColumns s.tables.posts row = none ∧
      m.tables.posts = s.tables.posts ++ [row] ∧ m.usedIds = postId :: s.usedIds) ∨
    (∃ existing updatePostDto now old, phase = .commit existing updatePostDto now ∧
      Commits s existing updatePostDto now step ∧
      findPostById s.tables.posts existing.id = some old ∧
      violatedColumn postColumns (s.tables.posts.filter fun other => other.id != existing.id)
        (postEdit existing updatePostDto now old) = none ∧
      m.tables.posts = updateWhere Post.id existing.id (postEdit existing updatePostDto now)
        s.tables.posts) ∨
    ∃ postId, phase = .erase postId ∧
      m.tables.posts = s.tables.posts.filter fun post => post.id != postId := by
  cases h with
  | inserted hfresh hcreate =>
    obtain ⟨hfree, hposts, -⟩ := createTransaction_eq_ok hcreate
    exact Or.inr (Or.inl ⟨_, _, _, _, _, rfl, hfresh, rfl, hfree, hposts, rfl⟩)
  | committed hupdate =>
    obtain ⟨old, hold, hfree, hposts, -⟩ := updateTransaction_eq_ok hupdate
    exact Or.inr (Or.inr (Or.inl ⟨_, _, _, old, rfl, ⟨rfl, _, hupdate⟩, hold, hfree, hposts⟩))
  | erased hdeleted => exact Or.inr (Or.inr (Or.inr ⟨_, rfl, rfl⟩))
  | stampedNew | insertFailed | absent | found | stamped | commitFailed | eraseAbsent
  | deletedMedia | failed => exact Or.inl rfl

/-- A row after a move was there before, is an edited one, or is new. -/
theorem PostMoves.row_cases {step : PostStep} {m : PostsState} {after : PostPhase}
    (h : PostMoves config s phase step m after) {row : Post} (hrow : row ∈ m.tables.posts) :
    row ∈ s.tables.posts ∨
    (∃ existing updatePostDto now former, phase = .commit existing updatePostDto now ∧
      Commits s existing updatePostDto now step ∧ former ∈ s.tables.posts ∧
      former.id = existing.id ∧ row = postEdit existing updatePostDto now former) ∨
    ∃ createPostDto authorId publishedAt postId,
      phase = .insert createPostDto authorId publishedAt ∧ postId ∉ s.usedIds ∧
      row = newPost createPostDto authorId postId publishedAt s.clock := by
  rcases h.posts_cases with hposts | ⟨createPostDto, authorId, publishedAt, postId, new, hphase,
      hfresh, rfl, -, hposts, -⟩ | ⟨existing, updatePostDto, now, old, hphase, hcommits, -, -,
      hposts⟩ | ⟨postId, -, hposts⟩
  · rw [hposts] at hrow
    exact Or.inl hrow
  · rw [hposts, List.mem_append, List.mem_singleton] at hrow
    rcases hrow with hrow | rfl
    · exact Or.inl hrow
    · exact Or.inr (Or.inr ⟨createPostDto, authorId, publishedAt, postId, hphase, hfresh, rfl⟩)
  · rw [hposts, mem_updateWhere] at hrow
    rcases hrow with ⟨former, hformer, hid, rfl⟩ | ⟨hrow, -⟩
    · exact Or.inr (Or.inl ⟨existing, updatePostDto, now, former, hphase, hcommits, hformer, hid,
        rfl⟩)
    · exact Or.inl hrow
  · rw [hposts] at hrow
    exact Or.inl (List.mem_of_mem_filter hrow)

/-- The ids that a move draws are added to the used ones. -/
theorem PostMoves.usedIds_subset {step : PostStep} {m : PostsState} {after : PostPhase}
    (h : PostMoves config s phase step m after) : s.usedIds ⊆ m.usedIds := by
  cases h with
  | inserted => exact List.subset_cons_self ..
  | stampedNew | insertFailed | absent | found | stamped | committed | commitFailed | eraseAbsent
  | erased | deletedMedia | failed => exact List.Subset.refl _

/-- An edit that goes through is a step. -/
theorem Commits.exists_step {existing : Post} {updatePostDto : UpdatePostDto} {now : Nat}
    {step : PostStep} (h : Commits s existing updatePostDto now step) (config : PostsConfig)
    (hcall : s.calls id = some (.commit existing updatePostDto now)) : ∃ t updated,
      (blog config).step s (.call id step) = some t ∧
      updateTransaction s.tables existing.id (postEdit existing updatePostDto now)
        updatePostDto.topicIds = .ok (t.tables, updated) ∧
      t.calls id = some (afterWrite
        (removedMediaKeys config.publicUrlPrefix existing updated.post) (.saved updated)) := by
  obtain ⟨rfl, ⟨tables, updated⟩, hupdate⟩ := h
  refine ⟨({ s with tables := tables }).setCall id (afterWrite
    (removedMediaKeys config.publicUrlPrefix existing updated.post) (.saved updated)), updated, ?_,
    hupdate, Function.update_self ..⟩
  simp only [blog, hcall, PostsState.callStep, hupdate]

/-- A move leaves the calls to the step around it. -/
theorem PostMoves.calls_eq {step : PostStep} {m : PostsState} {after : PostPhase}
    (h : PostMoves config s phase step m after) : m.calls = s.calls := by
  cases h <;> rfl

/-- Posts have used ids of their own. -/
structure Numbered (s : PostsState) : Prop where
  unique : UniquePosts s.tables.posts
  used : ∀ post ∈ s.tables.posts, post.id ∈ s.usedIds

/-- A table with unique columns is numbered at the start. -/
theorem numbered_initial (clock : Nat) {tables : PostTables} (h : UniquePosts tables.posts) :
    Numbered (.initial clock tables) :=
  ⟨h, fun _ hpost => List.mem_map_of_mem hpost⟩

/-- Every step keeps the unique columns. -/
theorem blog_unique {label : PostLabel} (h : UniquePosts s.tables.posts)
    (hstep : (blog config).step s label = some t) : UniquePosts t.tables.posts := by
  rcases blog_step_cases hstep with ⟨hposts, -⟩ | ⟨id, step, phase, -, -, -, rfl⟩ |
    ⟨id, step, phase, m, after, -, -, hmoves, rfl⟩
  · rwa [hposts]
  · exact h
  · change UniquePosts m.tables.posts
    rcases hmoves.posts_cases with hposts | ⟨_, _, _, _, row, -, -, -, hfree, hposts, -⟩ |
      ⟨_, _, _, old, -, -, hold, hfree, hposts⟩ | ⟨postId, -, hposts⟩
    · rwa [hposts]
    · rw [hposts]
      exact h.create hfree
    · rw [hposts]
      exact h.update hold hfree
    · rw [hposts]
      exact h.filter _

/-- Every step keeps the posts numbered. -/
theorem Numbered.step {label : PostLabel} (h : Numbered s)
    (hstep : (blog config).step s label = some t) : Numbered t := by
  refine ⟨blog_unique h.unique hstep, ?_⟩
  rcases blog_step_cases hstep with ⟨hposts, hused, -⟩ | ⟨id, step, phase, -, -, -, rfl⟩ |
    ⟨id, step, phase, m, after, -, -, hmoves, rfl⟩
  · rw [hposts, hused]
    exact h.used
  · exact h.used
  · change ∀ post ∈ m.tables.posts, post.id ∈ m.usedIds
    rcases hmoves.posts_cases with hposts | ⟨_, _, _, postId, row, -, -, rfl, -, hposts, hused⟩ |
      ⟨_, _, _, _, -, -, -, -, hposts⟩ | ⟨_, -, hposts⟩
    · rw [hposts]
      exact fun post hpost => hmoves.usedIds_subset (h.used post hpost)
    · rw [hposts, hused]
      intro post hpost
      rcases List.mem_append.mp hpost with hpost | hpost
      · exact List.mem_cons_of_mem _ (h.used post hpost)
      · rw [List.mem_singleton.mp hpost]
        exact List.mem_cons_self ..
    · rw [hposts]
      intro post hpost
      rcases mem_updateWhere.mp hpost with ⟨former, hformer, -, rfl⟩ | ⟨hpost, -⟩
      · exact hmoves.usedIds_subset (h.used former hformer)
      · exact hmoves.usedIds_subset (h.used post hpost)
    · rw [hposts]
      exact fun post hpost => hmoves.usedIds_subset (h.used post (List.mem_of_mem_filter hpost))

end Inversion

/-- A configuration that admits every address and every topic id. -/
def openPosts : PostsConfig where
  publicUrlPrefix := "https://media/"
  parseUrl := some
  isUuid _ := true

/-- No optional fields. -/
def bareFields : OptionalPostFields :=
  ⟨none, none, none, none, none, none, none, none, none, none, none, none, none, none, none, none,
    none, none⟩

/-- A body with a title, a content and a slug. -/
def bareInput (slug : String) : PostInput :=
  { toOptionalPostFields := bareFields, title := some "t", slug := some slug, content := some "c" }

/-- A body with nothing in it. -/
def bareEdit : PostInput :=
  { toOptionalPostFields := bareFields, title := none, slug := none, content := none }

/-- The steps of a new post. -/
def createLabels (id : Nat) (input : PostInput) (postId : String) : List PostLabel :=
  [.call id (.create input "author"), .call id .stamp, .call id (.insert postId)]

/-- The steps of an edit, up to its transaction. -/
def updateLabels (id : Nat) (postId : String) (input : PostInput) : List PostLabel :=
  [.call id (.update postId input), .call id .find, .call id .stamp, .call id .commit]

/-- Nothing but an empty blog. -/
def emptyBlog : PostsState := .initial 0 ⟨[], [], []⟩

end VertexApi.Posts
