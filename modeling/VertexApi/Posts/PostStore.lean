import Mathlib.Data.List.Nodup
import VertexApi.Core.Table
import VertexApi.Database.Errors
import VertexApi.Database.Schema
import VertexApi.Common.ErrorCodes
import VertexApi.Posts.PostDto

/-!
# The tables of the blog

Posts have a unique slug, and unique slugs of their translations where they have them;
topics are linked to posts. A new post and its links are one transaction, and so are an
edit and the links that replace the old ones: a statement that throws leaves the tables as
they were.
-/

namespace VertexApi.Posts

/-- A row of `topics`. -/
structure Topic where
  id : String
  /-- Unique. -/
  name : String
  /-- Unique. -/
  slug : String
  createdAt : Nat
  deriving DecidableEq, Repr

/-- The tables of the blog. -/
structure PostTables where
  posts : List Post
  topics : List Topic
  /-- Pairs of a post id and a topic id. -/
  postsToTopics : List (String × String)
  deriving DecidableEq, Repr

/-- A post with the topics that it is linked to. -/
structure PostWithTopics where
  post : Post
  topics : List Topic
  deriving DecidableEq, Repr

/-- The unique columns of `posts`, under the names of their constraints. -/
def postColumns : List (String × (Post → Option String)) :=
  [("posts_pkey", fun post => some post.id), ("posts_slug_unique", fun post => some post.slug),
    ("posts_slug_en_unique", Post.slugEn), ("posts_slug_es_unique", Post.slugEs)]

/-- The unique constraints of `posts`. -/
def UniquePosts (posts : List Post) : Prop := UniqueColumns postColumns posts

/-- `findFirst` on `posts` by primary key. -/
def findPostById (posts : List Post) (id : String) : Option Post :=
  posts.find? fun post => post.id == id

/-- An insert of a post. -/
def insertPost (posts : List Post) (row : Post) : Except ThrownError (List Post) :=
  (insertRow postColumns posts row).mapError uniqueViolation

/-- An update of the post with an id, with the row that it returns. -/
def updatePost (posts : List Post) (id : String) (f : Post → Post) :
    Except ThrownError (List Post × Option Post) :=
  (updateRow postColumns Post.id posts id f).mapError uniqueViolation

/-- The code of a violated reference. -/
def postgresForeignKeyViolation : String := "23503"

/-- An insert of links from a post to topics. -/
def insertPostTopics (tables : PostTables) (postId : String) (topicIds : List String) :
    Except ThrownError PostTables :=
  let links := topicIds.map fun topicId => (postId, topicId)
  if ¬ (tables.postsToTopics ++ links).Nodup then
    .error (uniqueViolation "posts_to_topics_post_id_topic_id_pk")
  else if topicIds.any fun topicId => tables.topics.all fun topic => topic.id != topicId then
    .error (wrapped ⟨postgresForeignKeyViolation, some "posts_to_topics_topic_id_topics_id_fk"⟩)
  else .ok { tables with postsToTopics := tables.postsToTopics ++ links }

/-- The `postsToTopics` of a post. -/
def linksOf (tables : PostTables) (postId : String) : List (String × String) :=
  tables.postsToTopics.filter fun link => link.1 == postId

/-- `withFlattenedTopics` of a post, whose links are read with their topics. -/
def withFlattenedTopics (tables : PostTables) (post : Post) : PostWithTopics where
  post := post
  topics := (linksOf tables post.id).filterMap fun entry =>
    tables.topics.find? fun topic => topic.id == entry.2

/-- The row of a new post. -/
def newPost (createPostDto : CreatePostDto) (authorId postId : String) (publishedAt : Option Nat)
    (now : Nat) : Post where
  id := postId
  title := createPostDto.title
  titleEn := createPostDto.titleEn
  titleEs := createPostDto.titleEs
  slug := createPostDto.slug
  slugEn := createPostDto.slugEn
  slugEs := createPostDto.slugEs
  content := createPostDto.content
  contentEn := createPostDto.contentEn
  contentEs := createPostDto.contentEs
  isPublished := createPostDto.isPublished.getD false
  publishedAt := publishedAt
  allowComments := createPostDto.allowComments.getD true
  coverUrl := createPostDto.coverUrl
  coverUrlEn := createPostDto.coverUrlEn
  coverUrlEs := createPostDto.coverUrlEs
  coverAlt := createPostDto.coverAlt
  coverAltEn := createPostDto.coverAltEn
  coverAltEs := createPostDto.coverAltEs
  metaDescription := createPostDto.metaDescription
  metaDescriptionEn := createPostDto.metaDescriptionEn
  metaDescriptionEs := createPostDto.metaDescriptionEs
  authorId := authorId
  createdAt := now
  updatedAt := now

/-- The write of an edit to a row: the fields that it names, and the date that it stamps. -/
def editedPost (updatePostDto : UpdatePostDto) (stamp : Option Nat) (now : Nat) (row : Post) :
    Post where
  id := row.id
  title := updatePostDto.title.getD row.title
  titleEn := updatePostDto.titleEn.or row.titleEn
  titleEs := updatePostDto.titleEs.or row.titleEs
  slug := updatePostDto.slug.getD row.slug
  slugEn := updatePostDto.slugEn.or row.slugEn
  slugEs := updatePostDto.slugEs.or row.slugEs
  content := updatePostDto.content.getD row.content
  contentEn := updatePostDto.contentEn.or row.contentEn
  contentEs := updatePostDto.contentEs.or row.contentEs
  isPublished := updatePostDto.isPublished.getD row.isPublished
  publishedAt := stamp.or row.publishedAt
  allowComments := updatePostDto.allowComments.getD row.allowComments
  coverUrl := updatePostDto.coverUrl.or row.coverUrl
  coverUrlEn := updatePostDto.coverUrlEn.or row.coverUrlEn
  coverUrlEs := updatePostDto.coverUrlEs.or row.coverUrlEs
  coverAlt := updatePostDto.coverAlt.or row.coverAlt
  coverAltEn := updatePostDto.coverAltEn.or row.coverAltEn
  coverAltEs := updatePostDto.coverAltEs.or row.coverAltEs
  metaDescription := updatePostDto.metaDescription.or row.metaDescription
  metaDescriptionEn := updatePostDto.metaDescriptionEn.or row.metaDescriptionEn
  metaDescriptionEs := updatePostDto.metaDescriptionEs.or row.metaDescriptionEs
  authorId := row.authorId
  createdAt := row.createdAt
  updatedAt := now

/-- How an operation on posts fails. -/
inductive PostFailure where
  | refused (failure : HttpException)
  /-- The rejection of a taken slug names its field. -/
  | slugInUse (failure : HttpException) (field : String)
  | thrown (error : ThrownError)
  deriving DecidableEq, Repr

/-- The rejection of a post that is not there. -/
def postNotFound : HttpException := notFoundException "Post not found"

/-- `SLUG_CONSTRAINT_FIELDS`: the unique constraints on slugs, with their fields. -/
def slugConstraintFields : List (String × String) :=
  [("posts_slug_unique", "slug"), ("posts_slug_en_unique", "slugEn"),
    ("posts_slug_es_unique", "slugEs")]

/-- The field of a constraint; the table is an object, which inherits other names. -/
def slugConstraintField (constraintName : String) : Option String :=
  (slugConstraintFields.lookup constraintName).or (JsString.inheritedProperty constraintName)

/-- `rethrowFriendlySlugConflict` looks at the cause of the error. -/
def rethrowFriendlySlugConflict : PostFailure → PostFailure
  | .thrown error =>
    match error.cause with
    | some ⟨code, some constraintName⟩ =>
      if code = postgresUniqueViolation then
        match slugConstraintField constraintName with
        | some field => .slugInUse (conflictException
            ("The \"" ++ field ++ "\" slug is already in use by another post.") .slugInUse) field
        | none => .thrown error
      else .thrown error
    | _ => .thrown error
  | failure => failure

/-- The links of a post to the topics of a body, of which there may be none. -/
def linkTopics (tables : PostTables) (postId : String) (topicIds : List String) :
    Except ThrownError PostTables :=
  if topicIds = [] then .ok tables else insertPostTopics tables postId topicIds

/-- The transaction of a new post. -/
def createTransaction (tables : PostTables) (row : Post) (topicIds : Option (List String)) :
    Except PostFailure (PostTables × PostWithTopics) :=
  match insertPost tables.posts row with
  | .error error => .error (.thrown error)
  | .ok posts =>
    match linkTopics { tables with posts := posts } row.id (topicIds.getD []) with
    | .error error => .error (.thrown error)
    | .ok linked => .ok (linked, withFlattenedTopics linked row)

/-- The links of a post that is about to get others. -/
def unlinkTopics (tables : PostTables) (postId : String) : PostTables :=
  { tables with postsToTopics := tables.postsToTopics.filter fun link => link.1 != postId }

/-- The transaction of an edit. -/
def updateTransaction (tables : PostTables) (id : String) (f : Post → Post)
    (topicIds : Option (List String)) : Except PostFailure (PostTables × PostWithTopics) :=
  match updatePost tables.posts id f with
  | .error error => .error (.thrown error)
  | .ok (_, none) => .error (.refused postNotFound)
  | .ok (posts, some row) =>
    let updated := { tables with posts := posts }
    match topicIds with
    | none => .ok (updated, withFlattenedTopics updated row)
    | some topicIds =>
      match linkTopics (unlinkTopics updated id) id topicIds with
      | .error error => .error (.thrown error)
      | .ok linked => .ok (linked, withFlattenedTopics linked row)

section Statements

variable {tables later : PostTables} {posts : List Post} {row : Post} {id : String}
  {f : Post → Post} {topicIds : Option (List String)} {answer : PostWithTopics}

/-- A row found by its id carries that id. -/
theorem id_of_findPostById (h : findPostById posts id = some row) : row.id = id := by
  simpa only [beq_iff_eq] using List.find?_some h

/-- A row found by its id is a row of the table. -/
theorem mem_of_findPostById (h : findPostById posts id = some row) : row ∈ posts :=
  List.mem_of_find?_eq_some h

/-- Links change no post. -/
theorem posts_of_linkTopics {list : List String} (h : linkTopics tables id list = .ok later) :
    later.posts = tables.posts := by
  simp only [linkTopics, insertPostTopics] at h
  split at h
  · rw [Except.ok.inj h]
  · split at h
    · cases h
    · split at h
      · cases h
      · rw [← Except.ok.inj h]

/-- A new post that goes through appends its row. -/
theorem createTransaction_eq_ok (h : createTransaction tables row topicIds = .ok (later, answer)) :
    violatedColumn postColumns tables.posts row = none ∧ later.posts = tables.posts ++ [row] ∧
      answer.post = row := by
  simp only [createTransaction] at h
  split at h
  · cases h
  · next posts hinsert =>
    obtain ⟨hfree, rfl⟩ := insertRow_eq_ok.mp (mapError_eq_ok.mp hinsert)
    split at h
    · cases h
    · next linked hlinked =>
      obtain ⟨rfl, rfl⟩ := Prod.mk.inj (Except.ok.inj h)
      exact ⟨hfree, posts_of_linkTopics hlinked, rfl⟩

/-- An edit that goes through replaces the row that it returns. -/
theorem updateTransaction_eq_ok
    (h : updateTransaction tables id f topicIds = .ok (later, answer)) :
    ∃ old, findPostById tables.posts id = some old ∧
      violatedColumn postColumns (tables.posts.filter fun other => other.id != id) (f old) = none ∧
      later.posts = updateWhere Post.id id f tables.posts ∧ answer.post = f old := by
  simp only [updateTransaction] at h
  split at h
  · cases h
  · cases h
  · next posts row hupdate =>
    obtain ⟨old, hold, hfree, rfl, rfl⟩ := updateRow_eq_ok_some.mp (mapError_eq_ok.mp hupdate)
    refine ⟨old, hold, hfree, ?_⟩
    split at h
    · obtain ⟨rfl, rfl⟩ := Prod.mk.inj (Except.ok.inj h)
      exact ⟨rfl, rfl⟩
    · split at h
      · cases h
      · next linked hlinked =>
        obtain ⟨rfl, rfl⟩ := Prod.mk.inj (Except.ok.inj h)
        exact ⟨posts_of_linkTopics hlinked, rfl⟩

/-- When links go through. -/
theorem exists_linkTopics_eq_ok {list : List String} :
    (∃ later, linkTopics tables id list = .ok later) ↔
      (list ≠ [] → (tables.postsToTopics ++ list.map fun topicId => (id, topicId)).Nodup) ∧
      ∀ topicId ∈ list, ∃ topic ∈ tables.topics, topic.id = topicId := by
  by_cases hlist : list = []
  · subst hlist
    exact ⟨fun _ => ⟨fun hne => absurd rfl hne, fun _ h => absurd h List.not_mem_nil⟩,
      fun _ => ⟨tables, rfl⟩⟩
  · simp only [linkTopics, if_neg hlist, insertPostTopics]
    by_cases hnodup : (tables.postsToTopics ++ list.map fun topicId => (id, topicId)).Nodup
    · rw [if_neg (not_not.mpr hnodup)]
      -- The test for the reference looks for a topic that is not there.
      have hmissing : (list.any fun topicId => tables.topics.all fun topic => topic.id != topicId) =
          true ↔ ¬ ∀ topicId ∈ list, ∃ topic ∈ tables.topics, topic.id = topicId := by
        simp only [List.any_eq_true, List.all_eq_true, bne_iff_ne, ne_eq, not_forall,
          not_exists, not_and, exists_prop]
      by_cases htopics : ∀ topicId ∈ list, ∃ topic ∈ tables.topics, topic.id = topicId
      · rw [if_neg fun h => hmissing.mp h htopics]
        exact ⟨fun _ => ⟨fun _ => hnodup, htopics⟩, fun _ => ⟨_, rfl⟩⟩
      · rw [if_pos (hmissing.mpr htopics)]
        refine ⟨?_, fun h => absurd h.2 htopics⟩
        rintro ⟨_, ⟨⟩⟩
    · rw [if_pos hnodup]
      refine ⟨?_, fun h => absurd (h.1 hlist) hnodup⟩
      rintro ⟨_, ⟨⟩⟩

/-- Links that go through are appended; they are distinct, and lead to topics that are there. -/
theorem linkTopics_eq_ok {list : List String} (h : linkTopics tables id list = .ok later) :
    later = { tables with
      postsToTopics := tables.postsToTopics ++ list.map fun topicId => (id, topicId) } ∧
    (list ≠ [] → (tables.postsToTopics ++ list.map fun topicId => (id, topicId)).Nodup) ∧
    ∀ topicId ∈ list, ∃ topic ∈ tables.topics, topic.id = topicId := by
  refine ⟨?_, exists_linkTopics_eq_ok.mp ⟨later, h⟩⟩
  simp only [linkTopics, insertPostTopics] at h
  split at h
  · next hlist =>
    subst hlist
    rw [← Except.ok.inj h, List.map_nil, List.append_nil]
  · split at h
    · cases h
    · split at h
      · cases h
      · exact (Except.ok.inj h).symm

/-- Links that lead to topics are read with them, in the order of the links. -/
theorem map_id_withFlattenedTopics {post : Post}
    (h : ∀ link ∈ linksOf tables post.id, ∃ topic ∈ tables.topics, topic.id = link.2) :
    (withFlattenedTopics tables post).topics.map Topic.id =
      (linksOf tables post.id).map Prod.snd := by
  rw [withFlattenedTopics, List.map_filterMap, ← List.filterMap_eq_map]
  refine List.filterMap_congr fun link hlink => ?_
  obtain ⟨topic, htopic, hid⟩ := h link hlink
  cases hfound : tables.topics.find? fun topic => topic.id == link.2 with
  | none => exact absurd (beq_iff_eq.mpr hid) (List.find?_eq_none.mp hfound topic htopic)
  | some found =>
    have hsame := List.find?_some hfound
    exact congrArg some (beq_iff_eq.mp hsame)

/-- They are read with topics that are there. -/
theorem mem_of_withFlattenedTopics {post : Post} {topic : Topic}
    (h : topic ∈ (withFlattenedTopics tables post).topics) : topic ∈ tables.topics := by
  obtain ⟨link, -, hfound⟩ := List.mem_filterMap.mp h
  exact List.mem_of_find?_eq_some hfound

/-- The links of a post differ in their topics. -/
theorem nodup_linksOf (h : tables.postsToTopics.Nodup) (id : String) :
    ((linksOf tables id).map Prod.snd).Nodup := by
  refine List.Nodup.map_on (fun link hlink other hother hsame => Prod.ext ?_ hsame) (h.filter _)
  have hid := (List.mem_filter.mp hlink).2
  have hotherId := (List.mem_filter.mp hother).2
  exact (beq_iff_eq.mp hid).trans (beq_iff_eq.mp hotherId).symm

/-- The tables take an edited row, which must have its unique columns to itself, and its links,
which must be distinct and lead to topics that are there. -/
structure TakesEdit (tables : PostTables) (id : String) (edited : Post)
    (topicIds : Option (List String)) : Prop where
  free : violatedColumn postColumns (tables.posts.filter fun other => other.id != id) edited = none
  links : ∀ list, topicIds = some list → list ≠ [] →
    ((unlinkTopics tables id).postsToTopics ++ list.map fun topicId => (id, topicId)).Nodup
  topics : ∀ list, topicIds = some list → ∀ topicId ∈ list,
    ∃ topic ∈ tables.topics, topic.id = topicId

/-- The update of a row that has its unique columns to itself. -/
theorem updatePost_of_free {old : Post} (hold : findPostById posts id = some old)
    (hfree : violatedColumn postColumns (posts.filter fun other => other.id != id) (f old) = none) :
    updatePost posts id f = .ok (updateWhere Post.id id f posts, some (f old)) := by
  have hupdate : updateRow postColumns Post.id posts id f =
      .ok (updateWhere Post.id id f posts, some (f old)) :=
    updateRow_eq_ok_some.mpr ⟨old, hold, hfree, rfl, rfl⟩
  rw [updatePost, hupdate]
  rfl

/-- When an edit goes through. -/
theorem exists_updateTransaction_eq_ok :
    (∃ outcome, updateTransaction tables id f topicIds = .ok outcome) ↔
      ∃ old, findPostById tables.posts id = some old ∧ TakesEdit tables id (f old) topicIds := by
  constructor
  · rintro ⟨⟨later, answer⟩, h⟩
    obtain ⟨old, hold, hfree, -, -⟩ := updateTransaction_eq_ok h
    have hlinked : ∀ list, topicIds = some list → ∃ linked,
        linkTopics (unlinkTopics { tables with posts := updateWhere Post.id id f tables.posts } id)
          id list = .ok linked := by
      rintro list rfl
      simp only [updateTransaction, updatePost_of_free hold hfree] at h
      split at h
      · cases h
      · next linked hlinked => exact ⟨linked, hlinked⟩
    exact ⟨old, hold, hfree, fun list hlist => (exists_linkTopics_eq_ok.mp (hlinked list hlist)).1,
      fun list hlist => (exists_linkTopics_eq_ok.mp (hlinked list hlist)).2⟩
  · rintro ⟨old, hold, htakes⟩
    simp only [updateTransaction, updatePost_of_free hold htakes.free]
    cases topicIds with
    | none => exact ⟨_, rfl⟩
    | some list =>
      obtain ⟨linked, hlinked⟩ : ∃ linked, linkTopics (unlinkTopics
          { tables with posts := updateWhere Post.id id f tables.posts } id) id list = .ok linked :=
        exists_linkTopics_eq_ok.mpr ⟨htakes.links list rfl, htakes.topics list rfl⟩
      simp only [hlinked]
      exact ⟨_, rfl⟩

end Statements

namespace UniquePosts

variable {posts : List Post}

theorem id (h : UniquePosts posts) : UniqueOn (fun post => some post.id) posts :=
  h _ (List.mem_cons_self ..)

theorem slug (h : UniquePosts posts) : UniqueOn (fun post => some post.slug) posts :=
  h _ (List.mem_cons_of_mem _ (List.mem_cons_self ..))

theorem slugEn (h : UniquePosts posts) : UniqueOn Post.slugEn posts :=
  h _ (List.mem_cons_of_mem _ (List.mem_cons_of_mem _ (List.mem_cons_self ..)))

theorem slugEs (h : UniquePosts posts) : UniqueOn Post.slugEs posts :=
  h _ (List.mem_cons_of_mem _ (List.mem_cons_of_mem _ (List.mem_cons_of_mem _
    (List.mem_cons_self ..))))

/-- Rows with one id are one row. -/
theorem eq_of_id (h : UniquePosts posts) {row other : Post} (hrow : row ∈ posts)
    (hother : other ∈ posts) (hid : row.id = other.id) : row = other :=
  h.id.eq_of_mem hrow hother rfl (congrArg some hid.symm)

/-- A new post keeps the unique columns. -/
theorem create (h : UniquePosts posts) {row : Post}
    (hfree : violatedColumn postColumns posts row = none) : UniquePosts (posts ++ [row]) :=
  UniqueColumns.append h hfree

/-- An edit keeps the unique columns. -/
theorem update (h : UniquePosts posts) {i : String} {f : Post → Post} {old : Post}
    (hold : findPostById posts i = some old)
    (hfree : violatedColumn postColumns (posts.filter fun other => other.id != i) (f old) = none) :
    UniquePosts (updateWhere Post.id i f posts) :=
  UniqueColumns.updateWhere h h.id (mem_of_findPostById hold) (id_of_findPostById hold) hfree

/-- Writes outside of the unique columns keep them. -/
theorem map (h : UniquePosts posts) {f : Post → Post} (hf : ∀ row, (f row).id = row.id ∧
    (f row).slug = row.slug ∧ (f row).slugEn = row.slugEn ∧ (f row).slugEs = row.slugEs) :
    UniquePosts (posts.map f) := by
  have hcolumns : ∀ column ∈ postColumns, ∀ row, column.2 (f row) = column.2 row := by
    simp only [postColumns, List.forall_mem_cons, List.not_mem_nil, false_implies, implies_true,
      and_true, Option.some.injEq]
    exact ⟨fun row => (hf row).1, fun row => (hf row).2.1, fun row => (hf row).2.2.1,
      fun row => (hf row).2.2.2⟩
  exact fun column hcolumn => (h column hcolumn).map fun row _ => hcolumns column hcolumn row

end UniquePosts

end VertexApi.Posts
