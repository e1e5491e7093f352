import VertexApi.App.PostUpdates

/-!
# Edits are atomic merges

An edit that fails leaves the tables and the bucket to the other calls, wherever it fails. One
that goes through gives the row the fields of its body and two dates, gives the post the
topics of its body if there are any in it, and changes nothing else.
-/

namespace VertexApi.App

open Posts

/-- The columns that a body may give. -/
inductive PostColumn where
  | title
  | titleEn
  | titleEs
  | slug
  | slugEn
  | slugEs
  | content
  | contentEn
  | contentEs
  | isPublished
  | allowComments
  | coverUrl
  | coverUrlEn
  | coverUrlEs
  | coverAlt
  | coverAltEn
  | coverAltEs
  | metaDescription
  | metaDescriptionEn
  | metaDescriptionEs
  deriving DecidableEq, Repr

/-- The value of a column. -/
inductive ColumnValue where
  | text (text : Option String)
  | flag (flag : Bool)
  deriving DecidableEq, Repr

namespace PostColumn

/-- What a row has in a column. -/
def stored : PostColumn → Post → ColumnValue
  | title, row => .text (some row.title)
  | titleEn, row => .text row.titleEn
  | titleEs, row => .text row.titleEs
  | slug, row => .text (some row.slug)
  | slugEn, row => .text row.slugEn
  | slugEs, row => .text row.slugEs
  | content, row => .text (some row.content)
  | contentEn, row => .text row.contentEn
  | contentEs, row => .text row.contentEs
  | isPublished, row => .flag row.isPublished
  | allowComments, row => .flag row.allowComments
  | coverUrl, row => .text row.coverUrl
  | coverUrlEn, row => .text row.coverUrlEn
  | coverUrlEs, row => .text row.coverUrlEs
  | coverAlt, row => .text row.coverAlt
  | coverAltEn, row => .text row.coverAltEn
  | coverAltEs, row => .text row.coverAltEs
  | metaDescription, row => .text row.metaDescription
  | metaDescriptionEn, row => .text row.metaDescriptionEn
  | metaDescriptionEs, row => .text row.metaDescriptionEs

/-- What a body gives for a column, if it is defined. -/
def given : PostColumn → UpdatePostDto → Option ColumnValue
  | title, dto => dto.title.map (.text ∘ some)
  | titleEn, dto => dto.titleEn.map (.text ∘ some)
  | titleEs, dto => dto.titleEs.map (.text ∘ some)
  | slug, dto => dto.slug.map (.text ∘ some)
  | slugEn, dto => dto.slugEn.map (.text ∘ some)
  | slugEs, dto => dto.slugEs.map (.text ∘ some)
  | content, dto => dto.content.map (.text ∘ some)
  | contentEn, dto => dto.contentEn.map (.text ∘ some)
  | contentEs, dto => dto.contentEs.map (.text ∘ some)
  | isPublished, dto => dto.isPublished.map .flag
  | allowComments, dto => dto.allowComments.map .flag
  | coverUrl, dto => dto.coverUrl.map (.text ∘ some)
  | coverUrlEn, dto => dto.coverUrlEn.map (.text ∘ some)
  | coverUrlEs, dto => dto.coverUrlEs.map (.text ∘ some)
  | coverAlt, dto => dto.coverAlt.map (.text ∘ some)
  | coverAltEn, dto => dto.coverAltEn.map (.text ∘ some)
  | coverAltEs, dto => dto.coverAltEs.map (.text ∘ some)
  | metaDescription, dto => dto.metaDescription.map (.text ∘ some)
  | metaDescriptionEn, dto => dto.metaDescriptionEn.map (.text ∘ some)
  | metaDescriptionEs, dto => dto.metaDescriptionEs.map (.text ∘ some)

end PostColumn

/-- Every link leads to a topic. -/
def LinksValid (tables : PostTables) : Prop :=
  ∀ link ∈ tables.postsToTopics, ∃ topic ∈ tables.topics, topic.id = link.2

/-- The row after an edit, at a time: the fields of the body, and the dates. -/
structure MergedRow (updatePostDto : UpdatePostDto) (now : Nat) (old new : Post) : Prop where
  columns : ∀ column : PostColumn,
    column.stored new = (column.given updatePostDto).getD (column.stored old)
  updatedAt : new.updatedAt = now
  publishedAt : new.publishedAt =
    if old.publishedAt = none ∧ updatePostDto.isPublished = some true then some now
    else old.publishedAt
  kept : new.id = old.id ∧ new.authorId = old.authorId ∧ new.createdAt = old.createdAt

/-- The tables after an edit, and its answer. -/
structure MergedTables (id : String) (updatePostDto : UpdatePostDto) (now : Nat)
    (former tables : PostTables) (answer : PostWithTopics) : Prop where
  row : ∃ old, findPostById former.posts id = some old ∧
    findPostById tables.posts id = some answer.post ∧ MergedRow updatePostDto now old answer.post
  otherRows : tables.posts.filter (fun row => row.id != id) =
    former.posts.filter fun row => row.id != id
  links : ∀ topicId, (id, topicId) ∈ tables.postsToTopics ↔
    match updatePostDto.topicIds with
    | none => (id, topicId) ∈ former.postsToTopics
    | some topicIds => topicId ∈ topicIds
  otherLinks : ∀ link : String × String, link.1 ≠ id →
    (link ∈ tables.postsToTopics ↔ link ∈ former.postsToTopics)
  topics : tables.topics = former.topics
  answered : (∀ topic ∈ answer.topics, topic ∈ tables.topics) ∧
    ∀ topicId, (∃ topic ∈ answer.topics, topic.id = topicId) ↔ (id, topicId) ∈ tables.postsToTopics
  /-- The topics come in the order of the links, and each of them once. -/
  answeredInOrder : answer.topics.map Topic.id = (linksOf tables id).map Prod.snd ∧
    (former.postsToTopics.Nodup → (answer.topics.map Topic.id).Nodup)

section Merge

variable {id : String} {updatePostDto : UpdatePostDto} {now : Nat}
  {former tables : PostTables} {answer : PostWithTopics}

/-- A text of the body, or else what the row has. -/
theorem text_or (given stored : Option String) :
    ColumnValue.text (given.or stored) = (given.map (.text ∘ some)).getD (.text stored) := by
  cases given <;> rfl

/-- A text of the body, or else what the row has in a column that is never empty. -/
theorem text_getD (given : Option String) (stored : String) :
    ColumnValue.text (some (given.getD stored)) =
      (given.map (.text ∘ some)).getD (.text (some stored)) := by
  cases given <;> rfl

/-- A flag of the body, or else what the row has. -/
theorem flag_getD (given : Option Bool) (stored : Bool) :
    ColumnValue.flag (given.getD stored) = (given.map .flag).getD (.flag stored) := by
  cases given <;> rfl

/-- An edit of the row that it has read merges its body into it. -/
theorem mergedRow_postEdit (old : Post) :
    MergedRow updatePostDto now old (postEdit old updatePostDto now old) := by
  refine ⟨fun column => ?columns, rfl, ?publishedAt, rfl, rfl, rfl⟩
  case columns =>
    cases column <;>
      simp only [PostColumn.stored, PostColumn.given, postEdit, editedPost, text_or, text_getD,
        flag_getD]
  case publishedAt =>
    simp only [postEdit, editedPost, stampOf, shouldStampPublishedAt]
    obtain hnone | ⟨date, hdate⟩ := Option.eq_none_or_eq_some old.publishedAt
    · by_cases hpublished : updatePostDto.isPublished = some true <;> simp [hnone, hpublished]
    · simp [hdate]

/-- The links after an edit: those that there were, or new ones that lead to topics. -/
def Relinked (id : String) (former tables : PostTables) : Option (List String) → Prop
  | none => tables.postsToTopics = former.postsToTopics
  | some topicIds =>
    tables.postsToTopics = (former.postsToTopics.filter fun link => link.1 != id) ++
      topicIds.map (fun topicId => (id, topicId)) ∧
    ∀ topicId ∈ topicIds, ∃ topic ∈ former.topics, topic.id = topicId

/-- The links and the topics after a transaction. -/
theorem links_of_updateTransaction {f : Post → Post} {topicIds : Option (List String)}
    (h : updateTransaction former id f topicIds = .ok (tables, answer)) :
    tables.topics = former.topics ∧ answer = withFlattenedTopics tables answer.post ∧
      Relinked id former tables topicIds ∧
      (former.postsToTopics.Nodup → tables.postsToTopics.Nodup) := by
  simp only [updateTransaction] at h
  split at h
  · cases h
  · cases h
  · next posts row hupdate =>
    cases topicIds with
    | none =>
      obtain ⟨rfl, rfl⟩ := Prod.mk.inj (Except.ok.inj h)
      exact ⟨rfl, rfl, rfl, fun hnodup => hnodup⟩
    | some topicIds =>
      simp only at h
      split at h
      · cases h
      · next linked hlinked =>
        obtain ⟨rfl, rfl⟩ := Prod.mk.inj (Except.ok.inj h)
        obtain ⟨rfl, hlinks, htopics⟩ := linkTopics_eq_ok hlinked
        refine ⟨rfl, rfl, ⟨rfl, htopics⟩, fun hnodup => ?_⟩
        by_cases hempty : topicIds = []
        · subst hempty
          simp only [List.map_nil, List.append_nil]
          exact hnodup.filter _
        · exact hlinks hempty

/-- A transaction that goes through merges the body into the row, and the topics into the links. -/
theorem mergedTables_of_updateTransaction {existing : Post} (hvalid : LinksValid former)
    (hread : findPostById former.posts id = some existing)
    (h : updateTransaction former id (postEdit existing updatePostDto now) updatePostDto.topicIds =
      .ok (tables, answer)) : MergedTables id updatePostDto now former tables answer := by
  obtain ⟨old, hold, -, hposts, hpost⟩ := updateTransaction_eq_ok h
  obtain ⟨old', hold', -, hfound⟩ := findPostById_updateTransaction h fun _ => rfl
  obtain rfl := Option.some.inj (hread.symm.trans hold)
  obtain rfl := Option.some.inj (hread.symm.trans hold')
  have hid : answer.post.id = id := by
    rw [hpost]
    exact (id_of_findPostById hread : existing.id = id)
  obtain ⟨htopics, hanswer, hlinks, hnodup⟩ := links_of_updateTransaction h
  have hpair : ∀ link : String × String, link ∈ tables.postsToTopics ↔
      if link.1 = id then
        match updatePostDto.topicIds with
        | none => link ∈ former.postsToTopics
        | some topicIds => link.2 ∈ topicIds
      else link ∈ former.postsToTopics := by
    rintro ⟨postId, topicId⟩
    cases htopicIds : updatePostDto.topicIds with
    | none =>
      rw [htopicIds] at hlinks
      simp only [show tables.postsToTopics = _ from hlinks, ite_self]
    | some topicIds =>
      rw [htopicIds] at hlinks
      by_cases hpostId : postId = id
      · simp [hlinks.1, hpostId]
      · simp [hlinks.1, hpostId, Ne.symm hpostId]
  -- A link that is kept led to a topic before, and the insert has checked the new ones.
  have hvalid' : ∀ topicId, (id, topicId) ∈ tables.postsToTopics →
      ∃ topic ∈ tables.topics, topic.id = topicId := by
    intro topicId hlink
    rw [htopics]
    have hkept := (hpair _).mp hlink
    simp only [if_true] at hkept
    cases htopicIds : updatePostDto.topicIds with
    | none =>
      simp only [htopicIds] at hkept
      exact hvalid _ hkept
    | some topicIds =>
      simp only [htopicIds] at hkept
      rw [htopicIds] at hlinks
      exact hlinks.2 topicId hkept
  have hids : answer.topics.map Topic.id = (linksOf tables id).map Prod.snd := by
    rw [hanswer, ← hid]
    refine map_id_withFlattenedTopics fun link hlink => ?_
    obtain ⟨hmem, hfirst⟩ := List.mem_filter.mp hlink
    rw [hid] at hfirst
    exact hvalid' link.2 (beq_iff_eq.mp hfirst ▸ hmem)
  refine ⟨⟨existing, hread, hpost ▸ hfound, hpost ▸ mergedRow_postEdit existing⟩, ?otherRows,
    fun topicId => ?links, fun link hne => ?otherLinks, htopics, ?answered, hids, fun hformer =>
      hids ▸ nodup_linksOf (hnodup hformer) id⟩
  case otherRows =>
    rw [hposts]
    exact filter_updateWhere_ne fun _ => rfl
  case links => simpa only [if_true] using hpair (id, topicId)
  case otherLinks => simpa only [hne, if_false] using hpair link
  case answered =>
    refine ⟨fun topic htopic => mem_of_withFlattenedTopics (hanswer ▸ htopic), fun topicId => ?_⟩
    have hmem : (∃ topic ∈ answer.topics, topic.id = topicId) ↔
        topicId ∈ answer.topics.map Topic.id := List.mem_map.symm
    rw [hmem, hids]
    simp [linksOf]

end Merge

/-- The row that an edit reads is still the one that its transaction meets. -/
def ReadHolds (id : String) (turns : List (Turn Store ThrownError)) (s : Store) : Prop :=
  findPostById (Turn.changed 3 turns s).posts id = findPostById (Turn.changed 1 turns s).posts id

section Atomicity

variable {publicUrlPrefix id : String} {updatePostDto : UpdatePostDto}
  {turns : List (Turn Store ThrownError)} {s : Store}

/-- An edit fails at its read or at its transaction. -/
theorem updateSteps_eq_error {n : Nat} {failure : Failure}
    (h : updateSteps id updatePostDto turns s = .error (n, failure)) : n ≤ 3 := by
  simp only [updateSteps] at h
  split at h
  · grind
  · split at h
    · grind
    · split at h
      · grind
      · split at h <;> grind

/-- An edit that fails changes nothing. -/
theorem update_atomic {failure : Failure}
    (h : ((PostsService.update publicUrlPrefix id updatePostDto).run (storeTurns turns) s).result =
      .error failure) : ∃ n ≤ 3,
    ((PostsService.update publicUrlPrefix id updatePostDto).run (storeTurns turns) s).state =
      Turn.changed n turns s := by
  obtain ⟨later, hrun⟩ := @run_update publicUrlPrefix id updatePostDto turns s
  rw [hrun] at h ⊢
  cases hsteps : updateSteps id updatePostDto turns s with
  | ok outcome =>
    rw [hsteps] at h
    cases h
  | error outcome => exact ⟨outcome.1, updateSteps_eq_error hsteps, rfl⟩

/-- An edit that goes through writes its merge, and deletes media after that. -/
theorem update_merge {updated : PostsService.PostWithAuthor}
    (h : ((PostsService.update publicUrlPrefix id updatePostDto).run (storeTurns turns) s).result =
      .ok updated) (hread : ReadHolds id turns s)
    (hvalid : LinksValid (Turn.changed 3 turns s).blog) : ∃ tables keys,
    MergedTables id updatePostDto (Turn.changed 2 turns s).clock (Turn.changed 3 turns s).blog
        tables updated.toPostWithTopics ∧
      ((PostsService.update publicUrlPrefix id updatePostDto).run (storeTurns turns) s).state =
        afterDelete keys turns.tail.tail.tail ((Turn.changed 3 turns s).withBlog tables) := by
  obtain ⟨later, hrun⟩ := @run_update publicUrlPrefix id updatePostDto turns s
  rw [hrun] at h ⊢
  cases hsteps : updateSteps id updatePostDto turns s with
  | error outcome =>
    rw [hsteps] at h
    cases h
  | ok outcome =>
    obtain ⟨existing, tables, answer⟩ := outcome
    rw [hsteps] at h
    obtain rfl := Except.ok.inj h
    obtain ⟨hexisting, htransaction⟩ := updateSteps_eq_ok hsteps
    exact ⟨tables, removedMediaKeys publicUrlPrefix existing answer.post,
      mergedTables_of_updateTransaction hvalid (hread.trans hexisting) htransaction, rfl⟩

/-- Edits are atomic merges: one that fails leaves the tables and the bucket as the other calls
have made them, and one that goes through merges its body into the row that it has read and
its topics into the links, and changes nothing else before it deletes media. -/
theorem update_atomic_merge (publicUrlPrefix id : String) (updatePostDto : UpdatePostDto)
    (turns : List (Turn Store ThrownError)) (s : Store) :
    let ending := (PostsService.update publicUrlPrefix id updatePostDto).run (storeTurns turns) s
    (∀ failure, ending.result = .error failure →
      ∃ n ≤ 3, ending.state = Turn.changed n turns s) ∧
    ∀ updated, ending.result = .ok updated → ReadHolds id turns s →
      LinksValid (Turn.changed 3 turns s).blog → ∃ tables keys,
        MergedTables id updatePostDto (Turn.changed 2 turns s).clock (Turn.changed 3 turns s).blog
            tables updated.toPostWithTopics ∧
          ending.state =
            afterDelete keys turns.tail.tail.tail ((Turn.changed 3 turns s).withBlog tables) :=
  ⟨fun _ => update_atomic, fun _ => update_merge⟩

end Atomicity

/-- A draft under one of two topics. -/
def taggedDraft : Store :=
  { Store.empty with
    posts := [newPost ⟨bareFields, "t", "s", "c"⟩ "ada" "post" none 0]
    topics := [⟨"a", "A", "a", 0⟩, ⟨"b", "B", "b", 0⟩]
    postsToTopics := [("post", "a")] }

/-- A body that publishes a post under the other one. -/
def retaggingEdit : UpdatePostDto where
  toOptionalPostFields := { bareFields with isPublished := some true, topicIds := some ["b"] }
  title := none
  slug := none
  content := none

/-- The edit goes through and moves the post. -/
theorem update_atomic_merge_taggedDraft : ∃ updated tables,
    ((PostsService.update "https://media/" "post" retaggingEdit).run [] taggedDraft).result =
      .ok updated ∧
    MergedTables "post" retaggingEdit 0 taggedDraft.blog tables updated.toPostWithTopics := by
  obtain ⟨updated, hupdated⟩ : ∃ updated,
      ((PostsService.update "https://media/" "post" retaggingEdit).run [] taggedDraft).result =
        .ok updated := ⟨_, rfl⟩
  have hvalid : LinksValid taggedDraft.blog := by
    simp [LinksValid, taggedDraft, Store.blog]
  obtain ⟨tables, -, hmerged, -⟩ :=
    (update_atomic_merge "https://media/" "post" retaggingEdit [] taggedDraft).2 updated hupdated
      rfl hvalid
  exact ⟨updated, tables, hupdated, hmerged⟩

end VertexApi.App
