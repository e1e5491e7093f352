import VertexApi.Posts.PostsService

/-!
# Publish dates

A post gets its publish date with the write that publishes it, and keeps some date from
then on, whatever edits overlap: an edit that has read a date never clears it. The date
itself may change, when two edits have both read the post without one.
-/

namespace VertexApi.Posts

/-- The column that migration 0016 adds, empty. -/
def addPublishedAt (posts : List Post) : List Post :=
  posts.map fun post => { post with publishedAt := none }

/-- The backfill of migration 0016. -/
def backfillPublishedAt (posts : List Post) : List Post :=
  posts.map fun post =>
    if post.isPublished = true ∧ post.publishedAt = none then
      { post with publishedAt := some post.createdAt }
    else post

/-- The tables after migration 0016. -/
def migration0016 (tables : PostTables) : PostTables :=
  { tables with posts := backfillPublishedAt (addPublishedAt tables.posts) }

/-- Every published post has a date. -/
def Dated (posts : List Post) : Prop :=
  ∀ post ∈ posts, post.isPublished = true → post.publishedAt.isSome = true

/-- The step clears no date. -/
def KeepsDated (config : PostsConfig) (s : PostsState) (label : PostLabel) : Prop :=
  ∀ t, (blog config).step s label = some t → ∀ post ∈ s.tables.posts, ∀ after ∈ t.tables.posts,
    after.id = post.id → post.publishedAt.isSome = true → after.publishedAt.isSome = true

/-- The step changes no date. -/
def KeepsDates (config : PostsConfig) (s : PostsState) (label : PostLabel) : Prop :=
  ∀ t, (blog config).step s label = some t → ∀ post ∈ s.tables.posts, ∀ after ∈ t.tables.posts,
    after.id = post.id → ∀ date, post.publishedAt = some date → after.publishedAt = some date

/-- The post to which a step stamps a date, and the date, when the edit goes through. -/
def stampedBy (s : PostsState) : PostLabel → Option (String × Nat)
  | .call id .commit =>
    match s.calls id with
    | some (.commit existing updatePostDto now) =>
      match updateTransaction s.tables existing.id (postEdit existing updatePostDto now)
        updatePostDto.topicIds with
      | .ok _ => (stampOf existing updatePostDto now).map fun date => (existing.id, date)
      | .error _ => none
    | _ => none
  | _ => none

/-- An edit that stamps a date finds the post without one, or with the same. -/
def StampsUndated (s : PostsState) (label : PostLabel) : Prop :=
  ∀ stamp ∈ stampedBy s label, ∀ row ∈ s.tables.posts, row.id = stamp.1 →
    row.publishedAt = none ∨ row.publishedAt = some stamp.2

instance decidableStampsUndated (s : PostsState) (label : PostLabel) :
    Decidable (StampsUndated s label) :=
  inferInstanceAs (Decidable (∀ stamp ∈ stampedBy s label, ∀ row ∈ s.tables.posts,
    row.id = stamp.1 → row.publishedAt = none ∨ row.publishedAt = some stamp.2))

/-- The row that a call has read. -/
def PostPhase.snapshot : PostPhase → Option Post
  | .stamp existing _ | .commit existing _ _ => some existing
  | _ => none

/-- What the phase of a call knows of dates: a post that it has read with one still has one,
and a post that it is about to publish gets one. -/
structure PhaseDated (posts : List Post) (usedIds : List String) (phase : PostPhase) : Prop where
  used : ∀ existing, phase.snapshot = some existing → existing.id ∈ usedIds
  snapshot : ∀ existing, phase.snapshot = some existing → existing.publishedAt.isSome = true →
    ∀ row ∈ posts, row.id = existing.id → row.publishedAt.isSome = true
  new : ∀ createPostDto authorId publishedAt,
    phase = .insert createPostDto authorId publishedAt →
    createPostDto.isPublished = some true → publishedAt.isSome = true

/-- Published posts have dates, and calls act on them. -/
structure PublishDated (s : PostsState) : Prop where
  numbered : Numbered s
  dated : Dated s.tables.posts
  calls : ∀ id phase, s.calls id = some phase → PhaseDated s.tables.posts s.usedIds phase

section Steps

variable {config : PostsConfig} {s t m : PostsState} {label : PostLabel} {phase after : PostPhase}

/-- An edit keeps a date. -/
theorem postEdit_publishedAt_isSome {existing row : Post} {updatePostDto : UpdatePostDto}
    {now : Nat} (h : row.publishedAt.isSome = true) :
    (postEdit existing updatePostDto now row).publishedAt.isSome = true := by
  have hor : (postEdit existing updatePostDto now row).publishedAt =
      (stampOf existing updatePostDto now).or row.publishedAt := rfl
  rw [hor, Option.isSome_or, h, Bool.or_true]

/-- An edit that publishes a post leaves it with a date, if what it has read does. -/
theorem postEdit_dated {existing row : Post} {updatePostDto : UpdatePostDto} {now : Nat}
    (hrow : row.isPublished = true → row.publishedAt.isSome = true)
    (hexisting : existing.publishedAt.isSome = true → row.publishedAt.isSome = true)
    (h : (postEdit existing updatePostDto now row).isPublished = true) :
    (postEdit existing updatePostDto now row).publishedAt.isSome = true := by
  have hpublished : updatePostDto.isPublished.getD row.isPublished = true := h
  cases hsent : updatePostDto.isPublished with
  | none =>
    rw [hsent, Option.getD_none] at hpublished
    exact postEdit_publishedAt_isSome (hrow hpublished)
  | some isPublished =>
    rw [hsent, Option.getD_some] at hpublished
    cases hdate : existing.publishedAt with
    | some date => exact postEdit_publishedAt_isSome (hexisting (by rw [hdate, Option.isSome_some]))
    | none =>
      simp only [postEdit, editedPost, stampOf, shouldStampPublishedAt, hdate, hsent, hpublished,
        Option.isNone_none, beq_self_eq_true, Bool.and_self, if_true, Option.some_or,
        Option.isSome_some]

/-- A new post that is published has a date. -/
theorem newPost_dated {createPostDto : CreatePostDto} {authorId postId : String}
    {publishedAt : Option Nat} {now : Nat}
    (hnew : createPostDto.isPublished = some true → publishedAt.isSome = true)
    (h : (newPost createPostDto authorId postId publishedAt now).isPublished = true) :
    (newPost createPostDto authorId postId publishedAt now).publishedAt.isSome = true := by
  refine hnew ?_
  have hpublished : createPostDto.isPublished.getD false = true := h
  cases hsent : createPostDto.isPublished with
  | none =>
    rw [hsent] at hpublished
    cases hpublished
  | some isPublished =>
    rw [hsent, Option.getD_some] at hpublished
    rw [hpublished]

/-- A row whose id was in use before a move has a former version, whose date it keeps. -/
theorem former_of_row {step : PostStep}
    (hmoves : PostMoves config s phase step m after) {row : Post}
    (hrow : row ∈ m.tables.posts) (hused : row.id ∈ s.usedIds) :
    ∃ former ∈ s.tables.posts, former.id = row.id ∧
      (former.publishedAt.isSome = true → row.publishedAt.isSome = true) := by
  rcases hmoves.row_cases hrow with hrow | ⟨existing, updatePostDto, now, former, -, -, hformer,
      -, rfl⟩ | ⟨createPostDto, authorId, publishedAt, postId, -, hfresh, rfl⟩
  · exact ⟨row, hrow, rfl, id⟩
  · exact ⟨former, hformer, rfl, postEdit_publishedAt_isSome⟩
  · exact absurd hused hfresh

/-- A row that is there before and after a move keeps its date. -/
theorem keepsDated_of_moves (h : Numbered s) {step : PostStep}
    (hmoves : PostMoves config s phase step m after)
    {post row : Post} (hpost : post ∈ s.tables.posts) (hrow : row ∈ m.tables.posts)
    (hid : row.id = post.id) (hdate : post.publishedAt.isSome = true) :
    row.publishedAt.isSome = true := by
  obtain ⟨former, hformer, hformerId, hkeeps⟩ := former_of_row hmoves hrow (hid ▸ h.used post hpost)
  obtain rfl := h.unique.eq_of_id hformer hpost (hformerId.trans hid)
  exact hkeeps hdate

/-- No step clears a date. -/
theorem keepsDated (config : PostsConfig) (h : Numbered s) (label : PostLabel) :
    KeepsDated config s label := by
  intro t hstep post hpost row hrow hid hdate
  rcases blog_step_cases hstep with ⟨hposts, -⟩ | ⟨id, step, phase, -, -, -, rfl⟩ |
    ⟨id, step, phase, m, after, -, -, hmoves, rfl⟩
  · rw [hposts] at hrow
    obtain rfl := h.unique.eq_of_id hrow hpost hid
    exact hdate
  · obtain rfl := h.unique.eq_of_id hrow hpost hid
    exact hdate
  · exact keepsDated_of_moves h hmoves hpost hrow hid hdate

/-- The move of another call keeps what a phase knows. -/
theorem PhaseDated.move {step : PostStep} (hmoves : PostMoves config s phase step m after)
    {other : PostPhase} (hother : PhaseDated s.tables.posts s.usedIds other) :
    PhaseDated m.tables.posts m.usedIds other where
  used existing hsnapshot := hmoves.usedIds_subset (hother.used existing hsnapshot)
  snapshot existing hsnapshot hdate row hrow hid := by
    have hused := hother.used existing hsnapshot
    obtain ⟨former, hformer, hformerId, hkeeps⟩ := former_of_row hmoves hrow (hid ▸ hused)
    exact hkeeps (hother.snapshot existing hsnapshot hdate former hformer (hformerId.trans hid))
  new := hother.new

/-- A phase that has read nothing and inserts nothing knows nothing. -/
theorem phaseDated_of_snapshot_eq_none {posts : List Post} {usedIds : List String}
    (hsnapshot : phase.snapshot = none)
    (hnew : ∀ createPostDto authorId publishedAt,
      phase ≠ .insert createPostDto authorId publishedAt) : PhaseDated posts usedIds phase where
  used existing h := by
    rw [hsnapshot] at h
    cases h
  snapshot existing h := by
    rw [hsnapshot] at h
    cases h
  new createPostDto authorId publishedAt h := absurd h (hnew createPostDto authorId publishedAt)

/-- What follows a write has read nothing. -/
theorem phaseDated_afterWrite {posts : List Post} {usedIds : List String} (keys : List String)
    (answer : PostAnswer) : PhaseDated posts usedIds (afterWrite keys answer) := by
  simp only [afterWrite]
  split
  · exact phaseDated_of_snapshot_eq_none rfl fun _ _ _ => PostPhase.noConfusion
  · exact phaseDated_of_snapshot_eq_none rfl fun _ _ _ => PostPhase.noConfusion

/-- A call starts with nothing read. -/
theorem phaseDated_startPhase {posts : List Post} {usedIds : List String} {step : PostStep}
    (h : startPhase config step = some phase) : PhaseDated posts usedIds phase := by
  rcases startPhase_cases h with ⟨_, _, rfl⟩ | ⟨_, _, rfl⟩ | ⟨_, rfl⟩
  · exact phaseDated_of_snapshot_eq_none rfl fun _ _ _ => PostPhase.noConfusion
  · exact phaseDated_of_snapshot_eq_none rfl fun _ _ _ => PostPhase.noConfusion
  · exact phaseDated_of_snapshot_eq_none rfl fun _ _ _ => PostPhase.noConfusion

/-- The phase that a move leads to knows of dates what its call has read. -/
theorem phaseDated_after (h : Numbered s) {step : PostStep}
    (hphase : PhaseDated s.tables.posts s.usedIds phase)
    (hmoves : PostMoves config s phase step m after) :
    PhaseDated m.tables.posts m.usedIds after := by
  cases hmoves with
  | stampedNew =>
    refine ⟨?used, ?snapshot, ?new⟩
    case used => rintro existing ⟨⟩
    case snapshot => rintro existing ⟨⟩
    case new =>
      intro createPostDto authorId publishedAt hinsert hsent
      cases hinsert
      simp only [createdPublishedAt, hsent, if_true, Option.isSome_some]
  | @found postId updatePostDto existing hexisting =>
    have hmem := mem_of_findPostById hexisting
    refine ⟨?used, ?snapshot, fun _ _ _ => PostPhase.noConfusion⟩
    case used =>
      intro read hread
      obtain rfl := Option.some.inj hread
      exact h.used existing hmem
    case snapshot =>
      intro read hread hdate row hrow hid
      obtain rfl := Option.some.inj hread
      rwa [h.unique.eq_of_id hrow hmem hid]
  | stamped => exact ⟨hphase.used, hphase.snapshot, fun _ _ _ => PostPhase.noConfusion⟩
  | committed => exact phaseDated_afterWrite _ _
  | erased => exact phaseDated_afterWrite _ _
  | inserted | insertFailed | absent | commitFailed | eraseAbsent | deletedMedia | failed =>
    exact phaseDated_of_snapshot_eq_none rfl fun _ _ _ => PostPhase.noConfusion

/-- A move leaves every published post with a date. -/
theorem dated_of_moves (hdated : Dated s.tables.posts) {step : PostStep}
    (hphase : PhaseDated s.tables.posts s.usedIds phase)
    (hmoves : PostMoves config s phase step m after) : Dated m.tables.posts := by
  intro row hrow hpublished
  rcases hmoves.row_cases hrow with hrow | ⟨existing, updatePostDto, now, former, rfl, -, hformer,
      hid, rfl⟩ | ⟨createPostDto, authorId, publishedAt, postId, rfl, -, rfl⟩
  · exact hdated row hrow hpublished
  · have hread : existing.publishedAt.isSome = true → former.publishedAt.isSome = true :=
      fun hdate => hphase.snapshot existing rfl hdate former hformer hid
    exact postEdit_dated (hdated former hformer) hread hpublished
  · exact newPost_dated (hphase.new createPostDto authorId publishedAt rfl) hpublished

/-- Every step leaves published posts with dates. -/
theorem PublishDated.step (h : PublishDated s) (hstep : (blog config).step s label = some t) :
    PublishDated t := by
  have hnumbered := h.numbered.step hstep
  rcases blog_step_cases hstep with ⟨hposts, hused, hcalls, -⟩ |
    ⟨id, step, phase, -, -, hstart, rfl⟩ | ⟨id, step, phase, m, after, -, hcall, hmoves, rfl⟩
  · refine ⟨hnumbered, hposts ▸ h.dated, fun id phase hcall => ?_⟩
    rw [hcalls] at hcall
    rw [hposts, hused]
    exact h.calls id phase hcall
  · refine ⟨hnumbered, h.dated, fun other phase' hcall => ?_⟩
    rcases update_eq_some_iff.mp hcall with ⟨-, rfl⟩ | ⟨-, hcall⟩
    · exact phaseDated_startPhase hstart
    · exact h.calls other phase' hcall
  · have hphase := h.calls id phase hcall
    have hdated : Dated m.tables.posts := dated_of_moves h.dated hphase hmoves
    refine ⟨hnumbered, hdated, fun other phase' hother => ?_⟩
    change PhaseDated m.tables.posts m.usedIds phase'
    rcases update_eq_some_iff.mp hother with ⟨-, rfl⟩ | ⟨-, hother⟩
    · exact phaseDated_after h.numbered hphase hmoves
    · rw [hmoves.calls_eq] at hother
      exact (h.calls other phase' hother).move hmoves

/-- The stamp of an edit that goes through. -/
theorem stampedBy_eq_some {id : Nat} {step : PostStep} {stamp : String × Nat} :
    stampedBy s (.call id step) = some stamp ↔ ∃ existing updatePostDto now,
      s.calls id = some (.commit existing updatePostDto now) ∧
      Commits s existing updatePostDto now step ∧
      stampOf existing updatePostDto now = some stamp.2 ∧ existing.id = stamp.1 := by
  constructor
  · intro h
    simp only [stampedBy] at h
    split at h
    · next hlabel =>
      obtain ⟨rfl, rfl⟩ := PostLabel.call.inj hlabel
      split at h
      · next existing updatePostDto now hcall =>
        split at h
        · next hcommit =>
          obtain ⟨date, hdate, rfl⟩ := Option.map_eq_some_iff.mp h
          exact ⟨existing, updatePostDto, now, hcall, ⟨rfl, _, hcommit⟩, hdate, rfl⟩
        · cases h
      · cases h
    · cases h
  · obtain ⟨postId, date⟩ := stamp
    rintro ⟨existing, updatePostDto, now, hcall, ⟨rfl, result, hcommit⟩, hdate, hid⟩
    obtain rfl : existing.id = postId := hid
    simp only [stampedBy, hcall, hcommit, hdate, Option.map_some]

/-- An edit leaves the date that it stamps, or else the date of the row. -/
theorem postEdit_publishedAt (existing row : Post) (updatePostDto : UpdatePostDto) (now : Nat) :
    (postEdit existing updatePostDto now row).publishedAt =
      (stampOf existing updatePostDto now).or row.publishedAt := rfl

/-- A step whose stamp meets no other date changes no date. -/
theorem keepsDates_of_stampsUndated (h : Numbered s) (hlabel : StampsUndated s label) :
    KeepsDates config s label := by
  intro t hstep post hpost row hrow hid date hdate
  have hused : row.id ∈ s.usedIds := hid ▸ h.used post hpost
  rcases blog_step_cases hstep with ⟨hposts, -⟩ | ⟨id, step, phase, -, -, -, rfl⟩ |
    ⟨id, step, phase, m, after, rfl, hcall, hmoves, rfl⟩
  · rw [hposts] at hrow
    rwa [h.unique.eq_of_id hrow hpost hid]
  · rwa [h.unique.eq_of_id hrow hpost hid]
  · rcases hmoves.row_cases hrow with hrow | ⟨existing, updatePostDto, now, former, rfl, hcommits,
        hformer, hformerId, rfl⟩ | ⟨createPostDto, authorId, publishedAt, postId, -, hfresh, rfl⟩
    · rwa [h.unique.eq_of_id hrow hpost hid]
    · obtain rfl := h.unique.eq_of_id hformer hpost hid
      rw [postEdit_publishedAt]
      cases hstamp : stampOf existing updatePostDto now with
      | none => rwa [Option.none_or]
      | some stamp =>
        have hstamped : stampedBy s (.call id step) = some (existing.id, stamp) :=
          stampedBy_eq_some.mpr ⟨existing, updatePostDto, now, hcall, hcommits, hstamp, rfl⟩
        rcases hlabel _ hstamped former hformer hformerId with hnone | hsame
        · rw [hnone] at hdate
          cases hdate
        · rwa [Option.some_or, ← hsame]
    · exact absurd hused hfresh

/-- A step that changes no date meets none with its stamp. -/
theorem stampsUndated_of_keepsDates (hkeeps : KeepsDates config s label) :
    StampsUndated s label := by
  intro stamp hstamp row hrow hid
  cases label with
  | tick | topics => cases hstamp
  | call id step =>
    obtain ⟨existing, updatePostDto, now, hcall, hcommits, hdate, hexisting⟩ :=
      stampedBy_eq_some.mp hstamp
    obtain ⟨t, updated, hstep, hupdate, -⟩ := hcommits.exists_step config hcall
    obtain ⟨old, -, -, hposts, -⟩ := updateTransaction_eq_ok hupdate
    have hmem : postEdit existing updatePostDto now row ∈ t.tables.posts := by
      rw [hposts]
      exact mem_updateWhere.mpr (Or.inl ⟨row, hrow, hid.trans hexisting.symm, rfl⟩)
    cases hrowDate : row.publishedAt with
    | none => exact Or.inl rfl
    | some date =>
      have hkept := hkeeps t hstep row hrow _ hmem rfl date hrowDate
      rw [postEdit_publishedAt, hdate, Option.some_or] at hkept
      exact Or.inr hkept.symm

end Steps

/-- Backfilled posts are dated. -/
theorem dated_backfillPublishedAt (posts : List Post) : Dated (backfillPublishedAt posts) := by
  intro post hpost hpublished
  obtain ⟨old, -, rfl⟩ := List.mem_map.mp hpost
  split
  · rfl
  · next hnot =>
    rw [if_neg hnot] at hpublished
    exact Option.ne_none_iff_isSome.mp fun hdate => hnot ⟨hpublished, hdate⟩

/-- The migration changes no unique column. -/
theorem uniquePosts_migration0016 {tables : PostTables} (h : UniquePosts tables.posts) :
    UniquePosts (migration0016 tables).posts := by
  have hadd : UniquePosts (addPublishedAt tables.posts) := h.map fun _ => ⟨rfl, rfl, rfl, rfl⟩
  refine hadd.map fun row => ?_
  split
  · exact ⟨rfl, rfl, rfl, rfl⟩
  · exact ⟨rfl, rfl, rfl, rfl⟩

/-- In every run from the state that the migration left, every published post has a date, no
step clears a date, and the public listing sorts dates only. -/
theorem published_dated (config : PostsConfig) (clock : Nat) (tables : PostTables)
    (hunique : UniquePosts tables.posts) (labels : List PostLabel) (s : PostsState)
    (hrun : (blog config).exec (.initial clock (migration0016 tables)) labels = some s) :
    Dated s.tables.posts ∧
    (blog config).Meets (KeepsDated config) (.initial clock (migration0016 tables)) labels ∧
    ∀ post ∈ findAllPublished s.tables.posts, post.publishedAt.isSome = true := by
  have hnumbered := numbered_initial clock (uniquePosts_migration0016 hunique)
  have hinitial : PublishDated (.initial clock (migration0016 tables)) :=
    ⟨hnumbered, dated_backfillPublishedAt _, fun _ _ h => (Option.some_ne_none _ h.symm).elim⟩
  have hdated : Dated s.tables.posts :=
    ((blog config).exec_invariant hinitial (fun _ _ _ h hstep => h.step hstep) hrun).dated
  refine ⟨hdated, ?keeps, ?listed⟩
  case keeps =>
    exact (blog config).meets_of_invariant (fun _ _ _ h hstep => Numbered.step h hstep)
      (fun _ label h => keepsDated config h label) hnumbered labels
  case listed =>
    intro post hpost
    obtain ⟨hmem, hpublished⟩ := List.mem_filter.mp (List.mem_mergeSort.mp hpost)
    exact hdated post hmem hpublished

/-- The body of an edit that publishes a post, or takes it back. -/
def publishInput (isPublished : Bool) : PostInput :=
  { bareEdit with isPublished := some isPublished }

/-- A blog with one post that was published before posts had dates. -/
def undatedTables : PostTables where
  posts :=
    [newPost ⟨{ bareFields with isPublished := some true }, "t", "s", "c"⟩ "author" "a" none 5]
  topics := []
  postsToTopics := []

/-- The post is taken back and published again. -/
def republishedOld : PostsState :=
  (blog openPosts).run (.initial 7 (migration0016 undatedTables))
    (updateLabels 0 "a" (publishInput false) ++ updateLabels 1 "a" (publishInput true))
    (by decide +kernel)

/-- It keeps the date of its creation. -/
theorem published_dated_republishedOld : Dated republishedOld.tables.posts ∧
    republishedOld.tables.posts.map Post.publishedAt = [some 5] :=
  ⟨(published_dated openPosts 7 undatedTables (UniqueColumns.singleton _) _ republishedOld
    ((blog openPosts).exec_run ..)).1, by decide +kernel⟩

/-- A run changes no publish date exactly if every edit that goes through and stamps one finds
the post still without a date, or with the same. -/
theorem keepsDates_iff (config : PostsConfig) (clock : Nat) (tables : PostTables)
    (hunique : UniquePosts tables.posts) (labels : List PostLabel) :
    (blog config).Meets (KeepsDates config) (.initial clock tables) labels ↔
      (blog config).Meets StampsUndated (.initial clock tables) labels :=
  (blog config).meets_iff_of_invariant (fun _ _ _ h _ hstep => Numbered.step h hstep)
    (fun _ _ h => ⟨stampsUndated_of_keepsDates, keepsDates_of_stampsUndated h⟩)
    (numbered_initial clock hunique) labels

/-- A draft that is published, taken back, and published again. -/
def republishLabels : List PostLabel :=
  createLabels 0 (bareInput "s") "a" ++ .tick 1 :: updateLabels 1 "a" (publishInput true) ++
    .tick 1 :: updateLabels 2 "a" (publishInput false) ++
    .tick 1 :: updateLabels 3 "a" (publishInput true)

/-- The edits find no date that is not theirs. -/
theorem keepsDates_iff_republish :
    (blog openPosts).Meets (KeepsDates openPosts) emptyBlog republishLabels :=
  (keepsDates_iff openPosts 0 ⟨[], [], []⟩ .nil republishLabels).mpr (by decide +kernel)

/-- A draft that two edits have read, of which one has published it. -/
def onceStamped : PostsState :=
  (blog openPosts).run emptyBlog (createLabels 0 (bareInput "s") "a" ++
    [.call 1 (.update "a" (publishInput true)), .call 1 .find,
      .call 2 (.update "a" (publishInput true)), .call 2 .find,
      .tick 1, .call 1 .stamp, .call 1 .commit]) (by decide +kernel)

/-- The other edit publishes it as well. -/
def twiceStamped : PostsState :=
  (blog openPosts).run onceStamped [.tick 1, .call 2 .stamp, .call 2 .commit] (by decide +kernel)

/-- The date of the first edit is replaced by that of the other. -/
theorem not_keepsDates_twiceStamped :
    onceStamped.tables.posts.map (fun post => (post.id, post.publishedAt)) = [("a", some 1)] ∧
    (blog openPosts).exec onceStamped [.tick 1, .call 2 .stamp, .call 2 .commit] =
      some twiceStamped ∧
    twiceStamped.tables.posts.map (fun post => (post.id, post.publishedAt)) = [("a", some 2)] :=
  ⟨by decide +kernel, (blog openPosts).exec_run .., by decide +kernel⟩

end VertexApi.Posts
