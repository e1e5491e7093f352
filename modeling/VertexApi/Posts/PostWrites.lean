import VertexApi.Posts.PostsService

/-!
# Writes to posts

A step that writes to the posts puts in a row, replaces one, or takes one out. It is known
from the state in front of it: the row that its call has read, and the row that it leaves.
What the first one shows and the other does not are the objects that the call deletes next.
-/

namespace VertexApi.Posts

/-- A write to the posts: the row that its call has read, and the one that it leaves. -/
structure PostWrite where
  postId : String
  read : Option Post
  row : Option Post
  deriving DecidableEq, Repr

/-- The keys whose objects a call deletes after a write. -/
def PostWrite.droppedKeys (publicUrlPrefix : String) (write : PostWrite) : List String :=
  match write.read, write.row with
  | none, _ => []
  | some read, none => collectMediaKeys publicUrlPrefix read
  | some read, some row => removedMediaKeys publicUrlPrefix read row

/-- The write of a step, when it goes through. -/
def postWrite (s : PostsState) : PostLabel → Option PostWrite
  | .call id step =>
    match s.calls id, step with
    | some (.insert createPostDto authorId publishedAt), .insert postId =>
      if postId ∈ s.usedIds then none
      else (createTransaction s.tables (newPost createPostDto authorId postId publishedAt s.clock)
        createPostDto.topicIds).toOption.map fun result => ⟨postId, none, some result.2.post⟩
    | some (.commit existing updatePostDto now), .commit =>
      (updateTransaction s.tables existing.id (postEdit existing updatePostDto now)
        updatePostDto.topicIds).toOption.map fun result =>
          ⟨existing.id, some existing, some result.2.post⟩
    | some (.erase postId), .erase =>
      (findPostById s.tables.posts postId).map fun deleted => ⟨postId, some deleted, none⟩
    | _, _ => none
  | _ => none

/-- What a step with a write does to the posts, and what its call does next. -/
structure PostWrite.Leads (config : PostsConfig) (s t : PostsState) (write : PostWrite) :
    Prop where
  posts : ∀ post, post ∈ t.tables.posts ↔
    write.row = some post ∨ post ∈ s.tables.posts ∧ post.id ≠ write.postId
  call : ∃ id before answer, s.calls id = some before ∧
    (∀ keys answer, before ≠ .deleteMedia keys answer) ∧
    t.calls = Function.update s.calls id
      (some (afterWrite (write.droppedKeys config.publicUrlPrefix) answer))

/-- A step that writes to no post: no call is about to delete objects that was not before. -/
structure Quiet (s t : PostsState) : Prop where
  posts : t.tables.posts = s.tables.posts
  calls : ∀ id keys answer, t.calls id = some (.deleteMedia keys answer) →
    s.calls id = some (.deleteMedia keys answer)

section Steps

variable {config : PostsConfig} {s t m : PostsState} {id : Nat} {step : PostStep}
  {phase after : PostPhase} {label : PostLabel} {write : PostWrite}

/-- A call does not start with a delete of objects. -/
theorem startPhase_ne_deleteMedia (h : startPhase config step = some phase)
    (keys : List String) (answer : PostAnswer) : phase ≠ .deleteMedia keys answer := by
  rcases startPhase_cases h with ⟨_, _, rfl⟩ | ⟨_, _, rfl⟩ | ⟨_, rfl⟩
  · exact PostPhase.noConfusion
  · exact PostPhase.noConfusion
  · exact PostPhase.noConfusion

/-- A call that goes on to anything but a delete of objects is quiet. -/
theorem quiet_setCall (hcalls : m.calls = s.calls) (hposts : m.tables.posts = s.tables.posts)
    (hafter : ∀ keys answer, after ≠ .deleteMedia keys answer) : Quiet s (m.setCall id after) where
  posts := hposts
  calls other keys answer h := by
    rcases update_eq_some_iff.mp h with ⟨-, hdelete⟩ | ⟨-, hother⟩
    · exact absurd hdelete.symm (hafter keys answer)
    · rwa [hcalls] at hother

/-- The write of a new post. -/
theorem postWrite_insert {createPostDto : CreatePostDto} {authorId postId : String}
    {publishedAt : Option Nat}
    (hcall : s.calls id = some (.insert createPostDto authorId publishedAt)) :
    postWrite s (.call id (.insert postId)) = if postId ∈ s.usedIds then none
      else (createTransaction s.tables (newPost createPostDto authorId postId publishedAt s.clock)
        createPostDto.topicIds).toOption.map fun result => ⟨postId, none, some result.2.post⟩ := by
  simp only [postWrite, hcall]

/-- The write of an edit. -/
theorem postWrite_commit {existing : Post} {updatePostDto : UpdatePostDto} {now : Nat}
    (hcall : s.calls id = some (.commit existing updatePostDto now)) :
    postWrite s (.call id .commit) =
      (updateTransaction s.tables existing.id (postEdit existing updatePostDto now)
        updatePostDto.topicIds).toOption.map fun result =>
          ⟨existing.id, some existing, some result.2.post⟩ := by
  simp only [postWrite, hcall]

/-- The write of a removal. -/
theorem postWrite_erase {postId : String} (hcall : s.calls id = some (.erase postId)) :
    postWrite s (.call id .erase) =
      (findPostById s.tables.posts postId).map fun deleted => ⟨postId, some deleted, none⟩ := by
  simp only [postWrite, hcall]

/-- A new post that goes through is a write. -/
theorem leads_of_inserted (h : Numbered s) {createPostDto : CreatePostDto}
    {authorId postId : String} {publishedAt : Option Nat} {tables : PostTables}
    {post : PostWithTopics}
    (hcall : s.calls id = some (.insert createPostDto authorId publishedAt))
    (hfresh : postId ∉ s.usedIds) (hcreate : createTransaction s.tables
      (newPost createPostDto authorId postId publishedAt s.clock) createPostDto.topicIds =
        .ok (tables, post)) : ∃ write, postWrite s (.call id (.insert postId)) = some write ∧
      write.Leads config s ({ s with tables := tables, usedIds := postId :: s.usedIds }.setCall id
        (.done (.saved post))) := by
  obtain ⟨-, hposts, hpost⟩ := createTransaction_eq_ok hcreate
  refine ⟨⟨postId, none, some post.post⟩, ?write, ?posts, ?call⟩
  case write =>
    rw [postWrite_insert hcall, if_neg hfresh, hcreate]
    rfl
  case posts =>
    intro other
    change other ∈ tables.posts ↔ _
    rw [hposts, List.mem_append, List.mem_singleton, ← hpost, Option.some.injEq, or_comm,
      eq_comm (b := other)]
    refine or_congr_right (and_iff_left_of_imp fun hother hid => ?_).symm
    have hused : postId ∈ s.usedIds := Eq.subst hid (h.used other hother)
    exact hfresh hused
  case call => exact ⟨id, _, .saved post, hcall, fun _ _ => PostPhase.noConfusion, rfl⟩

/-- An edit that goes through is a write. -/
theorem leads_of_committed (h : Numbered s) {existing : Post} {updatePostDto : UpdatePostDto}
    {now : Nat} {tables : PostTables} {updated : PostWithTopics}
    (hcall : s.calls id = some (.commit existing updatePostDto now))
    (hupdate : updateTransaction s.tables existing.id (postEdit existing updatePostDto now)
      updatePostDto.topicIds = .ok (tables, updated)) :
    ∃ write, postWrite s (.call id .commit) = some write ∧
      write.Leads config s ({ s with tables := tables }.setCall id (afterWrite
        (removedMediaKeys config.publicUrlPrefix existing updated.post) (.saved updated))) := by
  obtain ⟨old, hold, -, hposts, hpost⟩ := updateTransaction_eq_ok hupdate
  have hmem := mem_of_findPostById hold
  have hid := id_of_findPostById hold
  refine ⟨⟨existing.id, some existing, some updated.post⟩, ?write, ?posts, ?call⟩
  case write =>
    rw [postWrite_commit hcall, hupdate]
    rfl
  case posts =>
    intro other
    change other ∈ tables.posts ↔ _
    rw [hposts, mem_updateWhere, hpost]
    refine or_congr_left ⟨?_, fun hrow => ?_⟩
    · rintro ⟨former, hformer, hformerId, rfl⟩
      rw [h.unique.eq_of_id hformer hmem (hformerId.trans hid.symm)]
    · exact ⟨old, hmem, hid, (Option.some.inj hrow).symm⟩
  case call => exact ⟨id, _, .saved updated, hcall, fun _ _ => PostPhase.noConfusion, rfl⟩

/-- A removal that finds its post is a write. -/
theorem leads_of_erased {postId : String} {deleted : Post}
    (hcall : s.calls id = some (.erase postId))
    (hdeleted : findPostById s.tables.posts postId = some deleted) :
    ∃ write, postWrite s (.call id .erase) = some write ∧
      write.Leads config s ({ s with tables := s.tables.withoutPost postId }.setCall id (afterWrite
        (collectMediaKeys config.publicUrlPrefix deleted) (.removed deleted))) := by
  refine ⟨⟨postId, some deleted, none⟩, ?write, ?posts, ?call⟩
  case write =>
    rw [postWrite_erase hcall, hdeleted]
    rfl
  case posts =>
    intro other
    change other ∈ s.tables.posts.filter _ ↔ _
    rw [List.mem_filter, bne_iff_ne]
    simp only [reduceCtorEq, false_or, ne_eq]
  case call => exact ⟨id, _, .removed deleted, hcall, fun _ _ => PostPhase.noConfusion, rfl⟩

/-- A move is quiet, or has a write. -/
theorem postWrite_of_moves (h : Numbered s) (hcall : s.calls id = some phase)
    (hmoves : PostMoves config s phase step m after) :
    (postWrite s (.call id step) = none ∧ Quiet s (m.setCall id after)) ∨
    ∃ write, postWrite s (.call id step) = some write ∧
      write.Leads config s (m.setCall id after) := by
  cases hmoves with
  | inserted hfresh hcreate => exact Or.inr (leads_of_inserted h hcall hfresh hcreate)
  | committed hupdate => exact Or.inr (leads_of_committed h hcall hupdate)
  | erased hdeleted => exact Or.inr (leads_of_erased hcall hdeleted)
  | insertFailed hcreate =>
    refine Or.inl ⟨?_, quiet_setCall rfl rfl fun _ _ => PostPhase.noConfusion⟩
    rw [postWrite_insert hcall, hcreate]
    exact ite_self none
  | commitFailed hupdate =>
    refine Or.inl ⟨?_, quiet_setCall rfl rfl fun _ _ => PostPhase.noConfusion⟩
    rw [postWrite_commit hcall, hupdate]
    rfl
  | eraseAbsent hdeleted =>
    refine Or.inl ⟨?_, quiet_setCall rfl rfl fun _ _ => PostPhase.noConfusion⟩
    rw [postWrite_erase hcall, hdeleted]
    rfl
  | stampedNew | absent | found | stamped | deletedMedia | failed =>
    refine Or.inl ⟨?_, quiet_setCall rfl rfl fun _ _ => PostPhase.noConfusion⟩
    simp only [postWrite, hcall]

/-- A step is quiet, or has a write. -/
theorem postWrite_cases (h : Numbered s) (hstep : (blog config).step s label = some t) :
    (postWrite s label = none ∧ Quiet s t) ∨
    ∃ write, postWrite s label = some write ∧ write.Leads config s t := by
  rcases blog_step_cases hstep with ⟨hposts, -, hcalls, hlabel⟩ |
    ⟨id, step, phase, rfl, hfree, hstart, rfl⟩ |
    ⟨id, step, phase, m, after, rfl, hcall, hmoves, rfl⟩
  · refine Or.inl ⟨?_, hposts, fun id keys answer hcall => hcalls ▸ hcall⟩
    cases label with
    | tick | topics => rfl
    | call id step => exact absurd rfl (hlabel id step)
  · refine Or.inl ⟨?_, quiet_setCall rfl rfl (startPhase_ne_deleteMedia hstart)⟩
    simp only [postWrite, hfree]
  · exact postWrite_of_moves h hcall hmoves

/-- A write that goes through is a step. -/
theorem exists_step_of_postWrite (config : PostsConfig)
    (h : postWrite s label = some write) : ∃ t, (blog config).step s label = some t := by
  simp only [postWrite] at h
  split at h
  · split at h
    · next hcall =>
      obtain ⟨hfresh, h⟩ := Option.ite_none_left_eq_some.mp h
      simp only [blog, hcall, PostsState.callStep, if_neg hfresh]
      split
      · exact ⟨_, rfl⟩
      · exact ⟨_, rfl⟩
    · next hcall =>
      simp only [blog, hcall, PostsState.callStep]
      split
      · exact ⟨_, rfl⟩
      · exact ⟨_, rfl⟩
    · next hcall =>
      simp only [blog, hcall, PostsState.callStep]
      split
      · exact ⟨_, rfl⟩
      · exact ⟨_, rfl⟩
    · cases h
  · cases h

end Steps

end VertexApi.Posts
