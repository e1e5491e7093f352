import Mathlib.Data.List.Nodup
import VertexApi.App.ShownMedia

/-!
# The key lists that reach the bucket

A bucket rejects a list as a whole that has an empty key in it, and the services only log
that. A cover that is the bare public prefix has no key, and neither has such an avatar, but
an image in a text has the empty one. So the lists are not empty and have each key once, and
an empty key is among them exactly if a removal or an edit takes the last such image out of a
post.
-/

namespace VertexApi.App

open Posts Uploads Users

/-- `deleteFiles`: the list that goes on to `deleteObjects`, if one does. -/
def UploadsService.deleteFiles (keys : List String) : Option (List String) :=
  if keys = [] then none else some keys

/-- What a statement hands over, unless it fails. -/
def handed (attempt : Store × Store) : List Outbound :=
  attempt.2.outbound.drop attempt.1.outbound.length

/-- The keys of a delete. -/
def Outbound.deletedKeys : Outbound → Option (List String)
  | .deletedFiles keys => some keys
  | .signed _ | .mailed .. => none

/-- The key lists that a run hands to `deleteFiles`, also those of deletes that fail. -/
def deletionBatches {α : Type} (operation : Operation α) (turns : List (Turn Store Failure))
    (s : Store) : List (List String) :=
  ((operation.attempts turns s).flatMap handed).filterMap Outbound.deletedKeys

/-- A key list that the bucket takes. -/
structure WellFormedBatch (keys : List String) : Prop where
  nonempty : keys ≠ []
  nodup : keys.Nodup
  noEmptyKey : "" ∉ keys

/-- What a run hands to `deleteFiles` is well formed, and so is what goes on to
`deleteObjects`. -/
def HandsWellFormed {α : Type} (operation : Operation α) (turns : List (Turn Store ThrownError))
    (s : Store) : Prop :=
  ∀ keys ∈ deletionBatches operation (storeTurns turns) s,
    WellFormedBatch keys ∧ ∀ objects, UploadsService.deleteFiles keys = some objects →
      WellFormedBatch objects

/-- A content has an image whose address is the bare public prefix. -/
def HasBareImage (publicUrlPrefix : String) (value : MediaField → Option String) : Prop :=
  ∃ field ∈ [MediaField.content, .contentEn, .contentEs], ∃ text ∈ value field,
    publicUrlPrefix ∈ markdownImageUrls text

instance decidableHasBareImage (publicUrlPrefix : String) (value : MediaField → Option String) :
    Decidable (HasBareImage publicUrlPrefix value) :=
  inferInstanceAs (Decidable (∃ field ∈ [MediaField.content, .contentEn, .contentEs],
    ∃ text ∈ value field, publicUrlPrefix ∈ markdownImageUrls text))

/-- An edit of the post that it has read as `existing` goes through, and replaces `row`. -/
structure GoesThrough (id : String) (updatePostDto : UpdatePostDto)
    (turns : List (Turn Store ThrownError)) (s : Store) (existing row : Post) : Prop where
  reads : Turn.nextFault turns = none
  found : findPostById (Turn.changed 1 turns s).posts id = some existing
  commits : Turn.nextFault turns.tail.tail = none
  replaces : findPostById (Turn.changed 3 turns s).posts id = some row
  takes : TakesEdit (Turn.changed 3 turns s).blog id
    (postEdit existing updatePostDto (Turn.changed 2 turns s).clock row) updatePostDto.topicIds

/-- An edit that goes through leaves such an image in the post, if it has read one. -/
def KeepsBareImage (publicUrlPrefix id : String) (updatePostDto : UpdatePostDto)
    (turns : List (Turn Store ThrownError)) (s : Store) : Prop :=
  ∀ existing row, GoesThrough id updatePostDto turns s existing row →
    HasBareImage publicUrlPrefix (fun field => field.value existing) →
      HasBareImage publicUrlPrefix (MediaField.edited row updatePostDto)

/-- A removal that goes through finds no such image. -/
def FindsNoBareImage (publicUrlPrefix id : String) (turns : List (Turn Store ThrownError))
    (s : Store) : Prop :=
  Turn.nextFault turns = none → ∀ deleted,
    findPostById (Turn.changed 1 turns s).posts id = some deleted →
      ¬ HasBareImage publicUrlPrefix fun field => field.value deleted

/-- The list of a delete of media, if there are any. -/
def batchOf (keys : List String) : List (List String) := if keys = [] then [] else [keys]

section Batches

variable {publicUrlPrefix id : String} {updatePostDto : UpdatePostDto}
  {turns : List (Turn Store ThrownError)} {s : Store} {post : Post} {keys : List String}

/-- What `deleteFiles` gets goes on as it is, and nothing does for no keys. -/
theorem handsWellFormed_iff {α : Type} {operation : Operation α} :
    HandsWellFormed operation turns s ↔
      ∀ keys ∈ deletionBatches operation (storeTurns turns) s, WellFormedBatch keys := by
  refine forall₂_congr fun keys _ => and_iff_left_of_imp fun hkeys objects hobjects => ?_
  obtain ⟨-, hsame⟩ := Option.ite_none_left_eq_some.mp hobjects
  exact Option.some.inj hsame ▸ hkeys

/-- One key that is not empty. -/
theorem wellFormedBatch_singleton {key : String} (h : key ≠ "") : WellFormedBatch [key] :=
  ⟨List.cons_ne_nil _ _, List.nodup_singleton _, fun hmem => h (List.mem_singleton.mp hmem).symm⟩

theorem mem_batchOf {batch : List String} : batch ∈ batchOf keys ↔ batch = keys ∧ keys ≠ [] := by
  by_cases hkeys : keys = []
  · rw [batchOf, if_pos hkeys]
    exact iff_of_false List.not_mem_nil fun h => h.2 hkeys
  · rw [batchOf, if_neg hkeys, List.mem_singleton, and_iff_left hkeys]

/-- The list of a delete of media is well formed if it has no empty key. -/
theorem forall_batchOf (h : keys.Nodup) :
    (∀ batch ∈ batchOf keys, WellFormedBatch batch) ↔ "" ∉ keys := by
  constructor
  · intro hbatches hempty
    have hbatch := hbatches keys (mem_batchOf.mpr ⟨rfl, List.ne_nil_of_mem hempty⟩)
    exact hbatch.noEmptyKey hempty
  · intro hempty batch hbatch
    obtain ⟨rfl, hkeys⟩ := mem_batchOf.mp hbatch
    exact ⟨hkeys, h, hempty⟩

/-- The lists of a run are those of its statements. -/
theorem mem_deletionBatches {α : Type} {operation : Operation α}
    {turns : List (Turn Store Failure)} : keys ∈ deletionBatches operation turns s ↔
      ∃ attempt ∈ operation.attempts turns s, .deletedFiles keys ∈ handed attempt := by
  have hkeys : ∀ outbound : Outbound, outbound.deletedKeys = some keys ↔
      outbound = .deletedFiles keys := by
    intro outbound
    cases outbound with
    | deletedFiles list => simp only [Outbound.deletedKeys, Option.some.injEq,
        Outbound.deletedFiles.injEq]
    | signed payload => simp only [Outbound.deletedKeys, reduceCtorEq]
    | mailed email code => simp only [Outbound.deletedKeys, reduceCtorEq]
  simp only [deletionBatches, List.mem_filterMap, List.mem_flatMap, hkeys, exists_eq_right]

/-- A statement that leaves the record alone hands nothing over. -/
theorem handed_of_outbound_eq {before after : Store} (h : after.outbound = before.outbound) :
    handed (before, after) = [] := by
  rw [handed, h]
  exact List.drop_length

/-- What is handed over. -/
theorem handed_handing (outbound : Outbound) : handed (s, s.handing outbound) = [outbound] :=
  List.drop_left

/-- A delete hands its list over, whether or not it fails. -/
theorem attempts_handOver (outbound : Outbound) (turns : List (Turn Store Failure)) :
    ((handOver outbound).attempts turns s).flatMap handed = [outbound] := by
  rw [handOver, write, Program.attempts_query, List.flatMap_singleton]
  exact handed_handing outbound

/-- The delete of media hands over one list, if there are any. -/
theorem deletionBatches_deleteMediaKeys (turns : List (Turn Store Failure)) :
    deletionBatches (PostsService.deleteMediaKeys keys) turns s = batchOf keys := by
  by_cases hkeys : keys = []
  · simp only [deletionBatches, PostsService.deleteMediaKeys, batchOf, hkeys, ne_eq,
      not_true_eq_false, if_false, if_true, Program.attempts_pure, List.flatMap_nil,
      List.filterMap_nil]
  · have hhandler : (((handOver (.deletedFiles keys)).run turns s).attemptsElse
        fun _ => pure ()) = [] := by
      rw [Ending.attemptsElse]
      split <;> rfl
    simp only [deletionBatches, PostsService.deleteMediaKeys, batchOf, hkeys, ne_eq,
      not_false_eq_true, if_true, if_false, Program.attempts_tryCatch, hhandler, List.append_nil,
      attempts_handOver]
    rfl

/-- What follows a run that returned hands over its own lists. -/
theorem deletionBatches_bind_of_ok {α β : Type} {p : Operation α} {rest : α → Operation β}
    {turns later : List (Turn Store Failure)} {t : Store} {a : α}
    (h : p.run turns s = ⟨t, later, .ok a⟩) : deletionBatches (p >>= rest) turns s =
      deletionBatches p turns s ++ deletionBatches (rest a) later t := by
  simp only [deletionBatches, Program.attempts_bind, h, Ending.attemptsThen_ok,
    List.flatMap_append, List.filterMap_append]

/-- Nothing follows a run that threw. -/
theorem deletionBatches_bind_of_error {α β : Type} {p : Operation α} {rest : α → Operation β}
    {turns later : List (Turn Store Failure)} {t : Store} {failure : Failure}
    (h : p.run turns s = ⟨t, later, .error failure⟩) :
    deletionBatches (p >>= rest) turns s = deletionBatches p turns s := by
  simp only [deletionBatches, Program.attempts_bind, h, Ending.attemptsThen_error, List.append_nil]

/-- Statements that leave the record alone hand over no list. -/
theorem deletionBatches_of_quiet {α : Type} {p : Operation α}
    (h : p.AttemptsOnly fun s t => t.outbound = s.outbound) (turns : List (Turn Store Failure))
    (s : Store) : deletionBatches p turns s = [] := by
  have hnothing : (p.attempts turns s).flatMap handed = [] :=
    List.flatMap_eq_nil_iff.mpr fun attempt hattempt =>
      handed_of_outbound_eq (h.of_attempts turns s attempt hattempt)
  rw [deletionBatches, hnothing, List.filterMap_nil]

/-- The delete of media in front of an answer. -/
theorem deletionBatches_deleteMediaKeys_return {α : Type} (turns : List (Turn Store Failure))
    (answer : α) : deletionBatches (do PostsService.deleteMediaKeys keys; return answer) turns s =
      batchOf keys := by
  cases hrun : (PostsService.deleteMediaKeys keys).run turns s with
  | mk t later result =>
    cases result with
    | ok a =>
      rw [deletionBatches_bind_of_ok hrun, deletionBatches_deleteMediaKeys]
      exact List.append_nil _
    | error failure =>
      rw [deletionBatches_bind_of_error hrun, deletionBatches_deleteMediaKeys]

/-- The transaction of an edit leaves the record alone. -/
theorem quiet_updatePostTransaction (f : Post → Post) (topicIds : Option (List String)) :
    (PostsService.updatePostTransaction id f topicIds).AttemptsOnly
      fun s t => t.outbound = s.outbound := by
  refine .query fun s => ?_
  cases updateTransaction s.blog id f topicIds with
  | error failure => rfl
  | ok outcome => rfl

/-- The transaction of an edit and what follows it: the keys that the edit has dropped are handed
over if it goes through. -/
theorem deletionBatches_commit (existing : Post) (f : Post → Post)
    (topicIds : Option (List String)) : deletionBatches (do
      let updated ←
        try PostsService.updatePostTransaction id f topicIds
        catch error => throw (PostsService.rethrowFriendlySlugConflict error)
      PostsService.deleteMediaKeys (removedMediaKeys publicUrlPrefix existing updated.post)
      return updated) (storeTurns turns) s =
      match Turn.nextFault turns, updateTransaction (Turn.met turns s).blog id f topicIds with
      | none, .ok (_, answer) => batchOf (removedMediaKeys publicUrlPrefix existing answer.post)
      | _, _ => [] := by
  have hquiet : deletionBatches (tryCatch (PostsService.updatePostTransaction id f topicIds)
      fun error => throw (PostsService.rethrowFriendlySlugConflict error)) (storeTurns turns) s =
        [] :=
    deletionBatches_of_quiet (.tryCatch (quiet_updatePostTransaction f topicIds) fun _ => .throw _)
      ..
  have hrun := @run_updatePostTransaction id turns s f topicIds
  cases hcommit : Turn.nextFault turns with
  | some error =>
    rw [hcommit] at hrun
    exact (deletionBatches_bind_of_error hrun).trans hquiet
  | none =>
    rw [hcommit] at hrun
    cases hupdate : updateTransaction (Turn.met turns s).blog id f topicIds with
    | error failure =>
      rw [hupdate] at hrun
      exact (deletionBatches_bind_of_error hrun).trans hquiet
    | ok outcome =>
      rw [hupdate] at hrun
      refine (deletionBatches_bind_of_ok hrun).trans ?_
      rw [hquiet, List.nil_append]
      exact deletionBatches_deleteMediaKeys_return _ _

/-- An edit hands over the keys that it has dropped, and one that fails none. -/
theorem deletionBatches_update :
    deletionBatches (PostsService.update publicUrlPrefix id updatePostDto) (storeTurns turns) s =
      match updateSteps id updatePostDto turns s with
      | .error _ => []
      | .ok (existing, _, answer) =>
        batchOf (removedMediaKeys publicUrlPrefix existing answer.post) := by
  have hquiet :
      deletionBatches (read fun s => findPostById s.posts id) (storeTurns turns) s = [] :=
    deletionBatches_of_quiet (.query fun _ => rfl) ..
  rw [PostsService.update, updateSteps]
  cases hread : Turn.nextFault turns with
  | some error =>
    have hrun : (read fun s => findPostById s.posts id).run (storeTurns turns) s =
        ⟨Turn.met turns s, storeTurns turns.tail, .error (.thrown error)⟩ :=
      run_query_of_fault hread _
    rw [deletionBatches_bind_of_error hrun, hquiet]
  | none =>
    have hrun : (read fun s => findPostById s.posts id).run (storeTurns turns) s =
        ⟨Turn.met turns s, storeTurns turns.tail, .ok (findPostById (Turn.met turns s).posts id)⟩ :=
      run_query_of_no_fault hread _
    rw [deletionBatches_bind_of_ok hrun, hquiet, List.nil_append,
      show Turn.changed 1 turns s = Turn.met turns s from rfl]
    cases findPostById (Turn.met turns s).posts id with
    | none => rfl
    | some existing =>
      have hclock : now.run (storeTurns turns.tail) (Turn.met turns s) =
          ⟨Turn.changed 2 turns s, storeTurns turns.tail.tail,
            .ok (Turn.changed 2 turns s).clock⟩ := by
        rw [now, Program.run_look, met_storeTurns, tail_storeTurns]
        rfl
      refine (deletionBatches_bind_of_ok hclock).trans ?_
      refine (deletionBatches_commit existing _ _).trans ?_
      rw [show Turn.met turns.tail.tail (Turn.changed 2 turns s) = Turn.changed 3 turns s from rfl]
      dsimp only
      cases Turn.nextFault turns.tail.tail with
      | some error => rfl
      | none =>
        cases updateTransaction (Turn.changed 3 turns s).blog id
            (postEdit existing updatePostDto (Turn.changed 2 turns s).clock)
            updatePostDto.topicIds with
        | error failure => rfl
        | ok outcome => rfl

/-- A removal hands over the keys of the post that it has found, and one that fails none. -/
theorem deletionBatches_remove :
    deletionBatches (PostsService.remove publicUrlPrefix id) (storeTurns turns) s =
      match removeSteps id turns s with
      | .error _ => []
      | .ok deleted => batchOf (collectMediaKeys publicUrlPrefix deleted) := by
  have hquiet : deletionBatches (PostsService.deleteFromPosts id) (storeTurns turns) s = [] :=
    deletionBatches_of_quiet (.query fun _ => rfl) ..
  rw [PostsService.remove, removeSteps]
  cases hdelete : Turn.nextFault turns with
  | some error =>
    have hrun : (PostsService.deleteFromPosts id).run (storeTurns turns) s =
        ⟨Turn.met turns s, storeTurns turns.tail, .error (.thrown error)⟩ :=
      run_query_of_fault hdelete _
    rw [deletionBatches_bind_of_error hrun, hquiet]
  | none =>
    have hrun : (PostsService.deleteFromPosts id).run (storeTurns turns) s =
        ⟨withoutPost id (Turn.met turns s), storeTurns turns.tail,
          .ok (findPostById (Turn.met turns s).posts id)⟩ :=
      run_query_of_no_fault hdelete _
    rw [deletionBatches_bind_of_ok hrun, hquiet, List.nil_append,
      show Turn.changed 1 turns s = Turn.met turns s from rfl]
    cases findPostById (Turn.met turns s).posts id with
    | none => rfl
    | some deleted => exact deletionBatches_deleteMediaKeys_return _ _

/-- An edit never hands over an empty list, or a key twice. -/
theorem nonempty_nodup_update (hkeys : keys ∈ deletionBatches
    (PostsService.update publicUrlPrefix id updatePostDto) (storeTurns turns) s) :
    keys ≠ [] ∧ keys.Nodup := by
  rw [deletionBatches_update] at hkeys
  cases hsteps : updateSteps id updatePostDto turns s with
  | error outcome =>
    rw [hsteps] at hkeys
    exact absurd hkeys List.not_mem_nil
  | ok outcome =>
    rw [hsteps] at hkeys
    obtain ⟨rfl, hne⟩ := mem_batchOf.mp hkeys
    exact ⟨hne, nodup_removedMediaKeys _ _⟩

/-- Neither does a removal. -/
theorem nonempty_nodup_remove (hkeys : keys ∈ deletionBatches
    (PostsService.remove publicUrlPrefix id) (storeTurns turns) s) : keys ≠ [] ∧ keys.Nodup := by
  rw [deletionBatches_remove] at hkeys
  cases hsteps : removeSteps id turns s with
  | error failure =>
    rw [hsteps] at hkeys
    exact absurd hkeys List.not_mem_nil
  | ok deleted =>
    rw [hsteps] at hkeys
    obtain ⟨rfl, hne⟩ := mem_batchOf.mp hkeys
    exact ⟨hne, nodup_eraseDups _⟩

/-- A profile edit hands over one key at most, which is not empty. -/
theorem handsWellFormed_updateSelf (dto : UpdateProfileDto) :
    HandsWellFormed (UsersService.updateSelf publicUrlPrefix id dto) turns s := by
  have hquiet : ∀ {s t : Store}, t.outbound = s.outbound →
      ∀ keys, .deletedFiles keys ∈ handed (s, t) → WellFormedBatch keys := by
    intro s t h keys hkeys
    rw [handed_of_outbound_eq h] at hkeys
    exact absurd hkeys List.not_mem_nil
  have honly : (UsersService.updateSelf publicUrlPrefix id dto).AttemptsOnly
      fun s t => ∀ keys, .deletedFiles keys ∈ handed (s, t) → WellFormedBatch keys := by
    refine .bind (.query fun s => hquiet rfl) fun existing => ?_
    cases existing with
    | none => exact .throw _
    | some existing =>
      refine .bind (.look _) fun updatedAt => .bind (.query fun s => hquiet ?_) fun updated => ?_
      · cases updateUser s.users id (edited dto existing updatedAt) with
        | error error => rfl
        | ok outcome => rfl
      · rcases afterUpdate_cases publicUrlPrefix existing (updated.map safeReturning) with
          ⟨answer, hdone⟩ | ⟨oldKey, user, hdelete, -, hne, -⟩
        · simp only [hdone]
          cases answer with
          | updated user => exact .pure _
          | refused exception => exact .throw _
          | crashed => exact .throw _
        · simp only [hdelete]
          refine .bind (.tryCatch (.query fun s keys hkeys => ?_) fun _ => .pure _) fun _ => .pure _
          change .deletedFiles keys ∈ handed (s, s.handing (.deletedFiles [oldKey])) at hkeys
          rw [handed_handing, List.mem_singleton, Outbound.deletedFiles.injEq] at hkeys
          rw [hkeys]
          exact wellFormedBatch_singleton hne
  refine handsWellFormed_iff.mpr fun keys hkeys => ?_
  obtain ⟨attempt, hattempt, hhanded⟩ := mem_deletionBatches.mp hkeys
  exact honly.of_attempts _ _ attempt hattempt keys hhanded

/-- The empty key of a post is that of such an image. -/
theorem empty_mem_collectMediaKeys : "" ∈ collectMediaKeys publicUrlPrefix post ↔
    HasBareImage publicUrlPrefix fun field => field.value post := by
  have hcontent : ∀ text, publicUrlPrefix ∈ markdownImageUrls text → text ≠ "" := by
    rintro text himage rfl
    cases himage
  rw [mem_collectMediaKeys, String.append_empty]
  constructor
  · rintro (⟨text, hvalue, -, himage⟩ | ⟨hne, -⟩)
    · rcases hvalue with hvalue | hvalue | hvalue
      · exact ⟨.content, by decide, text, congrArg some hvalue, himage⟩
      · exact ⟨.contentEn, by decide, text, hvalue, himage⟩
      · exact ⟨.contentEs, by decide, text, hvalue, himage⟩
    · exact absurd rfl hne
  · rintro ⟨field, hfield, text, hvalue, himage⟩
    refine Or.inl ⟨text, ?_, hcontent text himage, himage⟩
    cases field with
    | content => exact Or.inl (Option.some.inj hvalue)
    | contentEn => exact Or.inr (Or.inl hvalue)
    | contentEs => exact Or.inr (Or.inr hvalue)
    | coverUrl | coverUrlEn | coverUrlEs => exact absurd hfield (by decide)

/-- An edit drops the empty key with the last such image. -/
theorem empty_mem_removedMediaKeys {updated : Post} :
    "" ∈ removedMediaKeys publicUrlPrefix post updated ↔
      HasBareImage publicUrlPrefix (fun field => field.value post) ∧
      ¬ HasBareImage publicUrlPrefix fun field => field.value updated := by
  simp only [removedMediaKeys, List.mem_filter, List.contains_eq_mem, Bool.not_eq_true',
    decide_eq_false_iff_not, empty_mem_collectMediaKeys]

/-- The fields of the row that an edit leaves. -/
theorem value_postEdit_eq_edited (existing row : Post) (now : Nat) :
    (fun field => MediaField.value field (postEdit existing updatePostDto now row)) =
      MediaField.edited row updatePostDto :=
  funext fun field => value_postEdit field updatePostDto existing row now

/-- What an edit has made when it goes through. -/
theorem goesThrough_of_updateSteps {existing : Post} {tables : PostTables}
    {answer : PostWithTopics}
    (h : updateSteps id updatePostDto turns s = .ok (existing, tables, answer)) :
    ∃ row, GoesThrough id updatePostDto turns s existing row ∧
      answer.post = postEdit existing updatePostDto (Turn.changed 2 turns s).clock row := by
  obtain ⟨hfound, htransaction⟩ := updateSteps_eq_ok h
  obtain ⟨row, hrow, htakes⟩ := exists_updateTransaction_eq_ok.mp ⟨_, htransaction⟩
  obtain ⟨old, hold, -, -, hanswer⟩ := updateTransaction_eq_ok htransaction
  obtain rfl := Option.some.inj (hrow.symm.trans hold)
  have hreads : Turn.nextFault turns = none := by
    cases hfault : Turn.nextFault turns with
    | none => rfl
    | some error => simp only [updateSteps, hfault, reduceCtorEq] at h
  have hcommits : Turn.nextFault turns.tail.tail = none := by
    cases hfault : Turn.nextFault turns.tail.tail with
    | none => rfl
    | some error => simp only [updateSteps, hreads, hfound, hfault, reduceCtorEq] at h
  exact ⟨row, ⟨hreads, hfound, hcommits, hrow, htakes⟩, hanswer⟩

/-- An edit that goes through leaves the row that it has made of the one in the table. -/
theorem updateSteps_of_goesThrough {existing row : Post}
    (h : GoesThrough id updatePostDto turns s existing row) : ∃ tables answer,
      updateSteps id updatePostDto turns s = .ok (existing, tables, answer) ∧
      answer.post = postEdit existing updatePostDto (Turn.changed 2 turns s).clock row := by
  obtain ⟨⟨tables, answer⟩, htransaction⟩ :=
    exists_updateTransaction_eq_ok.mpr ⟨row, h.replaces, h.takes⟩
  obtain ⟨old, hold, -, -, hanswer⟩ := updateTransaction_eq_ok htransaction
  obtain rfl := Option.some.inj (h.replaces.symm.trans hold)
  refine ⟨tables, answer, ?_, hanswer⟩
  simp only [updateSteps, h.reads, h.found, h.commits, htransaction]

/-- The lists of an edit are well formed exactly if it does not lose its last bare image. -/
theorem handsWellFormed_update_iff :
    HandsWellFormed (PostsService.update publicUrlPrefix id updatePostDto) turns s ↔
      KeepsBareImage publicUrlPrefix id updatePostDto turns s := by
  rw [handsWellFormed_iff, deletionBatches_update]
  constructor
  · intro h existing row hthrough hbare
    obtain ⟨tables, answer, hsteps, hanswer⟩ := updateSteps_of_goesThrough hthrough
    rw [hsteps] at h
    have hempty := (forall_batchOf (nodup_removedMediaKeys existing answer.post)).mp h
    rw [empty_mem_removedMediaKeys, hanswer, value_postEdit_eq_edited, not_and_not_right] at hempty
    exact hempty hbare
  · intro h
    cases hsteps : updateSteps id updatePostDto turns s with
    | error outcome => exact fun _ hkeys => absurd hkeys List.not_mem_nil
    | ok outcome =>
      obtain ⟨existing, tables, answer⟩ := outcome
      obtain ⟨row, hthrough, hanswer⟩ := goesThrough_of_updateSteps hsteps
      refine (forall_batchOf (nodup_removedMediaKeys existing answer.post)).mpr ?_
      rw [empty_mem_removedMediaKeys, hanswer, value_postEdit_eq_edited, not_and_not_right]
      exact h existing row hthrough

/-- The lists of a removal are well formed exactly if it finds no bare image. -/
theorem handsWellFormed_remove_iff :
    HandsWellFormed (PostsService.remove publicUrlPrefix id) turns s ↔
      FindsNoBareImage publicUrlPrefix id turns s := by
  rw [handsWellFormed_iff, deletionBatches_remove, removeSteps, FindsNoBareImage]
  cases Turn.nextFault turns with
  | some error =>
    refine ⟨?_, fun _ keys hkeys => absurd hkeys List.not_mem_nil⟩
    rintro - ⟨⟩
  | none =>
    cases findPostById (Turn.changed 1 turns s).posts id with
    | none =>
      refine ⟨?_, fun _ keys hkeys => absurd hkeys List.not_mem_nil⟩
      rintro - - deleted ⟨⟩
    | some deleted =>
      have hbatch : (∀ batch ∈ batchOf (collectMediaKeys publicUrlPrefix deleted),
          WellFormedBatch batch) ↔ _ := forall_batchOf (nodup_eraseDups _)
      rw [empty_mem_collectMediaKeys] at hbatch
      refine hbatch.trans ⟨?_, fun h => h rfl deleted rfl⟩
      rintro hbare - found hfound
      exact Option.some.inj hfound ▸ hbare

/-- Whatever else runs and fails meanwhile: the lists that an edit hands over are well formed
exactly if it does not take the last image without a key out of the post, those of a removal
exactly if it finds none, and those of a profile edit always. -/
theorem deletionBatches_wellFormed_iff (publicUrlPrefix id : String)
    (turns : List (Turn Store ThrownError)) (s : Store) :
    (∀ updatePostDto,
      HandsWellFormed (PostsService.update publicUrlPrefix id updatePostDto) turns s ↔
        KeepsBareImage publicUrlPrefix id updatePostDto turns s) ∧
    (HandsWellFormed (PostsService.remove publicUrlPrefix id) turns s ↔
      FindsNoBareImage publicUrlPrefix id turns s) ∧
    ∀ updateProfileDto,
      HandsWellFormed (UsersService.updateSelf publicUrlPrefix id updateProfileDto) turns s :=
  ⟨fun _ => handsWellFormed_update_iff, handsWellFormed_remove_iff, handsWellFormed_updateSelf⟩

end Batches

/-- A post with an image whose address is a bare public prefix. -/
def bareImagePost : Store :=
  { Store.empty with
    posts := [newPost ⟨bareFields, "t", "s",
      "![x](https://test-bucket.s3.us-east-1.amazonaws.com/)"⟩ "ada" "post" none 0] }

/-- Its removal, and an edit that takes the image out, hand over an empty key. -/
theorem not_handsWellFormed_bareImagePost :
    ¬ HandsWellFormed (PostsService.remove (s3PublicUrlPrefix "test-bucket" "us-east-1") "post") []
      bareImagePost ∧
    ¬ HandsWellFormed (PostsService.update (s3PublicUrlPrefix "test-bucket" "us-east-1") "post"
      (contentEdit "plain")) [] bareImagePost := by
  have hbatch : ¬ WellFormedBatch [""] := fun h => h.noEmptyKey (List.mem_cons_self ..)
  have hremoved : deletionBatches
      (PostsService.remove (s3PublicUrlPrefix "test-bucket" "us-east-1") "post") (storeTurns [])
      bareImagePost = [[""]] := by decide +kernel
  have hedited : deletionBatches
      (PostsService.update (s3PublicUrlPrefix "test-bucket" "us-east-1") "post"
        (contentEdit "plain")) (storeTurns []) bareImagePost = [[""]] := by decide +kernel
  refine ⟨fun h => hbatch (h [""] ?_).1, fun h => hbatch (h [""] ?_).1⟩
  · rw [hremoved]
    exact List.mem_cons_self ..
  · rw [hedited]
    exact List.mem_cons_self ..

end VertexApi.App
