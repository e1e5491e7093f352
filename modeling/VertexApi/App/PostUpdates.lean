import VertexApi.App.Services
import VertexApi.Posts.PostWrites

/-!
# Edits of posts

An edit reads the post, samples the clock, goes through in one transaction, and hands over
the keys that it has dropped. Whatever the other calls do in between, and however a
statement fails, it either leaves everything alone or has made its one write.
-/

namespace VertexApi.App

open Posts

/-- The delete of media, whose failure changes nothing. -/
def afterDelete (keys : List String) (turns : List (Turn Store ThrownError)) (s : Store) : Store :=
  if keys = [] then s
  else match Turn.nextFault turns with
    | none => (Turn.met turns s).handing (.deletedFiles keys)
    | some _ => Turn.met turns s

/-- What an edit has made of its samples and statements up to the transaction: the post that it
read, the tables and the answer, or how many turns it took to fail, and how. -/
def updateSteps (id : String) (updatePostDto : UpdatePostDto)
    (turns : List (Turn Store ThrownError)) (s : Store) :
    Except (Nat × Failure) (Post × PostTables × PostWithTopics) :=
  match Turn.nextFault turns with
  | some error => .error (1, .thrown error)
  | none =>
    match findPostById (Turn.changed 1 turns s).posts id with
    | none => .error (1, .refused postNotFound)
    | some existing =>
      match Turn.nextFault turns.tail.tail with
      | some error => .error (3, PostsService.rethrowFriendlySlugConflict (.thrown error))
      | none =>
        match updateTransaction (Turn.changed 3 turns s).blog id
          (postEdit existing updatePostDto (Turn.changed 2 turns s).clock)
          updatePostDto.topicIds with
        | .error failure => .error (3, PostsService.rethrowFriendlySlugConflict (.ofPost failure))
        | .ok (tables, answer) => .ok (existing, tables, answer)

/-- How a removal ends up to its statement. -/
def removeSteps (id : String) (turns : List (Turn Store ThrownError)) (s : Store) :
    Except Failure Post :=
  match Turn.nextFault turns with
  | some error => .error (.thrown error)
  | none =>
    match findPostById (Turn.changed 1 turns s).posts id with
    | none => .error (.refused postNotFound)
    | some deleted => .ok deleted

/-- The store without a post, its links and its comments. -/
def withoutPost (id : String) (s : Store) : Store :=
  { s.withBlog (s.blog.withoutPost id) with
    comments := s.comments.filter fun comment => comment.postId != id }

section Steps

variable {id : String} {turns : List (Turn Store ThrownError)} {s : Store}

/-- An edit that goes through returns the row that it leaves. -/
theorem findPostById_updateTransaction {tables later : PostTables} {f : Post → Post}
    {topicIds : Option (List String)} {answer : PostWithTopics}
    (h : updateTransaction tables id f topicIds = .ok (later, answer))
    (hf : ∀ row, (f row).id = row.id) : ∃ old, findPostById tables.posts id = some old ∧
      answer.post = f old ∧ findPostById later.posts id = some (f old) := by
  obtain ⟨old, hold, -, hposts, hanswer⟩ := updateTransaction_eq_ok h
  refine ⟨old, hold, hanswer, ?_⟩
  rw [hposts, findPostById, find?_updateWhere fun row => by rw [hf],
    show tables.posts.find? _ = some old from hold, Option.map_some,
    if_pos (id_of_findPostById hold)]

/-- What an edit that goes through has done. -/
theorem updateSteps_eq_ok {updatePostDto : UpdatePostDto} {existing : Post} {tables : PostTables}
    {answer : PostWithTopics}
    (h : updateSteps id updatePostDto turns s = .ok (existing, tables, answer)) :
    findPostById (Turn.changed 1 turns s).posts id = some existing ∧
    updateTransaction (Turn.changed 3 turns s).blog id
      (postEdit existing updatePostDto (Turn.changed 2 turns s).clock) updatePostDto.topicIds =
        .ok (tables, answer) := by
  simp only [updateSteps] at h
  cases hfault : Turn.nextFault turns with
  | some error => simp only [hfault, reduceCtorEq] at h
  | none =>
    simp only [hfault] at h
    cases hread : findPostById (Turn.changed 1 turns s).posts id with
    | none => simp only [hread, reduceCtorEq] at h
    | some found =>
      simp only [hread] at h
      cases hcommit : Turn.nextFault turns.tail.tail with
      | some error => simp only [hcommit, reduceCtorEq] at h
      | none =>
        simp only [hcommit] at h
        cases htransaction : updateTransaction (Turn.changed 3 turns s).blog id
            (postEdit found updatePostDto (Turn.changed 2 turns s).clock)
            updatePostDto.topicIds with
        | error failure => simp only [htransaction, reduceCtorEq] at h
        | ok outcome =>
          simp only [htransaction, Except.ok.injEq, Prod.mk.injEq] at h
          obtain ⟨rfl, rfl, rfl⟩ := h
          exact ⟨rfl, htransaction⟩

end Steps

section Runs

variable {publicUrlPrefix id : String} {updatePostDto : UpdatePostDto}
  {turns : List (Turn Store ThrownError)} {s : Store}

/-- The delete of media. -/
theorem run_deleteMediaKeys (keys : List String) :
    ∃ later, (PostsService.deleteMediaKeys keys).run (storeTurns turns) s =
      ⟨afterDelete keys turns s, later, .ok ()⟩ := by
  by_cases hkeys : keys = []
  · simp only [PostsService.deleteMediaKeys, hkeys, ne_eq, not_true_eq_false, if_false, afterDelete,
      if_true, Program.run_pure]
    exact ⟨_, rfl⟩
  · simp only [PostsService.deleteMediaKeys, ne_eq, hkeys, not_false_eq_true, if_true, afterDelete,
      if_false, Program.run_tryCatch, handOver, write]
    cases hfault : Turn.nextFault turns with
    | none =>
      rw [run_query_of_no_fault hfault]
      exact ⟨_, rfl⟩
    | some error =>
      rw [run_query_of_fault hfault]
      exact ⟨_, rfl⟩

/-- The transaction of an edit, and what is made of its failure. -/
theorem run_updatePostTransaction (f : Post → Post) (topicIds : Option (List String)) :
    (tryCatch (PostsService.updatePostTransaction id f topicIds) fun error =>
      throw (PostsService.rethrowFriendlySlugConflict error)).run (storeTurns turns) s =
      ⟨match Turn.nextFault turns, updateTransaction (Turn.met turns s).blog id f topicIds with
        | none, .ok (tables, _) => (Turn.met turns s).withBlog tables
        | _, _ => Turn.met turns s, storeTurns turns.tail,
      match Turn.nextFault turns, updateTransaction (Turn.met turns s).blog id f topicIds with
        | some error, _ => .error (PostsService.rethrowFriendlySlugConflict (.thrown error))
        | none, .error failure =>
          .error (PostsService.rethrowFriendlySlugConflict (.ofPost failure))
        | none, .ok (_, post) => .ok (PostsService.withAuthor (Turn.met turns s).users post)⟩ := by
  rw [Program.run_tryCatch, PostsService.updatePostTransaction]
  cases hfault : Turn.nextFault turns with
  | some error =>
    rw [run_query_of_fault hfault]
    rfl
  | none =>
    rw [run_query_of_no_fault hfault]
    cases updateTransaction (Turn.met turns s).blog id f topicIds <;> rfl

/-- An edit that fails leaves everything to the other calls; one that goes through writes its
tables, and deletes the media that it has dropped. -/
theorem run_update : ∃ later,
    (PostsService.update publicUrlPrefix id updatePostDto).run (storeTurns turns) s =
      match updateSteps id updatePostDto turns s with
      | .error (n, failure) => ⟨Turn.changed n turns s, later, .error failure⟩
      | .ok (existing, tables, answer) =>
        ⟨afterDelete (removedMediaKeys publicUrlPrefix existing answer.post) turns.tail.tail.tail
            ((Turn.changed 3 turns s).withBlog tables),
          later, .ok (PostsService.withAuthor (Turn.changed 3 turns s).users answer)⟩ := by
  rw [PostsService.update, Program.run_bind, read, updateSteps]
  cases hread : Turn.nextFault turns with
  | some error =>
    rw [run_query_of_fault hread]
    exact ⟨_, rfl⟩
  | none =>
    rw [run_query_of_no_fault hread]
    simp only [Ending.ofOutcome_ok, Ending.andThen_ok, Turn.changed]
    cases findPostById (Turn.met turns s).posts id with
    | none => exact ⟨_, rfl⟩
    | some existing =>
      simp only [Program.run_bind, now, Program.run_look, Ending.andThen_ok, met_storeTurns,
        tail_storeTurns, run_updatePostTransaction]
      cases hcommit : Turn.nextFault turns.tail.tail with
      | some error => exact ⟨_, rfl⟩
      | none =>
        cases updateTransaction
            (Turn.met turns.tail.tail (Turn.met turns.tail (Turn.met turns s))).blog
            id (postEdit existing updatePostDto (Turn.met turns.tail (Turn.met turns s)).clock)
            updatePostDto.topicIds with
        | error failure => exact ⟨_, rfl⟩
        | ok outcome =>
          obtain ⟨tables, answer⟩ := outcome
          obtain ⟨later, hdelete⟩ := @run_deleteMediaKeys turns.tail.tail.tail
            ((Turn.changed 3 turns s).withBlog tables)
            (removedMediaKeys publicUrlPrefix existing answer.post)
          simp only [Turn.changed] at hdelete
          simp only [Ending.andThen_ok, Program.run_bind, PostsService.withAuthor, hdelete,
            Program.run_pure]
          exact ⟨_, rfl⟩

/-- A removal whose statement fails leaves everything to the other calls; otherwise the post is not
there from then on, and its media are deleted if there was one. -/
theorem run_remove : ∃ later,
    (PostsService.remove publicUrlPrefix id).run (storeTurns turns) s =
      match removeSteps id turns s with
      | .error failure =>
        ⟨if (Turn.nextFault turns).isSome then Turn.changed 1 turns s
          else withoutPost id (Turn.changed 1 turns s), later, .error failure⟩
      | .ok deleted =>
        ⟨afterDelete (collectMediaKeys publicUrlPrefix deleted) turns.tail
          (withoutPost id (Turn.changed 1 turns s)), later, .ok deleted⟩ := by
  rw [PostsService.remove, Program.run_bind, PostsService.deleteFromPosts, removeSteps]
  cases hdelete : Turn.nextFault turns with
  | some error =>
    rw [run_query_of_fault hdelete]
    exact ⟨_, rfl⟩
  | none =>
    rw [run_query_of_no_fault hdelete]
    simp only [Ending.ofOutcome_ok, Ending.andThen_ok, Turn.changed]
    cases findPostById (Turn.met turns s).posts id with
    | none => exact ⟨_, rfl⟩
    | some found =>
      obtain ⟨later, hmedia⟩ := @run_deleteMediaKeys turns.tail
        (withoutPost id (Turn.met turns s)) (collectMediaKeys publicUrlPrefix found)
      simp only [withoutPost] at hmedia
      simp only [Program.run_bind, hmedia, Ending.andThen_ok, Program.run_pure]
      exact ⟨_, rfl⟩

/-- A removal that goes through deletes the post and its media. -/
theorem run_remove_of_ok {deleted : Post} (h : removeSteps id turns s = .ok deleted) : ∃ later,
    (PostsService.remove publicUrlPrefix id).run (storeTurns turns) s =
      ⟨afterDelete (collectMediaKeys publicUrlPrefix deleted) turns.tail
        (withoutPost id (Turn.changed 1 turns s)), later, .ok deleted⟩ := by
  obtain ⟨later, hrun⟩ := @run_remove publicUrlPrefix id turns s
  rw [h] at hrun
  exact ⟨later, hrun⟩

/-- Any other removal throws, and deletes no media. -/
theorem run_remove_of_error {failure : Failure} (h : removeSteps id turns s = .error failure) :
    ∃ later, (PostsService.remove publicUrlPrefix id).run (storeTurns turns) s =
      ⟨if (Turn.nextFault turns).isSome then Turn.changed 1 turns s
        else withoutPost id (Turn.changed 1 turns s), later, .error failure⟩ := by
  obtain ⟨later, hrun⟩ := @run_remove publicUrlPrefix id turns s
  rw [h] at hrun
  exact ⟨later, hrun⟩

end Runs

end VertexApi.App
