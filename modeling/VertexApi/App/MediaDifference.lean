import Mathlib.Data.Set.Basic
import VertexApi.App.PostUpdates

/-!
# The media that an edit deletes

The media of a post are the keys of its three contents and of its three covers. An edit that
nothing else interferes with deletes the media that the edited post has lost, at most in one
call, and a removal deletes all of them; whether the delete goes through makes no difference
to the answer and to the tables.
-/

namespace VertexApi.App

open Posts Uploads

/-- The fields of a post that refer to media. -/
inductive MediaField where
  | content
  | contentEn
  | contentEs
  | coverUrl
  | coverUrlEn
  | coverUrlEs
  deriving DecidableEq, Repr

namespace MediaField

/-- The value of a field. -/
def value : MediaField → Post → Option String
  | content, post => some post.content
  | contentEn, post => post.contentEn
  | contentEs, post => post.contentEs
  | coverUrl, post => post.coverUrl
  | coverUrlEn, post => post.coverUrlEn
  | coverUrlEs, post => post.coverUrlEs

/-- The value that an edit gives to a field. -/
def given : MediaField → UpdatePostDto → Option String
  | content, updatePostDto => updatePostDto.content
  | contentEn, updatePostDto => updatePostDto.contentEn
  | contentEs, updatePostDto => updatePostDto.contentEs
  | coverUrl, updatePostDto => updatePostDto.coverUrl
  | coverUrlEn, updatePostDto => updatePostDto.coverUrlEn
  | coverUrlEs, updatePostDto => updatePostDto.coverUrlEs

/-- The keys extracted from a field; a cover that is the bare prefix has none. -/
def keys (publicUrlPrefix : String) (field : MediaField) (post : Post) : Set String :=
  match field with
  | content | contentEn | contentEs =>
    {key | ∃ text, field.value post = some text ∧
      key ∈ extractBucketKeysFromContent publicUrlPrefix text}
  | coverUrl | coverUrlEn | coverUrlEs =>
    {key | extractBucketKeyFromUrl publicUrlPrefix (field.value post) = some key ∧ key ≠ ""}

end MediaField

/-- The media of a post. -/
def media (publicUrlPrefix : String) (post : Post) : Set String :=
  {key | ∃ field : MediaField, key ∈ field.keys publicUrlPrefix post}

/-- A change of another call that leaves the posts and the record alone. -/
def LeavesPosts (turn : Turn Store ThrownError) : Prop :=
  ∀ s, (turn.change s).posts = s.posts ∧ (turn.change s).outbound = s.outbound

section Media

variable {publicUrlPrefix : String} {post : Post} {key : String}

/-- The media of a post are what `collectMediaKeys` lists. -/
theorem mem_media : key ∈ media publicUrlPrefix post ↔
    key ∈ collectMediaKeys publicUrlPrefix post := by
  have hcontent : ∀ text, publicUrlPrefix ++ key ∈ markdownImageUrls text → text ≠ "" := by
    rintro text hkey rfl
    cases hkey
  have hcover : ∀ url, extractBucketKeyFromUrl publicUrlPrefix url = some key ↔
      url = some (publicUrlPrefix ++ key) := by
    intro url
    cases url with
    | none => simp only [extractBucketKeyFromUrl, reduceCtorEq]
    | some url => rw [extractBucketKeyFromUrl_eq_some, Option.some.injEq]
  rw [mem_collectMediaKeys]
  constructor
  · rintro ⟨field, hkey⟩
    cases field with
    | content | contentEn | contentEs =>
      obtain ⟨text, hvalue, hkey⟩ := hkey
      have hurl := mem_extractBucketKeysFromContent.mp hkey
      simp only [MediaField.value, Option.some.injEq] at hvalue
      exact Or.inl ⟨text, by simp only [hvalue, true_or, or_true], hcontent text hurl, hurl⟩
    | coverUrl | coverUrlEn | coverUrlEs =>
      have hvalue := (hcover _).mp hkey.1
      simp only [MediaField.value] at hvalue
      exact Or.inr ⟨hkey.2, by simp only [hvalue, true_or, or_true]⟩
  · rintro (⟨text, hvalue, -, hurl⟩ | ⟨hne, hvalue⟩)
    · have hkey := mem_extractBucketKeysFromContent.mpr hurl
      rcases hvalue with hvalue | hvalue | hvalue
      · exact ⟨.content, text, congrArg some hvalue, hkey⟩
      · exact ⟨.contentEn, text, hvalue, hkey⟩
      · exact ⟨.contentEs, text, hvalue, hkey⟩
    · rcases hvalue with hvalue | hvalue | hvalue
      · exact ⟨.coverUrl, (hcover _).mpr hvalue, hne⟩
      · exact ⟨.coverUrlEn, (hcover _).mpr hvalue, hne⟩
      · exact ⟨.coverUrlEs, (hcover _).mpr hvalue, hne⟩

/-- A list without its repetitions. -/
theorem nodup_eraseDups (keys : List String) : keys.eraseDups.Nodup := by
  induction hlength : keys.length using Nat.strongRecOn generalizing keys with
  | _ length ih =>
    cases keys with
    | nil => exact List.nodup_nil
    | cons key keys =>
      have hlt : (keys.filter fun other => !(other == key)).length < length := by
        rw [← hlength]
        exact Nat.lt_succ_of_le (List.length_filter_le ..)
      rw [List.eraseDups_cons, List.nodup_cons, List.mem_eraseDups]
      exact ⟨by simp, ih _ hlt _ rfl⟩

/-- What an edit has dropped, each key once. -/
theorem nodup_removedMediaKeys (existing updated : Post) :
    (removedMediaKeys publicUrlPrefix existing updated).Nodup :=
  (nodup_eraseDups _).filter _

/-- The media that an edit has dropped. -/
theorem mem_removedMediaKeys {existing updated : Post} :
    key ∈ removedMediaKeys publicUrlPrefix existing updated ↔
      key ∈ media publicUrlPrefix existing ∧ key ∉ media publicUrlPrefix updated := by
  simp only [removedMediaKeys, List.mem_filter, List.contains_eq_mem, Bool.not_eq_true',
    decide_eq_false_iff_not, mem_media]

/-- An edit gives a field a value of its own, or leaves it. -/
theorem value_postEdit (field : MediaField) (updatePostDto : UpdatePostDto) (existing row : Post)
    (now : Nat) : field.value (postEdit existing updatePostDto now row) =
      (field.given updatePostDto).or (field.value row) := by
  cases field with
  | content =>
    simp only [MediaField.value, MediaField.given, postEdit, editedPost]
    cases updatePostDto.content <;> rfl
  | contentEn | contentEs | coverUrl | coverUrlEn | coverUrlEs => rfl

/-- A field that an edit omits keeps its media. -/
theorem keys_postEdit {field : MediaField} {updatePostDto : UpdatePostDto} {existing row : Post}
    {now : Nat} (h : field.given updatePostDto = none) :
    field.keys publicUrlPrefix (postEdit existing updatePostDto now row) =
      field.keys publicUrlPrefix row := by
  have hvalue : field.value (postEdit existing updatePostDto now row) = field.value row := by
    rw [value_postEdit, h, Option.none_or]
  cases field <;> simp only [MediaField.keys, hvalue]

end Media

/-- What a call hands to the bucket: nothing when no key is left over, and otherwise one list of
the keys; the record leaves out a delete that fails. -/
structure HandsOver (keys : Set String) (fails : Bool) (former handed : List Outbound) : Prop where
  nothing : keys = ∅ → handed = former
  once : keys.Nonempty → fails = false → ∃ list : List String, list.Nodup ∧
    (∀ key, key ∈ list ↔ key ∈ keys) ∧ handed = former ++ [.deletedFiles list]
  failed : fails = true → handed = former

section Deletes

variable {turns : List (Turn Store ThrownError)} {s : Store}

/-- Turns that leave the posts alone. -/
theorem posts_changed (h : ∀ turn ∈ turns, LeavesPosts turn) (n : Nat) :
    (Turn.changed n turns s).posts = s.posts ∧
      (Turn.changed n turns s).outbound = s.outbound := by
  induction n generalizing turns s with
  | zero => exact ⟨rfl, rfl⟩
  | succ n ih =>
    have htail := @ih turns.tail (Turn.met turns s)
      fun turn hturn => h turn (List.mem_of_mem_tail hturn)
    cases turns with
    | nil => exact htail
    | cons turn turns =>
      have hturn := h turn (List.mem_cons_self ..) s
      exact ⟨htail.1.trans hturn.1, htail.2.trans hturn.2⟩

/-- What the delete of media hands over. -/
theorem handsOver_afterDelete (h : ∀ turn ∈ turns, LeavesPosts turn) {list : List String}
    {keys : Set String} (hnodup : list.Nodup) (hkeys : ∀ key, key ∈ list ↔ key ∈ keys) :
    (afterDelete list turns s).posts = s.posts ∧
      HandsOver keys (Turn.nextFault turns).isSome s.outbound
        (afterDelete list turns s).outbound := by
  obtain ⟨hposts, houtbound⟩ := @posts_changed turns s h 1
  by_cases hlist : list = []
  · have hempty : keys = ∅ := by
      refine Set.eq_empty_iff_forall_notMem.mpr fun key hkey => ?_
      rw [← hkeys, hlist] at hkey
      exact List.not_mem_nil hkey
    rw [afterDelete, if_pos hlist]
    exact ⟨rfl, fun _ => rfl, fun hne => absurd hempty hne.ne_empty, fun _ => rfl⟩
  · have hnonempty : keys.Nonempty := by
      obtain ⟨key, hkey⟩ := List.exists_mem_of_ne_nil list hlist
      exact ⟨key, (hkeys key).mp hkey⟩
    rw [afterDelete, if_neg hlist]
    cases Turn.nextFault turns with
    | none =>
      refine ⟨hposts, fun hempty => absurd hempty hnonempty.ne_empty,
        fun _ _ => ?_, fun hfails => ?_⟩
      · exact ⟨list, hnodup, hkeys, congrArg (· ++ [Outbound.deletedFiles list]) houtbound⟩
      · cases hfails
    | some error =>
      refine ⟨hposts, fun _ => houtbound, fun _ hfails => ?_, fun _ => houtbound⟩
      cases hfails

end Deletes

/-- An edit that goes through deletes the media that the post has lost, and none of a field that
it omits. -/
def EditDeletesLost (publicUrlPrefix id : String) (turns : List (Turn Store ThrownError))
    (s : Store) : Prop :=
  ∀ updatePostDto updated,
    let ending := (PostsService.update publicUrlPrefix id updatePostDto).run (storeTurns turns) s
    ending.result = .ok updated → ∃ existing, findPostById s.posts id = some existing ∧
      findPostById ending.state.posts id = some updated.post ∧
      HandsOver (media publicUrlPrefix existing \ media publicUrlPrefix updated.post)
        (Turn.nextFault turns.tail.tail.tail).isSome s.outbound ending.state.outbound ∧
      ∀ field : MediaField, field.given updatePostDto = none →
        ∀ key ∈ field.keys publicUrlPrefix existing,
          key ∉ media publicUrlPrefix existing \ media publicUrlPrefix updated.post

/-- A removal that goes through deletes the media of the post. -/
def RemovalDeletesAll (publicUrlPrefix id : String) (turns : List (Turn Store ThrownError))
    (s : Store) : Prop :=
  ∀ deleted,
    let ending := (PostsService.remove publicUrlPrefix id).run (storeTurns turns) s
    ending.result = .ok deleted → findPostById s.posts id = some deleted ∧
      HandsOver (media publicUrlPrefix deleted) (Turn.nextFault turns.tail).isSome s.outbound
        ending.state.outbound

/-- Two endings with the same answer and the same tables. -/
def SameButRecord {α : Type} (ending ending' : Ending Store Failure α) : Prop :=
  ending.result = ending'.result ∧
    { ending.state with outbound := [] } = { ending'.state with outbound := [] }

/-- Whether the delete of media fails makes no difference, other than to the record. -/
def DeleteMayFail (publicUrlPrefix id : String) (s : Store) : Prop :=
  ∀ (updatePostDto : UpdatePostDto) (a b c : Turn Store ThrownError) (change : Store → Store)
    (error : ThrownError) (later : List (Turn Store ThrownError)),
    SameButRecord
      ((PostsService.update publicUrlPrefix id updatePostDto).run
        (storeTurns (a :: b :: c :: ⟨change, some error⟩ :: later)) s)
      ((PostsService.update publicUrlPrefix id updatePostDto).run
        (storeTurns (a :: b :: c :: ⟨change, none⟩ :: later)) s) ∧
    SameButRecord
      ((PostsService.remove publicUrlPrefix id).run
        (storeTurns (a :: ⟨change, some error⟩ :: later)) s)
      ((PostsService.remove publicUrlPrefix id).run
        (storeTurns (a :: ⟨change, none⟩ :: later)) s)

section Cleanup

variable {publicUrlPrefix id : String} {turns : List (Turn Store ThrownError)} {s : Store}

/-- The answer of an edit that goes through has the edited row. -/
theorem post_of_update (hturns : ∀ turn ∈ turns, LeavesPosts turn) {post : Post}
    (hpost : findPostById s.posts id = some post) {updatePostDto : UpdatePostDto}
    {updated : PostsService.PostWithAuthor}
    (hok : ((PostsService.update publicUrlPrefix id updatePostDto).run
      (storeTurns turns) s).result = .ok updated) :
    ∃ existing now, updated.post = postEdit existing updatePostDto now post := by
  obtain ⟨later, hrun⟩ := @run_update publicUrlPrefix id updatePostDto turns s
  rw [hrun] at hok
  cases hsteps : updateSteps id updatePostDto turns s with
  | error outcome =>
    rw [hsteps] at hok
    cases hok
  | ok outcome =>
    obtain ⟨existing, tables, answer⟩ := outcome
    rw [hsteps] at hok
    obtain rfl := Except.ok.inj hok
    obtain ⟨-, htransaction⟩ := updateSteps_eq_ok hsteps
    obtain ⟨old, hold, -, -, hanswer⟩ := updateTransaction_eq_ok htransaction
    have hposts : (Turn.changed 3 turns s).blog.posts = s.posts := (posts_changed hturns 3).1
    rw [hposts, hpost] at hold
    obtain rfl := Option.some.inj hold
    exact ⟨existing, _, hanswer⟩

/-- An edit that goes through deletes exactly the media that the post has lost. -/
theorem editDeletesLost (hturns : ∀ turn ∈ turns, LeavesPosts turn) :
    EditDeletesLost publicUrlPrefix id turns s := by
  intro updatePostDto updated ending hok
  obtain ⟨later, hrun⟩ := @run_update publicUrlPrefix id updatePostDto turns s
  cases hsteps : updateSteps id updatePostDto turns s with
  | error outcome =>
    rw [hsteps] at hrun
    cases (congrArg Ending.result hrun).symm.trans hok
  | ok outcome =>
    obtain ⟨existing, tables, answer⟩ := outcome
    rw [hsteps] at hrun
    obtain rfl := Except.ok.inj ((congrArg Ending.result hrun).symm.trans hok)
    obtain ⟨hread, htransaction⟩ := updateSteps_eq_ok hsteps
    obtain ⟨old, hold, hanswer, hfound⟩ :=
      findPostById_updateTransaction htransaction fun _ => rfl
    -- Nothing else has written to the posts since they were read.
    have hposts := fun n => (@posts_changed turns s hturns n).1
    rw [hposts] at hread
    rw [show (Turn.changed 3 turns s).blog.posts = s.posts from hposts 3, hread] at hold
    obtain rfl := Option.some.inj hold
    have hrest : ∀ turn ∈ turns.tail.tail.tail, LeavesPosts turn := fun turn hturn =>
      hturns turn (List.mem_of_mem_tail (List.mem_of_mem_tail (List.mem_of_mem_tail hturn)))
    obtain ⟨hafter, hhands⟩ := @handsOver_afterDelete _ ((Turn.changed 3 turns s).withBlog tables)
      hrest _ (media publicUrlPrefix existing \ media publicUrlPrefix answer.post)
      (nodup_removedMediaKeys existing answer.post) fun key => mem_removedMediaKeys
    refine ⟨existing, hread, ?found, ?hands, fun field homitted key hkey hlost => ?omitted⟩
    case found =>
      rw [show ending = _ from hrun]
      exact (congrArg (findPostById · id) hafter).trans (hfound.trans (congrArg some hanswer.symm))
    case hands =>
      rw [show ending = _ from hrun, ← (@posts_changed turns s hturns 3).2]
      exact hhands
    case omitted =>
      refine hlost.2 ⟨field, ?_⟩
      change key ∈ field.keys publicUrlPrefix answer.post
      rw [hanswer, keys_postEdit homitted]
      exact hkey

/-- What a removal that goes through has found. -/
theorem removeSteps_eq_ok {deleted : Post} (h : removeSteps id turns s = .ok deleted) :
    findPostById (Turn.changed 1 turns s).posts id = some deleted := by
  simp only [removeSteps] at h
  cases hfault : Turn.nextFault turns with
  | some error => simp only [hfault, reduceCtorEq] at h
  | none =>
    simp only [hfault] at h
    cases hfind : findPostById (Turn.changed 1 turns s).posts id with
    | none => simp only [hfind, reduceCtorEq] at h
    | some found =>
      simp only [hfind, Except.ok.injEq] at h
      exact congrArg some h

/-- A removal that goes through deletes exactly the media of the post. -/
theorem removalDeletesAll (hturns : ∀ turn ∈ turns, LeavesPosts turn) :
    RemovalDeletesAll publicUrlPrefix id turns s := by
  intro deleted ending hok
  cases hsteps : removeSteps id turns s with
  | error failure =>
    obtain ⟨later, hrun⟩ := @run_remove_of_error publicUrlPrefix id turns s failure hsteps
    cases (congrArg Ending.result hrun).symm.trans hok
  | ok found =>
    obtain ⟨later, hrun⟩ := @run_remove_of_ok publicUrlPrefix id turns s found hsteps
    obtain rfl := Except.ok.inj ((congrArg Ending.result hrun).symm.trans hok)
    obtain ⟨hposts, houtbound⟩ := @posts_changed turns s hturns 1
    have hrest : ∀ turn ∈ turns.tail, LeavesPosts turn := fun turn hturn =>
      hturns turn (List.mem_of_mem_tail hturn)
    have hhands := (@handsOver_afterDelete _ (withoutPost id (Turn.changed 1 turns s)) hrest _
      (media publicUrlPrefix found) (nodup_eraseDups _) fun key => mem_media.symm).2
    refine ⟨hposts ▸ removeSteps_eq_ok hsteps, ?_⟩
    rw [show ending = _ from hrun, ← houtbound]
    exact hhands

/-- A delete that fails leaves what one that goes through does, other than the record. -/
theorem afterDelete_of_fault (list : List String) (change : Store → Store) (error : ThrownError)
    (later : List (Turn Store ThrownError)) :
    { afterDelete list (⟨change, some error⟩ :: later) s with outbound := [] } =
      { afterDelete list (⟨change, none⟩ :: later) s with outbound := [] } := by
  by_cases hlist : list = []
  · simp only [afterDelete, if_pos hlist]
  · simp only [afterDelete, if_neg hlist]
    rfl

/-- The delete of media may fail. -/
theorem deleteMayFail : DeleteMayFail publicUrlPrefix id s := by
  intro updatePostDto a b c change error later
  constructor
  · have hsame : updateSteps id updatePostDto (a :: b :: c :: ⟨change, some error⟩ :: later) s =
        updateSteps id updatePostDto (a :: b :: c :: ⟨change, none⟩ :: later) s := rfl
    obtain ⟨_, hfails⟩ := @run_update publicUrlPrefix id updatePostDto
      (a :: b :: c :: ⟨change, some error⟩ :: later) s
    obtain ⟨_, hruns⟩ := @run_update publicUrlPrefix id updatePostDto
      (a :: b :: c :: ⟨change, none⟩ :: later) s
    rw [hfails, hruns, hsame]
    cases updateSteps id updatePostDto (a :: b :: c :: ⟨change, none⟩ :: later) s with
    | error outcome =>
      have hchanged := @Turn.changed_congr _ _ (a :: b :: c :: ⟨change, some error⟩ :: later)
        (a :: b :: c :: ⟨change, none⟩ :: later) rfl outcome.1 s
      exact ⟨rfl, by simp only [hchanged]⟩
    | ok outcome => exact ⟨rfl, afterDelete_of_fault ..⟩
  · have hsame : removeSteps id (a :: ⟨change, some error⟩ :: later) s =
        removeSteps id (a :: ⟨change, none⟩ :: later) s := rfl
    cases hsteps : removeSteps id (a :: ⟨change, none⟩ :: later) s with
    | error failure =>
      obtain ⟨_, hfails⟩ := @run_remove_of_error publicUrlPrefix id _ _ _ (hsame.trans hsteps)
      obtain ⟨_, hruns⟩ := @run_remove_of_error publicUrlPrefix id _ _ _ hsteps
      rw [hfails, hruns]
      exact ⟨rfl, rfl⟩
    | ok deleted =>
      obtain ⟨_, hfails⟩ := @run_remove_of_ok publicUrlPrefix id _ _ _ (hsame.trans hsteps)
      obtain ⟨_, hruns⟩ := @run_remove_of_ok publicUrlPrefix id _ _ _ hsteps
      rw [hfails, hruns]
      exact ⟨rfl, afterDelete_of_fault ..⟩

/-- Media cleanup is the exact difference: an edit that nothing interferes with deletes, in one
call at most, the media that the post has lost, a removal all of the media of the post, and a
delete that fails changes neither the answer nor the tables. -/
theorem media_cleanup_exact (publicUrlPrefix id : String) (s : Store) :
    (∀ turns : List (Turn Store ThrownError), (∀ turn ∈ turns, LeavesPosts turn) →
      EditDeletesLost publicUrlPrefix id turns s ∧ RemovalDeletesAll publicUrlPrefix id turns s) ∧
    DeleteMayFail publicUrlPrefix id s :=
  ⟨fun _ hturns => ⟨editDeletesLost hturns, removalDeletesAll hturns⟩, deleteMayFail⟩

end Cleanup

/-- A post with a cover and another image. -/
def illustratedPost : Store :=
  { Store.empty with
    posts := [newPost ⟨{ bareFields with coverUrl := some "https://media/cover" }, "t", "s",
      "![i](https://media/inline)"⟩ "ada" "post" none 0] }

/-- A body that makes the image the cover. -/
def coveringEdit : UpdatePostDto where
  toOptionalPostFields := { bareFields with coverUrl := some "https://media/inline" }
  title := none
  slug := none
  content := some "plain"

/-- The edit deletes the cover, and no more. -/
theorem media_cleanup_exact_illustratedPost :
    (EditDeletesLost "https://media/" "post" [] illustratedPost ∧
      RemovalDeletesAll "https://media/" "post" [] illustratedPost) ∧
    ((PostsService.update "https://media/" "post" coveringEdit).run []
      illustratedPost).state.outbound = [.deletedFiles ["cover"]] :=
  ⟨(media_cleanup_exact "https://media/" "post" illustratedPost).1 []
    fun _ hturn => absurd hturn List.not_mem_nil, by decide +kernel⟩

end VertexApi.App
