import VertexApi.App.MediaDifference
import VertexApi.App.SlugLookup

/-!
# Blank slugs of translations

The form of a post submits an empty text for the slug of a translation that the author has left
blank. The validation of an edit makes an omitted field of it, and the database then keeps the
slug that the post had.
-/

namespace VertexApi.App

open Posts

/-- The slugs of the translations. -/
inductive SlugField where
  | slugEn
  | slugEs
  deriving DecidableEq, Repr

namespace SlugField

def locale : SlugField → String
  | slugEn => "en"
  | slugEs => "es"

/-- The column of a post. -/
def value : SlugField → Post → Option String
  | slugEn, post => post.slugEn
  | slugEs, post => post.slugEs

/-- The field of a body. -/
def submitted : SlugField → PostInput → Option String
  | slugEn, input => input.slugEn
  | slugEs, input => input.slugEs

/-- The field of a validated body. -/
def given : SlugField → UpdatePostDto → Option String
  | slugEn, updatePostDto => updatePostDto.slugEn
  | slugEs, updatePostDto => updatePostDto.slugEs

/-- What the author means: a submitted slug, none for a blank one, and the old one otherwise. -/
def intended (field : SlugField) (input : PostInput) (post : Post) : Option String :=
  match field.submitted input with
  | none => field.value post
  | some text => if text = "" then none else some text

end SlugField

/-- The slugs of the translations are what the body submits, and a post whose slug has been
blanked is found under its default slug in that locale, and under no other. -/
def SlugsFollowBody (input : PostInput) (before : Post) (after : Store) (row : Post) : Prop :=
  (∀ field : SlugField, field.value row = field.intended input before) ∧
  ∀ field : SlugField, field.submitted input = some "" → ∀ slug,
    MayReturn slug (some field.locale) [] after row ↔ row.isPublished = true ∧ slug = row.slug

section Validation

variable {parseUrl : String → Option String} {isUuid : String → Bool}

/-- An optional slug that is admitted is what has been submitted, or none for a blank one. -/
theorem optionalSlugSchema_eq_some {text slug : Option String}
    (h : optionalSlugSchema text = some slug) : slug = JsString.truthy text := by
  cases text with
  | none => exact (Option.some.inj h).symm
  | some text =>
    by_cases hempty : text = ""
    · subst hempty
      exact (Option.some.inj h).symm
    · have htruthy : JsString.truthy (some text) = some text :=
        JsString.truthy_eq_some.mpr ⟨rfl, hempty⟩
      simp only [optionalSlugSchema, hempty, if_false] at h
      split at h
      · rw [htruthy, Option.some.inj h]
      · cases h

/-- The slugs of a validated body. -/
theorem given_of_updatePostSchema {input : PostInput} {updatePostDto : UpdatePostDto}
    (h : updatePostSchema parseUrl isUuid input = some updatePostDto) (field : SlugField) :
    field.given updatePostDto = JsString.truthy (field.submitted input) := by
  simp only [updatePostSchema, optionalPostFields, Option.bind_eq_bind, Option.pure_def,
    Option.bind_eq_some_iff, Option.some.injEq] at h
  obtain ⟨title, -, slug, -, content, -, fields, hfields, rfl⟩ := h
  obtain ⟨slugEn, hen, slugEs, hes, -, -, -, -, -, -, -, -, -, -, -, -, -, -, rfl⟩ := hfields
  cases field with
  | slugEn => exact optionalSlugSchema_eq_some hen
  | slugEs => exact optionalSlugSchema_eq_some hes

end Validation

section Edits

variable {publicUrlPrefix id : String} {input : PostInput} {updatePostDto : UpdatePostDto}
  {turns : List (Turn Store ThrownError)} {s : Store} {post : Post}

/-- A field is as submitted unless it has been blanked over a slug. -/
theorem or_eq_intended_iff (field : SlugField) :
    (JsString.truthy (field.submitted input)).or (field.value post) = field.intended input post ↔
      (field.submitted input = some "" → field.value post = none) := by
  rw [SlugField.intended]
  cases hsubmitted : field.submitted input with
  | none => simp [JsString.truthy]
  | some text =>
    by_cases hempty : text = ""
    · simp [hempty, JsString.truthy]
    · rw [JsString.truthy_eq_some.mpr ⟨rfl, hempty⟩]
      simp [hempty]

/-- A post without a slug of its own in a locale has the default one as its address. -/
theorem effectiveSlug_of_value_eq_none {field : SlugField} (h : field.value post = none) :
    effectiveSlug post (some field.locale) = post.slug := by
  cases field <;> exact congrArg (Option.getD · post.slug) h

/-- After an edit that goes through, the slugs of the translations are as submitted, with what
follows for the lookups, exactly if no slug that the post has is submitted as blank. -/
theorem slugsFollowBody_iff {parseUrl : String → Option String} {isUuid : String → Bool}
    (hinput : updatePostSchema parseUrl isUuid input = some updatePostDto)
    (hturns : ∀ turn ∈ turns, LeavesPosts turn) (hpost : findPostById s.posts id = some post)
    {updated : PostsService.PostWithAuthor}
    (hok : ((PostsService.update publicUrlPrefix id updatePostDto).run
      (storeTurns turns) s).result = .ok updated) :
    let after := ((PostsService.update publicUrlPrefix id updatePostDto).run
      (storeTurns turns) s).state
    ∃ row, findPostById after.posts id = some row ∧ (SlugsFollowBody input post after row ↔
      ∀ field : SlugField, field.submitted input = some "" → field.value post = none) := by
  intro after
  obtain ⟨existing, now, hedit⟩ := post_of_update hturns hpost hok
  obtain ⟨-, -, hfound, -⟩ := editDeletesLost hturns updatePostDto updated hok
  have hvalue : ∀ field : SlugField, field.value updated.post =
      (JsString.truthy (field.submitted input)).or (field.value post) := by
    intro field
    rw [← given_of_updatePostSchema hinput field, hedit]
    cases field <;> rfl
  refine ⟨updated.post, hfound, fun h field => ?_, fun h => ⟨fun field => ?_, ?_⟩⟩
  · exact (or_eq_intended_iff field).mp ((hvalue field).symm.trans (h.1 field))
  · exact (hvalue field).trans ((or_eq_intended_iff field).mpr (h field))
  · intro field hblank slug
    have hnone : field.value updated.post = none := by
      rw [hvalue, hblank, h field hblank]
      rfl
    have hmem : updated.post ∈ after.posts := List.mem_of_find?_eq_some hfound
    rw [mayReturn_iff, PublishedUnder, effectiveSlug_of_value_eq_none hnone]
    exact ⟨fun hreturned => ⟨hreturned.2.2.1, hreturned.2.2.2.symm⟩,
      fun hpublished => ⟨rfl, hmem, hpublished.1, hpublished.2.symm⟩⟩

end Edits

/-- A published post with a slug in English. -/
def translatedRow : Post :=
  newPost ⟨{ bareFields with slugEn := some "hello", isPublished := some true }, "t", "ola", "c"⟩
    "ada" "post" (some 0) 0

/-- A blog with that post. -/
def translatedPost : Store := { Store.empty with posts := [translatedRow] }

/-- A body with a slug in English. -/
def slugEnInput (slugEn : String) : PostInput := { bareEdit with slugEn := some slugEn }

/-- An edit of the slug in English. -/
def slugEnEdit (slugEn : Option String) : UpdatePostDto where
  toOptionalPostFields := { bareFields with slugEn := slugEn }
  title := none
  slug := none
  content := none

/-- What an edit of that post leaves. -/
def translatedPostAfter (slugEn : Option String) : Store :=
  ((PostsService.update "" "post" (slugEnEdit slugEn)).run [] translatedPost).state

/-- A new slug is stored. -/
theorem slugsFollowBody_iff_translatedPost :
    ∃ row, findPostById (translatedPostAfter (some "hi")).posts "post" = some row ∧
      SlugsFollowBody (slugEnInput "hi") translatedRow (translatedPostAfter (some "hi")) row := by
  obtain ⟨updated, hupdated⟩ : ∃ updated, ((PostsService.update "" "post"
      (slugEnEdit (some "hi"))).run [] translatedPost).result = .ok updated := ⟨_, rfl⟩
  have hinput : updatePostSchema some (fun _ => true) (slugEnInput "hi") =
      some (slugEnEdit (some "hi")) := by decide +kernel
  obtain ⟨row, hrow, hfollows⟩ := slugsFollowBody_iff hinput
    (fun turn hturn => absurd hturn List.not_mem_nil)
    (show findPostById translatedPost.posts "post" = some translatedRow from rfl) hupdated
  refine ⟨row, hrow, hfollows.mpr fun field hblank => ?_⟩
  cases field with
  | slugEn => exact absurd hblank (by decide)
  | slugEs => cases hblank

/-- A blank slug is admitted, and the post keeps the one it had. -/
theorem not_slugsFollowBody_blank :
    updatePostSchema some (fun _ => true) (slugEnInput "") = some (slugEnEdit none) ∧
    ∃ row, findPostById (translatedPostAfter none).posts "post" = some row ∧
      row.slugEn = some "hello" ∧
        ¬ SlugsFollowBody (slugEnInput "") translatedRow (translatedPostAfter none) row := by
  refine ⟨by decide +kernel, _, rfl, rfl, fun h => ?_⟩
  cases h.1 .slugEn

end VertexApi.App
