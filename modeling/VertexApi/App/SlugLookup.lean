import VertexApi.App.Services
import VertexApi.Core.Sql
import VertexApi.Posts.SlugAddresses

/-!
# The lookup by slug

The condition that the lookup of a published post hands to the database, over columns that may have
no value. It keeps the posts whose address in the locale is the slug, and no others.
-/

namespace VertexApi.App

open Posts

/-- The condition of `findPublishedBySlug`, as the query spells it. -/
def slugQuery (slug : String) (locale : Option String) (post : Post) : Sql.Truth :=
  let localeSlugMatch :=
    if locale = some "en" then
      Sql.or (Sql.eq post.slugEn (some slug))
        (Sql.and (Sql.isNull post.slugEn) (Sql.eq (some post.slug) (some slug)))
    else if locale = some "es" then
      Sql.or (Sql.eq post.slugEs (some slug))
        (Sql.and (Sql.isNull post.slugEs) (Sql.eq (some post.slug) (some slug)))
    else Sql.eq (some post.slug) (some slug)
  Sql.and localeSlugMatch (Sql.eq (some post.isPublished) (some true))

/-- A post is published and has the slug in the locale. -/
def PublishedUnder (slug : String) (locale : Option String) (post : Post) : Prop :=
  post.isPublished = true ∧ effectiveSlug post locale = slug

/-- The lookup returns the row, for some choice among the rows that the query keeps. -/
def MayReturn (slug : String) (locale : Option String) (turns : List (Turn Store ThrownError))
    (s : Store) (row : Post) : Prop :=
  ∃ pick found, ((PostsService.findPublishedBySlug slug locale pick).run
    (storeTurns turns) s).result = .ok found ∧ found.post = row

section Lookup

variable {slug : String} {locale : Option String}

/-- The query keeps the published posts with the slug. -/
theorem holds_slugQuery (post : Post) :
    Sql.holds (slugQuery slug locale post) = isPublishedUnder slug locale post := by
  rw [Bool.eq_iff_iff, isPublishedUnder_iff]
  simp only [slugQuery, effectiveSlug, localeSlug, Sql.holds_and, Bool.and_eq_true, Sql.holds_eq,
    Option.some.injEq, decide_eq_true_eq]
  refine and_congr_left fun _ => ?_
  split
  · rw [Sql.holds_coalesce, decide_eq_true_eq]
  · split
    · rw [Sql.holds_coalesce, decide_eq_true_eq]
    · simp

/-- The rows of the query, in the terms of the posts. -/
theorem isPublishedUnder_eq_true {post : Post} :
    isPublishedUnder slug locale post = true ↔ PublishedUnder slug locale post :=
  isPublishedUnder_iff.trans and_comm

variable {turns : List (Turn Store ThrownError)} {s : Store}

/-- The lookup is one statement. -/
theorem run_findPublishedBySlug (pick : Nat) :
    ((PostsService.findPublishedBySlug slug locale pick).run (storeTurns turns) s).result =
      match Turn.nextFault turns with
      | some error => .error (.thrown error)
      | none =>
        match pickedRow (Turn.met turns s).posts (isPublishedUnder slug locale) pick with
        | some post => .ok (PostsService.postWithTopicsQuery (Turn.met turns s) post)
        | none => .error (.refused postNotFound) := by
  rw [PostsService.findPublishedBySlug, Program.run_bind, read]
  cases hfault : Turn.nextFault turns with
  | some error =>
    rw [run_query_of_fault hfault]
    rfl
  | none =>
    rw [run_query_of_no_fault hfault, Ending.ofOutcome_ok, Ending.andThen_ok]
    cases pickedRow (Turn.met turns s).posts (isPublishedUnder slug locale) pick <;> rfl

/-- What the lookup may return are the published posts with the slug. -/
theorem mayReturn_iff {row : Post} : MayReturn slug locale turns s row ↔
    Turn.nextFault turns = none ∧ row ∈ (Turn.met turns s).posts ∧
      PublishedUnder slug locale row := by
  rw [← isPublishedUnder_eq_true]
  constructor
  · rintro ⟨pick, found, hresult, rfl⟩
    rw [run_findPublishedBySlug] at hresult
    cases hfault : Turn.nextFault turns with
    | some error => simp only [hfault, reduceCtorEq] at hresult
    | none =>
      simp only [hfault] at hresult
      cases hpick : pickedRow (Turn.met turns s).posts (isPublishedUnder slug locale) pick with
      | none => simp only [hpick, reduceCtorEq] at hresult
      | some post =>
        simp only [hpick, Except.ok.injEq] at hresult
        obtain rfl := hresult
        exact ⟨rfl, picks_iff_pickedRow.mpr ⟨pick, hpick⟩⟩
  · rintro ⟨hfault, hrow⟩
    obtain ⟨pick, hpick⟩ := picks_iff_pickedRow.mp
      (show Picks (Turn.met turns s).posts (isPublishedUnder slug locale) (some row) from hrow)
    refine ⟨pick, PostsService.postWithTopicsQuery (Turn.met turns s) row, ?_, rfl⟩
    simp only [run_findPublishedBySlug, hfault, hpick]

/-- The lookup finds nothing when no published post has the slug. -/
theorem findPublishedBySlug_eq_notFound (pick : Nat) :
    ((PostsService.findPublishedBySlug slug locale pick).run (storeTurns turns) s).result =
        .error (.refused postNotFound) ↔
      Turn.nextFault turns = none ∧
        ∀ row ∈ (Turn.met turns s).posts, ¬ PublishedUnder slug locale row := by
  rw [run_findPublishedBySlug]
  cases hfault : Turn.nextFault turns with
  | some error => simp only [Except.error.injEq, reduceCtorEq, false_and]
  | none =>
    simp only [true_and, ← isPublishedUnder_eq_true, Bool.not_eq_true]
    have hpicks : Picks (Turn.met turns s).posts (isPublishedUnder slug locale)
        (pickedRow (Turn.met turns s).posts (isPublishedUnder slug locale) pick) :=
      picks_iff_pickedRow.mpr ⟨pick, rfl⟩
    cases hpick : pickedRow (Turn.met turns s).posts (isPublishedUnder slug locale) pick with
    | some post =>
      rw [hpick] at hpicks
      simp only [reduceCtorEq, false_iff]
      exact fun hnone => Bool.false_ne_true ((hnone post hpicks.1).symm.trans hpicks.2)
    | none =>
      rw [hpick] at hpicks
      simp only [true_iff]
      exact hpicks

/-- The lookup by slug is the fallback that it spells out: its condition keeps the published posts
whose address in the locale is the slug. It returns one of these, reports that there is none
exactly when there is none, and does not depend on the unpublished posts. -/
theorem findPublishedBySlug_refines (slug : String) (locale : Option String) :
    (∀ post, Sql.holds (slugQuery slug locale post) = isPublishedUnder slug locale post) ∧
    (∀ turns s row, MayReturn slug locale turns s row ↔ Turn.nextFault turns = none ∧
      row ∈ (Turn.met turns s).posts ∧ row.isPublished = true ∧
        effectiveSlug row locale = slug) ∧
    (∀ turns s pick, ((PostsService.findPublishedBySlug slug locale pick).run
        (storeTurns turns) s).result = .error (.refused postNotFound) ↔
      Turn.nextFault turns = none ∧ ∀ row ∈ (Turn.met turns s).posts,
        ¬ (row.isPublished = true ∧ effectiveSlug row locale = slug)) ∧
    ∀ turns s s', (∀ row : Post, row.isPublished = true →
        (row ∈ (Turn.met turns s).posts ↔ row ∈ (Turn.met turns s').posts)) →
      ∀ row, MayReturn slug locale turns s row ↔ MayReturn slug locale turns s' row := by
  refine ⟨holds_slugQuery, fun turns s row => mayReturn_iff, fun turns s pick =>
    findPublishedBySlug_eq_notFound pick, fun turns s s' hsame row => ?_⟩
  rw [mayReturn_iff, mayReturn_iff]
  refine and_congr_right fun _ => and_congr_left fun hunder => ?_
  exact hsame row hunder.1

end Lookup

end VertexApi.App
