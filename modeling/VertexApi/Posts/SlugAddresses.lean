import VertexApi.Posts.PostWrites

/-!
# Posts under their addresses

A translation is found under its own slug, or else under the slug of the post. Each of the
three columns is unique, but a slug of a translation may repeat the slug of another post,
which has no slug of its own in that locale. Addresses lead to their own posts in a run
exactly if no write lets in such a pair.
-/

namespace VertexApi.Posts

/-- The slug under which a post is found in a locale. -/
def effectiveSlug (post : Post) (locale : Option String) : String :=
  (localeSlug locale post).getD post.slug

/-- Every lookup of the post's address in a locale returns the post. -/
def HasOwnAddress (tables : PostTables) (post : Post) (locale : Option String) : Prop :=
  ∀ pick, Picks tables.posts (isPublishedUnder (effectiveSlug post locale) locale) pick →
    findPublishedBySlug tables pick = .ok (withFlattenedTopics tables post)

/-- Every published post is what its address in each locale leads to. -/
def AllAddressed (tables : PostTables) : Prop :=
  ∀ post ∈ tables.posts, post.isPublished = true → ∀ locale, HasOwnAddress tables post locale

/-- If both are published, no translation of the first post has the slug of the other one, when
that one has no slug of its own in the locale. -/
def SlugsApart (post other : Post) : Prop :=
  post.isPublished = true → other.isPublished = true →
    (other.slugEn = none → post.slugEn ≠ some other.slug) ∧
    (other.slugEs = none → post.slugEs ≠ some other.slug)

instance decidableSlugsApart (post other : Post) : Decidable (SlugsApart post other) :=
  inferInstanceAs (Decidable (post.isPublished = true → other.isPublished = true →
    (other.slugEn = none → post.slugEn ≠ some other.slug) ∧
    (other.slugEs = none → post.slugEs ≠ some other.slug)))

/-- The slugs of all posts are apart. -/
def AllApart (posts : List Post) : Prop := ∀ post ∈ posts, ∀ other ∈ posts, SlugsApart post other

instance decidableAllApart (posts : List Post) : Decidable (AllApart posts) :=
  inferInstanceAs (Decidable (∀ post ∈ posts, ∀ other ∈ posts, SlugsApart post other))

/-- The row that a step writes is apart from the other posts, in both directions. -/
def WritesApart (s : PostsState) (label : PostLabel) : Prop :=
  ∀ write ∈ postWrite s label, ∀ row ∈ write.row, ∀ other ∈ s.tables.posts,
    other.id ≠ write.postId → SlugsApart row other ∧ SlugsApart other row

instance decidableWritesApart (s : PostsState) (label : PostLabel) :
    Decidable (WritesApart s label) :=
  inferInstanceAs (Decidable (∀ write ∈ postWrite s label, ∀ row ∈ write.row,
    ∀ other ∈ s.tables.posts, other.id ≠ write.postId →
      SlugsApart row other ∧ SlugsApart other row))

section Addresses

variable {tables : PostTables} {posts : List Post} {post other : Post} {locale : Option String}

/-- A post is found under a slug when it is published and the slug is its own, or that of the
post in the lack of one. -/
theorem isPublishedUnder_iff {slug : String} : isPublishedUnder slug locale post = true ↔
    effectiveSlug post locale = slug ∧ post.isPublished = true := by
  simp only [isPublishedUnder, effectiveSlug, localeSlug, Bool.and_eq_true]
  refine and_congr_left fun _ => ?_
  split
  · cases post.slugEn <;> simp
  · split
    · cases post.slugEs <;> simp
    · simp

/-- The own slugs of a locale are unique. -/
theorem uniqueOn_localeSlug (h : UniquePosts posts) (locale : Option String) :
    UniqueOn (localeSlug locale) posts := by
  by_cases hen : locale = some "en"
  · have hcolumn : localeSlug locale = Post.slugEn := funext fun post => if_pos hen
    exact hcolumn ▸ h.slugEn
  · by_cases hes : locale = some "es"
    · have hcolumn : localeSlug locale = Post.slugEs :=
        funext fun post => (if_neg hen).trans (if_pos hes)
      exact hcolumn ▸ h.slugEs
    · refine List.Pairwise.imp ?_ h.id
      intro post other _ slug hslug
      have hnone : localeSlug locale post = none := (if_neg hen).trans (if_neg hes)
      rw [hnone] at hslug
      cases hslug

/-- Slugs are apart when they are in each locale. -/
theorem slugsApart_iff : SlugsApart post other ↔
    (post.isPublished = true → other.isPublished = true → ∀ locale,
      localeSlug locale other = none → localeSlug locale post ≠ some other.slug) := by
  refine imp_congr_right fun _ => imp_congr_right fun _ => ⟨?_, fun h => ?_⟩
  · rintro ⟨hen, hes⟩ locale
    simp only [localeSlug]
    split
    · exact hen
    · split
      · exact hes
      · exact fun _ => (Option.some_ne_none _).symm
  · exact ⟨h (some "en"), h (some "es")⟩

/-- A post is apart from itself. -/
theorem SlugsApart.refl (post : Post) : SlugsApart post post := by
  refine fun _ _ => ⟨fun hnone hslug => ?_, fun hnone hslug => ?_⟩
  · rw [hnone] at hslug
    cases hslug
  · rw [hnone] at hslug
    cases hslug

/-- Posts whose slugs are apart have different addresses. -/
theorem eq_of_effectiveSlug (h : UniquePosts posts) (hapart : AllApart posts)
    (hpost : post ∈ posts) (hother : other ∈ posts) (hpublished : post.isPublished = true)
    (hotherPublished : other.isPublished = true)
    (heq : effectiveSlug post locale = effectiveSlug other locale) : post = other := by
  have hcross :=
    slugsApart_iff.mp (hapart post hpost other hother) hpublished hotherPublished locale
  have hcross' :=
    slugsApart_iff.mp (hapart other hother post hpost) hotherPublished hpublished locale
  simp only [effectiveSlug] at heq
  cases hown : localeSlug locale post with
  | none =>
    rw [hown, Option.getD_none] at heq
    cases hownOther : localeSlug locale other with
    | none =>
      rw [hownOther, Option.getD_none] at heq
      exact h.slug.eq_of_mem hpost hother rfl (congrArg some heq.symm)
    | some slug =>
      rw [hownOther, Option.getD_some] at heq
      exact absurd (hownOther.trans (congrArg some heq.symm)) (hcross' hown)
  | some slug =>
    rw [hown, Option.getD_some] at heq
    cases hownOther : localeSlug locale other with
    | none =>
      rw [hownOther, Option.getD_none] at heq
      exact absurd (hown.trans (congrArg some heq)) (hcross hownOther)
    | some slug' =>
      rw [hownOther, Option.getD_some] at heq
      exact (uniqueOn_localeSlug h locale).eq_of_mem hpost hother hown (heq ▸ hownOther)

/-- A post is found by a lookup of its address, which may find nothing else exactly if it
returns no other post with that address. -/
theorem hasOwnAddress_iff (hpost : post ∈ tables.posts) (hpublished : post.isPublished = true) :
    HasOwnAddress tables post locale ↔ ∀ other ∈ tables.posts, other.isPublished = true →
      effectiveSlug other locale = effectiveSlug post locale → other = post := by
  constructor
  · intro h other hother hotherPublished heq
    have hpick : Picks tables.posts (isPublishedUnder (effectiveSlug post locale) locale)
        (some other) := ⟨hother, isPublishedUnder_iff.mpr ⟨heq, hotherPublished⟩⟩
    exact congrArg PostWithTopics.post (Except.ok.inj (h (some other) hpick))
  · intro h pick hpick
    cases pick with
    | none =>
      have hfound := hpick post hpost
      rw [isPublishedUnder_iff.mpr ⟨rfl, hpublished⟩] at hfound
      cases hfound
    | some other =>
      obtain ⟨hother, hfound⟩ := hpick
      obtain ⟨heq, hotherPublished⟩ := isPublishedUnder_iff.mp hfound
      rw [h other hother hotherPublished heq]
      rfl

/-- Published posts have their own addresses exactly if their slugs are apart. -/
theorem allAddressed_iff (h : UniquePosts tables.posts) :
    AllAddressed tables ↔ AllApart tables.posts := by
  constructor
  · intro hown post hpost other hother
    refine slugsApart_iff.mpr fun hpublished hotherPublished locale hnone hslug => ?_
    have heq : effectiveSlug other locale = effectiveSlug post locale := by
      simp only [effectiveSlug, hnone, hslug, Option.getD_none, Option.getD_some]
    obtain rfl := (hasOwnAddress_iff hpost hpublished).mp (hown post hpost hpublished locale) other
      hother hotherPublished heq
    rw [hnone] at hslug
    cases hslug
  · intro hapart post hpost hpublished locale
    refine (hasOwnAddress_iff hpost hpublished).mpr fun other hother hotherPublished heq => ?_
    exact eq_of_effectiveSlug h hapart hother hpost hotherPublished hpublished heq

end Addresses

section Steps

variable {config : PostsConfig} {s t : PostsState} {label : PostLabel}

/-- A write that is apart from the other posts keeps all posts apart. -/
theorem allApart_of_leads {write : PostWrite} (hapart : AllApart s.tables.posts)
    (hleads : write.Leads config s t)
    (hwrites : ∀ row ∈ write.row, ∀ other ∈ s.tables.posts, other.id ≠ write.postId →
      SlugsApart row other ∧ SlugsApart other row) : AllApart t.tables.posts := by
  intro post hpost other hother
  rcases (hleads.posts post).mp hpost with hrow | ⟨hpost, hne⟩
  · rcases (hleads.posts other).mp hother with hrow' | ⟨hother, hne'⟩
    · obtain rfl := Option.some.inj (hrow.symm.trans hrow')
      exact SlugsApart.refl post
    · exact (hwrites post hrow other hother hne').1
  · rcases (hleads.posts other).mp hother with hrow' | ⟨hother, -⟩
    · exact (hwrites other hrow' post hpost hne).2
    · exact hapart post hpost other hother

/-- A step keeps all posts apart exactly if its write is. -/
theorem writesApart_iff (config : PostsConfig) (h : Numbered s) (hapart : AllApart s.tables.posts) :
    WritesApart s label ↔
      ∀ t, (blog config).step s label = some t → AllApart t.tables.posts := by
  constructor
  · intro hwrites t hstep
    rcases postWrite_cases h hstep with ⟨-, hquiet⟩ | ⟨write, hwrite, hleads⟩
    · rwa [hquiet.posts]
    · exact allApart_of_leads hapart hleads (hwrites write hwrite)
  · intro hafter write hwrite row hrow other hother hne
    obtain ⟨t, hstep⟩ := exists_step_of_postWrite config hwrite
    have hapart' := hafter t hstep
    rcases postWrite_cases h hstep with ⟨hnone, -⟩ | ⟨write', hwrite', hleads⟩
    · exact (Option.some_ne_none _ (hwrite.symm.trans hnone)).elim
    · obtain rfl := Option.some.inj (hwrite.symm.trans hwrite')
      have hrow' := (hleads.posts row).mpr (Or.inl hrow)
      have hother' := (hleads.posts other).mpr (Or.inr ⟨hother, hne⟩)
      exact ⟨hapart' row hrow' other hother', hapart' other hother' row hrow'⟩

end Steps

/-- In all states of a run each published post is what its address in each locale leads to,
exactly if the posts are apart at the start and every step that writes one leaves it apart
from the others. -/
theorem allAddressed_iff_writesApart (config : PostsConfig) (clock : Nat) (tables : PostTables)
    (hunique : UniquePosts tables.posts) (labels : List PostLabel) :
    (AllAddressed tables ∧ (blog config).Meets (fun s label => ∀ t,
      (blog config).step s label = some t → AllAddressed t.tables) (.initial clock tables) labels) ↔
    (AllApart tables.posts ∧ (blog config).Meets WritesApart (.initial clock tables) labels) := by
  rw [← allAddressed_iff hunique]
  refine and_congr_right fun haddressed => Iff.symm ?_
  refine (blog config).meets_iff_keeps (Q := fun s => AllAddressed s.tables)
    (fun s label t h hstep => Numbered.step h hstep) (fun s label h haddressed => ?_)
    (numbered_initial clock hunique) haddressed labels
  have hapart := (allAddressed_iff h.unique).mp haddressed
  refine (writesApart_iff config h hapart).trans (forall_congr' fun t => ?_)
  exact imp_congr_right fun hstep => (allAddressed_iff (h.step hstep).unique).symm

/-- A published post with a slug of its own in English. -/
def translatedInput (slug slugEn : String) : PostInput :=
  { bareInput slug with slugEn := some slugEn, isPublished := some true }

/-- A post that is published in one language, and one with a slug of its own in English. -/
def translatedLabels : List PostLabel :=
  createLabels 0 { bareInput "oi" with isPublished := some true } "a" ++
    createLabels 1 (translatedInput "ola" "hello") "b"

/-- Both are what their addresses lead to. -/
theorem allAddressed_iff_writesApart_translated :
    (blog openPosts).Meets (fun s label => ∀ t,
      (blog openPosts).step s label = some t → AllAddressed t.tables) emptyBlog translatedLabels ∧
    ((blog openPosts).exec emptyBlog translatedLabels).isSome = true :=
  ⟨((allAddressed_iff_writesApart openPosts 0 ⟨[], [], []⟩ .nil translatedLabels).mpr
    (by decide +kernel)).2, by decide +kernel⟩

/-- The blog after a post with the slug `hello`, and one with that slug in English. -/
def crossedBlog : PostsState :=
  (blog openPosts).run emptyBlog
    (createLabels 0 { bareInput "hello" with isPublished := some true } "a" ++
      createLabels 1 (translatedInput "ola" "hello") "b") (by decide +kernel)

/-- The address of the first post in English may lead to the second one. -/
theorem not_hasOwnAddress_crossed : ∃ post ∈ crossedBlog.tables.posts,
    post.isPublished = true ∧ ¬ HasOwnAddress crossedBlog.tables post (some "en") := by
  let first := newPost ⟨{ bareFields with isPublished := some true }, "t", "hello", "c"⟩ "author"
    "a" (some 0) 0
  let second := newPost
    ⟨{ bareFields with slugEn := some "hello", isPublished := some true }, "t", "ola", "c"⟩
    "author" "b" (some 0) 0
  have hposts : crossedBlog.tables.posts = [first, second] := by decide +kernel
  have hfirst : first ∈ crossedBlog.tables.posts := by
    rw [hposts]
    exact List.mem_cons_self ..
  have hsecond : second ∈ crossedBlog.tables.posts := by
    rw [hposts]
    exact List.mem_cons_of_mem _ (List.mem_singleton.mpr rfl)
  refine ⟨first, hfirst, rfl, fun h => ?_⟩
  have heq := (hasOwnAddress_iff hfirst rfl).mp h second hsecond rfl rfl
  exact absurd (congrArg Post.id heq) (by decide)

end VertexApi.Posts
