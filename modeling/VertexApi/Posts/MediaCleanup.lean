import VertexApi.Posts.PostWrites

/-!
# Media of posts

An edit deletes the objects that the post it has read showed and the edited post does not; a
removal deletes all of the post's objects. Neither looks at the other posts, and the objects
are deleted some time after the write, so what is deleted is out of use exactly as long as
writes drop only what no other post shows and bring in nothing that is about to be deleted.
-/

namespace VertexApi.Posts

/-- The keys that a step passes to the bucket, to delete their objects. -/
def passedKeys (s : PostsState) : PostLabel → List String
  | .call id .deleteMedia =>
    match s.calls id with
    | some (.deleteMedia keys _) => keys
    | _ => []
  | _ => []

/-- The step deletes no object that a post refers to. -/
def DeletesNoLive (config : PostsConfig) (s : PostsState) (label : PostLabel) : Prop :=
  ∀ key ∈ passedKeys s label, ∀ post ∈ s.tables.posts,
    key ∉ collectMediaKeys config.publicUrlPrefix post

instance decidableDeletesNoLive (config : PostsConfig) (s : PostsState) (label : PostLabel) :
    Decidable (DeletesNoLive config s label) :=
  inferInstanceAs (Decidable (∀ key ∈ passedKeys s label, ∀ post ∈ s.tables.posts,
    key ∉ collectMediaKeys config.publicUrlPrefix post))

/-- Some call is about to delete the object. -/
def Doomed (s : PostsState) (key : String) : Prop :=
  ∃ id keys answer, s.calls id = some (.deleteMedia keys answer) ∧ key ∈ keys

/-- No post refers to an object that is about to be deleted. -/
def NoneLive (config : PostsConfig) (s : PostsState) : Prop :=
  ∀ key, Doomed s key → ∀ post ∈ s.tables.posts,
    key ∉ collectMediaKeys config.publicUrlPrefix post

/-- The write drops only keys that no other post refers to. -/
def DropsUnshared (config : PostsConfig) (s : PostsState) (write : PostWrite) : Prop :=
  ∀ post ∈ s.tables.posts, post.id ≠ write.postId →
    ∀ key ∈ write.droppedKeys config.publicUrlPrefix,
      key ∉ collectMediaKeys config.publicUrlPrefix post

instance decidableDropsUnshared (config : PostsConfig) (s : PostsState) (write : PostWrite) :
    Decidable (DropsUnshared config s write) :=
  inferInstanceAs (Decidable (∀ post ∈ s.tables.posts, post.id ≠ write.postId →
    ∀ key ∈ write.droppedKeys config.publicUrlPrefix,
      key ∉ collectMediaKeys config.publicUrlPrefix post))

/-- The write leaves no key in its row that is about to be deleted. -/
def BringsNoDoomed (config : PostsConfig) (s : PostsState) (write : PostWrite) : Prop :=
  ∀ row ∈ write.row, ∀ key ∈ collectMediaKeys config.publicUrlPrefix row, ¬ Doomed s key

/-- The step, if it writes to the posts, does both. -/
def KeepsMedia (config : PostsConfig) (s : PostsState) (label : PostLabel) : Prop :=
  ∀ write ∈ postWrite s label, DropsUnshared config s write ∧ BringsNoDoomed config s write

section Steps

variable {config : PostsConfig} {s t : PostsState} {label : PostLabel} {write : PostWrite}

/-- No post refers to what is about to be deleted exactly if no step deletes what one does. -/
theorem noneLive_iff : NoneLive config s ↔ ∀ label, DeletesNoLive config s label := by
  constructor
  · intro h label key hkey
    simp only [passedKeys] at hkey
    split at hkey
    · split at hkey
      · next hcall => exact h key ⟨_, _, _, hcall, hkey⟩
      · cases hkey
    · cases hkey
  · rintro h key ⟨id, keys, answer, hcall, hkey⟩
    refine h (.call id .deleteMedia) key ?_
    simpa only [passedKeys, hcall] using hkey

/-- A row does not show what its write drops. -/
theorem notMem_of_droppedKeys {publicUrlPrefix key : String} {row : Post}
    (hrow : write.row = some row) (hkey : key ∈ write.droppedKeys publicUrlPrefix) :
    key ∉ collectMediaKeys publicUrlPrefix row := by
  simp only [PostWrite.droppedKeys, hrow] at hkey
  split at hkey
  · cases hkey
  · next hnone => cases hnone
  · next read row' hread hsome =>
    obtain rfl := Option.some.inj hsome
    have hkept := (List.mem_filter.mp hkey).2
    simpa only [List.contains_eq_mem, Bool.not_eq_true', decide_eq_false_iff_not] using hkept

/-- A call is about to delete what its write has dropped. -/
theorem mem_of_afterWrite {keys keys' : List String} {answer answer' : PostAnswer}
    (h : afterWrite keys answer = .deleteMedia keys' answer') : keys = keys' := by
  simp only [afterWrite] at h
  split at h
  · cases h
  · exact (PostPhase.deleteMedia.inj h).1

/-- What is about to be deleted after a write was so before, or is what the write drops. -/
theorem PostWrite.Leads.doomed_iff (h : write.Leads config s t) {key : String} :
    Doomed t key ↔ key ∈ write.droppedKeys config.publicUrlPrefix ∨ Doomed s key := by
  obtain ⟨id, before, answer, hbefore, hne, hcalls⟩ := h.call
  constructor
  · rintro ⟨other, keys, answer', hother, hkey⟩
    rw [hcalls] at hother
    rcases update_eq_some_iff.mp hother with ⟨-, hafter⟩ | ⟨-, hother⟩
    · exact Or.inl (mem_of_afterWrite hafter.symm ▸ hkey)
    · exact Or.inr ⟨other, keys, answer', hother, hkey⟩
  · rintro (hkey | ⟨other, keys, answer', hother, hkey⟩)
    · have hkeys := List.ne_nil_of_mem hkey
      refine ⟨id, _, answer, ?_, hkey⟩
      rw [hcalls, Function.update_self, afterWrite, if_neg hkeys]
    · -- The call of the write was about to do something else.
      have hne' : other ≠ id := by
        rintro rfl
        exact hne keys answer' (Option.some.inj (hbefore.symm.trans hother))
      exact ⟨other, keys, answer', by rw [hcalls, Function.update_of_ne hne', hother], hkey⟩

/-- A write under the condition leaves none of the objects in use about to be deleted. -/
theorem noneLive_of_leads (hlive : NoneLive config s) (hleads : write.Leads config s t)
    (hdrops : DropsUnshared config s write) (hbrings : BringsNoDoomed config s write) :
    NoneLive config t := by
  intro key hdoomed post hpost
  rcases hleads.doomed_iff.mp hdoomed with hdropped | hdoomed
  · rcases (hleads.posts post).mp hpost with hrow | ⟨hpost, hother⟩
    · exact notMem_of_droppedKeys hrow hdropped
    · exact hdrops post hpost hother key hdropped
  · rcases (hleads.posts post).mp hpost with hrow | ⟨hpost, -⟩
    · exact fun hkey => hbrings post hrow key hkey hdoomed
    · exact hlive key hdoomed post hpost

/-- A quiet step leaves none of the objects in use about to be deleted. -/
theorem noneLive_of_quiet (hlive : NoneLive config s) (hquiet : Quiet s t) :
    NoneLive config t := by
  rintro key ⟨id, keys, answer, hcall, hkey⟩ post hpost
  rw [hquiet.posts] at hpost
  exact hlive key ⟨id, keys, answer, hquiet.calls id keys answer hcall, hkey⟩ post hpost

/-- A step keeps what is about to be deleted out of use exactly under the condition. -/
theorem keepsMedia_iff (h : Numbered s) (hlive : NoneLive config s) (label : PostLabel) :
    KeepsMedia config s label ↔ ∀ t, (blog config).step s label = some t → NoneLive config t := by
  constructor
  · intro hkeeps t hstep
    rcases postWrite_cases h hstep with ⟨-, hquiet⟩ | ⟨write, hwrite, hleads⟩
    · exact noneLive_of_quiet hlive hquiet
    · exact noneLive_of_leads hlive hleads (hkeeps write hwrite).1 (hkeeps write hwrite).2
  · intro hafter write hwrite
    obtain ⟨t, hstep⟩ := exists_step_of_postWrite config hwrite
    have hlive' := hafter t hstep
    rcases postWrite_cases h hstep with ⟨hnone, -⟩ | ⟨write', hwrite', hleads⟩
    · rw [hnone] at hwrite
      cases hwrite
    · obtain rfl := Option.some.inj (hwrite.symm.trans hwrite')
      refine ⟨fun post hpost hother key hkey => ?drops, fun row hrow key hkey hdoomed => ?brings⟩
      case drops =>
        exact hlive' key (hleads.doomed_iff.mpr (Or.inl hkey)) post
          ((hleads.posts post).mpr (Or.inr ⟨hpost, hother⟩))
      case brings =>
        exact hlive' key (hleads.doomed_iff.mpr (Or.inr hdoomed)) row
          ((hleads.posts row).mpr (Or.inl hrow)) hkey

end Steps

/-- Nothing is about to be deleted at the start. -/
theorem noneLive_initial (config : PostsConfig) (clock : Nat) (tables : PostTables) :
    NoneLive config (.initial clock tables) := by
  rintro key ⟨id, keys, answer, hcall, -⟩
  cases hcall

/-- In every run in which each write drops only keys that no other post refers to, and leaves
no key in its row that is about to be deleted, no object is deleted that a post refers to.
A run meets the condition exactly if after each of its steps no delete that may come next is
of an object that a post refers to. -/
theorem deletesNoLive_of_keepsMedia (config : PostsConfig) (clock : Nat) (tables : PostTables)
    (hunique : UniquePosts tables.posts) (labels : List PostLabel) :
    ((blog config).Meets (KeepsMedia config) (.initial clock tables) labels →
      (blog config).Meets (DeletesNoLive config) (.initial clock tables) labels) ∧
    ((blog config).Meets (KeepsMedia config) (.initial clock tables) labels ↔
      (blog config).Meets (fun s label => ∀ t, (blog config).step s label = some t →
        ∀ next, DeletesNoLive config t next) (.initial clock tables) labels) := by
  have hnumbered := numbered_initial clock hunique
  have hlive := noneLive_initial config clock tables
  have hexact := (blog config).meets_iff_keeps (fun s label t h hstep => Numbered.step h hstep)
    (fun s label h hlive => keepsMedia_iff h hlive label) hnumbered hlive labels
  refine ⟨fun hkeeps => ?safe, ?exact⟩
  case safe =>
    refine hkeeps.of_invariant (P := fun s => Numbered s ∧ NoneLive config s) ?_
      (fun s label h => noneLive_iff.mp h.2 label) ⟨hnumbered, hlive⟩
    intro s label t h hkept hstep
    exact ⟨h.1.step hstep, (keepsMedia_iff h.1 h.2 label).mp hkept t hstep⟩
  case exact => simpa only [noneLive_iff] using hexact

/-- A body with a cover. -/
def coverInput (slug coverUrl : String) : PostInput :=
  { bareInput slug with coverUrl := some coverUrl }

/-- Two posts with covers of their own. -/
def ownCovers : PostsState :=
  (blog openPosts).run emptyBlog (createLabels 0 (coverInput "s" "https://media/k") "a" ++
    createLabels 1 (coverInput "r" "https://media/l") "b") (by decide +kernel)

/-- A removal. -/
def removeLabels (id : Nat) (postId : String) : List PostLabel :=
  [.call id (.remove postId), .call id .erase, .call id .deleteMedia]

/-- The removal of one of the posts deletes its cover, which the other one does not show. -/
theorem deletesNoLive_of_keepsMedia_ownCovers :
    (blog openPosts).Meets (DeletesNoLive openPosts) (.initial 0 ownCovers.tables)
      (removeLabels 0 "a") ∧
    ((blog openPosts).exec (.initial 0 ownCovers.tables) (removeLabels 0 "a")).isSome = true := by
  have hempty : UniquePosts emptyBlog.tables.posts := UniqueColumns.nil
  have hunique : UniquePosts ownCovers.tables.posts := (blog openPosts).exec_invariant
    (P := fun s => UniquePosts s.tables.posts) hempty (fun _ _ _ h hstep => blog_unique h hstep)
    ((blog openPosts).exec_run emptyBlog _ _)
  have hkeeps : (blog openPosts).Meets (KeepsMedia openPosts) (.initial 0 ownCovers.tables)
      (removeLabels 0 "a") := by
    have hremoves : (blog openPosts).Meets (fun s label => ∀ write ∈ postWrite s label,
        write.row = none ∧ DropsUnshared openPosts s write) (.initial 0 ownCovers.tables)
        (removeLabels 0 "a") := by decide +kernel
    refine hremoves.imp fun s label h write hwrite => ⟨(h write hwrite).2, fun row hrow => ?_⟩
    rw [(h write hwrite).1] at hrow
    cases hrow
  exact ⟨(deletesNoLive_of_keepsMedia openPosts 0 ownCovers.tables hunique _).1 hkeeps,
    by decide +kernel⟩

/-- Two posts get one cover, and the first one then gets another. -/
def sharedCoverLabels : List PostLabel :=
  createLabels 0 (coverInput "s" "https://media/k") "a" ++
    createLabels 1 (coverInput "r" "https://media/k") "b" ++
    updateLabels 2 "a" { bareEdit with coverUrl := some "https://media/l" }

/-- The blog after these steps. -/
def sharedCover : PostsState :=
  (blog openPosts).run emptyBlog sharedCoverLabels (by decide +kernel)

/-- The cover that the second post still shows is deleted. -/
theorem not_deletesNoLive_sharedCover :
    (blog openPosts).exec emptyBlog sharedCoverLabels = some sharedCover ∧
    passedKeys sharedCover (.call 2 .deleteMedia) = ["k"] ∧
    sharedCover.tables.posts.map (fun post => (post.id, collectMediaKeys "https://media/" post)) =
      [("a", ["l"]), ("b", ["k"])] ∧
    ¬ DeletesNoLive openPosts sharedCover (.call 2 .deleteMedia) := by
  refine ⟨(blog openPosts).exec_run .., ?_⟩
  decide +kernel

end VertexApi.Posts
