import Mathlib.Data.List.DropRight

/-!
# Words with marks in between

Some symbols are kept. When every run of the others is collapsed to one mark, and the marks at
both ends go away, what is left are words of kept symbols with single marks in between, and such
words are left as they are.
-/

namespace VertexApi

universe u

section Runs

variable {α : Type u} (keeps : α → Bool) (mark : α)

/-- The text with every run of the symbols that are not kept as one mark; the marks of a run that
the text goes on from are left out. -/
def collapseRuns : Bool → List α → List α
  | _, [] => []
  | inRun, a :: text =>
    if keeps a then a :: collapseRuns false text
    else if inRun then collapseRuns true text else mark :: collapseRuns true text

/-- The kept symbols are those of the text. -/
theorem mem_collapseRuns {keeps : α → Bool} {mark : α} (hmark : keeps mark = false) {a : α}
    (ha : keeps a) (inRun : Bool) (text : List α) :
    a ∈ collapseRuns keeps mark inRun text ↔ a ∈ text := by
  have hne : a ≠ mark := fun h => by simp [h, hmark] at ha
  induction text generalizing inRun with
  | nil => rfl
  | cons b text ih =>
    by_cases hb : keeps b
    · simp [collapseRuns, hb, ih]
    · have hab : a ≠ b := fun h => hb (h ▸ ha)
      cases inRun <;> simp [collapseRuns, hb, ih, hne, hab]

variable [DecidableEq α]

/-- The text without the marks at its ends. -/
def trimMarks (text : List α) : List α := (text.dropWhile (· == mark)).rdropWhile (· == mark)

/-- A text that ends in a word and goes on with one mark before each of the others, behind a word
or at the start of one. -/
def joinsWords : Bool → List α → Bool
  | behind, [] => behind
  | behind, a :: text =>
    if keeps a then joinsWords true text else behind && a == mark && joinsWords false text

variable {keeps mark}

/-- At its end a text loses the marks behind the last other symbol. -/
theorem rdropWhile_cons (a : α) (text : List α) :
    (a :: text).rdropWhile (· == mark) =
      if text.rdropWhile (· == mark) = [] ∧ a = mark then []
      else a :: text.rdropWhile (· == mark) := by
  induction text using List.reverseRecOn with
  | nil => simp [List.rdropWhile_singleton]
  | append_singleton text b ih =>
    rw [← List.cons_append, List.rdropWhile_concat, List.rdropWhile_concat]
    split
    · exact ih
    · simp

/-- Behind a run the text goes on with a kept symbol. -/
theorem dropWhile_collapseRuns_true (hmark : keeps mark = false) (text : List α) :
    (collapseRuns keeps mark true text).dropWhile (· == mark) =
      collapseRuns keeps mark true text := by
  induction text with
  | nil => rfl
  | cons a text ih =>
    by_cases ha : keeps a
    · have hne : (a == mark) = false := beq_false_of_ne fun h => by simp [h, hmark] at ha
      simp [collapseRuns, ha, hne]
    · simpa [collapseRuns, ha] using ih

/-- Without the marks at the front, the text is as if it went on from a run. -/
theorem dropWhile_collapseRuns (hmark : keeps mark = false) (text : List α) :
    (collapseRuns keeps mark false text).dropWhile (· == mark) =
      collapseRuns keeps mark true text := by
  cases text with
  | nil => rfl
  | cons a text =>
    by_cases ha : keeps a
    · have hne : (a == mark) = false := beq_false_of_ne fun h => by simp [h, hmark] at ha
      simp [collapseRuns, ha, hne]
    · simpa [collapseRuns, ha] using dropWhile_collapseRuns_true hmark text

/-- What is left of collapsed runs without the marks at the end. -/
theorem joinsWords_rdropWhile (hmark : keeps mark = false) (text : List α) :
    joinsWords keeps mark true ((collapseRuns keeps mark false text).rdropWhile (· == mark)) ∧
      ((collapseRuns keeps mark true text).rdropWhile (· == mark) ≠ [] →
        joinsWords keeps mark false
          ((collapseRuns keeps mark true text).rdropWhile (· == mark))) := by
  induction text with
  | nil => simp [collapseRuns, joinsWords]
  | cons a text ih =>
    obtain ⟨hword, hrun⟩ := ih
    by_cases ha : keeps a
    · have hne : a ≠ mark := fun h => by simp [h, hmark] at ha
      simp [collapseRuns, ha, rdropWhile_cons, hne, joinsWords, hword]
    · refine ⟨?_, by simpa [collapseRuns, ha] using hrun⟩
      simp only [collapseRuns, ha, Bool.false_eq_true, if_false, rdropWhile_cons, and_true]
      split
      · rfl
      · next hrest => simpa [joinsWords, hmark] using hrun hrest

/-- Words with single marks in between are left as they are. -/
theorem collapseRuns_of_joinsWords {text : List α} :
    (joinsWords keeps mark true text → collapseRuns keeps mark false text = text) ∧
      (joinsWords keeps mark false text → ∀ inRun, collapseRuns keeps mark inRun text = text) := by
  induction text with
  | nil => simp [collapseRuns]
  | cons a text ih =>
    by_cases ha : keeps a
    · simpa [joinsWords, collapseRuns, ha] using ih.1
    · simp only [joinsWords, ha, Bool.false_eq_true, if_false, Bool.true_and, Bool.false_and,
        IsEmpty.forall_iff, and_true, Bool.and_eq_true, beq_iff_eq]
      rintro ⟨rfl, hrest⟩
      simp [collapseRuns, ha, ih.2 hrest true]

/-- They have no other symbols. -/
theorem mem_of_joinsWords {text : List α} {behind : Bool} (h : joinsWords keeps mark behind text)
    {a : α} (ha : a ∈ text) : keeps a ∨ a = mark := by
  induction text generalizing behind with
  | nil => cases ha
  | cons b text ih =>
    rw [joinsWords] at h
    split at h
    · next hb =>
      rcases List.mem_cons.mp ha with rfl | ha
      · exact .inl hb
      · exact ih h ha
    · simp only [Bool.and_eq_true, beq_iff_eq] at h
      rcases List.mem_cons.mp ha with rfl | ha
      · exact .inr h.1.2
      · exact ih h.2 ha

/-- They end in a word. -/
theorem rdropWhile_of_joinsWords (hmark : keeps mark = false) {text : List α} {behind : Bool}
    (h : joinsWords keeps mark behind text) : text.rdropWhile (· == mark) = text := by
  induction text generalizing behind with
  | nil => rfl
  | cons a text ih =>
    rw [rdropWhile_cons]
    by_cases ha : keeps a
    · have hne : a ≠ mark := fun h => by simp [h, hmark] at ha
      simp only [joinsWords, ha, if_true] at h
      rw [if_neg fun hend => hne hend.2, ih h]
    · simp only [joinsWords, ha, Bool.false_eq_true, if_false, Bool.and_eq_true] at h
      have hrest := ih h.2
      have hne : text ≠ [] := by
        rintro rfl
        simp [joinsWords] at h
      rw [hrest, if_neg fun hend => hne hend.1]

/-- They start with a word. -/
theorem dropWhile_of_joinsWords (hmark : keeps mark = false) {text : List α}
    (h : joinsWords keeps mark false text) : text.dropWhile (· == mark) = text := by
  rw [← (collapseRuns_of_joinsWords.2 h) true, dropWhile_collapseRuns_true hmark]

/-- What the collapsed runs leave is nothing, or words with single marks in between. -/
theorem joinsWords_trimMarks (hmark : keeps mark = false) (text : List α)
    (h : trimMarks mark (collapseRuns keeps mark false text) ≠ []) :
    joinsWords keeps mark false (trimMarks mark (collapseRuns keeps mark false text)) := by
  rw [trimMarks, dropWhile_collapseRuns hmark] at h ⊢
  exact (joinsWords_rdropWhile hmark text).2 h

/-- Words with single marks in between stay. -/
theorem trimMarks_of_joinsWords (hmark : keeps mark = false) {text : List α}
    (h : joinsWords keeps mark false text) :
    trimMarks mark (collapseRuns keeps mark false text) = text := by
  rw [collapseRuns_of_joinsWords.2 h, trimMarks, dropWhile_of_joinsWords hmark h,
    rdropWhile_of_joinsWords hmark h]

/-- Nothing is left of a text of which nothing is kept. -/
theorem trimMarks_eq_nil_iff (hmark : keeps mark = false) (text : List α) :
    trimMarks mark (collapseRuns keeps mark false text) = [] ↔ ∀ a ∈ text, keeps a = false := by
  rw [trimMarks, dropWhile_collapseRuns hmark, List.rdropWhile_eq_nil_iff]
  constructor
  · intro h a ha
    by_contra hkept
    rw [Bool.not_eq_false] at hkept
    have hmem := h a ((mem_collapseRuns hmark hkept true text).mpr ha)
    exact Bool.false_ne_true (hmark.symm.trans (beq_iff_eq.mp hmem ▸ hkept))
  · intro h
    induction text with
    | nil => exact fun a ha => absurd ha List.not_mem_nil
    | cons b text ih =>
      have hb := h b (List.mem_cons_self ..)
      simpa [collapseRuns, hb] using ih fun a ha => h a (List.mem_cons_of_mem b ha)

/-- The words with single marks in between are the texts that the marks split into words, none of
them empty. -/
theorem joinsWords_iff_splitOn (hmark : keeps mark = false) (text : List α) :
    (joinsWords keeps mark false text = true ↔
      ∀ word ∈ text.splitOn mark, word ≠ [] ∧ ∀ a ∈ word, keeps a) ∧
    -- Behind a word, its last symbol counts as well.
    ∀ k, keeps k → (joinsWords keeps mark true text = true ↔
      ∀ word ∈ (k :: text).splitOn mark, word ≠ [] ∧ ∀ a ∈ word, keeps a) := by
  have hkept : ∀ {a}, keeps a → a ≠ mark := fun {a} ha h => by simp [h, hmark] at ha
  induction text with
  | nil =>
    refine ⟨by simp [joinsWords], fun k hk => ?_⟩
    simp [joinsWords, List.splitOn_cons_eq_if_modifyHead, hkept hk, hk]
  | cons a text ih =>
    obtain ⟨hstart, hbehind⟩ := ih
    obtain ⟨first, others, hsplit⟩ := List.exists_cons_of_ne_nil (List.splitOn_ne_nil mark text)
    refine ⟨?_, fun k hk => ?_⟩
    · by_cases ha : keeps a
      · rw [← hbehind a ha, joinsWords, if_pos ha]
      · by_cases hmark' : a = mark
        · simp [joinsWords, hmark', hmark, List.splitOn_cons_eq_if_modifyHead]
        · simp [joinsWords, ha, List.splitOn_cons_eq_if_modifyHead, hmark', hsplit]
    · by_cases ha : keeps a
      · rw [joinsWords, if_pos ha, hbehind a ha]
        simp [List.splitOn_cons_eq_if_modifyHead, hkept hk, hkept ha, hk, ha, hsplit]
      · by_cases hmark' : a = mark
        · simp [joinsWords, hmark', hmark, List.splitOn_cons_eq_if_modifyHead, hkept hk, hk, hstart]
        · simp [joinsWords, ha, hmark', List.splitOn_cons_eq_if_modifyHead, hkept hk, hsplit]

end Runs

end VertexApi
