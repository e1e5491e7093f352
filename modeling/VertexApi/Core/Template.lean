/-!
# Templates

A template puts escaped values between fixed texts. The symbols that escaping never leaves in a
value then come from the fixed texts only, so that they do not depend on the values.
-/

namespace VertexApi

universe u

section Template

variable {ι : Type u} (escape : String → String)

/-- A text built from fixed parts and escaped values. -/
inductive Templated : (ι → String) → Prop where
  | fixed (text : String) : Templated fun _ => text
  | slot (value : ι → String) : Templated fun i => escape (value i)
  | append {former latter : ι → String} (hformer : Templated former) (hlatter : Templated latter) :
    Templated fun i => former i ++ latter i

/-- Rows, as many for all values, that are built so. -/
inductive TemplatedRows : (ι → List String) → Prop where
  | nil : TemplatedRows fun _ => []
  | cons {row : ι → String} {rows : ι → List String} (hrow : Templated escape row)
    (hrows : TemplatedRows rows) : TemplatedRows fun i => row i :: rows i

variable {escape}

/-- The symbols that escaping removes are the same for all values. -/
theorem Templated.filter_eq {special : Char → Bool}
    (hescape : ∀ value, (escape value).toList.filter special = []) {text : ι → String}
    (h : Templated escape text) (i j : ι) :
    (text i).toList.filter special = (text j).toList.filter special := by
  induction h with
  | fixed text => rfl
  | slot value => rw [hescape, hescape]
  | append _ _ ihformer ihlatter =>
    rw [String.toList_append, String.toList_append, List.filter_append, List.filter_append,
      ihformer, ihlatter]

/-- A value between two fixed texts. -/
theorem Templated.between (before : String) (value : ι → String) (after : String) :
    Templated escape fun i => before ++ escape (value i) ++ after :=
  .append (.append (.fixed before) (.slot value)) (.fixed after)

namespace TemplatedRows

/-- Fixed rows. -/
theorem fixed (rows : List String) : TemplatedRows escape fun _ : ι => rows := by
  induction rows with
  | nil => exact .nil
  | cons row rows ih => exact .cons (.fixed row) ih

/-- Rows after rows. -/
theorem append {former latter : ι → List String} (hformer : TemplatedRows escape former)
    (hlatter : TemplatedRows escape latter) :
    TemplatedRows escape fun i => former i ++ latter i := by
  induction hformer with
  | nil => exact hlatter
  | cons hrow _ ih => exact .cons hrow ih

/-- Rows joined to one text. -/
theorem join (separator : String) {rows : ι → List String} (h : TemplatedRows escape rows) :
    Templated escape fun i => separator.intercalate (rows i) := by
  induction h with
  | nil => exact .fixed _
  | @cons row rows hrow hrows ih =>
    cases hrows with
    | nil => simpa using hrow
    | cons hnext hrest =>
      simp only [String.intercalate_cons_cons]
      exact .append (.append hrow (.fixed separator)) ih

end TemplatedRows

end Template

end VertexApi
