import Mathlib.Data.List.Basic

/-!
# Tables with unique columns

A table is a list of rows. A column that may be empty is unique when no two rows share a
value of it; a column that is never empty is the case of `some`. Rows are replaced where
their primary key says so, which keeps a unique column unique as long as the values that
come in are new to the other rows. An insert or an update that would repeat a value of a
unique column reports the column and changes nothing.
-/

namespace VertexApi

universe u v w

/-- No two rows share a value of the column. -/
def UniqueOn {ρ : Type u} {κ : Type v} (column : ρ → Option κ) (rows : List ρ) : Prop :=
  rows.Pairwise fun a b => ∀ k, column a = some k → column b ≠ some k

/-- Replace the rows with a primary key. -/
def updateWhere {ρ : Type u} {κ : Type v} [DecidableEq κ] (key : ρ → κ) (k : κ) (f : ρ → ρ)
    (rows : List ρ) : List ρ :=
  rows.map fun row => if key row = k then f row else row

/-- A row that a lookup without an order may return. -/
def Picks {ρ : Type u} (rows : List ρ) (p : ρ → Bool) : Option ρ → Prop
  | none => ∀ row ∈ rows, p row = false
  | some row => row ∈ rows ∧ p row = true

instance decidablePicks {ρ : Type u} [DecidableEq ρ] (rows : List ρ) (p : ρ → Bool) :
    (pick : Option ρ) → Decidable (Picks rows p pick)
  | none => inferInstanceAs (Decidable (∀ row ∈ rows, p row = false))
  | some row => inferInstanceAs (Decidable (row ∈ rows ∧ p row = true))

namespace UniqueOn

variable {ρ : Type u} {κ : Type v} {column : ρ → Option κ} {rows : List ρ}

/-- An empty table has unique columns. -/
theorem nil : UniqueOn column ([] : List ρ) := List.Pairwise.nil

/-- Rows that share a value are one row. -/
theorem eq_of_mem (h : UniqueOn column rows) {a b : ρ} {k : κ} (ha : a ∈ rows) (hb : b ∈ rows)
    (hak : column a = some k) (hbk : column b = some k) : a = b := by
  induction rows with
  | nil => cases ha
  | cons row rows ih =>
    obtain ⟨hrow, hrows⟩ := List.pairwise_cons.mp h
    rcases List.mem_cons.mp ha with har | har
    · rcases List.mem_cons.mp hb with hbr | hbr
      · rw [har, hbr]
      · exact absurd hbk (hrow b hbr k (har ▸ hak))
    · rcases List.mem_cons.mp hb with hbr | hbr
      · exact absurd hak (hrow a har k (hbr ▸ hbk))
      · exact ih hrows har hbr

/-- A part of the table has unique columns. -/
theorem filter (h : UniqueOn column rows) (p : ρ → Bool) : UniqueOn column (rows.filter p) :=
  List.Pairwise.filter p h

/-- A row comes in whose value no other row has. -/
theorem insert (h : UniqueOn column rows) {row : ρ}
    (hfree : ∀ other ∈ rows, ∀ k, column row = some k → column other ≠ some k) :
    UniqueOn column (rows ++ [row]) := by
  refine List.pairwise_append.mpr ⟨h, List.pairwise_singleton .., ?_⟩
  intro other hother last hlast k hk
  obtain rfl := List.mem_singleton.mp hlast
  exact fun hrow => hfree other hother k hrow hk

/-- Changes outside of the column. -/
theorem map (h : UniqueOn column rows) {f : ρ → ρ}
    (hf : ∀ row ∈ rows, column (f row) = column row) :
    UniqueOn column (rows.map f) := by
  refine List.pairwise_map.mpr (List.Pairwise.imp_of_mem ?_ h)
  intro a b ha hb hab k hak
  rw [hf a ha] at hak
  rw [hf b hb]
  exact hab k hak

end UniqueOn

section Update

variable {ρ : Type u} {κ : Type v} {ι : Type w} [DecidableEq ι] {key : ρ → ι} {i : ι} {f : ρ → ρ}
  {rows : List ρ}

/-- A row after an update is the image of one with the key, or was there under another. -/
theorem mem_updateWhere {row : ρ} : row ∈ updateWhere key i f rows ↔
    (∃ old ∈ rows, key old = i ∧ row = f old) ∨ row ∈ rows ∧ key row ≠ i := by
  simp only [updateWhere, List.mem_map]
  constructor
  · rintro ⟨old, hold, rfl⟩
    by_cases hkey : key old = i
    · exact Or.inl ⟨old, hold, hkey, if_pos hkey⟩
    · exact Or.inr (by rw [if_neg hkey]; exact ⟨hold, hkey⟩)
  · rintro (⟨old, hold, hkey, rfl⟩ | ⟨hrow, hkey⟩)
    · exact ⟨old, hold, if_pos hkey⟩
    · exact ⟨row, hrow, if_neg hkey⟩

/-- An update that keeps a condition of a row keeps it of all rows. -/
theorem forall_mem_updateWhere {P : ρ → Prop} (h : ∀ row ∈ rows, P row)
    (hf : ∀ row, P row → P (f row)) : ∀ row ∈ updateWhere key i f rows, P row := by
  intro row hrow
  rcases mem_updateWhere.mp hrow with ⟨old, hold, -, rfl⟩ | ⟨hrow, -⟩
  · exact hf old (h old hold)
  · exact h row hrow

/-- An update that keeps a column keeps the list of its values. -/
theorem map_updateWhere_of_eq {column : ρ → κ} (hf : ∀ row, column (f row) = column row) :
    (updateWhere key i f rows).map column = rows.map column := by
  simp only [updateWhere, List.map_map]
  refine List.map_congr_left fun row _ => ?_
  simp only [Function.comp_apply]
  split
  · exact hf row
  · rfl

/-- An update that keeps the key leaves the rows with other keys. -/
theorem filter_updateWhere_ne (hf : ∀ row, key (f row) = key row) :
    (updateWhere key i f rows).filter (fun row => key row != i) =
      rows.filter fun row => key row != i := by
  induction rows with
  | nil => rfl
  | cons row rows ih =>
    simp only [updateWhere, List.map_cons] at ih ⊢
    by_cases hkey : key row = i
    · have hfkey : key (f row) = i := (hf row).trans hkey
      rw [if_pos hkey]
      simpa only [List.filter_cons, hfkey, hkey, bne_self_eq_false, Bool.false_eq_true,
        if_false] using ih
    · simp only [if_neg hkey, List.filter_cons, ih]

/-- An update that keeps a condition is found in its place. -/
theorem find?_updateWhere {p : ρ → Bool} (hp : ∀ row, p (f row) = p row) :
    (updateWhere key i f rows).find? p =
      (rows.find? p).map fun row => if key row = i then f row else row := by
  rw [updateWhere, List.find?_map]
  congr 2
  funext row
  simp only [Function.comp_apply]
  split
  · exact hp row
  · rfl

/-- An update that keeps a condition, of rows that do not meet it, leaves those that do. -/
theorem filter_updateWhere_of_ne {p : ρ → Bool} (hp : ∀ row, p (f row) = p row)
    (hne : ∀ row ∈ rows, p row = true → key row ≠ i) :
    (updateWhere key i f rows).filter p = rows.filter p := by
  induction rows with
  | nil => rfl
  | cons row rows ih =>
    obtain ⟨hrow, hrest⟩ := List.forall_mem_cons.mp hne
    simp only [updateWhere, List.map_cons, List.filter_cons] at ih ⊢
    by_cases hkey : key row = i
    · have hnot : ¬ p row = true := fun h => hrow h hkey
      rw [if_pos hkey, if_neg (by rwa [hp]), if_neg hnot]
      exact ih hrest
    · rw [if_neg hkey, ih hrest]

/-- An update that keeps a column keeps it unique. -/
theorem UniqueOn.updateWhere_of_eq {column : ρ → Option κ} (h : UniqueOn column rows)
    (hf : ∀ row, column (f row) = column row) : UniqueOn column (updateWhere key i f rows) := by
  refine h.map fun row _ => ?_
  split
  · exact hf row
  · rfl

/-- An update keeps a column unique when its values are new to the other rows. -/
theorem UniqueOn.updateWhere {column : ρ → Option κ}
    (hkey : UniqueOn (fun row => some (key row)) rows) (h : UniqueOn column rows)
    (hfree : ∀ row ∈ rows, key row = i → ∀ other ∈ rows, key other ≠ i →
      ∀ k, column (f row) = some k → column other ≠ some k) :
    UniqueOn column (updateWhere key i f rows) := by
  refine List.pairwise_map.mpr (List.Pairwise.imp_of_mem ?_ (hkey.and h))
  rintro a b ha hb ⟨hkeys, hcolumns⟩ k
  have hne : key a = i → key b ≠ i := fun hai hbi => hkeys i (congrArg some hai) (congrArg some hbi)
  by_cases hai : key a = i
  · rw [if_pos hai, if_neg (hne hai)]
    exact hfree a ha hai b hb (hne hai) k
  · by_cases hbi : key b = i
    · rw [if_neg hai, if_pos hbi]
      exact fun hak hbk => hfree b hb hbi a ha hai k hbk hak
    · rw [if_neg hai, if_neg hbi]
      exact hcolumns k

end Update

section Columns

variable {ρ : Type u} {κ : Type v} {ι : Type w} [DecidableEq ι]
  {columns : List (String × (ρ → Option κ))} {key : ρ → ι} {i : ι} {f : ρ → ρ} {rows : List ρ}

/-- All named columns are unique. -/
def UniqueColumns (columns : List (String × (ρ → Option κ))) (rows : List ρ) : Prop :=
  ∀ column ∈ columns, UniqueOn column.2 rows

namespace UniqueColumns

/-- An empty table has unique columns. -/
theorem nil : UniqueColumns columns ([] : List ρ) := fun _ _ => UniqueOn.nil

/-- So has a table of one row. -/
theorem singleton (row : ρ) : UniqueColumns columns [row] := fun _ _ => List.pairwise_singleton ..

/-- A part of the table has unique columns. -/
theorem filter (h : UniqueColumns columns rows) (p : ρ → Bool) :
    UniqueColumns columns (rows.filter p) := fun column hcolumn => (h column hcolumn).filter p

/-- A write outside of the unique columns keeps the table. -/
theorem updateWhere_of_eq (h : UniqueColumns columns rows)
    (hf : ∀ column ∈ columns, ∀ row, column.2 (f row) = column.2 row) :
    UniqueColumns columns (updateWhere key i f rows) := fun column hcolumn =>
  (h column hcolumn).updateWhere_of_eq (hf column hcolumn)

end UniqueColumns

end Columns

section Constraints

variable {ρ : Type u} {κ : Type v} {ι : Type w} [DecidableEq κ] [DecidableEq ι]

/-- Two present values are equal. -/
def sharesValue (a b : Option κ) : Bool := a.isSome && a == b

/-- The first named column of which a row repeats a value. -/
def violatedColumn (columns : List (String × (ρ → Option κ))) (others : List ρ) (row : ρ) :
    Option String :=
  (columns.find? fun column => others.any fun other =>
    sharesValue (column.2 row) (column.2 other)).map Prod.fst

/-- An insert, or the name of the column that it would repeat a value of. -/
def insertRow (columns : List (String × (ρ → Option κ))) (rows : List ρ) (row : ρ) :
    Except String (List ρ) :=
  match violatedColumn columns rows row with
  | some name => .error name
  | none => .ok (rows ++ [row])

/-- An update of the row with a primary key, and the row that it returns. -/
def updateRow (columns : List (String × (ρ → Option κ))) (key : ρ → ι) (rows : List ρ) (i : ι)
    (f : ρ → ρ) : Except String (List ρ × Option ρ) :=
  match rows.find? fun row => key row == i with
  | none => .ok (rows, none)
  | some row =>
    match violatedColumn columns (rows.filter fun other => key other != i) (f row) with
    | some name => .error name
    | none => .ok (updateWhere key i f rows, some (f row))

variable {columns : List (String × (ρ → Option κ))} {key : ρ → ι} {i : ι} {f : ρ → ρ}
  {rows later : List ρ} {row : ρ}

/-- Equal values are not absent. -/
theorem sharesValue_eq_false {a b : Option κ} :
    sharesValue a b = false ↔ ∀ value, a = some value → b ≠ some value := by
  cases a with
  | none => simp only [sharesValue, Option.isSome_none, Bool.false_and, reduceCtorEq,
      false_implies, implies_true]
  | some value => simp only [sharesValue, Option.isSome_some, Bool.true_and, beq_eq_false_iff_ne,
      ne_eq, Option.some.injEq, forall_eq', eq_comm (b := b)]

/-- A row violates nothing when it repeats none of the unique values. -/
theorem violatedColumn_eq_none {others : List ρ} : violatedColumn columns others row = none ↔
    ∀ column ∈ columns, ∀ other ∈ others, ∀ value,
      column.2 row = some value → column.2 other ≠ some value := by
  simp only [violatedColumn, Option.map_eq_none_iff, List.find?_eq_none, Bool.not_eq_true,
    List.any_eq_false, sharesValue_eq_false]

/-- An insert that succeeds appends a row that repeats no unique value. -/
theorem insertRow_eq_ok : insertRow columns rows row = .ok later ↔
    violatedColumn columns rows row = none ∧ later = rows ++ [row] := by
  simp only [insertRow]
  cases violatedColumn columns rows row with
  | none => simp only [Except.ok.injEq, true_and, eq_comm (b := later)]
  | some name => simp only [reduceCtorEq, false_and]

/-- An update that returns a row replaced it. -/
theorem updateRow_eq_ok_some : updateRow columns key rows i f = .ok (later, some row) ↔
    ∃ old, (rows.find? fun row => key row == i) = some old ∧
      violatedColumn columns (rows.filter fun other => key other != i) (f old) = none ∧
      later = updateWhere key i f rows ∧ row = f old := by
  simp only [updateRow]
  cases rows.find? fun row => key row == i with
  | none => simp only [Except.ok.injEq, Prod.mk.injEq, reduceCtorEq, and_false, false_and,
      exists_false]
  | some old =>
    simp only [Option.some.injEq, exists_eq_left']
    cases violatedColumn columns (rows.filter fun other => key other != i) (f old) with
    | none => simp only [Except.ok.injEq, Prod.mk.injEq, Option.some.injEq, true_and,
        eq_comm (b := row), eq_comm (b := later)]
    | some name => simp only [reduceCtorEq, false_and]

/-- An update that returns no row found none, and changes nothing. -/
theorem updateRow_eq_ok_none : updateRow columns key rows i f = .ok (later, none) ↔
    (rows.find? fun row => key row == i) = none ∧ later = rows := by
  simp only [updateRow]
  cases rows.find? fun row => key row == i with
  | none => simp only [Except.ok.injEq, Prod.mk.injEq, and_true, true_and, eq_comm (b := later)]
  | some old =>
    simp only [reduceCtorEq, false_and, iff_false]
    cases violatedColumn columns (rows.filter fun other => key other != i) (f old) with
    | none => simp only [Except.ok.injEq, Prod.mk.injEq, reduceCtorEq, and_false, not_false_eq_true]
    | some name => simp only [reduceCtorEq, not_false_eq_true]

namespace UniqueColumns

/-- A row that repeats no unique value joins the table. -/
theorem append (h : UniqueColumns columns rows) (hrow : violatedColumn columns rows row = none) :
    UniqueColumns columns (rows ++ [row]) := by
  intro column hcolumn
  exact (h column hcolumn).insert (violatedColumn_eq_none.mp hrow column hcolumn)

/-- A changed row that repeats no unique value of the others stays in the table. -/
theorem updateWhere (h : UniqueColumns columns rows)
    (hkey : UniqueOn (fun row => some (key row)) rows) {old : ρ} (hold : old ∈ rows)
    (holdKey : key old = i)
    (hrow : violatedColumn columns (rows.filter fun other => key other != i) (f old) = none) :
    UniqueColumns columns (VertexApi.updateWhere key i f rows) := by
  intro column hcolumn
  refine hkey.updateWhere (h column hcolumn) fun row hmem hrowKey other hother hne => ?_
  obtain rfl : row = old :=
    hkey.eq_of_mem hmem hold (congrArg some hrowKey) (congrArg some holdKey)
  have hothers : other ∈ rows.filter fun other => key other != i :=
    List.mem_filter.mpr ⟨hother, bne_iff_ne.mpr hne⟩
  exact violatedColumn_eq_none.mp hrow column hcolumn other hothers

end UniqueColumns

end Constraints

end VertexApi
