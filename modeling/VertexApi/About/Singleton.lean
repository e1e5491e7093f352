import VertexApi.About.AboutService

/-!
# How many rows the about page has

No constraint keeps the table to one row: two calls that both find it empty both insert, and
from then on a read may take either row. As long as every insert meets an empty table there
is one row, and a read that starts after an edit has ended shows that edit or a later one.
-/

namespace VertexApi.About

/-- An insert meets an empty table. -/
def InsertsFirst (s : AboutState) : AboutLabel → Prop
  | .insert id rowId => (aboutPage.step s (.insert id rowId)).isSome = true → s.rows = []
  | _ => True

/-- After the step there is at most one row. -/
def KeepsOneRow (s : AboutState) (label : AboutLabel) : Prop :=
  ∀ t, aboutPage.step s label = some t → t.rows.length ≤ 1

/-- A read that starts after an edit has ended returns what that edit has written, or what a
later one has. -/
def FreshReads (s : AboutState) (labels : List AboutLabel) : Prop :=
  ∀ before reader after m t result writer dto answer,
    labels = before ++ .call reader .get :: after → aboutPage.exec s before = some m →
    aboutPage.exec s labels = some t → t.calls reader = some ⟨.get, .done result⟩ →
    m.calls writer = some ⟨.update dto, .done answer⟩ →
    ∃ (i j later : Nat) (content row : AboutContent), answer = some content ∧
      t.writes[i]? = some (writer, content) ∧ result = some row ∧
      t.writes[j]? = some (later, row) ∧ i ≤ j

instance decidableInsertsFirst (s : AboutState) :
    (label : AboutLabel) → Decidable (InsertsFirst s label)
  | .insert id rowId =>
    inferInstanceAs (Decidable ((aboutPage.step s (.insert id rowId)).isSome = true → s.rows = []))
  | .tick _ | .call _ _ | .find _ _ | .update _ => inferInstanceAs (Decidable True)

/-- There is at most one row: the one that edits have read, and the last one that they wrote. -/
structure OneRow (s : AboutState) : Prop where
  rows : s.rows.length ≤ 1
  read : ∀ id dto existing, s.calls id = some ⟨.update dto, .update existing⟩ →
    ∃ row ∈ s.rows, row.id = existing.id
  last : s.writes ≠ [] → ∃ id row, s.rows = [row] ∧ s.writes.getLast? = some (id, row)
  edits : ∀ id dto answer, s.calls id = some ⟨.update dto, .done answer⟩ →
    ∃ row, answer = some row ∧ (id, row) ∈ s.writes

section Steps

variable {s t : AboutState} {label : AboutLabel}

/-- The rows change in number only by an insert. -/
theorem length_rows (hstep : aboutPage.step s label = some t) :
    (∃ id rowId, label = .insert id rowId ∧ t.rows.length = s.rows.length + 1) ∨
      (∀ id rowId, label ≠ .insert id rowId) ∧ t.rows.length = s.rows.length := by
  rcases aboutPage_step_cases hstep with ⟨ms, rfl, rfl⟩ | ⟨id, operation, rfl, -, rfl⟩ |
    ⟨id, operation, pick, rfl, -, -, rfl⟩ | ⟨id, operation, rowId, rfl, -, rfl⟩ |
    ⟨id, dto, existing, rfl, -, rfl⟩
  · exact Or.inr ⟨fun _ _ => by simp only [ne_eq, reduceCtorEq, not_false_eq_true], rfl⟩
  · exact Or.inr ⟨fun _ _ => by simp only [ne_eq, reduceCtorEq, not_false_eq_true], rfl⟩
  · exact Or.inr ⟨fun _ _ => by simp only [ne_eq, reduceCtorEq, not_false_eq_true], rfl⟩
  · exact Or.inl ⟨id, rowId, rfl, List.length_append⟩
  · exact Or.inr ⟨fun _ _ => by simp only [ne_eq, reduceCtorEq, not_false_eq_true],
      List.length_map ..⟩

/-- A table of at most one row keeps to it exactly when an insert meets none. -/
theorem insertsFirst_iff (hrows : s.rows.length ≤ 1) :
    InsertsFirst s label ↔ KeepsOneRow s label := by
  constructor
  · intro hfirst t hstep
    rcases length_rows hstep with ⟨id, rowId, rfl, hlength⟩ | ⟨-, hlength⟩
    · have hempty : s.rows = [] := hfirst (by rw [hstep]; rfl)
      rw [hlength, hempty]
      exact Nat.le_refl 1
    · omega
  · intro hkeeps
    cases label with
    | tick | call | find | update => trivial
    | insert id rowId =>
      intro henabled
      obtain ⟨t, hstep⟩ := Option.isSome_iff_exists.mp henabled
      have hone := hkeeps t hstep
      rcases length_rows hstep with ⟨_, _, -, hlength⟩ | ⟨hother, -⟩
      · exact List.eq_nil_of_length_eq_zero (by omega)
      · exact absurd rfl (hother id rowId)

/-- A table with a row and no other. -/
theorem rows_eq_singleton {row : AboutContent} (hrows : s.rows.length ≤ 1) (hrow : row ∈ s.rows) :
    s.rows = [row] := by
  match hlist : s.rows with
  | [] =>
    rw [hlist] at hrow
    cases hrow
  | [only] =>
    rw [hlist] at hrow
    rw [List.mem_singleton.mp hrow]
  | _ :: _ :: _ =>
    rw [hlist, List.length_cons, List.length_cons] at hrows
    omega

/-- The update of the only row. -/
theorem updated_of_singleton {row existing : AboutContent} (hrows : s.rows = [row])
    (hid : row.id = existing.id) (id : Nat) (dto : UpdateAboutDto) :
    s.updated id dto existing = { s with
      rows := [written dto s.clock row]
      writes := s.writes ++ [(id, written dto s.clock row)] }.setCall id
        ⟨.update dto, .done (some (written dto s.clock row))⟩ := by
  have hwritten : updateWhere AboutContent.id existing.id (written dto s.clock) s.rows =
      [written dto s.clock row] := by
    rw [hrows]
    exact congrArg (List.cons · []) (if_pos hid)
  have hfind : [written dto s.clock row].find? (fun row => row.id == existing.id) =
      some (written dto s.clock row) :=
    List.find?_cons_of_pos (beq_iff_eq.mpr hid)
  simp only [AboutState.updated, hwritten, hfind, Option.toList_some, List.map_cons, List.map_nil]

namespace OneRow

/-- An empty table, or one with a row. -/
theorem initial (clock : Nat) {rows : List AboutContent} (h : rows.length ≤ 1) :
    OneRow (.initial clock rows) where
  rows := h
  read _ _ _ hcall := by cases hcall
  last hwrites := absurd rfl hwrites
  edits _ _ _ hcall := by cases hcall

/-- A call moves that neither has read a row to write to nor has written one. -/
theorem setCall (h : OneRow s) {id : Nat} {call : AboutCall}
    (hread : ∀ dto existing, call = ⟨.update dto, .update existing⟩ →
      ∃ row ∈ s.rows, row.id = existing.id)
    (hdone : ∀ dto answer, call ≠ ⟨.update dto, .done answer⟩) : OneRow (s.setCall id call) where
  rows := h.rows
  read other dto existing hcall := by
    rcases update_eq_some_iff.mp hcall with ⟨-, heq⟩ | ⟨-, hcall⟩
    · exact hread dto existing heq.symm
    · exact h.read other dto existing hcall
  last := h.last
  edits other dto answer hcall := by
    rcases update_eq_some_iff.mp hcall with ⟨-, heq⟩ | ⟨-, hcall⟩
    · exact absurd heq.symm (hdone dto answer)
    · exact h.edits other dto answer hcall

/-- Nothing has been written to an empty table. -/
theorem writes_eq_nil (h : OneRow s) (hrows : s.rows = []) : s.writes = [] := by
  by_contra hwrites
  obtain ⟨id, row, hrow, -⟩ := h.last hwrites
  rw [hrows] at hrow
  cases hrow

/-- The first insert. -/
theorem inserted (h : OneRow s) (hrows : s.rows = []) (id : Nat) (operation : AboutOperation)
    (rowId : String) : OneRow (s.inserted id operation rowId) where
  rows := by
    simp only [AboutState.inserted, AboutState.setCall, hrows]
    exact Nat.le_refl 1
  read other dto existing hcall := by
    rcases update_eq_some_iff.mp hcall with ⟨-, heq⟩ | ⟨-, hcall⟩
    · cases heq
    · obtain ⟨row, hrow, -⟩ := h.read other dto existing hcall
      rw [hrows] at hrow
      cases hrow
  last hwrites := by
    simp only [AboutState.inserted, AboutState.setCall, hrows, h.writes_eq_nil hrows,
      List.nil_append] at hwrites ⊢
    cases operation with
    | get => exact absurd rfl hwrites
    | update dto => exact ⟨id, _, rfl, rfl⟩
  edits other dto answer hcall := by
    rcases update_eq_some_iff.mp hcall with ⟨rfl, heq⟩ | ⟨-, hcall⟩
    · obtain ⟨rfl, hdone⟩ := AboutCall.mk.inj heq
      refine ⟨_, AboutPhase.done.inj hdone, List.mem_append_right _ ?_⟩
      exact List.mem_singleton.mpr rfl
    · obtain ⟨row, hanswer, hmem⟩ := h.edits other dto answer hcall
      exact ⟨row, hanswer, List.mem_append_left _ hmem⟩

/-- The update of the only row. -/
theorem updated (h : OneRow s) {id : Nat} {dto : UpdateAboutDto} {existing : AboutContent}
    (hcall : s.calls id = some ⟨.update dto, .update existing⟩) :
    OneRow (s.updated id dto existing) := by
  obtain ⟨row, hrow, hid⟩ := h.read id dto existing hcall
  have hrows := rows_eq_singleton h.rows hrow
  rw [updated_of_singleton hrows hid]
  refine ⟨Nat.le_refl 1, ?read, fun _ => ⟨id, _, rfl, List.getLast?_concat⟩, ?edits⟩
  case read =>
    intro other otherDto otherExisting hother
    rcases update_eq_some_iff.mp hother with ⟨-, heq⟩ | ⟨-, hother⟩
    · cases heq
    · obtain ⟨old, hold, holdId⟩ := h.read other otherDto otherExisting hother
      rw [hrows] at hold
      obtain rfl := List.mem_singleton.mp hold
      exact ⟨_, List.mem_singleton.mpr rfl, holdId⟩
  case edits =>
    intro other otherDto answer hother
    rcases update_eq_some_iff.mp hother with ⟨rfl, heq⟩ | ⟨-, hother⟩
    · obtain ⟨-, hdone⟩ := AboutCall.mk.inj heq
      exact ⟨_, AboutPhase.done.inj hdone, List.mem_append_right _ (List.mem_singleton.mpr rfl)⟩
    · obtain ⟨old, hanswer, hmem⟩ := h.edits other otherDto answer hother
      exact ⟨old, hanswer, List.mem_append_left _ hmem⟩

/-- A step that inserts only into an empty table keeps to one row. -/
theorem step (h : OneRow s) (hfirst : InsertsFirst s label)
    (hstep : aboutPage.step s label = some t) : OneRow t := by
  rcases aboutPage_step_cases hstep with ⟨ms, rfl, rfl⟩ | ⟨id, operation, rfl, -, rfl⟩ |
    ⟨id, operation, pick, rfl, hcall, hpick, rfl⟩ | ⟨id, operation, rowId, rfl, hcall, rfl⟩ |
    ⟨id, dto, existing, rfl, hcall, rfl⟩
  · exact ⟨h.rows, h.read, h.last, h.edits⟩
  · exact h.setCall (fun _ _ heq => by cases heq) fun _ _ heq => by cases heq
  · refine h.setCall (fun dto existing heq => ?_) fun dto answer heq => ?_
    · obtain ⟨rfl, hphase⟩ := AboutCall.mk.inj heq
      cases pick with
      | none => cases hphase
      | some row => exact ⟨row, hpick.1, congrArg AboutContent.id (AboutPhase.update.inj hphase)⟩
    · obtain ⟨rfl, hphase⟩ := AboutCall.mk.inj heq
      cases pick with
      | none => cases hphase
      | some row => cases hphase
  · exact h.inserted (hfirst (by rw [hstep]; rfl)) id operation rowId
  · exact h.updated hcall

end OneRow

/-- A step adds to the record, and moves no call but its own, which goes on from its phase. -/
theorem calls_step (hstep : aboutPage.step s label = some t) (id : Nat) {call : AboutCall}
    (hcall : s.calls id = some call) : (∃ extra, t.writes = s.writes ++ extra) ∧
      (t.calls id = some call ∨ (∃ pick, call.phase = .find ∧ Picks s.rows (fun _ => true) pick ∧
        t.calls id = some ⟨call.operation, afterFind call.operation pick⟩) ∨
      (∃ rowId, label = .insert id rowId) ∨ ∃ dto, call.operation = .update dto) := by
  have hset {other : Nat} {next : AboutCall} (hne : id ≠ other) :
      Function.update s.calls other (some next) id = some call :=
    (Function.update_of_ne hne _ _).trans hcall
  rcases aboutPage_step_cases hstep with ⟨ms, rfl, rfl⟩ | ⟨other, operation, rfl, hnew, rfl⟩ |
    ⟨other, operation, pick, rfl, hfind, hpick, rfl⟩ | ⟨other, operation, rowId, rfl, -, rfl⟩ |
    ⟨other, dto, existing, rfl, hedit, rfl⟩
  · exact ⟨⟨[], (List.append_nil _).symm⟩, Or.inl hcall⟩
  · refine ⟨⟨[], (List.append_nil _).symm⟩, Or.inl (hset ?_)⟩
    rintro rfl
    rw [hnew] at hcall
    cases hcall
  · refine ⟨⟨[], (List.append_nil _).symm⟩, ?_⟩
    by_cases he : id = other
    · subst he
      obtain rfl := Option.some.inj (hfind.symm.trans hcall)
      exact Or.inr (Or.inl ⟨pick, rfl, hpick, Function.update_self ..⟩)
    · exact Or.inl (hset he)
  · refine ⟨⟨_, rfl⟩, ?_⟩
    by_cases he : id = other
    · subst he
      exact Or.inr (Or.inr (Or.inl ⟨rowId, rfl⟩))
    · exact Or.inl (hset he)
  · refine ⟨⟨_, rfl⟩, ?_⟩
    by_cases he : id = other
    · subst he
      obtain rfl := Option.some.inj (hedit.symm.trans hcall)
      exact Or.inr (Or.inr (Or.inr ⟨dto, rfl⟩))
    · exact Or.inl (hset he)

/-- An entry keeps its place in a longer record. -/
theorem getElem?_append_of_eq_some {α : Type} {xs : List α} {i : Nat} {a : α}
    (h : xs[i]? = some a) (ys : List α) : (xs ++ ys)[i]? = some a :=
  (List.getElem?_append_left (List.getElem?_eq_some_iff.mp h).1).trans h

/-- The result is one of the writes, and not from before the last one of the first ones. -/
def WrittenSince (since : Nat) (writes : List (Nat × AboutContent))
    (result : Option AboutContent) : Prop :=
  ∃ (j later : Nat) (row : AboutContent), result = some row ∧ writes[j]? = some (later, row) ∧
    since ≤ j + 1

/-- A read that started after some writes stands, or has returned one of them or a later one. -/
structure ReadsSince (since : List (Nat × AboutContent)) (reader : Nat) (s : AboutState) :
    Prop where
  one : OneRow s
  writes : since <+: s.writes
  call : ∃ phase, s.calls reader = some ⟨.get, phase⟩ ∧
    ∀ result, phase = .done result → WrittenSince since.length s.writes result

/-- A row that a read takes after a write is the last one that was written. -/
theorem OneRow.writtenSince (h : OneRow s) (hwrites : s.writes ≠ []) {since : Nat}
    (hsince : since ≤ s.writes.length) {pick : Option AboutContent}
    (hpick : Picks s.rows (fun _ => true) pick) : WrittenSince since s.writes pick := by
  obtain ⟨id, row, hrows, hlast⟩ := h.last hwrites
  rw [hrows] at hpick
  have hlength := List.length_pos_of_ne_nil hwrites
  rw [List.getLast?_eq_getElem?] at hlast
  refine ⟨s.writes.length - 1, id, row, ?_, hlast, by omega⟩
  cases pick with
  | none => cases hpick row (List.mem_singleton.mpr rfl)
  | some picked => rw [List.mem_singleton.mp hpick.1]

/-- A step next to a read that started after some writes. -/
theorem ReadsSince.step {since : List (Nat × AboutContent)} {reader : Nat}
    (h : ReadsSince since reader s) (hsince : since ≠ []) (hfirst : InsertsFirst s label)
    (hstep : aboutPage.step s label = some t) : ReadsSince since reader t := by
  obtain ⟨phase, hcall, hdone⟩ := h.call
  obtain ⟨⟨extra, hextra⟩, hmoved⟩ := calls_step hstep reader hcall
  have hwrites : s.writes ≠ [] := fun hnil => hsince (List.prefix_nil.mp (hnil ▸ h.writes))
  have hkept : ∀ result, WrittenSince since.length s.writes result →
      WrittenSince since.length t.writes result := by
    rintro result ⟨j, later, row, hresult, hj, hle⟩
    exact ⟨j, later, row, hresult, hextra ▸ getElem?_append_of_eq_some hj extra, hle⟩
  refine ⟨h.one.step hfirst hstep, hextra ▸ h.writes.trans (List.prefix_append ..), ?_⟩
  rcases hmoved with hsame | ⟨pick, -, hpick, hread⟩ | ⟨rowId, rfl⟩ | ⟨dto, hedit⟩
  · exact ⟨phase, hsame, fun result hresult => hkept result (hdone result hresult)⟩
  · refine ⟨_, hread, fun result hresult => hkept result ?_⟩
    cases pick with
    | none => cases hresult
    | some row =>
      obtain rfl := AboutPhase.done.inj hresult
      exact h.one.writtenSince hwrites h.writes.length_le hpick
  · have hempty : s.rows = [] := hfirst (by rw [hstep]; rfl)
    exact absurd (h.one.writes_eq_nil hempty) hwrites
  · cases hedit

/-- In a run whose inserts meet an empty table, reads are fresh. -/
theorem OneRow.freshReads {labels : List AboutLabel} (h : OneRow s)
    (hmeets : aboutPage.Meets InsertsFirst s labels) : FreshReads s labels := by
  rintro before reader after m t result writer dto answer rfl hm ht hread hwritten
  have hone := aboutPage.exec_invariant_of_meets h (fun _ _ _ hn hfirst hstep =>
    hn.step hfirst hstep) hmeets.of_append hm
  obtain ⟨content, hanswer, hmem⟩ := hone.edits writer dto answer hwritten
  obtain ⟨i, hi⟩ := List.mem_iff_getElem?.mp hmem
  obtain ⟨m', hm', hrun⟩ := aboutPage.exec_append_some.mp ht
  obtain rfl := Option.some.inj (hm.symm.trans hm')
  obtain ⟨started, hstart, hrest⟩ := Option.bind_eq_some_iff.mp hrun
  have hafter : aboutPage.Meets InsertsFirst m (.call reader .get :: after) := hmeets.after hm
  have hstarted : ReadsSince m.writes reader started := by
    refine ⟨hone.step hafter.1 hstart, ?writes, ?call⟩
    case writes =>
      obtain ⟨-, hsome⟩ := Option.ite_none_left_eq_some.mp hstart
      obtain rfl := Option.some.inj hsome
      exact List.prefix_rfl
    case call =>
      obtain ⟨-, hsome⟩ := Option.ite_none_left_eq_some.mp hstart
      obtain rfl := Option.some.inj hsome
      exact ⟨.find, Function.update_self .., fun _ hdone => by cases hdone⟩
  have hrestMeets : aboutPage.Meets InsertsFirst started after := by
    have hboth := hafter.2
    rwa [hstart] at hboth
  have hlast := aboutPage.exec_invariant_of_meets (P := ReadsSince m.writes reader) hstarted
    (fun _ _ _ hn hfirst hstep => hn.step (List.ne_nil_of_mem hmem) hfirst hstep) hrestMeets hrest
  obtain ⟨phase, hcall, hdone⟩ := hlast.call
  rw [hread] at hcall
  obtain ⟨-, rfl⟩ := AboutCall.mk.inj (Option.some.inj hcall)
  obtain ⟨j, later, row, hresult, hj, hle⟩ := hdone result rfl
  have hlength := (List.getElem?_eq_some_iff.mp hi).1
  obtain ⟨extra, hextra⟩ := hlast.writes
  exact ⟨i, j, later, content, row, hanswer, hextra ▸ getElem?_append_of_eq_some hi extra,
    hresult, hj, by omega⟩

end Steps

/-- In every run from a table of at most one row, the table keeps to one row, and reads are
fresh, exactly if every insert meets an empty table. -/
theorem about_singleton_iff (clock : Nat) (rows : List AboutContent) (hrows : rows.length ≤ 1)
    (labels : List AboutLabel) : aboutPage.Meets InsertsFirst (.initial clock rows) labels ↔
      aboutPage.Meets KeepsOneRow (.initial clock rows) labels ∧
        FreshReads (.initial clock rows) labels := by
  have hiff := aboutPage.meets_iff_of_invariant (C := InsertsFirst) (D := KeepsOneRow)
    (P := fun s => s.rows.length ≤ 1)
    (fun _ _ t hone hfirst hstep => (insertsFirst_iff hone).mp hfirst t hstep)
    (fun _ _ hone => insertsFirst_iff hone) (s := .initial clock rows) hrows labels
  constructor
  · intro hmeets
    exact ⟨hiff.mp hmeets, (OneRow.initial clock hrows).freshReads hmeets⟩
  · exact fun h => hiff.mpr h.1

/-- An edit that creates the row, and a read after it. -/
def editThenRead : List AboutLabel :=
  [.call 0 (.update ⟨"Hello", none, none⟩), .find 0 none, .insert 0 "a", .call 1 .get,
    .find 1 (some ⟨"a", "Hello", none, none, 0⟩)]

/-- The read after the edit is fresh. -/
theorem about_singleton_iff_editThenRead :
    aboutPage.Meets KeepsOneRow (.initial 0 []) editThenRead ∧
      FreshReads (.initial 0 []) editThenRead :=
  (about_singleton_iff 0 [] (Nat.zero_le 1) editThenRead).mp (by decide)

/-- A first read and a first edit that both find the table empty. -/
def firstTouch : List AboutLabel :=
  [.call 0 .get, .call 1 (.update ⟨"Hello", none, none⟩), .find 0 none, .find 1 none,
    .insert 0 "a"]

/-- The state in front of the second insert. -/
def oneInserted : AboutState := aboutPage.run (.initial 0 []) firstTouch (by decide)

/-- The state after it. -/
def bothInserted : AboutState := aboutPage.run oneInserted [.insert 1 "b"] (by decide)

/-- A read after the edit takes the row of the first read. -/
def readEmpty : AboutState :=
  aboutPage.run bothInserted [.call 2 .get, .find 2 (some ⟨"a", "", none, none, 0⟩)] (by decide)

/-- Both calls insert, and a later read returns the empty row although the edit has ended. -/
theorem not_singleton_bothInserted :
    bothInserted.rows = [⟨"a", "", none, none, 0⟩, ⟨"b", "Hello", none, none, 0⟩] ∧
    ¬ aboutPage.Meets KeepsOneRow (.initial 0 []) (firstTouch ++ [.insert 1 "b"]) ∧
    ¬ FreshReads (.initial 0 []) ((firstTouch ++ [.insert 1 "b"]) ++
      [.call 2 .get, .find 2 (some ⟨"a", "", none, none, 0⟩)]) := by
  have hfirst : aboutPage.exec (.initial 0 []) firstTouch = some oneInserted :=
    aboutPage.exec_run ..
  have hsecond : aboutPage.exec oneInserted [.insert 1 "b"] = some bothInserted :=
    aboutPage.exec_run ..
  have hboth : aboutPage.exec (.initial 0 []) (firstTouch ++ [.insert 1 "b"]) =
      some bothInserted := aboutPage.exec_append_some.mpr ⟨_, hfirst, hsecond⟩
  have hread : aboutPage.exec bothInserted
      [.call 2 .get, .find 2 (some ⟨"a", "", none, none, 0⟩)] = some readEmpty :=
    aboutPage.exec_run ..
  refine ⟨by decide, fun hmeets => ?_, fun hfresh => ?_⟩
  · have hkeeps : KeepsOneRow oneInserted (.insert 1 "b") := hmeets.at hfirst
    have hone := hkeeps bothInserted ((aboutPage.exec_singleton ..).symm.trans hsecond)
    exact absurd hone (by decide)
  · obtain ⟨-, j, later, -, row, -, -, hresult, hj, -⟩ := hfresh _ 2 _ bothInserted readEmpty
      (some ⟨"a", "", none, none, 0⟩) 1 ⟨"Hello", none, none⟩
      (some ⟨"b", "Hello", none, none, 0⟩) rfl hboth
      (aboutPage.exec_append_some.mpr ⟨_, hboth, hread⟩) (by decide) (by decide)
    have hwrites : readEmpty.writes = [(1, ⟨"b", "Hello", none, none, 0⟩)] := by decide
    have hmem := List.mem_of_getElem? hj
    rw [hwrites, List.mem_singleton] at hmem
    rw [(Prod.mk.inj hmem).2] at hresult
    exact absurd hresult (by decide)

end VertexApi.About
