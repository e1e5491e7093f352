import VertexApi.Common.JsString

/-!
# Escaped text

Text that goes into the markup of an e-mail has five characters replaced by their entities, one
pass after the other. The passes together respell each character on its own, and they can be
undone.
-/

namespace VertexApi.Email

open JsString

/-- Text for the markup. -/
def escapeHtml (value : String) : String :=
  let value := replaceAll value "&" "&amp;"
  let value := replaceAll value "<" "&lt;"
  let value := replaceAll value ">" "&gt;"
  let value := replaceAll value "\"" "&quot;"
  replaceAll value "'" "&#39;"

/-- The characters that delimit tags and attribute values. -/
def delimiters : List Char := ['<', '>', '"', '\'']

/-- What stands for a character in escaped text. -/
def entityOf : Char → List Char
  | '&' => "&amp;".toList
  | '<' => "&lt;".toList
  | '>' => "&gt;".toList
  | '"' => "&quot;".toList
  | '\'' => "&#39;".toList
  | c => [c]

/-- The characters that are escaped, one by one. -/
theorem mem_escaped {c : Char} :
    c ∈ '&' :: delimiters ↔ c = '&' ∨ c = '<' ∨ c = '>' ∨ c = '"' ∨ c = '\'' := by
  simp only [delimiters, List.mem_cons, List.not_mem_nil, or_false]

/-- A character other than the five stands for itself. -/
theorem entityOf_eq_self {c : Char} (h : c ∉ '&' :: delimiters) : entityOf c = [c] := by
  simp only [mem_escaped, not_or] at h
  unfold entityOf
  split <;> simp_all

/-- An entity starts with the only ampersand that it has. -/
theorem entityOf_eq_cons {c : Char} (h : c ∈ '&' :: delimiters) :
    ∃ later, entityOf c = '&' :: later ∧ '&' ∉ later := by
  rcases mem_escaped.mp h with rfl | rfl | rfl | rfl | rfl <;> exact ⟨_, rfl, by decide⟩

/-- The passes respell each character on its own, although the later ones go through the entities
that the earlier ones have put in. -/
theorem toList_escapeHtml (value : String) :
    (escapeHtml value).toList = value.toList.flatMap entityOf := by
  simp only [escapeHtml, replaceAll, String.toList_ofList]
  rw [show "&".toList = ['&'] from rfl, show "<".toList = ['<'] from rfl,
    show ">".toList = ['>'] from rfl, show "\"".toList = ['"'] from rfl,
    show "'".toList = ['\''] from rfl]
  simp only [substitute_singleton, List.flatMap_assoc]
  refine List.flatMap_congr fun c _ => ?_
  by_cases hc : c ∈ '&' :: delimiters
  · rcases mem_escaped.mp hc with rfl | rfl | rfl | rfl | rfl <;> decide
  · rw [entityOf_eq_self hc]
    simp only [mem_escaped, not_or] at hc
    obtain ⟨hamp, hlt, hgt, hquot, hapos⟩ := hc
    simp only [hamp, hlt, hgt, hquot, hapos, if_false, List.flatMap_singleton]

/-- No delimiter is left. -/
theorem notMem_escapeHtml {value : String} {c : Char} (h : c ∈ (escapeHtml value).toList) :
    c ∉ delimiters := by
  rw [toList_escapeHtml] at h
  obtain ⟨d, -, hc⟩ := List.mem_flatMap.mp h
  by_cases hd : d ∈ '&' :: delimiters
  · rcases mem_escaped.mp hd with rfl | rfl | rfl | rfl | rfl <;>
      exact of_decide_eq_true
        (List.all_eq_true (p := fun e => decide (e ∉ delimiters)).mp (by decide) c hc)
  · rw [entityOf_eq_self hd] at hc
    rw [List.mem_singleton.mp hc]
    exact fun hdelimiter => hd (List.mem_cons_of_mem '&' hdelimiter)

/-- An ampersand in respelled text is the first symbol of an entity. -/
theorem entityOf_prefix_of_flatMap {text before after : List Char}
    (h : text.flatMap entityOf = before ++ '&' :: after) :
    ∃ c ∈ '&' :: delimiters, entityOf c <+: '&' :: after := by
  induction text generalizing before with
  | nil => exact absurd h.symm (by simp)
  | cons c text ih =>
    rw [List.flatMap_cons] at h
    rcases List.append_eq_append_iff.mp h with ⟨middle, -, hrest⟩ | ⟨middle, hword, hrest⟩
    · exact ih hrest
    · cases middle with
      | nil => exact @ih [] hrest.symm
      | cons d middle =>
        obtain ⟨rfl, rfl⟩ := List.cons.inj hrest
        by_cases hc : c ∈ '&' :: delimiters
        · obtain ⟨later, hlater, hmark⟩ := entityOf_eq_cons hc
          refine ⟨c, hc, ?_⟩
          -- The only ampersand of an entity is its first symbol.
          cases before with
          | nil => exact hword ▸ List.prefix_append ('&' :: middle) _
          | cons d before =>
            rw [hlater, List.cons_append, List.cons.injEq] at hword
            exact absurd (hword.2 ▸ List.mem_append_right before (List.mem_cons_self ..)) hmark
        · have hmem : '&' ∈ entityOf c :=
            hword ▸ List.mem_append_right before (List.mem_cons_self ..)
          rw [entityOf_eq_self hc, List.mem_singleton] at hmem
          exact absurd (hmem ▸ List.mem_cons_self ..) hc

/-- Undoing the pass of one character. -/
def decodeEntity (text : String) (c : Char) : String :=
  replaceAll text (String.ofList (entityOf c)) (String.singleton c)

/-- Undoing passes, in an order. -/
def decodeEntities (order : List Char) (text : String) : String := order.foldl decodeEntity text

/-- What stands for a character once the passes of some characters are undone. -/
def entityWithout (undone : List Char) (c : Char) : List Char :=
  if c ∈ undone then [c] else entityOf c

/-- The entities start with the same mark, and none of them goes on from another. -/
theorem entityOf_apart {b c : Char} (hb : b ∈ '&' :: delimiters) (hc : c ∈ '&' :: delimiters)
    (hne : c ≠ b) : ∃ later word, entityOf b = '&' :: later ∧ entityOf c = '&' :: word ∧
      '&' ∉ word ∧ ¬ later <+: word ∧ ¬ word <+: later := by
  rcases mem_escaped.mp hb with rfl | rfl | rfl | rfl | rfl <;>
    rcases mem_escaped.mp hc with rfl | rfl | rfl | rfl | rfl <;>
    first
    | exact absurd rfl hne
    | exact ⟨_, _, rfl, rfl, by decide, by decide, by decide⟩

/-- As long as the ampersands are escaped, no entity starts within what stands for another
character. -/
theorem startsOutside_entityWithout {undone : List Char} {b c : Char} (hundone : '&' ∉ undone)
    (hb : b ∈ '&' :: delimiters) (hne : c ≠ b) :
    StartsOutside (entityOf b) (entityWithout undone c) := by
  obtain ⟨later, hlater, -⟩ := entityOf_eq_cons hb
  rw [entityWithout]
  split
  · next hc =>
    rw [hlater]
    refine startsOutside_of_notMem fun hmem => hundone ?_
    rwa [List.mem_singleton.mp hmem]
  · by_cases hc : c ∈ '&' :: delimiters
    · obtain ⟨later, word, hb, hc, hmark, hshort, hlong⟩ := entityOf_apart hb hc hne
      rw [hb, hc]
      exact startsOutside_of_incomparable hmark hshort hlong
    · rw [entityOf_eq_self hc, hlater]
      refine startsOutside_of_notMem fun hmem => hc ?_
      rw [← List.mem_singleton.mp hmem]
      exact List.mem_cons_self ..

/-- One more pass undone. -/
theorem decodeEntity_flatMap {undone : List Char} {b : Char} (hundone : '&' ∉ undone)
    (hb : b ∈ '&' :: delimiters) (hnew : b ∉ undone) (text : List Char) :
    decodeEntity (String.ofList (text.flatMap (entityWithout undone))) b =
      String.ofList (text.flatMap (entityWithout (b :: undone))) := by
  have hspelling : entityWithout undone b = entityOf b := if_neg hnew
  have hnonempty : entityWithout undone b ≠ [] := by
    obtain ⟨later, hlater, -⟩ := entityOf_eq_cons hb
    rw [hspelling, hlater]
    exact List.cons_ne_nil '&' later
  have houtside : ∀ c ∈ text, c ≠ b →
      StartsOutside (entityWithout undone b) (entityWithout undone c) := by
    intro c _ hne
    rw [hspelling]
    exact startsOutside_entityWithout hundone hb hne
  have hpass : substitute (entityWithout undone b) [b] (text.flatMap (entityWithout undone)) =
      text.flatMap fun c => if c = b then [b] else entityWithout undone c :=
    substitute_flatMap hnonempty houtside
  rw [hspelling] at hpass
  simp only [decodeEntity, replaceAll, String.toList_ofList, String.toList_singleton, hpass]
  congr 1
  refine List.flatMap_congr fun c _ => ?_
  by_cases hc : c = b <;> simp [entityWithout, hc]

/-- Passes undone in any order, that of the ampersand not among them. -/
theorem decodeEntities_flatMap {order undone : List Char} (hundone : '&' ∉ undone)
    (horder : ∀ c ∈ order, c ∈ delimiters) (hnodup : order.Nodup)
    (hnew : ∀ c ∈ order, c ∉ undone) (text : List Char) :
    decodeEntities order (String.ofList (text.flatMap (entityWithout undone))) =
      String.ofList (text.flatMap (entityWithout (order.reverse ++ undone))) := by
  induction order generalizing undone with
  | nil => rfl
  | cons b order ih =>
    have hb : b ∈ delimiters := horder b (List.mem_cons_self ..)
    have hmark : '&' ∉ b :: undone := by
      refine fun hmem => (List.mem_cons.mp hmem).elim (fun hb' => ?_) hundone
      exact absurd (hb' ▸ hb) (by decide)
    have hlater : ∀ c ∈ order, c ∉ b :: undone := fun c hc hmem => by
      rcases List.mem_cons.mp hmem with rfl | hmem
      · exact (List.nodup_cons.mp hnodup).1 hc
      · exact hnew c (List.mem_cons_of_mem b hc) hmem
    have hpass := decodeEntity_flatMap hundone (List.mem_cons_of_mem '&' hb)
      (hnew b (List.mem_cons_self ..)) text
    have hrest := ih hmark (fun c hc => horder c (List.mem_cons_of_mem b hc))
      (List.nodup_cons.mp hnodup).2 hlater
    rw [decodeEntities, List.foldl_cons, hpass, ← decodeEntities, hrest, List.reverse_cons,
      List.append_assoc, List.singleton_append]

/-- The entities decode to the text, when that of the ampersand comes last. -/
theorem decodeEntities_escapeHtml {order : List Char} (horder : order.Perm delimiters)
    (value : String) : decodeEntities (order ++ ['&']) (escapeHtml value) = value := by
  have hmark : '&' ∉ order.reverse ++ [] := by
    rw [List.append_nil, List.mem_reverse, horder.mem_iff]
    decide
  have hspelled : value.toList.flatMap entityOf = value.toList.flatMap (entityWithout []) :=
    List.flatMap_congr fun c _ => (if_neg List.not_mem_nil).symm
  have hfour := decodeEntities_flatMap List.not_mem_nil (fun c hc => horder.mem_iff.mp hc)
    (horder.nodup_iff.mpr (by decide)) (fun c _ => List.not_mem_nil) value.toList
  have hlast := decodeEntity_flatMap hmark (List.mem_cons_self ..) hmark value.toList
  -- Nothing is left to undo.
  have hplain : value.toList.flatMap (entityWithout ('&' :: (order.reverse ++ []))) =
      value.toList := by
    refine (List.flatMap_congr fun c _ => ?_).trans (List.flatMap_singleton' value.toList)
    by_cases hc : c ∈ '&' :: delimiters
    · refine if_pos ?_
      rwa [List.append_nil, List.mem_cons, List.mem_reverse, horder.mem_iff, ← List.mem_cons]
    · rw [entityWithout, entityOf_eq_self hc, ite_self]
  have hvalue : escapeHtml value = String.ofList (value.toList.flatMap (entityWithout [])) := by
    rw [← hspelled, ← toList_escapeHtml, String.ofList_toList]
  calc decodeEntities (order ++ ['&']) (escapeHtml value)
      = decodeEntity (decodeEntities order (escapeHtml value)) '&' := List.foldl_concat ..
    _ = String.ofList (value.toList.flatMap (entityWithout ('&' :: (order.reverse ++ [])))) := by
      rw [hvalue, hfour, hlast]
    _ = value := by rw [hplain, String.ofList_toList]

/-- Escaping is the simultaneous substitution of the entities: nothing in it delimits markup, an
ampersand in it begins an entity, and decoding the other four entities before that of the
ampersand gives the text back, so that it is injective. -/
theorem escapeHtml_faithful : Function.Injective escapeHtml ∧ ∀ value : String,
    escapeHtml value = String.ofList (value.toList.flatMap entityOf) ∧
      (∀ c ∈ (escapeHtml value).toList, c ≠ '<' ∧ c ≠ '>' ∧ c ≠ '"' ∧ c ≠ '\'') ∧
      (∀ before after, (escapeHtml value).toList = before ++ '&' :: after →
        ∃ c ∈ '&' :: delimiters, entityOf c <+: '&' :: after) ∧
      ∀ order : List Char, order.Perm delimiters →
        decodeEntities (order ++ ['&']) (escapeHtml value) = value := by
  refine ⟨?_, fun value => ⟨?_, ?_, ?_, ?_⟩⟩
  · exact Function.LeftInverse.injective
      (decodeEntities_escapeHtml (List.Perm.refl delimiters))
  · rw [← toList_escapeHtml, String.ofList_toList]
  · intro c hc
    simpa [delimiters] using notMem_escapeHtml hc
  · intro before after hsplit
    exact entityOf_prefix_of_flatMap (toList_escapeHtml value ▸ hsplit)
  · intro order horder
    exact decodeEntities_escapeHtml horder value

end VertexApi.Email
