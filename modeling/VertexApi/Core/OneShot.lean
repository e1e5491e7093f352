import Mathlib.Data.List.Induction

/-!
# One-shot tokens

A token is issued under a key with a grant and is spent by the first presentation of its
key, whoever presents it. The state of every key is a fold over the issues and
presentations so far. A key is live exactly when its last issue has not been presented
since, so of all presentations after one issue only the first one finds a live token.
-/

namespace VertexApi

universe u v w

/-- An entry in a history with a last one is the last, or stands before it. -/
theorem append_cons_eq_concat {α : Type u} {before after xs : List α} {a x : α}
    (h : before ++ a :: after = xs ++ [x]) :
    (before = xs ∧ a = x ∧ after = []) ∨
      ∃ rest, after = rest ++ [x] ∧ xs = before ++ a :: rest := by
  induction after using List.reverseRecOn with
  | nil =>
    obtain ⟨hbefore, hlast⟩ := List.append_inj' h rfl
    exact Or.inl ⟨hbefore, List.head_eq_of_cons_eq hlast, rfl⟩
  | append_singleton rest last =>
    have hsplit : (before ++ a :: rest) ++ [last] = xs ++ [x] := by
      simpa only [List.append_assoc, List.cons_append] using h
    obtain ⟨hxs, hlast⟩ := List.append_inj' hsplit rfl
    exact Or.inr ⟨rest, congrArg (rest ++ ·) hlast, hxs.symm⟩

/-- What happens to the keys of a store of one-shot tokens. -/
inductive TokenEvent (κ : Type u) (α : Type v) (ι : Type w) where
  | issued (key : κ) (grant : α)
  | presented (key : κ) (who : ι)

/-- The key that an event is about. -/
def TokenEvent.key {κ : Type u} {α : Type v} {ι : Type w} : TokenEvent κ α ι → κ
  | .issued key _ => key
  | .presented key _ => key

/-- The state of one key. -/
inductive Token (α : Type v) where
  | fresh
  | live (grant : α)
  | spent
  deriving DecidableEq, Repr

section Issues

variable {κ : Type u} {α : Type v} {ι : Type w}

/-- No key is issued twice. -/
def IssuedOnce (history : List (TokenEvent κ α ι)) : Prop :=
  history.Pairwise fun a b => ∀ key grant grant', a = .issued key grant → b ≠ .issued key grant'

/-- The first part of such a history is one. -/
theorem IssuedOnce.left {before after : List (TokenEvent κ α ι)}
    (h : IssuedOnce (before ++ after)) : IssuedOnce before := (List.pairwise_append.mp h).1

/-- Keys may be presented at any time. -/
theorem IssuedOnce.present {history : List (TokenEvent κ α ι)} (h : IssuedOnce history) (key : κ)
    (who : ι) : IssuedOnce (history ++ [.presented key who]) := by
  refine List.pairwise_append.mpr ⟨h, List.pairwise_singleton .., ?_⟩
  rintro _ _ _ hlast other grant' again _ he
  rw [List.mem_singleton.mp hlast] at he
  cases he

/-- Nothing issues a key again. -/
theorem IssuedOnce.not_mem_after {key : κ} {grant other : α}
    {before after : List (TokenEvent κ α ι)}
    (h : IssuedOnce (before ++ .issued key grant :: after)) : .issued key other ∉ after := by
  intro hmem
  have hafter := List.pairwise_cons.mp (List.pairwise_append.mp h).2.1
  exact hafter.1 _ hmem key grant other rfl rfl

/-- No event is about a key that is neither presented nor issued. -/
theorem forall_key_ne_iff {key : κ} {events : List (TokenEvent κ α ι)} :
    (∀ event ∈ events, event.key ≠ key) ↔
      (∀ who, .presented key who ∉ events) ∧ ∀ grant, .issued key grant ∉ events := by
  constructor
  · intro h
    exact ⟨fun who hmem => h _ hmem rfl, fun grant hmem => h _ hmem rfl⟩
  · rintro ⟨hpresented, hissued⟩ event hmem rfl
    cases event with
    | issued key grant => exact hissued grant hmem
    | presented key who => exact hpresented who hmem

end Issues

section OneShot

variable {κ : Type u} {α : Type v} {ι : Type w} [DecidableEq κ]

/-- The state of a key after one more event. -/
def Token.after (key : κ) (token : Token α) : TokenEvent κ α ι → Token α
  | .issued other grant => if other = key then .live grant else token
  | .presented other _ =>
    if other = key then
      match token with
      | .fresh => .fresh
      | .live _ => .spent
      | .spent => .spent
    else token

/-- The state of a key after a history of events, oldest first. -/
def tokenOf (key : κ) (history : List (TokenEvent κ α ι)) : Token α :=
  history.foldl (Token.after key) .fresh

@[simp] theorem tokenOf_nil (key : κ) : tokenOf key ([] : List (TokenEvent κ α ι)) = .fresh := rfl

@[simp] theorem tokenOf_snoc (key : κ) (history : List (TokenEvent κ α ι))
    (event : TokenEvent κ α ι) :
    tokenOf key (history ++ [event]) = (tokenOf key history).after key event := by
  simp only [tokenOf, List.foldl_append, List.foldl_cons, List.foldl_nil]

/-- An issue makes its own key live. -/
@[simp] theorem Token.after_issued (key : κ) (token : Token α) (grant : α) :
    token.after key (.issued key grant : TokenEvent κ α ι) = .live grant := if_pos rfl

/-- An event leaves other keys alone. -/
theorem Token.after_of_key_ne {key : κ} {event : TokenEvent κ α ι} (h : event.key ≠ key)
    (token : Token α) : token.after key event = token := by
  cases event with
  | issued other grant => exact if_neg h
  | presented other who => exact if_neg h

/-- An issue leaves other keys alone. -/
theorem Token.after_issued_of_ne {key other : κ} (h : other ≠ key) (token : Token α) (grant : α) :
    token.after key (.issued other grant : TokenEvent κ α ι) = token := if_neg h

/-- A presentation leaves other keys alone. -/
theorem Token.after_presented_of_ne {key other : κ} (h : other ≠ key) (token : Token α) (who : ι) :
    token.after key (.presented other who : TokenEvent κ α ι) = token := if_neg h

/-- No presentation leaves its key live. -/
theorem Token.after_presented_ne_live (key : κ) (token : Token α) (who : ι) (grant : α) :
    token.after key (.presented key who : TokenEvent κ α ι) ≠ .live grant := by
  cases token with
  | fresh => simp only [after, if_true, ne_eq, reduceCtorEq, not_false_eq_true]
  | live grant => simp only [after, if_true, ne_eq, reduceCtorEq, not_false_eq_true]
  | spent => simp only [after, if_true, ne_eq, reduceCtorEq, not_false_eq_true]

/-- A presentation of a live token spends it. -/
theorem Token.after_presented_live (key : κ) (grant : α) (who : ι) :
    (Token.live grant).after key (.presented key who : TokenEvent κ α ι) = .spent := if_pos rfl

/-- A spent token stays spent unless its key is issued again. -/
theorem Token.after_spent (key : κ) {event : TokenEvent κ α ι}
    (h : ∀ grant, event ≠ .issued key grant) :
    (Token.spent : Token α).after key event = .spent := by
  cases event with
  | issued other grant =>
    have hne : other ≠ key := by
      rintro rfl
      exact h grant rfl
    exact Token.after_issued_of_ne hne ..
  | presented other who => simp only [after, ite_self]

/-- An issue makes its key live. -/
theorem tokenOf_issued_self (key : κ) (history : List (TokenEvent κ α ι)) (grant : α) :
    tokenOf key (history ++ [.issued key grant]) = .live grant := by
  rw [tokenOf_snoc, Token.after_issued]

/-- An issue changes no other key. -/
theorem tokenOf_issued_of_ne {key other : κ} (h : other ≠ key)
    (history : List (TokenEvent κ α ι)) (grant : α) :
    tokenOf other (history ++ [.issued key grant]) = tokenOf other history := by
  rw [tokenOf_snoc, Token.after_issued_of_ne h.symm]

/-- A presentation changes no other key. -/
theorem tokenOf_presented_of_ne {key other : κ} (h : other ≠ key)
    (history : List (TokenEvent κ α ι)) (who : ι) :
    tokenOf other (history ++ [.presented key who]) = tokenOf other history := by
  rw [tokenOf_snoc, Token.after_presented_of_ne h.symm]

/-- A presentation of a fresh key, or of another one, leaves a key fresh. -/
theorem tokenOf_presented_of_fresh {key : κ} {history : List (TokenEvent κ α ι)}
    (h : tokenOf key history = .fresh) (other : κ) (who : ι) :
    tokenOf key (history ++ [.presented other who]) = .fresh := by
  rw [tokenOf_snoc, h]
  simp only [Token.after, ite_self]

/-- No presentation brings a spent key back. -/
theorem tokenOf_presented_of_spent {key : κ} {history : List (TokenEvent κ α ι)}
    (h : tokenOf key history = .spent) (other : κ) (who : ι) :
    tokenOf key (history ++ [.presented other who]) = .spent := by
  rw [tokenOf_snoc, h]
  simp only [Token.after, ite_self]

/-- A presentation spends a live key. -/
theorem tokenOf_presented_of_live {key : κ} {grant : α} {history : List (TokenEvent κ α ι)}
    (h : tokenOf key history = .live grant) (who : ι) :
    tokenOf key (history ++ [.presented key who]) = .spent := by
  rw [tokenOf_snoc, h, Token.after_presented_live]

/-- A key that is live after a presentation is not the presented one. -/
theorem ne_of_tokenOf_presented {key other : κ} {grant : α} {history : List (TokenEvent κ α ι)}
    {who : ι} (h : tokenOf other (history ++ [.presented key who]) = .live grant) :
    other ≠ key := by
  rintro rfl
  rw [tokenOf_snoc] at h
  exact Token.after_presented_ne_live other _ who grant h

/-- A key is live exactly when it was issued and neither presented nor issued since. -/
theorem tokenOf_live_iff {key : κ} {grant : α} {history : List (TokenEvent κ α ι)} :
    tokenOf key history = .live grant ↔ ∃ before after,
      history = before ++ .issued key grant :: after ∧ (∀ who, .presented key who ∉ after) ∧
      ∀ other, .issued key other ∉ after := by
  simp only [← forall_key_ne_iff]
  induction history using List.reverseRecOn with
  | nil =>
    simp only [tokenOf_nil, reduceCtorEq, List.nil_eq, List.append_eq_nil_iff, and_false,
      false_and, exists_false]
  | append_singleton history event ih =>
    rw [tokenOf_snoc]
    by_cases he : event.key = key
    · -- A last event about the key has to be the issue itself.
      constructor
      · intro hlive
        cases event with
        | issued other grant' =>
          obtain rfl : other = key := he
          rw [Token.after_issued, Token.live.injEq] at hlive
          exact ⟨history, [], by rw [hlive], fun _ hmem => absurd hmem List.not_mem_nil⟩
        | presented other who =>
          obtain rfl : other = key := he
          exact (Token.after_presented_ne_live _ _ _ _ hlive).elim
      · rintro ⟨before, after, hsplit, hafter⟩
        rcases append_cons_eq_concat hsplit.symm with ⟨-, rfl, -⟩ | ⟨rest, rfl, -⟩
        · exact Token.after_issued ..
        · exact absurd he (hafter event (List.mem_append_right _ (List.mem_singleton_self _)))
    · rw [Token.after_of_key_ne he, ih]
      constructor
      · rintro ⟨before, after, rfl, hafter⟩
        refine ⟨before, after ++ [event], by rw [List.append_assoc, List.cons_append], ?_⟩
        exact List.forall_mem_append.mpr ⟨hafter, List.forall_mem_singleton.mpr he⟩
      · rintro ⟨before, after, hsplit, hafter⟩
        rcases append_cons_eq_concat hsplit.symm with ⟨-, rfl, -⟩ | ⟨rest, rfl, rfl⟩
        · exact absurd rfl he
        · exact ⟨before, rest, rfl, fun other hmem => hafter other (List.mem_append_left _ hmem)⟩

/-- A key is fresh exactly when it was never issued. -/
theorem tokenOf_fresh_iff {key : κ} {history : List (TokenEvent κ α ι)} :
    tokenOf key history = .fresh ↔ ∀ grant, .issued key grant ∉ history := by
  induction history using List.reverseRecOn with
  | nil => simp only [tokenOf_nil, List.not_mem_nil, not_false_eq_true, implies_true]
  | append_singleton history event ih =>
    simp only [tokenOf_snoc, List.mem_append, List.mem_singleton, not_or, forall_and]
    cases event with
    | issued other grant =>
      by_cases he : other = key
      · subst he
        simp only [Token.after_issued, reduceCtorEq, false_iff, not_and, not_forall, not_not]
        exact fun _ => ⟨grant, rfl⟩
      · rw [Token.after_issued_of_ne he, ih]
        refine ⟨fun h => ⟨h, fun again hagain => ?_⟩, fun h => h.1⟩
        exact he (TokenEvent.issued.inj hagain).1.symm
    | presented other who =>
      have hfresh : (tokenOf key history).after key (.presented other who : TokenEvent κ α ι) =
          .fresh ↔ tokenOf key history = .fresh := by
        by_cases he : other = key
        · subst he
          cases tokenOf other history with
          | fresh => simp only [Token.after, if_true]
          | live grant => simp only [Token.after, if_true, reduceCtorEq]
          | spent => simp only [Token.after, if_true, reduceCtorEq]
        · rw [Token.after_presented_of_ne he]
      rw [hfresh, ih]
      simp only [reduceCtorEq, not_false_eq_true, implies_true, and_true]

/-- A fresh key may be issued. -/
theorem IssuedOnce.issue {key : κ} {history : List (TokenEvent κ α ι)} (h : IssuedOnce history)
    (hfresh : tokenOf key history = .fresh) (grant : α) :
    IssuedOnce (history ++ [.issued key grant]) := by
  refine List.pairwise_append.mpr ⟨h, List.pairwise_singleton .., ?_⟩
  rintro _ hmem _ hlast other grant' again rfl he
  rw [List.mem_singleton.mp hlast] at he
  obtain ⟨rfl, rfl⟩ := TokenEvent.issued.inj he
  exact tokenOf_fresh_iff.mp hfresh grant' hmem

/-- A key that is issued once is live from its issue to its first presentation. -/
theorem IssuedOnce.tokenOf_live_iff {key : κ} {grant : α} {history : List (TokenEvent κ α ι)}
    (h : IssuedOnce history) : tokenOf key history = .live grant ↔ ∃ before after,
      history = before ++ .issued key grant :: after ∧ ∀ who, .presented key who ∉ after := by
  rw [VertexApi.tokenOf_live_iff]
  constructor
  · rintro ⟨before, after, hsplit, hpresented, -⟩
    exact ⟨before, after, hsplit, hpresented⟩
  · rintro ⟨before, after, rfl, hpresented⟩
    exact ⟨before, after, rfl, hpresented, fun _ => h.not_mem_after⟩

/-- A presentation after the issue of a key spends it for good. -/
theorem IssuedOnce.tokenOf_spent {key : κ} {grant : α} {who : ι}
    {before after post : List (TokenEvent κ α ι)}
    (h : IssuedOnce (before ++ .issued key grant :: after ++ .presented key who :: post)) :
    tokenOf key (before ++ .issued key grant :: after ++ .presented key who :: post) = .spent := by
  induction post using List.reverseRecOn with
  | nil =>
    rw [tokenOf_snoc]
    cases htoken : tokenOf key (before ++ .issued key grant :: after) with
    | fresh =>
      exact absurd (List.mem_append_right _ List.mem_cons_self)
        (tokenOf_fresh_iff.mp htoken grant)
    | live other => exact Token.after_presented_live ..
    | spent => exact Token.after_spent key fun _ => by simp only [ne_eq, reduceCtorEq,
        not_false_eq_true]
  | append_singleton post event ih =>
    rw [← List.cons_append, ← List.append_assoc] at h ⊢
    rw [tokenOf_snoc, ih h.left]
    refine Token.after_spent key fun other he => ?_
    rw [List.append_assoc, List.append_assoc, List.cons_append] at h
    exact h.not_mem_after (List.mem_append_right _ (List.mem_append_right _
      (List.mem_singleton.mpr he.symm)))

end OneShot

end VertexApi
