import Mathlib.Algebra.Group.Nat.Defs

/-!
# Base64url

`buffer.toString('base64url')`: three bytes become four letters of the URL-safe alphabet,
the last one or two bytes two or three letters, and nothing is padded.
-/

namespace VertexApi

/-- The URL-safe alphabet. -/
def base64urlAlphabet : List Char :=
  "ABCDEFGHIJKLMNOPQRSTUVWXYZabcdefghijklmnopqrstuvwxyz0123456789-_".toList

/-- The letter of six bits. -/
def base64urlLetter (bits : Nat) : Char := base64urlAlphabet.getD bits 'A'

/-- The letters of a list of bytes. -/
def base64urlLetters : List UInt8 → List Char
  | [] => []
  | [a] =>
    let bits := a.toNat * 2 ^ 4
    [base64urlLetter (bits / 2 ^ 6), base64urlLetter (bits % 2 ^ 6)]
  | [a, b] =>
    let bits := (a.toNat * 2 ^ 8 + b.toNat) * 2 ^ 2
    [base64urlLetter (bits / 2 ^ 12), base64urlLetter (bits / 2 ^ 6 % 2 ^ 6),
      base64urlLetter (bits % 2 ^ 6)]
  | a :: b :: c :: rest =>
    let bits := (a.toNat * 2 ^ 8 + b.toNat) * 2 ^ 8 + c.toNat
    base64urlLetter (bits / 2 ^ 18) :: base64urlLetter (bits / 2 ^ 12 % 2 ^ 6) ::
      base64urlLetter (bits / 2 ^ 6 % 2 ^ 6) :: base64urlLetter (bits % 2 ^ 6) ::
      base64urlLetters rest

/-- The text of a list of bytes. -/
def base64url (bytes : List UInt8) : String := String.ofList (base64urlLetters bytes)

/-- Every letter is one of the alphabet. -/
theorem base64urlLetter_mem (bits : Nat) : base64urlLetter bits ∈ base64urlAlphabet := by
  rw [base64urlLetter, List.getD_eq_getElem?_getD]
  cases h : base64urlAlphabet[bits]? with
  | none => decide
  | some letter => exact List.mem_of_getElem? h

/-- All letters of a text are in the alphabet. -/
theorem mem_alphabet_of_mem_base64urlLetters {bytes : List UInt8} {letter : Char}
    (h : letter ∈ base64urlLetters bytes) : letter ∈ base64urlAlphabet := by
  induction bytes using base64urlLetters.induct with
  | case1 => cases h
  | case2 a =>
    simp only [base64urlLetters, List.mem_cons, List.not_mem_nil, or_false] at h
    rcases h with rfl | rfl <;> exact base64urlLetter_mem _
  | case3 a b =>
    simp only [base64urlLetters, List.mem_cons, List.not_mem_nil, or_false] at h
    rcases h with rfl | rfl | rfl <;> exact base64urlLetter_mem _
  | case4 a b c rest ih =>
    simp only [base64urlLetters, List.mem_cons] at h
    rcases h with rfl | rfl | rfl | rfl | hrest
    · exact base64urlLetter_mem _
    · exact base64urlLetter_mem _
    · exact base64urlLetter_mem _
    · exact base64urlLetter_mem _
    · exact ih hrest

/-- How long a text is: without padding, four letters for three bytes, rounded up. -/
theorem length_base64urlLetters (bytes : List UInt8) :
    (base64urlLetters bytes).length = (4 * bytes.length + 2) / 3 := by
  induction bytes using base64urlLetters.induct with
  | case1 => rfl
  | case2 a => simp only [base64urlLetters, List.length_cons, List.length_nil]
  | case3 a b => simp only [base64urlLetters, List.length_cons, List.length_nil]
  | case4 a b c rest ih =>
    simp only [base64urlLetters, List.length_cons, ih]
    omega

/-- A text has no dot. -/
theorem dot_notMem_base64url (bytes : List UInt8) : '.' ∉ (base64url bytes).toList := by
  intro h
  rw [base64url, String.toList_ofList] at h
  exact absurd (mem_alphabet_of_mem_base64urlLetters h) (by decide)

/-- The text of some bytes is not empty. -/
theorem base64url_ne_empty {bytes : List UInt8} (h : bytes ≠ []) : base64url bytes ≠ "" := by
  intro he
  have hnil : base64urlLetters bytes = [] := by
    simpa only [base64url, String.toList_ofList, String.toList_empty] using
      congrArg String.toList he
  have hlength := length_base64urlLetters bytes
  have hpos := List.length_pos_iff.mpr h
  rw [hnil, List.length_nil] at hlength
  omega

/-- Bytes `0xfb 0xff` and `0x69` reach both of the letters that are not alphanumeric. -/
example : base64url [0xfb, 0xff, 0x69] = "-_9p" := by decide

end VertexApi
