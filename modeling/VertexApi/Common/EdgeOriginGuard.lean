import VertexApi.Common.JsString

/-!
# Requests from the edge

The guard that only lets in requests that come through the network in front of the service. They
prove it by a secret in a header.
-/

namespace VertexApi.Common

/-- The value of a header: repeated headers come as a list. -/
inductive HeaderValue where
  | text (value : String)
  | list (values : List String)
  deriving DecidableEq, Repr

/-- The headers of a request. -/
abbrev Headers := String → Option HeaderValue

/-- What the checks of a request throw. -/
inductive EdgeFailure where
  | forbidden (message : String)
  | rangeError (message : String)
  deriving DecidableEq, Repr

/-- Byte for byte, the buffers are the same. -/
def sameBytes (a b : ByteArray) : Bool := decide (a.data.toList = b.data.toList)

/-- `timingSafeEqual(a, b)`: it throws when the lengths differ. -/
def timingSafeEqual (a b : ByteArray) : Except EdgeFailure Bool :=
  if a.size = b.size then .ok (sameBytes a b)
  else .error (.rangeError "Input buffers must have the same byte length")

namespace EdgeOriginGuard

def edgeSecretHeader : String := "x-origin-verify"

/-- Whether the presented text is the secret. -/
def matchesSecret (secret presented : String) : Except EdgeFailure Bool :=
  let a := presented.toUTF8
  let b := secret.toUTF8
  if a.size ≠ b.size then .ok false else timingSafeEqual a b

/-- The check of a request. Without a secret every request is let in. -/
def canActivate (secret : Option String) (headers : Headers) : Except EdgeFailure Bool :=
  match JsString.truthy secret with
  | none => .ok true
  | some secret =>
    match headers edgeSecretHeader with
    | some (.text presented) => do
      if ← matchesSecret secret presented then .ok true else .error (.forbidden "Forbidden")
    | _ => .error (.forbidden "Forbidden")

end EdgeOriginGuard

/-- The secret in a header, as bytes. -/
def Presents (header secret : String) (headers : Headers) : Prop :=
  ∃ presented, headers header = some (.text presented) ∧ presented.toUTF8 = secret.toUTF8

/-- Other headers play no part. -/
theorem presents_congr {header : String} (secret : String) {headers headers' : Headers}
    (h : headers header = headers' header) :
    Presents header secret headers ↔ Presents header secret headers' := by
  rw [Presents, Presents, h]

/-- Buffers with the same bytes are equal. -/
theorem sameBytes_eq_true {a b : ByteArray} : sameBytes a b = true ↔ a = b := by
  rw [sameBytes, decide_eq_true_iff, Array.toList_inj]
  exact ⟨ByteArray.ext, congrArg ByteArray.data⟩

/-- Other buffers differ. -/
theorem sameBytes_eq_false {a b : ByteArray} (h : a ≠ b) : sameBytes a b = false :=
  Bool.eq_false_iff.mpr fun hsame => h (sameBytes_eq_true.mp hsame)

/-- Behind a test of the lengths the comparison does not throw. -/
theorem timingSafeEqual_of_size {a b : ByteArray} (h : a.size = b.size) :
    timingSafeEqual a b = .ok (sameBytes a b) := if_pos h

namespace EdgeOriginGuard

/-- The comparison is that of the bytes. -/
theorem matchesSecret_eq (secret presented : String) :
    matchesSecret secret presented = .ok (sameBytes presented.toUTF8 secret.toUTF8) := by
  by_cases hsize : presented.toUTF8.size = secret.toUTF8.size
  · simp only [matchesSecret, ne_eq, hsize, not_true, if_false, timingSafeEqual_of_size hsize]
  · have hne : presented.toUTF8 ≠ secret.toUTF8 := fun h => hsize (congrArg ByteArray.size h)
    simp only [matchesSecret, ne_eq, hsize, not_false_eq_true, if_true, sameBytes_eq_false hne]

/-- A request is let in when it presents the secret. -/
theorem canActivate_eq_ok {secret : String} (hsecret : secret ≠ "") {headers : Headers} :
    canActivate (some secret) headers = .ok true ↔
      Presents edgeSecretHeader secret headers := by
  have htruthy : JsString.truthy (some secret) = some secret :=
    JsString.truthy_eq_some.mpr ⟨rfl, hsecret⟩
  simp only [canActivate, htruthy]
  constructor
  · intro h
    split at h
    · next presented hpresented =>
      by_cases hbytes : presented.toUTF8 = secret.toUTF8
      · exact ⟨presented, hpresented, hbytes⟩
      · rw [matchesSecret_eq, sameBytes_eq_false hbytes] at h
        cases h
    · cases h
  · rintro ⟨presented, hpresented, hbytes⟩
    simp only [hpresented, matchesSecret_eq, sameBytes_eq_true.mpr hbytes]
    rfl

end EdgeOriginGuard

end VertexApi.Common
