import VertexApi.Common.EdgeOriginGuard

/-!
# Who a rate limit counts

The key that the requests of a client are counted under. It is the address that the network in
front of the service has recorded, once a request has proved that it comes through it, and what
the request says otherwise.
-/

namespace VertexApi.Throttler

open Common

def edgeSecretHeader : String := "x-origin-verify"

def viewerAddressHeader : String := "cloudfront-viewer-address"

structure TrackableRequest where
  ip : String
  headers : Headers

/-- The key of a request, and whether a missing viewer address has been reported. -/
structure Tracked where
  key : String
  viewerAddressMissing : Bool
  deriving DecidableEq, Repr

/-- The address in front of the port, which follows the last colon. -/
def withoutPort (viewerAddress : String) : String :=
  match JsString.lastIndexOf viewerAddress ':' with
  | none => viewerAddress
  | some lastColon => JsString.sliceBefore viewerAddress lastColon

/-- Whether the request has proved that it comes through the edge. -/
def cameThroughEdge (headers : Headers) (secret : String) : Except EdgeFailure Bool :=
  match headers edgeSecretHeader with
  | some (.text presented) =>
    let a := presented.toUTF8
    let b := secret.toUTF8
    if a.size = b.size then timingSafeEqual a b else .ok false
  | _ => .ok false

/-- The key of a request, with the shared secret when one is configured. -/
def resolveClientTracker (request : TrackableRequest) (secret : Option String) :
    Except EdgeFailure Tracked :=
  match JsString.truthy secret with
  | none => .ok ⟨request.ip, false⟩
  | some secret => do
    if !(← cameThroughEdge request.headers secret) then .ok ⟨request.ip, false⟩
    else
      match request.headers viewerAddressHeader with
      | some (.text viewerAddress) =>
        if viewerAddress = "" then .ok ⟨request.ip, true⟩
        else .ok ⟨withoutPort viewerAddress, false⟩
      | _ => .ok ⟨request.ip, true⟩

/-- What is logged when a request comes through the edge without a viewer address. -/
def viewerAddressWarning : String :=
  "Requests arrive through the CDN but carry no " ++ viewerAddressHeader ++ " header, " ++
    "so rate limits are falling back to X-Forwarded-For, which a caller can set. " ++
    "Forward that header from the distribution (AllViewer does not include CloudFront-* headers)."

/-- A call of the tracker, which remembers whether it has warned. It gives the key, what it
remembers from then on and what it has logged. -/
def clientTracker (secret : Option String) (warned : Bool) (request : TrackableRequest) :
    Except EdgeFailure (String × Bool × List String) := do
  let tracked ← resolveClientTracker request secret
  if tracked.viewerAddressMissing && !warned then
    .ok (tracked.key, true, [viewerAddressWarning])
  else .ok (tracked.key, warned, [])

/-- The address is what stands before the last colon. -/
theorem withoutPort_append {address port : String} (hport : ':' ∉ port.toList) :
    withoutPort (address ++ ":" ++ port) = address := by
  have hcolon : address ++ ":" ++ port = address ++ String.singleton ':' ++ port := rfl
  rw [withoutPort, hcolon, JsString.lastIndexOf_append hport, String.append_assoc]
  exact JsString.sliceBefore_append address _

/-- A request with the secret comes through the edge. -/
theorem cameThroughEdge_of_presents {headers : Headers} {secret : String}
    (h : Presents EdgeOriginGuard.edgeSecretHeader secret headers) :
    cameThroughEdge headers secret = .ok true := by
  obtain ⟨presented, hpresented, hbytes⟩ := h
  have hheader : headers edgeSecretHeader = some (.text presented) := hpresented
  have hsize := congrArg ByteArray.size hbytes
  simp only [cameThroughEdge, hheader, hsize, if_true, timingSafeEqual_of_size hsize,
    sameBytes_eq_true.mpr hbytes]

/-- A request without the secret does not, whatever its header is. -/
theorem cameThroughEdge_of_not_presents {headers : Headers} {secret : String}
    (h : ¬ Presents EdgeOriginGuard.edgeSecretHeader secret headers) :
    cameThroughEdge headers secret = .ok false := by
  rw [cameThroughEdge]
  split
  · next presented hpresented =>
    have hbytes : presented.toUTF8 ≠ secret.toUTF8 := fun hbytes =>
      h ⟨presented, hpresented, hbytes⟩
    simp only
    split
    · next hsize => rw [timingSafeEqual_of_size hsize, sameBytes_eq_false hbytes]
    · rfl
  · rfl

section Resolve

variable {secret : String} (hsecret : secret ≠ "")
include hsecret

/-- The key of a request with the secret and a viewer address. -/
theorem resolveClientTracker_of_presents {request : TrackableRequest}
    (h : Presents EdgeOriginGuard.edgeSecretHeader secret request.headers)
    {address port : String} (hport : ':' ∉ port.toList)
    (haddress : request.headers viewerAddressHeader = some (.text (address ++ ":" ++ port))) :
    resolveClientTracker request (some secret) = .ok ⟨address, false⟩ := by
  have htruthy : JsString.truthy (some secret) = some secret :=
    JsString.truthy_eq_some.mpr ⟨rfl, hsecret⟩
  have hne : address ++ ":" ++ port ≠ "" := fun hempty => by
    have hlist := congrArg String.toList hempty
    simp at hlist
  simp only [resolveClientTracker, htruthy, cameThroughEdge_of_presents h, bind, Except.bind,
    haddress, Bool.not_true, Bool.false_eq_true, if_false, if_neg hne, withoutPort_append hport]

/-- The key of a request without the secret. -/
theorem resolveClientTracker_of_not_presents {request : TrackableRequest}
    (h : ¬ Presents EdgeOriginGuard.edgeSecretHeader secret request.headers) :
    resolveClientTracker request (some secret) = .ok ⟨request.ip, false⟩ := by
  have htruthy : JsString.truthy (some secret) = some secret :=
    JsString.truthy_eq_some.mpr ⟨rfl, hsecret⟩
  simp only [resolveClientTracker, htruthy, cameThroughEdge_of_not_presents h, bind, Except.bind,
    Bool.not_false, if_true]

/-- The key of a request that the guard admits. -/
theorem resolveClientTracker_of_admitted {request : TrackableRequest} {address port : String}
    (hadmits : EdgeOriginGuard.canActivate (some secret) request.headers = .ok true)
    (hport : ':' ∉ port.toList)
    (haddress : request.headers viewerAddressHeader = some (.text (address ++ ":" ++ port))) :
    resolveClientTracker request (some secret) = .ok ⟨address, false⟩ := by
  have hpresents := (EdgeOriginGuard.canActivate_eq_ok hsecret).mp hadmits
  exact resolveClientTracker_of_presents hsecret hpresents hport haddress

/-- With a secret, the key of a request that the guard admits is the address that the edge has
recorded, and nothing else that the caller sends plays a part. A request without the secret cannot
name its address. -/
theorem resolveClientTracker_not_chosen :
    (∀ request address port,
      EdgeOriginGuard.canActivate (some secret) request.headers = .ok true →
      ':' ∉ port.toList →
      request.headers viewerAddressHeader = some (.text (address ++ ":" ++ port)) →
        resolveClientTracker request (some secret) = .ok ⟨address, false⟩) ∧
    (∀ request request' address address' port port',
      EdgeOriginGuard.canActivate (some secret) request.headers = .ok true →
      EdgeOriginGuard.canActivate (some secret) request'.headers = .ok true →
      ':' ∉ port.toList → ':' ∉ port'.toList →
      request.headers viewerAddressHeader = some (.text (address ++ ":" ++ port)) →
      request'.headers viewerAddressHeader = some (.text (address' ++ ":" ++ port')) →
        (resolveClientTracker request (some secret) =
          resolveClientTracker request' (some secret) ↔ address = address')) ∧
    ∀ request request' : TrackableRequest,
      (∀ presented, request.headers edgeSecretHeader = some (.text presented) →
        presented.toUTF8 ≠ secret.toUTF8) →
      request'.ip = request.ip →
      (∀ name, name ≠ viewerAddressHeader → request'.headers name = request.headers name) →
        resolveClientTracker request' (some secret) =
          resolveClientTracker request (some secret) := by
  refine ⟨fun request address port => resolveClientTracker_of_admitted hsecret, ?_, ?_⟩
  · intro request request' address address' port port' hadmits hadmits' hport hport' h h'
    have hkey := resolveClientTracker_of_admitted hsecret hadmits hport h
    have hkey' := resolveClientTracker_of_admitted hsecret hadmits' hport' h'
    rw [hkey, hkey']
    simp
  · intro request request' hpresented hip hheaders
    have hwithout : ¬ Presents EdgeOriginGuard.edgeSecretHeader secret request.headers := by
      rintro ⟨presented, hheader, hbytes⟩
      exact hpresented presented hheader hbytes
    have hsame := presents_congr secret (hheaders edgeSecretHeader (by decide))
    have hwithout' : ¬ Presents EdgeOriginGuard.edgeSecretHeader secret request'.headers :=
      fun h => hwithout (hsame.mp h)
    rw [resolveClientTracker_of_not_presents hsecret hwithout,
      resolveClientTracker_of_not_presents hsecret hwithout', hip]

end Resolve

/-- A request through the edge from an address full of colons, that claims another one. -/
def ipv6Request : TrackableRequest where
  ip := "1.2.3.4"
  headers := fun name =>
    if name = "x-origin-verify" then some (.text "a-long-enough-shared-secret")
    else if name = "cloudfront-viewer-address" then
      some (.text ("2001:db8:85a3::8a2e:370:7334" ++ ":" ++ "53124"))
    else none

/-- Its key is the address that the edge has recorded. -/
theorem resolveClientTracker_not_chosen_ipv6 :
    resolveClientTracker ipv6Request (some "a-long-enough-shared-secret") =
      .ok ⟨"2001:db8:85a3::8a2e:370:7334", false⟩ := by
  have hsecret : "a-long-enough-shared-secret" ≠ "" := by decide
  exact (resolveClientTracker_not_chosen hsecret).1 ipv6Request "2001:db8:85a3::8a2e:370:7334"
    "53124" ((EdgeOriginGuard.canActivate_eq_ok hsecret).mpr ⟨_, rfl, rfl⟩) (by decide) rfl

/-- The comparison of secrets never throws. -/
theorem exists_resolveClientTracker (request : TrackableRequest) (secret : Option String) :
    ∃ tracked, resolveClientTracker request secret = .ok tracked := by
  cases htruthy : JsString.truthy secret with
  | none => exact ⟨⟨request.ip, false⟩, by simp only [resolveClientTracker, htruthy]⟩
  | some value =>
    by_cases hpresents : Presents EdgeOriginGuard.edgeSecretHeader value request.headers
    · simp only [resolveClientTracker, htruthy, cameThroughEdge_of_presents hpresents, bind,
        Except.bind, Bool.not_true, Bool.false_eq_true, if_false]
      repeat' split
      all_goals exact ⟨_, rfl⟩
    · exact ⟨⟨request.ip, false⟩, by
        simp only [resolveClientTracker, htruthy, cameThroughEdge_of_not_presents hpresents, bind,
          Except.bind, Bool.not_false, if_true]⟩

/-- Calls of the tracker, one after the other: their keys, and what has been logged. -/
def trackAll (secret : Option String) :
    Bool → List TrackableRequest → Except EdgeFailure (List String × List String)
  | _, [] => .ok ([], [])
  | warned, request :: requests => do
    let (key, warned, logged) ← clientTracker secret warned request
    let (keys, later) ← trackAll secret warned requests
    .ok (key :: keys, logged ++ later)

/-- The tracker warns once at most, over all the requests that it sees. -/
theorem length_logged_le (secret : Option String) (warned : Bool)
    (requests : List TrackableRequest) : ∃ keys logged,
      trackAll secret warned requests = .ok (keys, logged) ∧
        logged.length ≤ if warned then 0 else 1 := by
  induction requests generalizing warned with
  | nil => exact ⟨[], [], rfl, Nat.zero_le _⟩
  | cons request requests ih =>
    obtain ⟨tracked, htracked⟩ := exists_resolveClientTracker request secret
    by_cases hwarn : (tracked.viewerAddressMissing && !warned) = true
    · obtain ⟨keys, logged, hrun, hlogged⟩ := ih true
      refine ⟨tracked.key :: keys, viewerAddressWarning :: logged, ?_, ?_⟩
      · simp only [trackAll, clientTracker, htracked, bind, Except.bind, hwarn, if_true, hrun]
        rfl
      · simp only [Bool.and_eq_true, Bool.not_eq_true'] at hwarn
        simp only [hwarn.2, List.length_cons, Bool.false_eq_true, if_false]
        exact Nat.succ_le_succ hlogged
    · obtain ⟨keys, logged, hrun, hlogged⟩ := ih warned
      refine ⟨tracked.key :: keys, logged, ?_, hlogged⟩
      simp only [trackAll, clientTracker, htracked, bind, Except.bind, if_neg hwarn, hrun]
      rfl

end VertexApi.Throttler
