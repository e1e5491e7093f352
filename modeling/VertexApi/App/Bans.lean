import VertexApi.App.AccountWrites
import VertexApi.App.CommentWrites

/-!
# A ban holds

A ban lasts until an admin lifts it or removes the account. As long as it lasts, no request with
a token of the banned user gets past the guard of a session: it changes nothing and is not
answered. The guard looks once, so that only requests which are started after the ban are sure
to meet it.
-/

namespace VertexApi.App

open Auth Users

variable {τ : Type} {config : SiteConfig τ} {s t u : Store} {request : Request τ}
  {userId : String}

/-- A user is banned. -/
def IsOut (userId : String) (s : Store) : Prop :=
  ∃ row, findUserById s.users userId = some row ∧ row.isBanned = true

/-- The token of a request is of a user. -/
def BearsSubject (config : SiteConfig τ) (userId : String) (request : Request τ) : Prop :=
  ∃ payload issuedAt, request.accessToken = some (config.jwt.sign payload issuedAt) ∧
    payload.sub = userId

/-- A request asks to lift the ban of a user or to remove the account, with a token of another
user that claims the role of an admin. -/
structure LiftsBan (config : SiteConfig τ) (userId : String) (request : Request τ) : Prop where
  route : request.route = .setBanned userId false ∨ request.route = .removeUser userId
  token : ∃ payload issuedAt, request.accessToken = some (config.jwt.sign payload issuedAt) ∧
    payload.role = .admin ∧ payload.sub ≠ userId

/-- A request does not lift the ban of a user, and is none of that user to remove the own account,
unless the user was banned in every state that it has met. -/
structure LeavesOut (config : SiteConfig τ) (userId : String) (R : Rely Store) (s : Store)
    (request : Request τ) : Prop where
  lifts : ¬ LiftsBan config userId request
  removeSelf : request.route = .removeSelf → BearsSubject config userId request →
    ∀ m, R.grows s m → IsOut userId m

section Steps

variable {step : TableStep} {payload : JwtPayload}

/-- What a session guard lets pass bears the subject of its claims. -/
theorem bearsSubject_of_verified {R : Rely Store} (h : Verified config R s request t payload) :
    BearsSubject config payload.sub request := by
  obtain ⟨issuedAt, htoken⟩ := h.accessToken
  exact ⟨payload, issuedAt, htoken, rfl⟩

/-- A token has one subject. -/
theorem BearsSubject.unique {userId' : String} (h : BearsSubject config userId request)
    (h' : BearsSubject config userId' request) : userId = userId' := by
  obtain ⟨payload, issuedAt, htoken, rfl⟩ := h
  obtain ⟨payload', issuedAt', htoken', rfl⟩ := h'
  have hsame := Option.some.inj (htoken.symm.trans htoken')
  exact congrArg JwtPayload.sub (config.jwt.payload_of_sign_eq hsame)

/-- An admin who asks for it lifts the ban of another user. -/
theorem liftsBan_of_verified {R : Rely Store} (h : Verified config R s request t payload)
    (hroute : request.route = .setBanned userId false ∨ request.route = .removeUser userId)
    (hrole : payload.role = .admin) (hother : payload.sub ≠ userId) :
    LiftsBan config userId request := by
  obtain ⟨issuedAt, htoken⟩ := h.accessToken
  exact ⟨hroute, payload, issuedAt, htoken, hrole, hother⟩

variable {R : Rely Store}

/-- The guard of a session does not let a user pass who is banned in every state that it meets. -/
theorem not_verified_of_isOut (hs : ∀ m, R.grows s m → IsOut payload.sub m) :
    ¬ Verified config R s request t payload := by
  intro hverified
  obtain ⟨m, hm, -, hunbanned⟩ := hverified.unbanned
  obtain ⟨row, hrow, hbanned⟩ := hs m hm
  rw [hunbanned row hrow] at hbanned
  cases hbanned

/-- Requests keep a ban. -/
theorem IsOut.permitted (ht : IsOut userId t) (hleaves : LeavesOut config userId R s request)
    (h : RequestPermits config R s request t (.store step)) (hmoves : TableMoves t step u) :
    IsOut userId u := by
  obtain ⟨old, hold, hbanned⟩ := ht
  have haccount := accountMoves hmoves userId
  rw [hold] at haccount
  generalize hnew : findUserById u.users userId = new at haccount
  cases haccount with
  | stays => exact ⟨old, hnew, hbanned⟩
  | edited => exact ⟨_, hnew, (UserEdit.apply_same _ old).isBanned.trans hbanned⟩
  | @banned isBanned =>
    refine ⟨_, hnew, ?_⟩
    cases isBanned with
    | true => rfl
    | false =>
      obtain ⟨hroute, payload, hverified, hrole, hother⟩ := route_of_setBanned h
      have hlifts := liftsBan_of_verified hverified (Or.inl hroute) hrole hother
      exact absurd hlifts hleaves.lifts
  | removed =>
    obtain ⟨payload, hverified, ⟨hroute, rfl⟩ | ⟨hroute, hrole, hother⟩⟩ :=
      route_of_removeAccount h
    · have hs := hleaves.removeSelf hroute (bearsSubject_of_verified hverified)
      exact absurd hverified (not_verified_of_isOut hs)
    · have hlifts := liftsBan_of_verified hverified (Or.inr hroute) hrole hother
      exact absurd hlifts hleaves.lifts

end Steps

section Runs

variable {d : Site} {labels later : List (CallLabel (Request τ) Failure Nat)}
  {label : CallLabel (Request τ) Failure Nat}
  {banned before after : CallState Site Failure (SiteAnswer τ)}

end Runs

end VertexApi.App
