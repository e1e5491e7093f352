import VertexApi.App.Handlers
import VertexApi.App.TableMoves

/-!
# Who writes to an account

The row of a user is written by a request with a token of that user, by an admin who moderates
another user, by the sign-in that creates the row, and by callbacks of a provider: those whose
profile has matched the row, and those whose cookie links to it. Apart from the admin's ban,
none of them writes the address, the role, the password hash or the ban.
-/

namespace VertexApi.App

open About Auth Comments Posts Projects Topics Users

variable {τ : Type}

/-- A visit has exchanged its code for a profile, and started with the state of the attempt. -/
structure BringsIdentity (config : SiteConfig τ) (request : Request τ) (visit : CallbackVisit)
    (identity : ProviderIdentity) : Prop where
  route : request.route = .startLogin visit ∨ request.route = .callback visit
  carriesCode : visit.carriesCode
  stateMatches : visit.StateMatches config.toOAuthRoutesConfig
  exchanged : ∃ profile, visit.exchange = .ok profile ∧
    identityOf (profileOf profile) = .ok identity

/-- A request signs up a user under an id. -/
inductive SignsUp (config : SiteConfig τ) (request : Request τ) (userId : String) : Prop where
  | register {body : RegisterDto} (hroute : request.route = .register body userId)
  | verifyOtp {email code passwordHash : String}
    (hroute : request.route = .verifyOtp email code userId passwordHash)
  | visit {visit : CallbackVisit} {identity : ProviderIdentity}
    (hvisit : BringsIdentity config request visit identity) (hid : visit.userId = userId)

section Rows

variable {users : List User} {userId id : String}

/-- A lookup by another id does not see an update. -/
theorem findUserById_updateWhere_of_ne {f : User → User} (hf : ∀ row, (f row).id = row.id)
    (hne : userId ≠ id) :
    findUserById (updateWhere User.id id f users) userId = findUserById users userId := by
  have hfound : (updateWhere User.id id f users).find? (fun user => user.id == userId) =
      (users.find? fun user => user.id == userId).map fun row =>
        if row.id = id then f row else row := find?_updateWhere fun row => by rw [hf row]
  rw [findUserById, hfound, ← findUserById]
  cases hrow : findUserById users userId with
  | none => rfl
  | some row =>
    have hid : row.id ≠ id := fun he => hne ((id_of_findUserById hrow).symm.trans he)
    simp only [Option.map_some, if_neg hid]

/-- A lookup by the id sees it. -/
theorem findUserById_updateWhere_self {f : User → User} (hf : ∀ row, (f row).id = row.id) :
    findUserById (updateWhere User.id id f users) id = (findUserById users id).map f := by
  have hfound : (updateWhere User.id id f users).find? (fun user => user.id == id) =
      (users.find? fun user => user.id == id).map fun row =>
        if row.id = id then f row else row := find?_updateWhere fun row => by rw [hf row]
  rw [findUserById, hfound, ← findUserById]
  cases hrow : findUserById users id with
  | none => rfl
  | some row => simp only [Option.map_some, id_of_findUserById hrow, if_true]

/-- A lookup of a new row finds it where none was found before. -/
theorem findUserById_append {row : User} :
    findUserById (users ++ [row]) userId = (findUserById users userId).or
      (if row.id = userId then some row else none) := by
  rw [findUserById, List.find?_append, List.find?_singleton]
  simp only [findUserById, beq_iff_eq]

/-- A lookup by another id does not see a delete. -/
theorem findUserById_filter_of_ne (hne : userId ≠ id) :
    findUserById (users.filter fun row => row.id != id) userId = findUserById users userId := by
  rw [findUserById, List.find?_filter, findUserById]
  congr 1
  funext row
  by_cases hrow : row.id = userId
  · have hother : row.id ≠ id := hrow ▸ hne
    simp only [bne_iff_ne.mpr hother, true_and, Bool.decide_eq_true]
  · simp only [beq_eq_false_iff_ne.mpr hrow, Bool.false_eq_true, and_false, decide_false]

/-- A lookup by the id finds nothing after it. -/
theorem findUserById_filter_self :
    findUserById (users.filter fun row => row.id != id) id = none :=
  findUserById_eq_none.mpr fun _ hrow => bne_iff_ne.mp (List.mem_filter.mp hrow).2

end Rows

/-- What a step does to the row of a user. -/
inductive AccountMoves (userId : String) : TableStep → Option User → Option User → Prop where
  | stays {step : TableStep} {row : Option User} : AccountMoves userId step row row
  | created {row : User} (hid : row.id = userId) :
    AccountMoves userId (.insertUser row) none (some row)
  | edited {edit : UserEdit} {old : User} :
    AccountMoves userId (.updateUser userId edit) (some old) (some (edit.apply old))
  | banned {isBanned : Bool} {old : User} :
    AccountMoves userId (.setBanned userId isBanned) (some old) (some { old with isBanned })
  | removed {old : User} : AccountMoves userId (.removeAccount userId) (some old) none

section Steps

variable {s t u : Store} {step : TableStep}

/-- A step does one of these to each row. -/
theorem accountMoves (h : TableMoves s step t) (userId : String) :
    AccountMoves userId step (findUserById s.users userId) (findUserById t.users userId) := by
  cases h with
  | @insertUser row =>
    rw [Store.withUsers_users, findUserById_append]
    cases hfound : findUserById s.users userId with
    | some user => exact .stays
    | none =>
      by_cases hid : row.id = userId
      · rw [if_pos hid]
        exact .created hid
      · rw [if_neg hid]
        exact .stays
  | @updateUser id edit old hold =>
    have hid : ∀ row, (edit.apply row).id = row.id := fun row => (edit.apply_same row).id
    by_cases hsame : userId = id
    · subst hsame
      rw [Store.withUsers_users, findUserById_updateWhere_self hid, hold]
      exact .edited
    · rw [Store.withUsers_users, findUserById_updateWhere_of_ne hid hsame]
      exact .stays
  | @setBanned id isBanned row hrow =>
    have hid : ∀ row : User, ({ row with isBanned } : User).id = row.id := fun _ => rfl
    by_cases hsame : userId = id
    · subst hsame
      rw [Store.withUsers_users, findUserById_updateWhere_self hid, hrow]
      exact .banned
    · rw [Store.withUsers_users, findUserById_updateWhere_of_ne hid hsame]
      exact .stays
  | @removeAccount id row hposts hrow =>
    by_cases hsame : userId = id
    · subst hsame
      rw [hrow, Store.withoutAccount, findUserById_filter_self]
      exact .removed
    · rw [Store.withoutAccount, findUserById_filter_of_ne hsame]
      exact .stays
  | _ => exact .stays

variable {config : SiteConfig τ} {R : Rely Store} {request : Request τ} {userId : String}

/-- A request that inserts a row signs up its user. -/
theorem signsUp_of_permits {row : User}
    (h : RequestPermits config R s request t (.store (.insertUser row))) :
    SignsUp config request row.id := by
  obtain ⟨m, guarded, call, hentered, -, hpermits⟩ := h
  have hhandles := handler_eq_ok hentered.handler
  generalize hroute : request.route = route at hhandles
  have hvisit {visit : CallbackVisit} {profile : ProviderProfile visit.provider}
      (hroute : request.route = .startLogin visit ∨ request.route = .callback visit)
      (hcode : visit.carriesCode) (hstate : visit.StateMatches config.toOAuthRoutesConfig)
      (hexchange : visit.exchange = .ok profile)
      (hvalidate : Permits config.api R m (.validate (profileOf profile) visit.linkCookie
        visit.userId visit.passwordHash visit.pick) t (.insertUser row)) :
      SignsUp config request row.id := by
    cases hvalidate with
    | @firstLogin _ _ _ _ _ _ identity hidentity =>
      refine .visit ⟨hroute, hcode, hstate, profile, hexchange, hidentity⟩ ?_
      simp only [newProviderUser, withLinkedId_id]
  cases hpermits with
  | service hcall =>
    cases hcall with
    | register =>
      cases hhandles with
      | register => exact .register hroute
    | firstSignIn =>
      cases hhandles with
      | verifyOtp => exact .verifyOtp hroute
    | firstLogin => cases hhandles
  | startLogin hcode hstate hexchange hvalidate =>
    cases hhandles
    exact hvisit (Or.inl hroute) hcode hstate hexchange hvalidate
  | callback hcode hstate hexchange hvalidate =>
    cases hhandles
    exact hvisit (Or.inr hroute) hcode hstate hexchange hvalidate

end Steps

/-- What every write to a row keeps; a ban writes the ban. -/
theorem AccountMoves.kept {userId : String} {step : TableStep} {old new : User}
    (h : AccountMoves userId step (some old) (some new)) : new.email = old.email ∧
      new.role = old.role ∧ new.passwordHash = old.passwordHash ∧
      new.createdAt = old.createdAt ∧
      (new.isBanned = old.isBanned ∨ step = .setBanned userId new.isBanned) := by
  cases h with
  | stays => exact ⟨rfl, rfl, rfl, rfl, Or.inl rfl⟩
  | @edited edit =>
    have hsame := edit.apply_same old
    exact ⟨hsame.email, hsame.role, hsame.passwordHash, hsame.createdAt, Or.inl hsame.isBanned⟩
  | banned => exact ⟨rfl, rfl, rfl, rfl, Or.inr rfl⟩

/-- A ban is set by an admin other than its user, who asks for it. -/
theorem route_of_setBanned {config : SiteConfig τ} {R : Rely Store} {s t : Store}
    {request : Request τ} {userId : String} {isBanned : Bool}
    (h : RequestPermits config R s request t (.store (.setBanned userId isBanned))) :
    request.route = .setBanned userId isBanned ∧ ∃ payload,
      Verified config R s request t payload ∧ payload.role = .admin ∧ payload.sub ≠ userId := by
  obtain ⟨m, guarded, call, hentered, ht, hpermits⟩ := h
  have hhandles := handler_eq_ok hentered.handler
  have hadmin (haccess : request.route.access = .admin) {payload : JwtPayload}
      (huser : guarded.user = some payload) := hentered.role haccess huser
  generalize request.route = route at hhandles hadmin
  cases hpermits with
  | service hcall =>
    cases hcall with
    | setBanned hother =>
      cases hhandles with
      | setBanned huser =>
        exact ⟨rfl, _, hentered.verified huser ht, hadmin rfl huser, hother.symm⟩
  | startLogin _ _ _ hvalidate | callback _ _ _ hvalidate => cases hvalidate

section Runs

variable {config : SiteConfig τ} {d : Site}
  {labels : List (CallLabel (Request τ) Failure Nat)} {label : CallLabel (Request τ) Failure Nat}
  {before after : CallState Site Failure (SiteAnswer τ)}

end Runs

end VertexApi.App
