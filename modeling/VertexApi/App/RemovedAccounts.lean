import VertexApi.App.Bans
import VertexApi.App.Integrity

/-!
# Accounts that have gone

The token of a user outlives the account. The guard of a session lets it pass, since it finds no
banned row. As long as nobody signs up under the same id, such a request has nothing left to act
on: the account, the comments and the posts of the user have gone, and a comment needs a row of
its author. Only a token that claims the role of an admin still does something.
-/

namespace VertexApi.App

open Auth Comments Users

variable {τ : Type} {config : SiteConfig τ} {s t u : Store} {request : Request τ}
  {userId : String}

/-- The account of a user has gone. -/
structure IsGone (userId : String) (s : Store) : Prop where
  row : findUserById s.users userId = none
  comments : ∀ comment ∈ s.comments, comment.authorId ≠ userId

/-- The claims in the token of a request, and a route behind the guard of a session alone. -/
structure ActsAs (config : SiteConfig τ) (payload : JwtPayload) (request : Request τ) : Prop where
  access : request.route.access = .session
  token : ∃ issuedAt, request.accessToken = some (config.jwt.sign payload issuedAt)

/-- Where the references hold, an account without a row has gone. -/
theorem isGone_of_references (h : s.ReferencesHold) (hrow : findUserById s.users userId = none) :
    IsGone userId s where
  row := hrow
  comments comment hcomment he := by
    obtain ⟨user, huser, hid⟩ := List.mem_map.mp (h.comments_authorId comment hcomment)
    exact findUserById_eq_none.mp hrow user huser (hid.trans he)

section Steps

variable {step : TableStep}

/-- Requests that draw other ids leave a gone account gone. -/
theorem IsGone.permitted (ht : IsGone userId t) (hother : ¬ SignsUp config request userId)
    (h : RequestPermits config (.keeps (IsGone userId)) s request t (.store step))
    (hmoves : TableMoves t step u) : IsGone userId u where
  row := by
    have haccount := accountMoves hmoves userId
    rw [ht.row] at haccount
    generalize hnew : findUserById u.users userId = new at haccount
    cases haccount with
    | stays => rfl
    | created hid => exact absurd (hid ▸ signsUp_of_permits h) hother
  comments comment hcomment he := by
    by_cases hold : comment ∈ t.comments
    · exact ht.comments comment hold he
    · have hstep := step_of_new_comment hmoves hcomment hold
      subst hstep
      cases hmoves with
      | insertComment _ hauthor =>
        rw [he, ht.row] at hauthor
        cases hauthor

/-- A request that acts as a user whose account has gone makes no step, unless it claims the role
of an admin. -/
theorem not_permitted_of_isGone {siteStep : SiteStep} {payload : JwtPayload} {d e : Site}
    (hs : IsGone payload.sub s) (hacts : ActsAs config payload request)
    (hrole : payload.role ≠ .admin)
    (h : RequestPermits config (.keeps (IsGone payload.sub)) s request d.store siteStep)
    (hnext : sitePerformed d siteStep = some e) : False := by
  have hmoves {step : TableStep} (he : siteStep = .store step) :
      ∃ later, TableMoves d.store step later := by
    subst he
    obtain ⟨later, hlater, -⟩ := Option.map_eq_some_iff.mp hnext
    exact ⟨later, performed_moves hlater⟩
  obtain ⟨m, guarded, call, hentered, ht, hpermits⟩ := h
  have hgone : IsGone payload.sub d.store := ht (hentered.grows hs)
  -- The guard has left the claims of the token in the request.
  obtain ⟨user, huser⟩ := hentered.exists_user (Or.inl hacts.access)
  obtain ⟨issuedAt, htoken⟩ := hacts.token
  obtain ⟨issuedAt', htoken'⟩ := (hentered.verified huser ht).accessToken
  obtain rfl : payload = user :=
    config.jwt.payload_of_sign_eq (Option.some.inj (htoken.symm.trans htoken'))
  have hhandles := handler_eq_ok hentered.handler
  have haccess := hacts.access
  generalize request.route = route at hhandles haccess
  cases hhandles with
  | updateSelf _ hself =>
    obtain rfl := Option.some.inj (huser.symm.trans hself)
    cases hpermits with
    | service hcall =>
      cases hcall with
      | updateSelf hn _ _ hexisting | oldAvatar hn _ hexisting _ =>
        have hthere := (hn (hentered.grows hs)).row
        rw [hthere] at hexisting
        cases hexisting
  | removeSelf hself =>
    obtain rfl := Option.some.inj (huser.symm.trans hself)
    cases hpermits with
    | service hcall =>
      cases hcall
      obtain ⟨later, hlater⟩ := hmoves rfl
      cases hlater with
      | removeAccount _ hrow =>
        rw [hgone.row] at hrow
        cases hrow
  | createComment _ hself =>
    obtain rfl := Option.some.inj (huser.symm.trans hself)
    cases hpermits with
    | service hcall =>
      cases hcall
      obtain ⟨later, hlater⟩ := hmoves rfl
      cases hlater with
      | insertComment _ hauthor =>
        have hthere : findUserById d.store.users payload.sub = some _ := hauthor
        rw [hgone.row] at hthere
        cases hthere
  | removeComment hself =>
    obtain rfl := Option.some.inj (huser.symm.trans hself)
    cases hpermits with
    | service hcall =>
      cases hcall with
      | removeComment hn _ hcomment hallowed =>
        rcases hallowed with hauthor | hadmin
        · exact (hn (hentered.grows hs)).comments _ (List.mem_of_find?_eq_some hcomment) hauthor
        · exact hrole hadmin
  | startLink | avatarPresignedUrl | profile => cases hpermits
  | _ => cases haccess

end Steps

section Runs

variable {d : Site} {labels later : List (CallLabel (Request τ) Failure Nat)}
  {removed before after : CallState Site Failure (SiteAnswer τ)} {payload : JwtPayload} {id : Nat}

/-- Once the row of a user has gone, and while nobody signs up under the same id, it does not come
back, and no request with a token of the user that is started from then on to a session's route
changes anything, unless the token claims the role of an admin. -/
theorem removed_accounts_do_nothing (hd : d.store.ReferencesHold)
    (hC : (site config).Meets
      (StartsOnly fun _ request => ¬ SignsUp config request payload.sub) (.initial d)
      (labels ++ later))
    (hremoved : (site config).exec (.initial d) labels = some removed)
    (hrow : findUserById removed.state.store.users payload.sub = none)
    (hrun : (site config).exec (.initial d) (labels ++ later) = some before) :
    findUserById before.state.store.users payload.sub = none ∧
      (payload.role ≠ .admin → ∀ id request, .start id request ∈ later →
        ActsAs config payload request →
        ∀ after, (site config).step before (.step id) = some after →
          after.state = before.state) := by
  have hgone : IsGone payload.sub removed.state.store := by
    refine isGone_of_references ?_ hrow
    exact site_invariant (P := fun e => e.store.ReferencesHold) hd
      (fun h hstep => referencesHold_of_sitePerformed h hstep) hremoved
  have hconduct : SiteConduct config (.keeps (IsGone payload.sub))
      (fun _ request => ¬ SignsUp config request payload.sub) d :=
    site_conduct (fun _ hother _ hpermits hperformed ht =>
      ht.permitted hother hpermits (performed_moves hperformed)) fun _ _ _ ht => { ht with }
  refine ⟨(hconduct.grows_of_exec hC hremoved hrun hgone).row, ?_⟩
  intro hrole id request hmem hacts after hstep
  obtain ⟨started, hstarted, hgrown⟩ := hconduct.started_after hC hremoved hrun hmem
  rcases hconduct.attributed_to hC hrun hstarted hstep with
    hsame | ⟨-, hsame | ⟨step, hpermits, hnext⟩⟩
  · exact hsame.symm
  · exact hsame.symm
  · exact (not_permitted_of_isGone (hgrown hgone) hacts hrole hpermits hnext).elim

end Runs

/-- The admin removes the member. -/
def removesMember : List (CallLabel (Request (Option (JwtPayload × Nat))) Failure Nat) :=
  behindGuard (.removeUser "member") owner ++ [.step 0]

/-- The site without the member, and without the comment and the code of the member. -/
def memberRemoved : CallState Site Failure (SiteAnswer (Option (JwtPayload × Nat))) :=
  (site bytesSite).run (.initial fullSite) removesMember (by decide +kernel)

/-- The member asks to write a comment, up to its insert. -/
def asksGoneComment : List (CallLabel (Request (Option (JwtPayload × Nat))) Failure Nat) :=
  [.start 1 ((Route.createComment "post" ⟨"Back"⟩ "late").askedBy member), .step 1, .step 1,
    .step 1]

/-- The site in front of the insert. -/
def goneCommentAsked : CallState Site Failure (SiteAnswer (Option (JwtPayload × Nat))) :=
  (site bytesSite).run (.initial fullSite) (removesMember ++ asksGoneComment) (by decide +kernel)

/-- The account of the member stays gone, and the token of the member changes nothing: it gets as
far as the insert, which needs a row of the author. -/
theorem removed_member_does_nothing :
    ((site bytesSite).step goneCommentAsked (.step 1)).isSome = true ∧
    findUserById goneCommentAsked.state.store.users "member" = none ∧
      ((toJwtPayload member).role ≠ .admin → ∀ id request, .start id request ∈ asksGoneComment →
        ActsAs bytesSite (toJwtPayload member) request →
        ∀ after, (site bytesSite).step goneCommentAsked (.step id) = some after →
          after.state = goneCommentAsked.state) := by
  have hC : (site bytesSite).Meets
      (StartsOnly fun _ request => ¬ SignsUp bytesSite request (toJwtPayload member).sub)
      (.initial fullSite) (removesMember ++ asksGoneComment) := by
    refine meets_startsOnly fun id request hmem _ hsignsUp => ?_
    simp only [removesMember, asksGoneComment, behindGuard, List.cons_append, List.nil_append,
      List.mem_cons, CallLabel.start.injEq, reduceCtorEq, List.not_mem_nil, or_false,
      false_or] at hmem
    rcases hmem with ⟨-, rfl⟩ | ⟨-, rfl⟩ <;>
      rcases hsignsUp with ⟨hroute⟩ | ⟨hroute⟩ | ⟨⟨hroute | hroute, -⟩, -⟩ <;> cases hroute
  have hgone : findUserById memberRemoved.state.store.users "member" = none := by decide +kernel
  exact ⟨by decide +kernel, removed_accounts_do_nothing fullSite_references hC
    ((site bytesSite).exec_run ..) hgone ((site bytesSite).exec_run ..)⟩

end VertexApi.App
