import VertexApi.App.Credentials

/-!
# Which objects are deleted

The bucket is asked to delete an object for two reasons. A user who edits the own profile loses
the avatar that the row had, and a post that an admin edits or removes loses the media that the
row referred to and that the edit has dropped. In either case a row has referred to the object
since the request was started.
-/

namespace VertexApi.App

open About Auth Comments Posts Projects Topics Uploads Users

variable {τ : Type}

/-- Why a request has an object deleted, over what was met since it was started. -/
inductive Discards (config : SiteConfig τ) (R : Rely Store) (s : Store) (request : Request τ)
    (t : Store) (key : String) : Prop where
  | avatar {m : Store} {body : UpdateProfileInput} {payload : JwtPayload} {existing : User}
    (hroute : request.route = .updateSelf body)
    (hverified : Verified config R s request t payload) (hm : R.grows s m) (ht : R.grows m t)
    (hexisting : existing ∈ m.users) (hself : existing.id = payload.sub)
    (hkey : extractBucketKeyFromUrl config.publicUrlPrefix existing.avatarUrl = some key)
  | edit {m n : Store} {id : String} {body : PostInput} {updatePostDto : UpdatePostDto}
    {payload : JwtPayload} {existing old : Post} {now : Nat}
    (hroute : request.route = .updatePost id body)
    (hbody : updatePostSchema config.parseUrl config.isUuid body = some updatePostDto)
    (hverified : Verified config R s request t payload) (hrole : payload.role = .admin)
    (hm : R.grows s m) (hn : R.grows m n) (ht : R.grows n t)
    (hexisting : existing ∈ m.posts) (hid : existing.id = id)
    (hold : old ∈ n.posts) (hsame : old.id = id)
    (hkey : key ∈ collectMediaKeys config.publicUrlPrefix existing)
    (hdropped : key ∉ collectMediaKeys config.publicUrlPrefix
      (postEdit existing updatePostDto now old))
  | removal {m : Store} {id : String} {payload : JwtPayload} {deleted : Post}
    (hroute : request.route = .removePost id)
    (hverified : Verified config R s request t payload) (hrole : payload.role = .admin)
    (hm : R.grows s m) (ht : R.grows m t) (hdeleted : deleted ∈ m.posts) (hid : deleted.id = id)
    (hkey : key ∈ collectMediaKeys config.publicUrlPrefix deleted)

section Steps

variable {config : SiteConfig τ} {R : Rely Store} {s t : Store} {request : Request τ}
  {keys : List String} {key : String}

/-- A key that was dropped was there, and is there no more. -/
theorem of_mem_removedMediaKeys {publicUrlPrefix : String} {existing updated : Post}
    (h : key ∈ removedMediaKeys publicUrlPrefix existing updated) :
    key ∈ collectMediaKeys publicUrlPrefix existing ∧
      key ∉ collectMediaKeys publicUrlPrefix updated := by
  obtain ⟨hkey, hdropped⟩ := List.mem_filter.mp h
  rw [Bool.not_eq_true', List.contains_eq_mem, decide_eq_false_iff_not] at hdropped
  exact ⟨hkey, hdropped⟩

/-- A request that hands over keys has a reason for each. -/
theorem discards_of_permits
    (h : RequestPermits config R s request t (.store (.handOver (.deletedFiles keys))))
    (hkey : key ∈ keys) : Discards config R s request t key := by
  obtain ⟨m, guarded, call, hentered, ht, hpermits⟩ := h
  have hhandles := handler_eq_ok hentered.handler
  have hm := hentered.grows
  generalize hroute : request.route = route at hhandles
  cases hpermits with
  | service hcall =>
    cases hcall with
    | oldAvatar hn hnt hexisting hold =>
      cases hhandles with
      | updateSelf _ huser =>
        obtain rfl := List.mem_singleton.mp hkey
        exact .avatar hroute (hentered.verified huser ht) (R.trans hm hn) hnt
          (List.mem_of_find?_eq_some hexisting) (id_of_findUserById hexisting) hold
    | removedMedia hn ho hot hexisting hold =>
      cases hhandles with
      | updatePost hbody =>
        have haccess : request.route.access = .admin := by rw [hroute]; rfl
        obtain ⟨payload, huser⟩ := hentered.exists_user (Or.inr haccess)
        obtain ⟨hthere, hdropped⟩ := of_mem_removedMediaKeys hkey
        exact .edit hroute hbody (hentered.verified huser ht) (hentered.role haccess huser)
          (R.trans hm hn) ho hot (List.mem_of_find?_eq_some hexisting)
          (id_of_findPostById hexisting) (List.mem_of_find?_eq_some hold)
          (id_of_findPostById hold) hthere hdropped
    | postMedia hn hnt hdeleted =>
      cases hhandles
      have haccess : request.route.access = .admin := by rw [hroute]; rfl
      obtain ⟨payload, huser⟩ := hentered.exists_user (Or.inr haccess)
      exact .removal hroute (hentered.verified huser ht) (hentered.role haccess huser)
        (R.trans hm hn) hnt (List.mem_of_find?_eq_some hdeleted) (id_of_findPostById hdeleted) hkey
  | startLogin _ _ _ hvalidate | callback _ _ _ hvalidate => cases hvalidate

end Steps

section Runs

variable {config : SiteConfig τ} {d : Site}
  {labels : List (CallLabel (Request τ) Failure Nat)} {label : CallLabel (Request τ) Failure Nat}
  {before after : CallState Site Failure (SiteAnswer τ)} {keys : List String} {key : String}

/-- An object is deleted because its owner's avatar was replaced, or because an admin has edited
or removed a post that referred to it. -/
theorem objects_deleted_by (hrun : (site config).exec (.initial d) labels = some before)
    (hstep : (site config).step before label = some after)
    (hdeleted : after.state.store.outbound =
      before.state.store.outbound ++ [.deletedFiles keys]) (hkey : key ∈ keys) :
    ∃ id request started, label = .step id ∧ Started (site config) d labels id request started ∧
      Discards config (storesSince config d labels id) started.store request before.state.store
        key := by
  obtain ⟨id, request, started, hlabel, hstarted, hpermits⟩ := handed_over_by hrun hstep hdeleted
  exact ⟨id, request, started, hlabel, hstarted, discards_of_permits hpermits hkey⟩

end Runs

/-- The site with a post of the admin that has a cover. -/
def coveredSite : Site :=
  { ownersSite with store := { ownersSite.store with
      posts := [newPost ⟨{ bareFields with coverUrl := some "cover" }, "t", "s", "c"⟩ "owner"
        "post" none 0] } }

/-- The admin removes the post, up to the request to the bucket. -/
def removesCovered : List (CallLabel (Request (Option (JwtPayload × Nat))) Failure Nat) :=
  behindGuard (.removePost "post") owner ++ [.step 0]

/-- The site in front of the request to the bucket. -/
def coverDropped : CallState Site Failure (SiteAnswer (Option (JwtPayload × Nat))) :=
  (site bytesSite).run (.initial coveredSite) removesCovered (by decide +kernel)

/-- The site behind it. -/
def coverDeleted : CallState Site Failure (SiteAnswer (Option (JwtPayload × Nat))) :=
  (site bytesSite).run (.initial coveredSite) (removesCovered ++ [.step 0]) (by decide +kernel)

/-- The cover is deleted, since the admin has removed its post. -/
theorem objects_deleted_by_owner : ∃ id request started,
    (.step 0 : CallLabel (Request (Option (JwtPayload × Nat))) Failure Nat) = .step id ∧
      Started (site bytesSite) coveredSite removesCovered id request started ∧
      Discards bytesSite (storesSince bytesSite coveredSite removesCovered id) started.store
        request coverDropped.state.store "cover" :=
  have hstep : (site bytesSite).step coverDropped (.step 0) = some coverDeleted :=
    (site bytesSite).step_run ..
  have hdeleted : coverDeleted.state.store.outbound =
      coverDropped.state.store.outbound ++ [.deletedFiles ["cover"]] := by decide +kernel
  objects_deleted_by ((site bytesSite).exec_run ..) hstep hdeleted (List.mem_cons_self ..)

end VertexApi.App
