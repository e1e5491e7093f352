import VertexApi.App.TableSteps

/-!
# What each operation may do to the tables

An operation that was started in one state makes steps of the tables later, in whatever state
it meets by then. The catalogue below has one entry for each statement that writes, with what
the operation has read on its way. Every operation makes the steps of its entries and no
others, whatever runs in between and whatever fails.
-/

namespace VertexApi.App

open Auth Comments Posts Uploads Users

variable {τ : Type}

/-- The steps that an operation may make in a state, when it was started in another. -/
inductive Permits (config : ApiConfig τ) (R : Rely Store) (s : Store) :
    Call τ → Store → TableStep → Prop where
  | setBanned {t : Store} {id requestingUserId : String} {isBanned : Bool}
    (hother : id ≠ requestingUserId) :
    Permits config R s (.setBanned id isBanned requestingUserId) t (.setBanned id isBanned)
  | removeUser {t : Store} {id requestingUserId : String} (hother : id ≠ requestingUserId) :
    Permits config R s (.removeUser id requestingUserId) t (.removeAccount id)
  | removeSelf {t : Store} {id : String} :
    Permits config R s (.removeSelf id) t (.removeAccount id)
  | updateSelf {m n t : Store} {id : String} {dto : UpdateProfileDto} {existing : User}
    (hm : R.grows s m) (hn : R.grows m n) (ht : R.grows n t)
    (hexisting : findUserById m.users id = some existing) :
    Permits config R s (.updateSelf id dto) t (.updateUser id (.profile dto existing n.clock))
  | oldAvatar {m t : Store} {id key : String} {dto : UpdateProfileDto} {existing : User}
    (hm : R.grows s m) (ht : R.grows m t) (hexisting : findUserById m.users id = some existing)
    (hkey : extractBucketKeyFromUrl config.publicUrlPrefix existing.avatarUrl = some key) :
    Permits config R s (.updateSelf id dto) t (.handOver (.deletedFiles [key]))
  | createComment {m t : Store} {postId authorId commentId : String}
    {createCommentDto : CreateCommentDto} {post : Post} (hm : R.grows s m) (ht : R.grows m t)
    (hpost : findPostById m.posts postId = some post) (hallowed : post.allowComments = true) :
    Permits config R s (.createComment postId authorId createCommentDto commentId) t
      (.insertComment (newComment createCommentDto postId authorId commentId t.clock))
  | removeComment {m t : Store} {commentId requestingUserId : String} {role : UserRole}
    {comment : Comment} (hm : R.grows s m) (ht : R.grows m t)
    (hcomment : findCommentById m.comments commentId = some comment)
    (hallowed : comment.authorId = requestingUserId ∨ role = .admin) :
    Permits config R s (.removeComment commentId requestingUserId role) t
      (.removeComment commentId)
  | createPost {m t : Store} {createPostDto : CreatePostDto} {authorId postId : String}
    (hm : R.grows s m) (ht : R.grows m t) :
    Permits config R s (.createPost createPostDto authorId postId) t
      (.createPost (newPost createPostDto authorId postId
        (createdPublishedAt createPostDto m.clock) t.clock) createPostDto.topicIds)
  | updatePost {m n t : Store} {id : String} {updatePostDto : UpdatePostDto} {existing : Post}
    (hm : R.grows s m) (hn : R.grows m n) (ht : R.grows n t)
    (hexisting : findPostById m.posts id = some existing) :
    Permits config R s (.updatePost id updatePostDto) t
      (.updatePost id existing updatePostDto n.clock)
  | removedMedia {m n t : Store} {id : String} {updatePostDto : UpdatePostDto}
    {existing old : Post} {now : Nat} (hm : R.grows s m) (hn : R.grows m n) (ht : R.grows n t)
    (hexisting : findPostById m.posts id = some existing)
    (hold : findPostById n.posts id = some old) :
    Permits config R s (.updatePost id updatePostDto) t (.handOver (.deletedFiles
      (removedMediaKeys config.publicUrlPrefix existing (postEdit existing updatePostDto now old))))
  | removePost {t : Store} {id : String} :
    Permits config R s (.removePost id) t (.removePost id)
  | postMedia {m t : Store} {id : String} {deleted : Post} (hm : R.grows s m) (ht : R.grows m t)
    (hdeleted : findPostById m.posts id = some deleted) :
    Permits config R s (.removePost id) t (.handOver (.deletedFiles
      (collectMediaKeys config.publicUrlPrefix deleted)))
  | register {t : Store} {registerDto : RegisterDto} {userId : String} :
    Permits config R s (.register registerDto userId) t
      (.insertUser (registeredUser config.argon2 registerDto userId t.clock))
  | sign {t : Store} {payload : JwtPayload} :
    Permits config R s (.generateAccessToken payload) t (.handOver (.signed payload))
  | mintCode {m t : Store} {userId code : String} (hm : R.grows s m) (ht : R.grows m t) :
    Permits config R s (.createOAuthExchangeCode userId code) t
      (.insertExchangeCode ⟨config.sha256 code, userId, m.clock + oauthExchangeCodeTtlMs⟩)
  | pruneCodes {m t : Store} {userId code : String} (hm : R.grows s m) (ht : R.grows m t) :
    Permits config R s (.createOAuthExchangeCode userId code) t (.pruneExchangeCodes m.clock)
  | takeCode {t : Store} {code : String} :
    Permits config R s (.exchangeOAuthCode code) t (.takeExchangeCode (config.sha256 code))
  | signExchanged {m n o t : Store} {code : String} {entry : OauthExchangeCode} {user : User}
    (hm : R.grows s m) (hn : R.grows m n) (ho : R.grows n o) (ht : R.grows o t)
    (hentry : (m.oauthExchangeCodes.find? fun row => row.codeHash == config.sha256 code) =
      some entry) (hlive : n.clock ≤ entry.expiresAt)
    (huser : findUserById o.users entry.userId = some user) :
    Permits config R s (.exchangeOAuthCode code) t (.handOver (.signed (toJwtPayload user)))
  | replaceCode {t : Store} {email rowId : String} {drawn : Fin 1000000} :
    Permits config R s (.requestCode email drawn rowId) t (.deleteOtpsOf email)
  | insertCode {m t : Store} {email rowId : String} {drawn : Fin 1000000} (hm : R.grows s m)
    (ht : R.grows m t) :
    Permits config R s (.requestCode email drawn rowId) t (.insertOtp
      (newOtp config.sha256 email (otpCode drawn) rowId (m.clock + otpTtlMs) t.clock))
  | mailCode {t : Store} {email rowId : String} {drawn : Fin 1000000} :
    Permits config R s (.requestCode email drawn rowId) t
      (.handOver (.mailed email (otpCode drawn)))
  | dropCode {m t : Store} {email code userId passwordHash : String} {entry : EmailOtp}
    (hm : R.grows s m) (ht : R.grows m t)
    (hentry : findOtpByEmail m.emailOtps email = some entry) :
    Permits config R s (.verifyCode email code userId passwordHash) t (.deleteOtp entry.id)
  | countAttempt {m n t : Store} {email code userId passwordHash : String} {entry : EmailOtp}
    (hm : R.grows s m) (hn : R.grows m n) (ht : R.grows n t)
    (hentry : findOtpByEmail m.emailOtps email = some entry)
    (hjudged : judge config.sha256 entry email code n.clock = .count entry) :
    Permits config R s (.verifyCode email code userId passwordHash) t
      (.setAttempts entry.id (entry.attempts + 1))
  | firstSignIn {m n t : Store} {email code userId passwordHash : String} {entry : EmailOtp}
    (hm : R.grows s m) (hn : R.grows m n) (ht : R.grows n t)
    (hentry : findOtpByEmail m.emailOtps email = some entry)
    (hjudged : judge config.sha256 entry email code n.clock = .consume entry) :
    Permits config R s (.verifyCode email code userId passwordHash) t
      (.insertUser (newOtpUser config.adminEmail email userId passwordHash t.clock))
  | signVerified {m n o t : Store} {email code userId passwordHash : String} {entry : EmailOtp}
    {user : User} (hm : R.grows s m) (hn : R.grows m n) (ho : R.grows n o) (ht : R.grows o t)
    (hentry : findOtpByEmail m.emailOtps email = some entry)
    (hjudged : judge config.sha256 entry email code n.clock = .consume entry)
    (huser : findUserByEmail o.users email = some user ∨
      user = newOtpUser config.adminEmail email userId passwordHash o.clock)
    (hbanned : user.isBanned = false) :
    Permits config R s (.verifyCode email code userId passwordHash) t
      (.handOver (.signed (otpClaims user)))
  | login {m t : Store} {profile : Profile} {linkCookie : Option String}
    {userId passwordHash : String} {pick : Nat} {identity : ProviderIdentity} {existing : User}
    (hm : R.grows s m) (ht : R.grows m t) (hidentity : identityOf profile = .ok identity)
    (hintent : getVerifiedLinkUserId config.signer linkCookie = none)
    (hexisting : existing ∈ m.users) (hmatches : matchesIdentity identity existing = true) :
    Permits config R s (.validate profile linkCookie userId passwordHash pick) t
      (.updateUser existing.id (.login identity existing))
  | firstLogin {t : Store} {profile : Profile} {linkCookie : Option String}
    {userId passwordHash : String} {pick : Nat} {identity : ProviderIdentity}
    (hidentity : identityOf profile = .ok identity)
    (hintent : getVerifiedLinkUserId config.signer linkCookie = none) :
    Permits config R s (.validate profile linkCookie userId passwordHash pick) t
      (.insertUser (newProviderUser config.adminEmail identity userId passwordHash t.clock))
  | link {m t : Store} {profile : Profile} {linkCookie : Option String}
    {userId passwordHash linkUserId : String} {pick : Nat} {identity : ProviderIdentity}
    {current : User} (hm : R.grows s m) (ht : R.grows m t)
    (hidentity : identityOf profile = .ok identity)
    (hintent : getVerifiedLinkUserId config.signer linkCookie = some linkUserId)
    (hcurrent : findUserById m.users linkUserId = some current) :
    Permits config R s (.validate profile linkCookie userId passwordHash pick) t
      (.updateUser linkUserId (.link identity current))

/-- Whose claims a callback returns, when it was started in one state and is in another. -/
inductive Identified (config : StrategyConfig) (R : Rely Store) (s t : Store) (profile : Profile)
    (linkCookie : Option String) (userId passwordHash : String) : JwtPayload → Prop where
  | login {m n : Store} {identity : ProviderIdentity} {existing old : User} (hm : R.grows s m)
    (hn : R.grows m n) (ht : R.grows n t) (hidentity : identityOf profile = .ok identity)
    (hintent : getVerifiedLinkUserId config.signer linkCookie = none)
    (hexisting : existing ∈ m.users) (hmatches : matchesIdentity identity existing = true)
    (hold : findUserById n.users existing.id = some old) :
    Identified config R s t profile linkCookie userId passwordHash
      (toJwtPayload (loggedIn identity existing old))
  | firstLogin {m : Store} {identity : ProviderIdentity} (hm : R.grows s m) (ht : R.grows m t)
    (hidentity : identityOf profile = .ok identity)
    (hintent : getVerifiedLinkUserId config.signer linkCookie = none) :
    Identified config R s t profile linkCookie userId passwordHash
      (toJwtPayload (newProviderUser config.adminEmail identity userId passwordHash m.clock))
  | link {payload : JwtPayload} {linkUserId : String}
    (hintent : getVerifiedLinkUserId config.signer linkCookie = some linkUserId) :
    Identified config R s t profile linkCookie userId passwordHash payload

section Operations

variable {config : ApiConfig τ} {R : Rely Store} {s : Store}

/-- The object that an edit deletes is that of the avatar which it has read. -/
theorem extractBucketKeyFromUrl_of_delete {publicUrlPrefix oldKey : String} {existing : User}
    {updated : Option SafeUser} {user : SafeUser}
    (h : afterUpdate publicUrlPrefix existing updated = .delete oldKey user) :
    extractBucketKeyFromUrl publicUrlPrefix existing.avatarUrl = some oldKey := by
  simp only [afterUpdate] at h
  split at h
  · cases h
  · split at h
    · cases h
    · split at h
      · cases h
      · split at h
        · cases h
        · next key hkey =>
          split at h
          · cases h
          · obtain ⟨rfl, -⟩ := EditPhase.delete.inj h
            exact hkey

/-- A user edits the own profile, over the row that the edit has read. -/
theorem updateSelf_behaves (id : String) (dto : UpdateProfileDto) :
    (UsersService.updateSelf config.publicUrlPrefix id dto).Behaves R
      (tables.Performs (Permits config R s (.updateSelf id dto))) (fun t _ => R.grows s t) s := by
  refine (read_behaves _).bind fun m existing ⟨hm, hexisting⟩ => ?_
  cases existing with
  | none => exact .throw _
  | some existing =>
    refine now_behaves.bind fun n updatedAt ⟨hn, hclock⟩ => ?_
    subst hclock
    refine (updateUsers_behaves (.profile dto existing n.clock) fun t ht =>
      .updateSelf hm hn ht hexisting.symm).bind fun t updated ⟨ht, _⟩ => ?_
    have hlater : R.grows s t := R.trans hm (R.trans hn ht)
    split
    · exact .pure hlater
    · next oldKey user hdelete =>
      have hkey := extractBucketKeyFromUrl_of_delete hdelete
      refine .bind (V := fun u _ => R.grows s u) ?_ fun u _ hu => .pure hu
      exact ((handOver_behaves fun u hu =>
        .oldAvatar hm (R.trans hn (R.trans ht hu)) hexisting.symm hkey).mono (fun _ _ h => h)
        fun u _ hu => R.trans hlater hu).tryCatch fun u _ hu => .pure (R.trans hlater hu)
    · exact .throw _

/-- A comment goes to a post that took comments when it was read. -/
theorem createComment_behaves (postId authorId : String) (createCommentDto : CreateCommentDto)
    (commentId : String) :
    (CommentsService.create postId authorId createCommentDto commentId).Behaves R
      (tables.Performs (Permits config R s
        (.createComment postId authorId createCommentDto commentId))) (fun _ _ => True) s := by
  refine (read_behaves _).bind fun m post ⟨hm, hpost⟩ => ?_
  refine (admitted_behaves _).bind fun n _ ⟨hn, hchecked⟩ => ?_
  subst hn
  cases hfound : findPostById n.posts postId with
  | none =>
    rw [hpost, hfound] at hchecked
    cases hchecked
  | some post =>
    rw [hpost, hfound, checkPost] at hchecked
    have hallowed : post.allowComments = true := by
      by_contra hnot
      rw [if_neg hnot] at hchecked
      cases hchecked
    exact (insertIntoComments_behaves fun t ht =>
      .createComment hm ht hfound hallowed).mono (fun _ _ h => h) fun _ _ _ => trivial

/-- A comment is removed by its author, or by an admin. -/
theorem removeComment_behaves (commentId requestingUserId : String) (role : UserRole) :
    (CommentsService.remove commentId requestingUserId role).Behaves R
      (tables.Performs (Permits config R s (.removeComment commentId requestingUserId role)))
      (fun _ _ => True) s := by
  refine (read_behaves _).bind fun m comment ⟨hm, hcomment⟩ => ?_
  cases comment with
  | none => exact .throw _
  | some comment =>
    refine (admitted_behaves _).bind fun n _ ⟨hn, hchecked⟩ => ?_
    subst hn
    have hallowed : comment.authorId = requestingUserId ∨ role = .admin := by
      by_contra hnot
      rw [checkRemoval, if_pos (not_or.mp hnot)] at hchecked
      cases hchecked
    refine (write_behaves (.removeComment commentId) (fun _ => rfl) fun t ht =>
      .removeComment hm ht hcomment.symm hallowed).bind fun _ _ _ => ?_
    exact .pure trivial

/-- A new post carries the date of its clock sample. -/
theorem createPost_behaves (createPostDto : CreatePostDto) (authorId postId : String) :
    (PostsService.create createPostDto authorId postId).Behaves R
      (tables.Performs (Permits config R s (.createPost createPostDto authorId postId)))
      (fun _ _ => True) s := by
  refine now_behaves.bind fun m createdAt ⟨hm, hclock⟩ => ?_
  subst hclock
  refine .tryCatch ?_ fun _ _ _ => .throw _
  exact (insertPostTransaction_behaves fun t ht => .createPost hm ht).mono (fun _ _ h => h)
    fun _ _ _ => trivial

/-- An edit of a post decides by what it has read. -/
theorem updatePost_behaves (id : String) (updatePostDto : UpdatePostDto) :
    (PostsService.update config.publicUrlPrefix id updatePostDto).Behaves R
      (tables.Performs (Permits config R s (.updatePost id updatePostDto)))
      (fun _ _ => True) s := by
  refine (read_behaves _).bind fun m existing ⟨hm, hexisting⟩ => ?_
  cases existing with
  | none => exact .throw _
  | some existing =>
    refine now_behaves.bind fun n updatedAt ⟨hn, hclock⟩ => ?_
    subst hclock
    refine .bind (.tryCatch (updatePostTransaction_behaves fun t ht =>
      .updatePost hm hn ht hexisting.symm) fun _ _ _ => .throw _) fun t updated hupdated => ?_
    obtain ⟨ht, old, hold, hpost⟩ := hupdated
    rw [hpost]
    exact (deleteMediaKeys_behaves fun u hu =>
      .removedMedia hm (R.trans hn ht) hu hexisting.symm hold).bind fun _ _ _ => .pure trivial

/-- A post is removed, and then its objects are. -/
theorem removePost_behaves (id : String) :
    (PostsService.remove config.publicUrlPrefix id).Behaves R
      (tables.Performs (Permits config R s (.removePost id))) (fun _ _ => True) s := by
  refine (deleteFromPosts_behaves fun _ _ => .removePost).bind fun m deleted ⟨hm, hdeleted⟩ => ?_
  cases deleted with
  | none => exact .throw _
  | some deleted =>
    exact (deleteMediaKeys_behaves fun t ht =>
      .postMedia hm ht hdeleted.symm).bind fun _ _ _ => .pure trivial

/-- A token is signed, which is recorded. -/
theorem generateAccessToken_behaves {P : Store → TableStep → Prop} (jwt : JwtSigner τ)
    {payload : JwtPayload} (hP : ∀ t, R.grows s t → P t (.handOver (.signed payload))) :
    (AuthService.generateAccessToken jwt payload).Behaves R (tables.Performs P)
      (fun _ _ => True) s := by
  refine now_behaves.bind fun m issuedAt ⟨hm, _⟩ => ?_
  refine (handOver_behaves fun t ht => hP t (R.trans hm ht)).bind fun _ _ _ => ?_
  exact .pure trivial

/-- A registration takes an address that was free when it looked. -/
theorem register_behaves (registerDto : RegisterDto) (userId : String) :
    (AuthService.register config.argon2 registerDto userId).Behaves R
      (tables.Performs (Permits config R s (.register registerDto userId)))
      (fun _ _ => True) s := by
  refine (read_behaves _).bind fun m existingUser _ => ?_
  split
  · exact .throw _
  · exact (insertIntoUsers_behaves fun _ _ => .register).bind fun _ _ _ => .pure trivial

/-- An exchange code is minted, and then others are pruned. -/
theorem createOAuthExchangeCode_behaves {P : Store → TableStep → Prop} (sha256 : String → String)
    (userId code : String) (hmint : ∀ m t, R.grows s m → R.grows m t →
      P t (.insertExchangeCode ⟨sha256 code, userId, m.clock + oauthExchangeCodeTtlMs⟩))
    (hprune : ∀ m t, R.grows s m → R.grows m t → P t (.pruneExchangeCodes m.clock)) :
    (AuthService.createOAuthExchangeCode sha256 userId code).Behaves R (tables.Performs P)
      (fun _ a => a = code) s := by
  refine now_behaves.bind fun m createdAt ⟨hm, hcreated⟩ => ?_
  subst hcreated
  refine (insertIntoOauthExchangeCodes_behaves fun t ht => hmint m t hm ht).bind fun t _ ht => ?_
  refine .bind (V := fun _ _ => True) (.tryCatch ?_ fun _ _ _ => .pure trivial) fun _ _ _ =>
    .pure rfl
  refine now_behaves.bind fun n cutoff ⟨hn, hcutoff⟩ => ?_
  subst hcutoff
  exact (write_behaves (.pruneExchangeCodes n.clock) (fun _ => rfl) fun u hu =>
    hprune n u (R.trans hm (R.trans ht hn)) hu).mono (fun _ _ h => h) fun _ _ _ => trivial

/-- An exchange takes the code, and signs for the user of a live one. -/
theorem exchangeOAuthCode_behaves (code : String) :
    (AuthService.exchangeOAuthCode config.jwt config.sha256 code).Behaves R
      (tables.Performs (Permits config R s (.exchangeOAuthCode code))) (fun _ _ => True) s := by
  refine (takeOauthExchangeCode_behaves fun _ _ => .takeCode).bind fun m entry ⟨hm, hentry⟩ => ?_
  cases entry with
  | none => exact .throw _
  | some entry =>
    refine now_behaves.bind fun n checkedAt ⟨hn, hchecked⟩ => ?_
    split
    · exact .throw _
    · next hlive =>
      refine (read_behaves _).bind fun o user ⟨ho, huser⟩ => ?_
      cases user with
      | none => exact .throw _
      | some user =>
        have hexpiry : n.clock ≤ entry.expiresAt := by
          rw [← hchecked]
          exact Nat.not_lt.mp hlive
        exact generateAccessToken_behaves config.jwt fun t ht =>
          .signExchanged hm hn ho ht hentry.symm hexpiry huser.symm

/-- A request for a code replaces the row of the address, and takes the new one back when the
mail fails. -/
theorem requestCode_behaves (email : String) (drawn : Fin 1000000) (rowId : String) :
    (OtpService.requestCode config.sha256 email drawn rowId).Behaves R
      (tables.Performs (Permits config R s (.requestCode email drawn rowId)))
      (fun _ _ => True) s := by
  have hdelete : ∀ u, (deleteFromEmailOtps fun row => row.email == email).Behaves R
      (tables.Performs (Permits config R s (.requestCode email drawn rowId)))
      (fun t _ => R.grows u t) u := fun u =>
    write_behaves (.deleteOtpsOf email) (fun _ => rfl) fun _ _ => .replaceCode
  refine (read_behaves _).bind fun m existing ⟨hm, _⟩ => ?_
  refine now_behaves.bind fun n checkedAt ⟨hn, _⟩ => ?_
  split
  · exact .throw _
  · refine (hdelete n).bind fun o _ ho => ?_
    refine now_behaves.bind fun q createdAt ⟨hq, hcreated⟩ => ?_
    subst hcreated
    have hlater : R.grows s q := R.trans hm (R.trans hn (R.trans ho hq))
    refine (insertIntoEmailOtps_behaves fun t ht => .insertCode hlater ht).bind fun t _ _ => ?_
    refine .tryCatch ?_ fun u error _ => ?_
    · exact (handOver_behaves fun _ _ => .mailCode).mono (fun _ _ h => h) fun _ _ _ => trivial
    · exact (hdelete u).bind fun _ _ _ => .throw _

/-- A verification drops a row that is spent, counts a wrong code, or signs in with a right
one. -/
theorem verifyCode_behaves (email code userId passwordHash : String) :
    (OtpService.verifyCode config email code userId passwordHash).Behaves R
      (tables.Performs (Permits config R s (.verifyCode email code userId passwordHash)))
      (fun _ _ => True) s := by
  refine (read_behaves _).bind fun m entry ⟨hm, hentry⟩ => ?_
  cases entry with
  | none => exact .throw _
  | some entry =>
    refine now_behaves.bind fun n checkedAt ⟨hn, hchecked⟩ => ?_
    subst hchecked
    have hdelete : ∀ u, R.grows n u → (OtpService.deleteEntry entry.id).Behaves R
        (tables.Performs (Permits config R s (.verifyCode email code userId passwordHash)))
        (fun t _ => R.grows u t) u := fun u hu =>
      write_behaves (.deleteOtp entry.id) (fun _ => rfl) fun t ht =>
        .dropCode hm (R.trans hn (R.trans hu ht)) hentry.symm
    rcases judge_cases config.sha256 entry email code n.clock with
      ⟨failure, hjudged⟩ | ⟨-, -, ⟨-, hjudged⟩ | ⟨-, hjudged⟩⟩
    · simp only [hjudged]
      exact (hdelete n (R.refl n)).bind fun _ _ _ => .throw _
    · simp only [hjudged]
      refine (write_behaves (.setAttempts entry.id (entry.attempts + 1)) (fun _ => rfl)
        fun t ht => .countAttempt hm hn ht hentry.symm hjudged).bind fun _ _ _ => .throw _
    · simp only [hjudged]
      refine (hdelete n (R.refl n)).bind fun o _ ho => ?_
      refine .bind (V := fun t user => R.grows n t ∧ ∃ o, R.grows n o ∧ R.grows o t ∧
        (findUserByEmail o.users email = some user ∨
          user = newOtpUser config.adminEmail email userId passwordHash o.clock)) ?_ ?_
      · refine (read_behaves _).bind fun q found ⟨hq, hfound⟩ => ?_
        have hlater : R.grows n q := R.trans ho hq
        cases found with
        | some user => exact .pure ⟨hlater, q, hlater, R.refl q, Or.inl hfound.symm⟩
        | none =>
          refine (insertIntoUsers_behaves fun t ht =>
            .firstSignIn hm hn (R.trans hlater ht) hentry.symm hjudged).mono (fun _ _ h => h) ?_
          intro t user ⟨ht, huser⟩
          exact ⟨R.trans hlater ht, t, R.trans hlater ht, R.refl t, Or.inr huser⟩
      · rintro t user ⟨-, o, ho, ht, huser⟩
        split
        · exact .throw _
        · next hbanned =>
          exact generateAccessToken_behaves config.jwt fun u hu =>
            .signVerified hm hn ho (R.trans ht hu) hentry.symm hjudged huser
              (Bool.eq_false_iff.mpr hbanned)

/-- A login writes to a row that matches its profile, or makes one. -/
theorem loginOrRegister_behaves {profile : Profile} {linkCookie : Option String}
    {userId passwordHash : String} {pick : Nat} {identity : ProviderIdentity}
    (hidentity : identityOf profile = .ok identity)
    (hintent : getVerifiedLinkUserId config.signer linkCookie = none) :
    (OAuthStrategy.loginOrRegister config.adminEmail identity userId passwordHash pick).Behaves R
      (tables.Performs (Permits config R s
        (.validate profile linkCookie userId passwordHash pick)))
      (fun t payload => R.grows s t ∧ Identified config.toStrategyConfig R s t profile linkCookie
        userId passwordHash payload) s := by
  refine .bind (V := fun t user => R.grows s t ∧ ∀ row, user = some row →
    Identified config.toStrategyConfig R s t profile linkCookie userId passwordHash
      (toJwtPayload row)) (.tryCatch ?_ fun _ _ _ => .throw _) fun t user huser => ?_
  · refine (read_behaves _).bind fun m found ⟨hm, hfound⟩ => ?_
    cases found with
    | some existing =>
      obtain ⟨hexisting, hmatches⟩ := picks_iff_pickedRow.mpr ⟨pick, hfound.symm⟩
      refine (updateUsers_behaves (.login identity existing) fun t ht =>
        .login hm ht hidentity hintent hexisting hmatches).mono (fun _ _ h => h) ?_
      rintro t user ⟨ht, huser⟩
      refine ⟨R.trans hm ht, fun row hrow => ?_⟩
      obtain ⟨old, hold, rfl⟩ := huser row hrow
      exact .login hm ht (R.refl t) hidentity hintent hexisting hmatches hold
    | none =>
      refine .tryCatch ?_ fun _ _ _ => .throw _
      refine (insertIntoUsers_behaves fun t ht => .firstLogin hidentity hintent).map ?_
      rintro t user ⟨ht, rfl⟩
      refine ⟨R.trans hm ht, ?_⟩
      rintro _ ⟨⟩
      exact .firstLogin (R.trans hm ht) (R.refl t) hidentity hintent
  · cases user with
    | some user => exact .pure ⟨huser.1, huser.2 user rfl⟩
    | none => exact .throw _

/-- A link writes to the row of the user in the cookie. -/
theorem linkToExistingUser_behaves {profile : Profile} {linkCookie : Option String}
    {userId passwordHash linkUserId : String} {pick : Nat} {identity : ProviderIdentity}
    (hidentity : identityOf profile = .ok identity)
    (hintent : getVerifiedLinkUserId config.signer linkCookie = some linkUserId) :
    (OAuthStrategy.linkToExistingUser identity linkUserId).Behaves R
      (tables.Performs (Permits config R s
        (.validate profile linkCookie userId passwordHash pick)))
      (fun t payload => R.grows s t ∧ Identified config.toStrategyConfig R s t profile linkCookie
        userId passwordHash payload) s := by
  refine .tryCatch ?_ fun _ _ _ => .throw _
  refine (read_behaves _).bind fun m conflicting ⟨hm, _⟩ => ?_
  split
  · exact .throw _
  · refine (read_behaves _).bind fun n current ⟨hn, hcurrent⟩ => ?_
    cases current with
    | none => exact .throw _
    | some current =>
      refine (updateUsers_behaves (.link identity current) fun t ht =>
        .link (R.trans hm hn) ht hidentity hintent hcurrent.symm).bind fun t updated ⟨ht, _⟩ => ?_
      cases updated with
      | none => exact .throw _
      | some updated => exact .pure ⟨R.trans hm (R.trans hn ht), .link hintent⟩

/-- A callback logs in, or links when its cookie says so. -/
theorem validate_behaves (profile : Profile) (linkCookie : Option String)
    (userId passwordHash : String) (pick : Nat) :
    (OAuthStrategy.validate config.toStrategyConfig profile linkCookie userId passwordHash
      pick).Behaves R (tables.Performs (Permits config R s
        (.validate profile linkCookie userId passwordHash pick)))
      (fun t payload => R.grows s t ∧ Identified config.toStrategyConfig R s t profile linkCookie
        userId passwordHash payload) s := by
  refine (admitted_behaves _).bind fun t identity ⟨ht, hidentity⟩ => ?_
  subst ht
  split
  · next linkUserId hintent => exact linkToExistingUser_behaves hidentity hintent
  · next hintent => exact loginOrRegister_behaves hidentity hintent

/-- The guard of a session verifies the token, and then finds no banned row of its subject. -/
structure Admits (R : Rely Store) (jwt : JwtSigner τ) (accessToken : Option τ) (s t : Store)
    (request : GuardedRequest) : Prop where
  verified : ∃ m, R.grows s m ∧ R.grows m t ∧
    verifyCookie jwt accessToken m.clock = .ok request.user
  found : ∃ m, R.grows s m ∧ R.grows m t ∧
    request.currentUser = findUserById m.users request.user.sub
  unbanned : ∀ row, request.currentUser = some row → row.isBanned = false

theorem canActivate_behaves {P : Store → TableStep → Prop} (jwt : JwtSigner τ)
    (accessToken : Option τ) : (AuthService.canActivate jwt accessToken).Behaves R
      (tables.Performs P) (fun t request => R.grows s t ∧ Admits R jwt accessToken s t request)
      s := by
  refine now_behaves.bind fun m checkedAt ⟨hm, hchecked⟩ => ?_
  subst hchecked
  refine (admitted_behaves _).bind fun n payload ⟨hn, hpayload⟩ => ?_
  subst hn
  refine (read_behaves _).bind fun o user ⟨ho, huser⟩ => ?_
  subst huser
  refine (admitted_behaves _).mono (fun _ _ h => h) fun t request ⟨ht, hadmitted⟩ => ?_
  subst ht
  obtain ⟨hunbanned, rfl⟩ := checkBanned_eq_ok.mp hadmitted
  exact ⟨R.trans hm ho, ⟨n, hm, ho, hpayload⟩, ⟨t, R.trans hm ho, R.refl t, rfl⟩, hunbanned⟩

/-- A program that only reads. -/
theorem read_behaves_trivially {α : Type} {P : Store → TableStep → Prop} (f : Store → α) :
    (read f).Behaves R (tables.Performs P) (fun _ _ => True) s :=
  (read_behaves f).mono (fun _ _ h => h) fun _ _ _ => trivial

/-- The catalogue is complete: an operation makes no other steps. -/
theorem operation_behaves (config : ApiConfig τ) (R : Rely Store) (s : Store) (call : Call τ) :
    (operation config call).Behaves R (tables.Performs (Permits config R s call))
      (fun _ _ => True) s := by
  cases call with
  | findAllUsers | commentsOfPost | commentsOfAuthor | publishedPosts | dashboardPosts =>
    exact (read_behaves_trivially _).map fun _ _ _ => trivial
  | findUser id =>
    refine .map (V := fun _ _ => True) ?_ fun _ _ _ => trivial
    refine (read_behaves _).bind fun _ user _ => ?_
    cases user with
    | none => exact .throw _
    | some user => exact .pure trivial
  | postBySlug slug locale pick =>
    refine .map (V := fun _ _ => True) ?_ fun _ _ _ => trivial
    refine (read_behaves _).bind fun _ post _ => ?_
    cases post with
    | none => exact .throw _
    | some post => exact .pure trivial
  | profile accessToken =>
    refine .map (V := fun _ _ => True) ?_ fun _ _ _ => trivial
    refine (canActivate_behaves config.jwt accessToken).bind fun _ request _ => ?_
    exact (admitted_behaves _).mono (fun _ _ h => h) fun _ _ _ => trivial
  | setBanned id isBanned requestingUserId =>
    exact (setBanned_behaves fun _ _ hother => .setBanned hother).map fun _ _ _ => trivial
  | removeUser id requestingUserId =>
    exact (remove_behaves fun _ _ hother => .removeUser hother).map fun _ _ _ => trivial
  | removeSelf id =>
    exact (removeSelf_behaves fun _ _ => .removeSelf).map fun _ _ _ => trivial
  | updateSelf id dto => exact (updateSelf_behaves id dto).map fun _ _ _ => trivial
  | createComment postId authorId createCommentDto commentId =>
    exact (createComment_behaves ..).map fun _ _ _ => trivial
  | removeComment commentId requestingUserId role =>
    exact (removeComment_behaves ..).map fun _ _ _ => trivial
  | createPost createPostDto authorId postId =>
    exact (createPost_behaves ..).map fun _ _ _ => trivial
  | updatePost id updatePostDto => exact (updatePost_behaves ..).map fun _ _ _ => trivial
  | removePost id => exact (removePost_behaves id).map fun _ _ _ => trivial
  | register registerDto userId => exact (register_behaves ..).map fun _ _ _ => trivial
  | generateAccessToken payload =>
    exact (generateAccessToken_behaves _ fun _ _ => .sign).map fun _ _ _ => trivial
  | createOAuthExchangeCode userId code =>
    exact (createOAuthExchangeCode_behaves _ userId code (fun _ _ => .mintCode)
      fun _ _ => .pruneCodes).map fun _ _ _ => trivial
  | exchangeOAuthCode code => exact (exchangeOAuthCode_behaves code).map fun _ _ _ => trivial
  | requestCode email drawn rowId => exact (requestCode_behaves ..).map fun _ _ _ => trivial
  | verifyCode email code userId passwordHash =>
    exact (verifyCode_behaves ..).map fun _ _ _ => trivial
  | validate profile linkCookie userId passwordHash pick =>
    exact (validate_behaves ..).map fun _ _ _ => trivial

end Operations

end VertexApi.App
