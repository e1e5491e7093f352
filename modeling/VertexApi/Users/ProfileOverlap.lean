import VertexApi.Users.Accounts

/-!
# Overlapping profile edits

Edits and removals of users run side by side. An edit writes back all three fields, those
it does not name as it has read them. When they still stand at its update, the edit takes
effect on its own fields only, and the run has the outcome of one in which every call runs
by itself. The order is that of the updates, and of the reads that find nobody.
-/

namespace VertexApi.Users

/-- The edits, the other tables of a removal, and the answers to removals. -/
structure AccountState where
  profile : ProfileState
  posts : List Post
  comments : List Comment
  oauthExchangeCodes : List OauthExchangeCode
  removals : Nat → Option (Except HttpException SafeUser)

namespace AccountState

/-- The tables of a removal. -/
def tables (s : AccountState) : AccountTables where
  users := s.profile.users
  posts := s.posts
  comments := s.comments
  oauthExchangeCodes := s.oauthExchangeCodes

/-- Tables, and no calls. -/
def initial (clock : Nat) (tables : AccountTables) : AccountState where
  profile := .initial clock tables.users
  posts := tables.posts
  comments := tables.comments
  oauthExchangeCodes := tables.oauthExchangeCodes
  removals _ := none

/-- A removal, which is one transaction. -/
def removed (s : AccountState) (id : Nat) (userId : String) : AccountState :=
  let outcome := deleteUserAndCascadeComments s.tables userId
  { profile := { s.profile with users := outcome.1.users }
    posts := outcome.1.posts
    comments := outcome.1.comments
    oauthExchangeCodes := outcome.1.oauthExchangeCodes
    removals := Function.update s.removals id (some outcome.2) }

end AccountState

/-- The steps of a run. -/
inductive AccountLabel where
  | tick (ms : Nat)
  /-- A removal, by the user or by an admin. -/
  | remove (id : Nat) (userId : String)
  | edit (id : Nat) (userId : String) (input : UpdateProfileInput)
  | find (id : Nat)
  | update (id : Nat)
  | delete (id : Nat)
  deriving DecidableEq, Repr

/-- A step of the clock or of an edit. -/
def AccountLabel.profile : AccountLabel → Option ProfileLabel
  | .tick ms => some (.tick ms)
  | .remove _ _ => none
  | .edit id userId input => some (.edit id userId input)
  | .find id => some (.find id)
  | .update id => some (.update id)
  | .delete id => some (.delete id)

/-- A call in a sequential order, or the clock between two calls. -/
inductive AccountCall where
  | tick (ms : Nat)
  | remove (id : Nat) (userId : String)
  | updateSelf (id : Nat) (userId : String) (input : UpdateProfileInput)
  deriving DecidableEq, Repr

section Machines

variable (publicUrlPrefix : String) (parseUrl : String → Option String)

/-- Edits and removals as one machine. -/
def accounts : Machine AccountState AccountLabel where
  step s
    | .remove id userId => if (s.removals id).isSome then none else some (s.removed id userId)
    | label => label.profile.bind fun step =>
        ((profiles publicUrlPrefix parseUrl).step s.profile step).map fun profile =>
          { s with profile := profile }

/-- Take a step if it comes next. -/
def settle (s : ProfileState) (label : ProfileLabel) : ProfileState :=
  ((profiles publicUrlPrefix parseUrl).step s label).getD s

/-- The same calls one after the other: an edit takes all of its steps at once. -/
def serialAccounts : Machine AccountState AccountCall where
  step s
    | .tick ms => (accounts publicUrlPrefix parseUrl).step s (.tick ms)
    | .remove id userId => (accounts publicUrlPrefix parseUrl).step s (.remove id userId)
    | .updateSelf id userId input =>
      ((profiles publicUrlPrefix parseUrl).step s.profile (.edit id userId input)).map
        fun started =>
          let found := settle publicUrlPrefix parseUrl started (.find id)
          let updated := settle publicUrlPrefix parseUrl found (.update id)
          { s with profile := settle publicUrlPrefix parseUrl updated (.delete id) }

end Machines

/-- The fields that a body leaves out are those of the row. -/
structure OmittedStand (dto : UpdateProfileDto) (existing row : User) : Prop where
  name : dto.name = none → row.name = existing.name
  displayName : dto.displayName = none → row.displayName = existing.displayName
  avatarUrl : dto.avatarUrl = none → row.avatarUrl = existing.avatarUrl

/-- The row that an edit has read for its update. -/
def EditPhase.existing : EditPhase → Option User
  | .update existing => some existing
  | _ => none

/-- The row is there at the update of an edit, and the fields that its body leaves out are
those that were read. -/
def MeetsOwnRead (s : AccountState) : AccountLabel → Prop
  | .update id => ∀ edit ∈ s.profile.edits id, ∀ existing ∈ edit.phase.existing,
      ∃ row ∈ findUserById s.profile.users edit.userId, OmittedStand edit.dto existing row
  | _ => True

instance decidableOmittedStand (dto : UpdateProfileDto) (existing row : User) :
    Decidable (OmittedStand dto existing row) :=
  decidable_of_iff ((dto.name = none → row.name = existing.name) ∧
    (dto.displayName = none → row.displayName = existing.displayName) ∧
    (dto.avatarUrl = none → row.avatarUrl = existing.avatarUrl))
    ⟨fun h => ⟨h.1, h.2.1, h.2.2⟩, fun h => ⟨h.name, h.displayName, h.avatarUrl⟩⟩

instance decidableMeetsOwnRead (s : AccountState) :
    (label : AccountLabel) → Decidable (MeetsOwnRead s label)
  | .update id => inferInstanceAs (Decidable (∀ edit ∈ s.profile.edits id,
      ∀ existing ∈ edit.phase.existing,
        ∃ row ∈ findUserById s.profile.users edit.userId, OmittedStand edit.dto existing row))
  | .tick _ | .remove _ _ | .edit _ _ _ | .find _ | .delete _ => inferInstanceAs (Decidable True)

/-- An edit stores the fields of its body, and leaves the others as they are. -/
structure StoresBody (dto : UpdateProfileDto) (row after : User) : Prop where
  name : after.name = dto.name.or row.name
  displayName : after.displayName = dto.displayName.or row.displayName
  avatarUrl : after.avatarUrl = nextAvatarUrl dto row

/-- The update of an edit meets the row, and stores its body there. -/
def TakesEffect (publicUrlPrefix : String) (parseUrl : String → Option String)
    (s : AccountState) : AccountLabel → Prop
  | .update id => ∀ userId dto existing t,
      s.profile.edits id = some ⟨userId, dto, .update existing⟩ →
      (accounts publicUrlPrefix parseUrl).step s (.update id) = some t →
      ∃ row after, findUserById s.profile.users userId = some row ∧
        findUserById t.profile.users userId = some after ∧ StoresBody dto row after
  | _ => True

/-- Tables and answers are those of the calls in some sequential order: of the removals, and of
the edits that have been answered or wait for the delete of an object. -/
structure Serialized (s serial : AccountState) : Prop where
  tables : serial.tables = s.tables
  removals : serial.removals = s.removals
  answers : ∀ id userId dto answer, s.profile.edits id = some ⟨userId, dto, .done answer⟩ →
    serial.profile.edits id = some ⟨userId, dto, .done answer⟩
  started : ∀ id userId dto phase, serial.profile.edits id = some ⟨userId, dto, phase⟩ →
    (∃ answer, phase = .done answer) ∧ ∃ own, s.profile.edits id = some ⟨userId, dto, own⟩ ∧
      own ≠ .find ∧ ∀ existing, own ≠ .update existing

/-- The answer that an edit gets if nothing but the delete of an object is left to do. -/
def EditPhase.settled : EditPhase → Option EditAnswer
  | .find | .update _ => none
  | .delete _ updated => some (.updated (some updated))
  | .done answer => some answer

/-- The users after an edit that runs by itself, and its answer. -/
def editAlone (users : List User) (userId : String) (dto : UpdateProfileDto) (now : Nat) :
    List User × EditAnswer :=
  match findUserById users userId with
  | none => (users, .refused userNotFound)
  | some existing =>
    (users.map fun row => if row.id = userId then edited dto existing now row else row,
      .updated (some (safeReturning (edited dto existing now existing))))

/-- What a sequential order knows of an edit. -/
def Edit.settled (edit : Edit) : Option Edit :=
  edit.phase.settled.map fun answer => { edit with phase := .done answer }

section Serial

variable {publicUrlPrefix : String} {parseUrl : String → Option String} {s t : ProfileState}
  {id : Nat} {userId : String} {dto : UpdateProfileDto} {row : User}

/-- A step that comes next is taken. -/
theorem settle_of_step {label : ProfileLabel}
    (h : (profiles publicUrlPrefix parseUrl).step s label = some t) :
    settle publicUrlPrefix parseUrl s label = t := by
  rw [settle, h, Option.getD_some]

/-- A step that does not come next is not. -/
theorem settle_of_forall {label : ProfileLabel}
    (h : ∀ t, (profiles publicUrlPrefix parseUrl).step s label ≠ some t) :
    settle publicUrlPrefix parseUrl s label = s := by
  rw [settle, Option.eq_none_iff_forall_ne_some.mpr h, Option.getD_none]

/-- An update that met a row is answered with it, at once or after the delete of an object. -/
theorem settled_afterUpdate (existing : User) (user : SafeUser) :
    (afterUpdate publicUrlPrefix existing (some user)).settled = some (.updated (some user)) := by
  simp only [afterUpdate]
  split
  · rfl
  · split
    · rfl
    · cases Uploads.extractBucketKeyFromUrl publicUrlPrefix existing.avatarUrl with
      | none => rfl
      | some oldKey =>
        simp only
        split
        · rfl
        · rfl

/-- The written row is found after the update. -/
theorem findUserById_edited (dto : UpdateProfileDto) (existing : User) (now : Nat)
    {users : List User}
    (hrow : findUserById users userId = some row) :
    findUserById (users.map fun row => if row.id = userId then edited dto existing now row else row)
      userId = some (edited dto existing now row) := by
  have hid := id_of_findUserById hrow
  have hsame : ((fun user : User => user.id == userId) ∘ fun row =>
      if row.id = userId then edited dto existing now row else row) =
      fun user => user.id == userId := by
    funext user
    simp only [Function.comp_apply]
    split
    · rfl
    · rfl
  rw [findUserById, List.find?_map, hsame]
  change (findUserById users userId).map _ = _
  rw [hrow, Option.map_some, if_pos hid]

/-- The delete that may be left answers the edit, and touches no table. -/
theorem settle_delete (publicUrlPrefix : String) (parseUrl : String → Option String)
    {phase : EditPhase} {answer : EditAnswer}
    (hedit : s.edits id = some ⟨userId, dto, phase⟩) (hphase : phase.settled = some answer) :
    ∃ deleted, settle publicUrlPrefix parseUrl s (.delete id) =
      { s with deleted := deleted }.setEdit id ⟨userId, dto, .done answer⟩ := by
  cases phase with
  | find | update => cases hphase
  | delete oldKey updated =>
    obtain rfl := Option.some.inj hphase
    exact ⟨_, settle_of_step (step_delete.mpr ⟨userId, dto, oldKey, updated, hedit, rfl⟩)⟩
  | done =>
    obtain rfl := Option.some.inj hphase
    refine ⟨s.deleted, ?_⟩
    rw [settle_of_forall ?stuck]
    case stuck =>
      intro t hstep
      obtain ⟨_, _, _, _, hother, -⟩ := step_delete.mp hstep
      rw [hedit] at hother
      cases hother
    simp only [ProfileState.setEdit]
    rw [← hedit, Function.update_eq_self]

/-- An edit by itself writes over the row that it meets, and refuses a user who is gone. -/
theorem step_updateSelf (publicUrlPrefix userId : String) {parseUrl : String → Option String}
    {n : AccountState} {input : UpdateProfileInput}
    (hfree : n.profile.edits id = none) (hdto : updateProfileSchema parseUrl input = some dto) :
    ∃ deleted, (serialAccounts publicUrlPrefix parseUrl).step n (.updateSelf id userId input) =
      some { n with profile := { n.profile with
        users := (editAlone n.profile.users userId dto n.profile.clock).1
        deleted := deleted }.setEdit id ⟨userId, dto,
          .done (editAlone n.profile.users userId dto n.profile.clock).2⟩ } := by
  have hstart : (profiles publicUrlPrefix parseUrl).step n.profile (.edit id userId input) =
      some (n.profile.setEdit id ⟨userId, dto, .find⟩) := step_edit.mpr ⟨hfree, dto, hdto, rfl⟩
  have hself (p : ProfileState) (edit : Edit) : (p.setEdit id edit).edits id = some edit :=
    Function.update_self ..
  simp only [serialAccounts, hstart, Option.map_some]
  cases hrow : findUserById n.profile.users userId with
  | none =>
    let refused := n.profile.setEdit id ⟨userId, dto, .done (.refused userNotFound)⟩
    have hfound : settle publicUrlPrefix parseUrl (n.profile.setEdit id ⟨userId, dto, .find⟩)
        (.find id) = refused := by
      rw [settle_of_step (step_find.mpr ⟨userId, dto, hself .., Or.inl ⟨hrow, rfl⟩⟩)]
      simp only [refused, ProfileState.setEdit, Function.update_idem]
    have hupdated : settle publicUrlPrefix parseUrl refused (.update id) = refused := by
      refine settle_of_forall fun t hstep => ?_
      obtain ⟨_, _, _, _, hother, -⟩ := step_update.mp hstep
      rw [hself] at hother
      cases hother
    obtain ⟨deleted, hdeleted⟩ := settle_delete publicUrlPrefix parseUrl (s := refused)
      (hself ..) rfl
    refine ⟨deleted, ?_⟩
    rw [hfound, hupdated, hdeleted]
    simp only [refused, editAlone, hrow, ProfileState.setEdit, Function.update_idem]
  | some row =>
    let found := n.profile.setEdit id ⟨userId, dto, .update row⟩
    let users := n.profile.users.map fun other =>
      if other.id = userId then edited dto row n.profile.clock other else other
    let user := safeReturning (edited dto row n.profile.clock row)
    let updated := { n.profile with users := users }.setEdit id
      ⟨userId, dto, afterUpdate publicUrlPrefix row (some user)⟩
    have hfound : settle publicUrlPrefix parseUrl (n.profile.setEdit id ⟨userId, dto, .find⟩)
        (.find id) = found := by
      rw [settle_of_step (step_find.mpr ⟨userId, dto, hself .., Or.inr ⟨row, hrow, rfl⟩⟩)]
      simp only [found, ProfileState.setEdit, Function.update_idem]
    have hafter : (findUserById users userId).map safeReturning = some user :=
      congrArg (Option.map safeReturning) (findUserById_edited dto row n.profile.clock hrow)
    have hupdated : settle publicUrlPrefix parseUrl found (.update id) = updated := by
      rw [settle_of_step (step_update.mpr ⟨userId, dto, row, users, hself .., rfl, rfl⟩), hafter]
      simp only [updated, ProfileState.setEdit, Function.update_idem]
    obtain ⟨deleted, hdeleted⟩ := settle_delete publicUrlPrefix parseUrl (s := updated)
      (hself ..) (settled_afterUpdate row user)
    refine ⟨deleted, ?_⟩
    rw [hfound, hupdated, hdeleted]
    simp only [updated, users, user, editAlone, hrow, ProfileState.setEdit, Function.update_idem]

end Serial

/-- What a call of a sequential order adds to the edits: nothing, or an edit that ran by itself. -/
theorem serial_step_cases {n n' : AccountState} {call : AccountCall}
    (h : (serialAccounts publicUrlPrefix parseUrl).step n call = some n') :
    (n'.profile.edits = n.profile.edits ∧
      ∀ row ∈ n'.profile.users, row ∈ n.profile.users) ∨
    ∃ id userId dto, n.profile.edits id = none ∧
      n'.profile.users = (editAlone n.profile.users userId dto n.profile.clock).1 ∧
      n'.profile.edits = Function.update n.profile.edits id (some ⟨userId, dto,
        .done (editAlone n.profile.users userId dto n.profile.clock).2⟩) := by
  cases call with
  | tick ms =>
    obtain rfl := Option.some.inj h
    exact Or.inl ⟨rfl, fun _ hrow => hrow⟩
  | remove id userId =>
    obtain ⟨-, ht⟩ := Option.ite_none_left_eq_some.mp h
    obtain rfl := Option.some.inj ht
    refine Or.inl ⟨rfl, fun row hrow => ?_⟩
    simp only [AccountState.removed, deleteUserAndCascadeComments] at hrow
    split at hrow
    · exact hrow
    · split at hrow
      · exact hrow
      · exact (List.mem_filter.mp hrow).1
  | updateSelf id userId input =>
    obtain ⟨started, hstart, -⟩ := Option.map_eq_some_iff.mp h
    obtain ⟨hfree, dto, hdto, -⟩ := step_edit.mp hstart
    obtain ⟨deleted, hstep⟩ := step_updateSelf publicUrlPrefix userId hfree hdto
    obtain rfl := Option.some.inj (h.symm.trans hstep)
    exact Or.inr ⟨id, userId, dto, hfree, rfl, rfl⟩

/-- A sequential order has caught up with a run: the tables and the answers are the same, and
each edit that is still before its update has yet to be called. -/
structure Follows (parseUrl : String → Option String) (s n : AccountState) : Prop where
  clock : n.profile.clock = s.profile.clock
  tables : n.tables = s.tables
  removals : n.removals = s.removals
  edits : ∀ id, n.profile.edits id = (s.profile.edits id).bind Edit.settled
  bodies : ∀ id edit, s.profile.edits id = some edit →
    ∃ input, updateProfileSchema parseUrl input = some edit.dto

section Simulation

variable {publicUrlPrefix : String} {parseUrl : String → Option String} {s t n : AccountState}
  {id : Nat} {userId : String} {dto : UpdateProfileDto}

/-- The steps of the edits and of the clock are those of the edits alone. -/
theorem step_profile {label : AccountLabel} {step : ProfileLabel} (h : label.profile = some step) :
    (accounts publicUrlPrefix parseUrl).step s label = some t ↔
      ∃ profile, (profiles publicUrlPrefix parseUrl).step s.profile step = some profile ∧
        t = { s with profile := profile } := by
  have hstep : (accounts publicUrlPrefix parseUrl).step s label =
      ((profiles publicUrlPrefix parseUrl).step s.profile step).map fun profile =>
        { s with profile := profile } := by
    cases label with
    | remove => cases h
    | tick | edit | find | update | delete =>
      obtain rfl := Option.some.inj h
      rfl
  rw [hstep, Option.map_eq_some_iff]
  simp only [eq_comm (a := t)]

/-- An edit that has read a row is before its update. -/
theorem eq_update_of_existing {phase : EditPhase} {existing : User}
    (h : existing ∈ phase.existing) : phase = .update existing := by
  cases phase with
  | update read => exact congrArg EditPhase.update (Option.some.inj h)
  | find | delete | done => cases h

/-- An edit writes the same over what it has read and over a row where the omitted fields stand. -/
theorem edited_eq_of_omittedStand {existing row : User} (h : OmittedStand dto existing row)
    (now : Nat) : edited dto existing now = edited dto row now := by
  have hname : dto.name.or existing.name = dto.name.or row.name := by
    cases hdto : dto.name with
    | none => rw [Option.none_or, Option.none_or, h.name hdto]
    | some name => rfl
  have hdisplayName : dto.displayName.or existing.displayName =
      dto.displayName.or row.displayName := by
    cases hdto : dto.displayName with
    | none => rw [Option.none_or, Option.none_or, h.displayName hdto]
    | some displayName => rfl
  have havatarUrl : nextAvatarUrl dto existing = nextAvatarUrl dto row := by
    cases hdto : dto.avatarUrl with
    | none => simp only [nextAvatarUrl, hdto, Option.none_or, h.avatarUrl hdto]
    | some avatarUrl => simp only [nextAvatarUrl, hdto, Option.some_or]
  funext other
  simp only [edited, hname, hdisplayName, havatarUrl]

namespace Follows

/-- The order of no calls has caught up at the start. -/
theorem initial (clock : Nat) (tables : AccountTables) :
    Follows parseUrl (.initial clock tables) (.initial clock tables) where
  clock := rfl
  tables := rfl
  removals := rfl
  edits _ := rfl
  bodies _ _ h := by cases h

/-- Nothing is to be called when an edit moves without an answer to come, or when the answer
that was to come is given. -/
theorem keep (h : Follows parseUrl s n) {profile : ProfileState} {phase next : EditPhase}
    (hclock : profile.clock = s.profile.clock) (husers : profile.users = s.profile.users)
    (hedit : s.profile.edits id = some ⟨userId, dto, phase⟩)
    (hedits : profile.edits = Function.update s.profile.edits id (some ⟨userId, dto, next⟩))
    (hnext : next.settled = phase.settled) : Follows parseUrl { s with profile := profile } n where
  clock := h.clock.trans hclock.symm
  tables := by
    rw [h.tables]
    simp only [AccountState.tables, husers]
  removals := h.removals
  edits other := by
    rw [h.edits, hedits]
    by_cases hid : other = id
    · subst hid
      rw [hedit, Function.update_self]
      simp only [Option.bind_some, Edit.settled, hnext]
    · rw [Function.update_of_ne hid]
  bodies other edit hother := by
    rw [hedits] at hother
    obtain ⟨input, hinput⟩ := h.bodies id _ hedit
    rcases update_eq_some_iff.mp hother with ⟨-, rfl⟩ | ⟨-, hother⟩
    · exact ⟨input, hinput⟩
    · exact h.bodies other edit hother

/-- An edit is called when its answer is settled, which it is as if it ran by itself. -/
theorem call (h : Follows parseUrl s n) {phase next : EditPhase} {users : List User}
    {answer : EditAnswer} (hedit : s.profile.edits id = some ⟨userId, dto, phase⟩)
    (hphase : phase.settled = none) (hnext : next.settled = some answer)
    (halone : editAlone s.profile.users userId dto s.profile.clock = (users, answer)) :
    ∃ calls n', (serialAccounts publicUrlPrefix parseUrl).exec n calls = some n' ∧
      Follows parseUrl { s with profile :=
        { s.profile with users := users }.setEdit id ⟨userId, dto, next⟩ } n' := by
  obtain ⟨input, hinput⟩ := h.bodies id _ hedit
  have hfree : n.profile.edits id = none := by
    rw [h.edits, hedit, Option.bind_some, Edit.settled, hphase, Option.map_none]
  have husers : n.profile.users = s.profile.users := congrArg AccountTables.users h.tables
  have hposts : n.posts = s.posts := congrArg AccountTables.posts h.tables
  have hcomments : n.comments = s.comments := congrArg AccountTables.comments h.tables
  have hcodes : n.oauthExchangeCodes = s.oauthExchangeCodes :=
    congrArg AccountTables.oauthExchangeCodes h.tables
  obtain ⟨deleted, hstep⟩ := step_updateSelf publicUrlPrefix userId hfree hinput
  rw [husers, h.clock, halone] at hstep
  refine ⟨[.updateSelf id userId input], _, (Machine.exec_singleton ..).trans hstep, h.clock,
    ?tables, h.removals, ?edits, ?bodies⟩
  case tables => simp only [AccountState.tables, ProfileState.setEdit, hposts, hcomments, hcodes]
  case edits =>
    intro other
    simp only [ProfileState.setEdit]
    by_cases hid : other = id
    · subst hid
      simp only [Function.update_self, Option.bind_some, Edit.settled, hnext, Option.map_some]
    · simp only [Function.update_of_ne hid, h.edits]
  case bodies =>
    intro other edit hother
    rcases update_eq_some_iff.mp hother with ⟨-, rfl⟩ | ⟨-, hother⟩
    · exact ⟨input, hinput⟩
    · exact h.bodies other edit hother

/-- The order of the calls follows each step, by no call or by one. -/
theorem step (h : Follows parseUrl s n) {label : AccountLabel} (hlabel : MeetsOwnRead s label)
    (hstep : (accounts publicUrlPrefix parseUrl).step s label = some t) :
    ∃ calls n', (serialAccounts publicUrlPrefix parseUrl).exec n calls = some n' ∧
      Follows parseUrl t n' := by
  cases label with
  | tick ms =>
    obtain ⟨profile, hprofile, rfl⟩ := (step_profile rfl).mp hstep
    obtain rfl := Option.some.inj hprofile
    refine ⟨[.tick ms], { n with profile := { n.profile with clock := n.profile.clock + ms } },
      rfl, ?_, h.tables, h.removals, h.edits, h.bodies⟩
    exact congrArg (· + ms) h.clock
  | remove removal removedId =>
    obtain ⟨hfree, ht⟩ := Option.ite_none_left_eq_some.mp hstep
    obtain rfl := Option.some.inj ht
    rw [← h.removals] at hfree
    refine ⟨[.remove removal removedId], n.removed removal removedId,
      (Machine.exec_singleton ..).trans (if_neg hfree), h.clock, ?tables, ?removals, h.edits,
      h.bodies⟩
    case tables =>
      rw [AccountState.tables, AccountState.removed, h.tables]
      rfl
    case removals => rw [AccountState.removed, h.removals, h.tables, AccountState.removed]
  | edit other editId input =>
    obtain ⟨profile, hprofile, rfl⟩ := (step_profile rfl).mp hstep
    obtain ⟨hfree, body, hbody, rfl⟩ := step_edit.mp hprofile
    refine ⟨[], n, rfl, h.clock, h.tables, h.removals, fun id => ?edits, fun id edit hedit => ?body⟩
    case edits =>
      rw [h.edits]
      simp only [ProfileState.setEdit]
      by_cases hid : id = other
      · subst hid
        rw [hfree, Function.update_self]
        rfl
      · rw [Function.update_of_ne hid]
    case body =>
      rcases update_eq_some_iff.mp hedit with ⟨-, rfl⟩ | ⟨-, hedit⟩
      · exact ⟨input, hbody⟩
      · exact h.bodies id edit hedit
  | find id =>
    obtain ⟨profile, hprofile, rfl⟩ := (step_profile rfl).mp hstep
    obtain ⟨userId, dto, hedit, ⟨huser, rfl⟩ | ⟨existing, huser, rfl⟩⟩ := step_find.mp hprofile
    · exact h.call hedit rfl rfl (by simp only [editAlone, huser])
    · exact ⟨[], n, rfl, h.keep rfl rfl hedit rfl rfl⟩
  | update id =>
    obtain ⟨profile, hprofile, rfl⟩ := (step_profile rfl).mp hstep
    obtain ⟨userId, dto, existing, users, hedit, husers, rfl⟩ := step_update.mp hprofile
    obtain ⟨row, hrow, homitted⟩ := hlabel _ hedit existing rfl
    have hrow : findUserById s.profile.users userId = some row := hrow
    rw [edited_eq_of_omittedStand homitted] at husers
    have hafter := findUserById_edited dto row s.profile.clock hrow
    rw [husers, hafter, Option.map_some]
    refine h.call hedit rfl (settled_afterUpdate existing _) ?_
    simp only [editAlone, hrow]
  | delete id =>
    obtain ⟨profile, hprofile, rfl⟩ := (step_profile rfl).mp hstep
    obtain ⟨userId, dto, oldKey, updated, hedit, rfl⟩ := step_delete.mp hprofile
    exact ⟨[], n, rfl, h.keep rfl rfl hedit rfl rfl⟩

end Follows

/-- What has caught up with a run has its tables and answers. -/
theorem Follows.serialized (h : Follows parseUrl s n) : Serialized s n where
  tables := h.tables
  removals := h.removals
  answers id userId dto answer hedit := by
    rw [h.edits, hedit]
    rfl
  started id userId dto phase hedit := by
    rw [h.edits] at hedit
    obtain ⟨edit, hown, hsettled⟩ := Option.bind_eq_some_iff.mp hedit
    obtain ⟨answer, hanswer, heq⟩ := Option.map_eq_some_iff.mp hsettled
    cases heq
    refine ⟨⟨answer, rfl⟩, edit.phase, hown, fun hfind => ?_, fun existing hupdate => ?_⟩
    · rw [hfind] at hanswer
      cases hanswer
    · rw [hupdate] at hanswer
      cases hanswer

/-- The update of an edit that meets its own read takes effect. -/
theorem takesEffect_iff {label : AccountLabel} : MeetsOwnRead s label ↔
    TakesEffect publicUrlPrefix parseUrl s label := by
  cases label with
  | tick | remove | edit | find | delete => exact Iff.rfl
  | update id =>
    have hstep (userId : String) (dto : UpdateProfileDto) (existing : User)
        (hedit : s.profile.edits id = some ⟨userId, dto, .update existing⟩) :
        ∃ t, (accounts publicUrlPrefix parseUrl).step s (.update id) = some t ∧
          t.profile.users = s.profile.users.map fun row =>
            if row.id = userId then edited dto existing s.profile.clock row else row :=
      ⟨_, (step_profile rfl).mpr ⟨_, step_update.mpr ⟨userId, dto, existing, _, hedit, rfl, rfl⟩,
        rfl⟩, rfl⟩
    constructor
    · intro h userId dto existing t hedit ht
      obtain ⟨row, hrow, homitted⟩ := h _ hedit existing rfl
      obtain ⟨t', ht', husers⟩ := hstep userId dto existing hedit
      obtain rfl := Option.some.inj (ht.symm.trans ht')
      refine ⟨row, edited dto row s.profile.clock row, hrow, ?_, rfl, rfl, rfl⟩
      rw [husers, findUserById_edited dto existing s.profile.clock hrow,
        edited_eq_of_omittedStand homitted]
    · rintro h ⟨userId, dto, phase⟩ hedit existing hexisting
      obtain rfl := eq_update_of_existing hexisting
      obtain ⟨t, ht, husers⟩ := hstep userId dto existing hedit
      obtain ⟨row, after, hrow, hafter, hstores⟩ := h userId dto existing t hedit ht
      rw [husers, findUserById_edited dto existing s.profile.clock hrow,
        Option.some.injEq] at hafter
      subst hafter
      have hname : dto.name = none → row.name = existing.name := by
        intro hdto
        simpa only [edited, hdto, Option.none_or] using hstores.name.symm
      have hdisplayName : dto.displayName = none → row.displayName = existing.displayName := by
        intro hdto
        simpa only [edited, hdto, Option.none_or] using hstores.displayName.symm
      have havatarUrl : dto.avatarUrl = none → row.avatarUrl = existing.avatarUrl := by
        intro hdto
        simpa only [edited, nextAvatarUrl, hdto, Option.none_or, reduceCtorEq, if_false]
          using hstores.avatarUrl.symm
      exact ⟨row, hrow, hname, hdisplayName, havatarUrl⟩

end Simulation

/-- In every run of edits and removals, every edit takes effect on the fields of its body alone
exactly if at every update the row is there with the omitted fields as they were read. Then the
run ends in the tables and the answers of its calls in a sequential order. -/
theorem edits_serializable (publicUrlPrefix : String) (parseUrl : String → Option String)
    (clock : Nat) (tables : AccountTables) (labels : List AccountLabel) (t : AccountState)
    (hrun : (accounts publicUrlPrefix parseUrl).exec (.initial clock tables) labels = some t) :
    ((accounts publicUrlPrefix parseUrl).Meets MeetsOwnRead (.initial clock tables) labels ↔
      (accounts publicUrlPrefix parseUrl).Meets (TakesEffect publicUrlPrefix parseUrl)
        (.initial clock tables) labels) ∧
    ((accounts publicUrlPrefix parseUrl).Meets MeetsOwnRead (.initial clock tables) labels →
      ∃ calls serial, (serialAccounts publicUrlPrefix parseUrl).exec (.initial clock tables)
        calls = some serial ∧ Serialized t serial) := by
  constructor
  · exact (accounts publicUrlPrefix parseUrl).meets_iff_of_invariant (P := fun _ => True)
      (fun _ _ _ _ _ _ => trivial) (fun _ _ _ => takesEffect_iff) trivial labels
  · intro hmeets
    obtain ⟨calls, serial, hcalls, hfollows⟩ := (accounts publicUrlPrefix parseUrl).exec_refines
      (serialAccounts publicUrlPrefix parseUrl) (Follows parseUrl)
      (fun _ _ _ _ hfollows hlabel hstep => hfollows.step hlabel hstep)
      (Follows.initial clock tables) hmeets hrun
    exact ⟨calls, serial, hcalls, hfollows.serialized⟩

section Unseen

variable {publicUrlPrefix : String} {parseUrl : String → Option String}

/-- Every edit of a run was started by one of its labels. -/
theorem edit_mem_of_exec {clock : Nat} {tables : AccountTables} {labels : List AccountLabel}
    {s : AccountState}
    (hrun : (accounts publicUrlPrefix parseUrl).exec (.initial clock tables) labels = some s)
    {id : Nat} {edit : Edit} (h : s.profile.edits id = some edit) :
    ∃ userId input, .edit id userId input ∈ labels := by
  refine (accounts publicUrlPrefix parseUrl).exec_induction (C := fun _ _ => True)
    (P := fun labels s => ∀ edit, s.profile.edits id = some edit →
      ∃ userId input, .edit id userId input ∈ labels)
    (fun _ h => by cases h) ?_ (Machine.meets_of_forall _ fun _ _ => trivial) hrun edit h
  intro labels m label t _ ih _ hstep edit hedit
  have hold (old : Edit) (hold : m.profile.edits id = some old) :
      ∃ userId input, AccountLabel.edit id userId input ∈ labels ++ [label] := by
    obtain ⟨userId, input, hmem⟩ := ih old hold
    exact ⟨userId, input, List.mem_append_left _ hmem⟩
  have hset {other : Nat} {next : Edit} (hother : ∃ own, m.profile.edits other = some own)
      (hmoved : Function.update m.profile.edits other (some next) id = some edit) :
      ∃ userId input, AccountLabel.edit id userId input ∈ labels ++ [label] := by
    obtain ⟨own, hown⟩ := hother
    rcases update_eq_some_iff.mp hmoved with ⟨rfl, -⟩ | ⟨-, hsame⟩
    · exact hold own hown
    · exact hold edit hsame
  cases label with
  | tick ms =>
    obtain ⟨profile, hprofile, rfl⟩ := (step_profile rfl).mp hstep
    obtain rfl := Option.some.inj hprofile
    exact hold edit hedit
  | remove removal userId =>
    obtain ⟨-, ht⟩ := Option.ite_none_left_eq_some.mp hstep
    obtain rfl := Option.some.inj ht
    exact hold edit hedit
  | edit other userId input =>
    obtain ⟨profile, hprofile, rfl⟩ := (step_profile rfl).mp hstep
    obtain ⟨-, dto, -, rfl⟩ := step_edit.mp hprofile
    rcases update_eq_some_iff.mp hedit with ⟨rfl, -⟩ | ⟨-, hsame⟩
    · exact ⟨userId, input, List.mem_append_right _ (List.mem_singleton.mpr rfl)⟩
    · exact hold edit hsame
  | find other =>
    obtain ⟨profile, hprofile, rfl⟩ := (step_profile rfl).mp hstep
    obtain ⟨userId, dto, hown, ⟨-, rfl⟩ | ⟨existing, -, rfl⟩⟩ := step_find.mp hprofile
    · exact hset ⟨_, hown⟩ hedit
    · exact hset ⟨_, hown⟩ hedit
  | update other =>
    obtain ⟨profile, hprofile, rfl⟩ := (step_profile rfl).mp hstep
    obtain ⟨userId, dto, existing, users, hown, -, rfl⟩ := step_update.mp hprofile
    exact hset ⟨_, hown⟩ hedit
  | delete other =>
    obtain ⟨profile, hprofile, rfl⟩ := (step_profile rfl).mp hstep
    obtain ⟨userId, dto, oldKey, updated, hown, rfl⟩ := step_delete.mp hprofile
    exact hset ⟨_, hown⟩ hedit

/-- An edit by itself that is answered with a row wrote over the row that it met. -/
theorem editAlone_updated {users : List User} {userId : String} {dto : UpdateProfileDto} {now : Nat}
    {user : SafeUser} (h : (editAlone users userId dto now).2 = .updated (some user)) :
    ∃ row ∈ users, row.id = userId ∧ user = safeReturning (edited dto row now row) ∧
      ∀ after ∈ (editAlone users userId dto now).1, after.id = userId →
        after.name = dto.name.or row.name ∧ after.avatarUrl = nextAvatarUrl dto row := by
  cases hrow : findUserById users userId with
  | none =>
    simp only [editAlone, hrow] at h
    cases h
  | some row =>
    simp only [editAlone, hrow, EditAnswer.updated.injEq, Option.some.injEq] at h
    refine ⟨row, List.mem_of_find?_eq_some hrow, id_of_findUserById hrow, h.symm, ?_⟩
    simp only [editAlone, hrow, List.mem_map]
    rintro after ⟨other, -, rfl⟩ hid
    by_cases hother : other.id = userId
    · rw [if_pos hother]
      exact ⟨rfl, rfl⟩
    · rw [if_neg hother] at hid
      exact absurd hid hother

/-- Of two edits that store a name and an avatar, the later one in a sequential order is answered
with what the other one has stored. -/
theorem not_serialized_of_unseen {s serial : AccountState} {clock : Nat} {tables : AccountTables}
    {calls : List AccountCall} {first second : SafeUser} (userId name url : String)
    (hurl : url ≠ "")
    (hfirst : s.profile.edits 0 =
      some ⟨userId, ⟨some name, none, none⟩, .done (.updated (some first))⟩)
    (hsecond : s.profile.edits 1 =
      some ⟨userId, ⟨none, none, some url⟩, .done (.updated (some second))⟩)
    (honly : ∀ id edit, s.profile.edits id = some edit → id = 0 ∨ id = 1)
    (havatar : first.avatarUrl ≠ some url) (hname : second.name ≠ some name)
    (hcalls : (serialAccounts publicUrlPrefix parseUrl).exec (.initial clock tables) calls =
      some serial) : ¬ Serialized s serial := by
  intro hserial
  have hanswerFirst := hserial.answers _ _ _ _ hfirst
  have hanswerSecond := hserial.answers _ _ _ _ hsecond
  -- The induction is over the prefixes of the order, whose edits are those of the whole order.
  have hinvariant := (serialAccounts publicUrlPrefix parseUrl).exec_invariant
    (P := fun m => (∀ id edit, m.profile.edits id = some edit →
        serial.profile.edits id = some edit) →
      (m.profile.edits 0 ≠ none → ∀ row ∈ m.profile.users, row.id = userId →
        row.name = some name) ∧
      (m.profile.edits 1 ≠ none → ∀ row ∈ m.profile.users, row.id = userId →
        row.avatarUrl = some url) ∧
      (m.profile.edits 0 = none ∨ m.profile.edits 1 = none))
    (s := .initial clock tables)
    (fun _ => ⟨fun h => absurd rfl h, fun h => absurd rfl h, Or.inl rfl⟩) ?step hcalls
  case step =>
    intro m call n hm hstep hedits
    rcases serial_step_cases hstep with ⟨hsame, hrows⟩ |
      ⟨id, editId, dto, hfree, husers, hupdate⟩
    · rw [hsame] at hedits ⊢
      obtain ⟨hnames, havatars, hone⟩ := hm hedits
      exact ⟨fun h row hrow => hnames h row (hrows row hrow),
        fun h row hrow => havatars h row (hrows row hrow), hone⟩
    · have hbefore : ∀ other edit, m.profile.edits other = some edit →
          serial.profile.edits other = some edit := by
        intro other edit hother
        refine hedits other edit ?_
        have hne : other ≠ id := by
          rintro rfl
          rw [hfree] at hother
          cases hother
        rw [hupdate, Function.update_of_ne hne, hother]
      obtain ⟨hnames, havatars, -⟩ := hm hbefore
      have hcalled := hedits id _ (by rw [hupdate, Function.update_self])
      obtain ⟨-, own, hown, -⟩ := hserial.started id editId dto _ hcalled
      rcases honly id _ hown with rfl | rfl
      · rw [hanswerFirst, Option.some.injEq, Edit.mk.injEq, EditPhase.done.injEq] at hcalled
        obtain ⟨rfl, rfl, hanswer⟩ := hcalled
        obtain ⟨row, hrow, hid, hshown, hafter⟩ := editAlone_updated hanswer.symm
        have habsent : m.profile.edits 1 = none := by
          by_contra hpresent
          exact havatar (hshown ▸ havatars hpresent row hrow hid)
        rw [husers, hupdate, Function.update_self, Function.update_of_ne (by decide), habsent]
        exact ⟨fun _ after hmem hafterId => (hafter after hmem hafterId).1,
          fun h => absurd rfl h, Or.inr rfl⟩
      · rw [hanswerSecond, Option.some.injEq, Edit.mk.injEq, EditPhase.done.injEq] at hcalled
        obtain ⟨rfl, rfl, hanswer⟩ := hcalled
        obtain ⟨row, hrow, hid, hshown, hafter⟩ := editAlone_updated hanswer.symm
        have habsent : m.profile.edits 0 = none := by
          by_contra hpresent
          exact hname (hshown ▸ hnames hpresent row hrow hid)
        have hnext : nextAvatarUrl ⟨none, none, some url⟩ row = some url :=
          if_neg fun h => hurl (Option.some.inj h)
        rw [husers, hupdate, Function.update_self, Function.update_of_ne (by decide), habsent]
        exact ⟨fun h => absurd rfl h,
          fun _ after hmem hafterId => (hafter after hmem hafterId).2.trans hnext, Or.inl rfl⟩
  obtain ⟨-, -, hnone | hnone⟩ := hinvariant fun _ _ h => h
  · rw [hanswerFirst] at hnone
    cases hnone
  · rw [hanswerSecond] at hnone
    cases hnone

end Unseen

/-- A user with an avatar in the bucket. -/
def pictured : User where
  id := "u"
  email := "ada@example.com"
  passwordHash := ""
  name := none
  displayName := some "ada"
  avatarUrl := some "https://media/old.png"
  githubId := none
  googleId := none
  isBanned := false
  role := .user
  createdAt := 0
  updatedAt := 0

/-- A URL check that knows one scheme. -/
def schemeOnly (text : String) : Option String :=
  if JsString.startsWith text "https://" then some text else none

/-- One user and no calls. -/
def oneUser : AccountTables := ⟨[pictured], [], [], []⟩

/-- The start of two edits, of the name and of the avatar. -/
def twoEdits : List AccountLabel :=
  [.edit 0 "u" ⟨some "Ada", none, none⟩, .edit 1 "u" ⟨none, none, some "https://cdn/new.png"⟩]

/-- The edits run one after the other. -/
def apart : List AccountLabel := twoEdits ++ [.find 0, .update 0, .find 1, .update 1, .delete 1]

/-- The edit of the avatar runs between the read and the update of the edit of the name. -/
def crossed : List AccountLabel := twoEdits ++ [.find 0, .find 1, .update 1, .delete 1, .update 0]

/-- Where the first run ends. -/
def editsApart : AccountState :=
  (accounts "https://media/" schemeOnly).run (.initial 0 oneUser) apart (by decide +kernel)

/-- Where the second run ends. -/
def editsCrossed : AccountState :=
  (accounts "https://media/" schemeOnly).run (.initial 0 oneUser) crossed (by decide +kernel)

/-- Edits that run one after the other have the outcome of a sequential order. -/
theorem edits_serializable_apart :
    (editsApart.profile.users.map fun user => (user.name, user.avatarUrl)) =
      [(some "Ada", some "https://cdn/new.png")] ∧
    ∃ calls serial, (serialAccounts "https://media/" schemeOnly).exec (.initial 0 oneUser) calls =
      some serial ∧ Serialized editsApart serial := by
  have hmeets : (accounts "https://media/" schemeOnly).Meets MeetsOwnRead (.initial 0 oneUser)
      apart := by decide +kernel
  exact ⟨by decide +kernel, (edits_serializable "https://media/" schemeOnly 0 oneUser apart
    editsApart (Machine.exec_run ..)).2 hmeets⟩

/-- The edit of the name puts back the avatar that the other one had replaced and whose object
it deleted, and no sequential order has this outcome. -/
theorem not_serializable_crossed :
    (editsCrossed.profile.users.map fun user => (user.name, user.avatarUrl)) =
      [(some "Ada", some "https://media/old.png")] ∧
    editsCrossed.profile.deleted = [("u", ["old.png"])] ∧
    ¬ ∃ calls serial, (serialAccounts "https://media/" schemeOnly).exec (.initial 0 oneUser) calls =
      some serial ∧ Serialized editsCrossed serial := by
  have hrun : (accounts "https://media/" schemeOnly).exec (.initial 0 oneUser) crossed =
      some editsCrossed := Machine.exec_run ..
  have honly : ∀ id edit, editsCrossed.profile.edits id = some edit → id = 0 ∨ id = 1 := by
    intro id edit hedit
    obtain ⟨userId, input, hmem⟩ := edit_mem_of_exec hrun hedit
    simp only [crossed, twoEdits, List.cons_append, List.nil_append, List.mem_cons,
      AccountLabel.edit.injEq, reduceCtorEq, List.not_mem_nil, or_false] at hmem
    exact hmem.imp And.left And.left
  let first := safeReturning { pictured with name := some "Ada" }
  let second := safeReturning { pictured with avatarUrl := some "https://cdn/new.png" }
  have hfirst : editsCrossed.profile.edits 0 =
      some ⟨"u", ⟨some "Ada", none, none⟩, .done (.updated (some first))⟩ := by decide +kernel
  have hsecond : editsCrossed.profile.edits 1 = some ⟨"u", ⟨none, none, some "https://cdn/new.png"⟩,
      .done (.updated (some second))⟩ := by decide +kernel
  refine ⟨by decide +kernel, by decide +kernel, ?_⟩
  rintro ⟨calls, serial, hcalls, hserial⟩
  exact not_serialized_of_unseen "u" "Ada" "https://cdn/new.png" (by decide) hfirst hsecond honly
    (by decide) (by decide) hcalls hserial

end VertexApi.Users
