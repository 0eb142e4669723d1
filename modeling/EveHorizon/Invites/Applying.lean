import EveHorizon.Invites.Granting

/-!
# Applying an invite

Both calls keep to what a session may execute, when what they have found is their invite.
-/

namespace EveHorizon.Invites

open Interleaving ReadCommitted List
open Auth (MembershipRole Membership)

variable {identity : VerifiedIdentity} {identityId : Text} {invite : OrgInvite}

section

variable {reading : TextReading} {operations : List InviteOperation}
  {basis : Nat → Option OrgInvite} {session : Nat} {store : InviteDb}

/-- What a call finds is what its invite is, and a sign-in does not find a higher role. -/
structure Promised (reading : TextReading) (operation : InviteOperation) (found : Option OrgInvite)
    (stmt : InviteStatement) (db : InviteDb) : Prop where
  reads : ∀ label, stmt.action = .query label → found = operation.finds reading db.committed
  roles : ∀ userId email clock, operation = .autoApplyOrgInviteByEmail userId email clock →
    ∀ attachment, stmt.action = .write (.upsertOrgMembership attachment) →
      Write.rejected (InviteWrite.upsertOrgMembership attachment) (db.view stmt.client) = false →
        ∀ role ∈ db.committed.orgRole attachment.orgId attachment.userId, rank role ≤ rank attachment.role

abbrev SafeCall {α : Type} (reading : TextReading) (operations : List InviteOperation)
    (basis : Nat → Option OrgInvite) (session : Nat) (operation : InviteOperation)
    (post : Except InviteError α → InviteDb → Prop) (call : InviteCall α) (db : InviteDb) : Prop :=
  call.SafeWhile (inviteDiscipline operations basis) (Promised reading operation (basis session))
    session post db

def Looked (basis : Nat → Option OrgInvite) (session now : Nat) :
    Except InviteError (Option OrgInvite) → InviteDb → Prop
  | .ok found, db => db.pending session = none ∧ basis session = found.filter fun invite => !invite.refused now
  | .error _, _ => True

theorem basis_of_looked {now : Nat} (looked : Looked basis session now (.ok (some invite)) store)
    (accepted : invite.refused now = false) : basis session = some invite := by
  rw [looked.2, Option.filter_some, accepted]
  rfl

variable {operation : InviteOperation} {change : InviteWrite}

theorem alone_safe (known : Contents → Prop) (closed : store.pending session = none)
    (allowed : ∀ found, Rely session store found → found.pending session = none →
      Promised reading operation (basis session) ⟨session, .write change⟩ found →
      mayWriteAlone operations basis session found.committed change)
    (writes : ∀ found, Rely session store found → Write.rejected change found.committed = false →
      known (Write.apply change found.committed)) :
    SafeCall reading operations basis session operation (fun result reached => match result with
      | .ok _ => reached.pending session = none ∧ known reached.committed
      | .error _ => True) (write session change .constraintViolation) store := by
  refine write_safe (fun found relied _ kept => ?_) (fun found relied _ accepted => ?_)
    fun _ _ => trivial
  · have isClosed := relied.own.trans closed
    refine ⟨rfl, ?_⟩
    dsimp only
    rw [isClosed]
    exact allowed found relied isClosed kept
  · have isClosed := relied.own.trans closed
    rw [Database.write_closed isClosed accepted]
    rw [Database.view_closed isClosed] at accepted
    exact ⟨isClosed, writes found relied accepted⟩

variable {userId email : Text} {clock : Clock}

theorem attach_safe (named : operations[session]? = some (.autoApplyOrgInviteByEmail userId email clock))
    (found : basis session = some invite) (closed : store.pending session = none) :
    SafeCall reading operations basis session (.autoApplyOrgInviteByEmail userId email clock)
      (fun result reached => match result with
        | .ok _ => reached.pending session = none ∧ reached.committed.hasUser userId = true
        | .error _ => True)
      (write session (.upsertOrgMembership (invite.attachment session userId)) .constraintViolation)
      store := by
  refine alone_safe (fun contents => contents.hasUser userId = true) closed
    (fun db relied isClosed kept => ?_) fun db relied accepted => ?_
  · refine ⟨rfl, ⟨_, invite, named, found, rfl⟩, fun isUser => ?_⟩
    refine kept.roles userId email clock rfl _ rfl ?_
    change (!(db.view session).hasUser userId) = false
    rw [Database.view_closed isClosed, Bool.not_eq_false']
    exact isUser
  · have known : db.committed.hasUser userId = true := by
      simpa [Write.rejected, InviteWrite.rejected, OrgInvite.attachment] using accepted
    exact hasUser_apply _ known

theorem emit_safe {event : MemberAttached} (closed : store.pending session = none) :
    SafeCall reading operations basis session operation (fun _ _ => True)
      (emitDomainSignupEvent session event) store := by
  have created : SafeCall reading operations basis session operation _
      (write session (.createEvent event) .constraintViolation) store :=
    alone_safe (fun _ => True) closed (fun _ _ _ _ => trivial) fun _ _ _ => trivial
  exact created.handle (fun _ _ _ => trivial) fun _ _ _ => trivial

theorem attempt_safe {call : InviteCall InviteResult}
    (safe : SafeCall reading operations basis session operation (fun _ _ => True) call store) :
    SafeCall reading operations basis session operation (fun _ _ => True)
      (call.handle fun error => return .notApplied (some error)) store :=
  safe.handle (fun _ _ _ => trivial) fun _ _ _ => trivial

theorem lookup_safe (closed : store.pending session = none) :
    SafeCall reading operations basis session (.autoApplyOrgInviteByEmail userId email clock)
      (Looked basis session clock.checked) (query session (.findByIdentityHint "supabase".toList email) fun contents =>
        contents.findByIdentityHint reading "supabase".toList email clock.found) store := by
  refine query_safe fun found relied _ kept => ?_
  have isClosed := relied.own.trans closed
  refine ⟨⟨rfl, trivial⟩, isClosed, ?_⟩
  rw [Database.view_closed isClosed]
  exact kept.reads _ rfl

theorem autoApply_safe (named : operations[session]? = some (.autoApplyOrgInviteByEmail userId email clock))
    (closed : store.pending session = none) :
    SafeCall reading operations basis session (.autoApplyOrgInviteByEmail userId email clock)
      (fun _ _ => True) (autoApplyOrgInviteByEmail reading session userId email clock) store := by
  refine attempt_safe ((lookup_safe closed).bind (fun found reached looked => ?_) fun _ _ _ => trivial)
  cases found with
  | none => trivial
  | some invite =>
    dsimp only
    cases refused : invite.refused clock.checked with
    | true => trivial
    | false =>
      have isInvite := basis_of_looked looked refused
      rw [if_neg Bool.false_ne_true]
      refine Call.SafeWhile.bind (attach_safe named isInvite looked.1) (fun _ attached known => ?_) fun _ _ _ => trivial
      refine Call.SafeWhile.bind (alone_safe (fun _ => True) known.1
        (fun db relied _ _ => ⟨⟨invite, isInvite, rfl⟩, relied.users _ known.2⟩)
        fun _ _ _ => trivial) (fun _ marked since => ?_) fun _ _ _ => trivial
      cases memberAttached reading invite userId email with
      | none => trivial
      | some event =>
        exact (emit_safe since.1).bind (fun _ _ _ => trivial) fun _ _ _ => trivial

theorem findInvite_safe (closed : store.pending session = none) :
    SafeCall reading operations basis session (.provisionViaInvite identity userId identityId clock)
      (Looked basis session clock.checked) (findInvite reading session identity clock) store := by
  rw [findInvite]
  cases code : identity.inviteCode.filter (· ≠ []) with
  | some code =>
    refine query_safe fun found relied _ kept => ?_
    have isClosed := relied.own.trans closed
    refine ⟨⟨rfl, trivial⟩, isClosed, ?_⟩
    have reads := kept.reads _ rfl
    rw [InviteOperation.finds, ‹identity.inviteCode.filter _ = _›] at reads
    rw [Database.view_closed isClosed]
    exact reads
  | none =>
    refine query_safe fun found relied _ kept => ?_
    have isClosed := relied.own.trans closed
    refine ⟨⟨rfl, trivial⟩, isClosed, ?_⟩
    have reads := kept.reads _ rfl
    rw [InviteOperation.finds, code] at reads
    rw [Database.view_closed isClosed]
    exact reads

variable {script : Script}

theorem script_safe {changes : List InviteWrite} (scripted : Scripted operations basis session script)
    (opened : store.pending session = some changes) (within : changes ++ [change] <+: script.writes session) :
    SafeCall reading operations basis session operation (fun result reached => match result with
      | .ok _ => reached.pending session = some (changes ++ [change])
      | .error _ => True) (write session change .constraintViolation) store := by
  refine write_safe (fun found relied _ _ => ?_) (fun found relied _ accepted => ?_)
    fun _ _ => trivial
  · refine ⟨rfl, ?_⟩
    dsimp only
    rw [relied.own.trans opened]
    exact ⟨script, scripted, within⟩
  · rw [Database.write_open (relied.own.trans opened) accepted]
    exact Database.pending_push_self (relied.own.trans opened)

def Provisioned (session : Nat) (script : Script) : Except InviteError InviteResult → InviteDb → Prop
  | .ok _, db => db.pending session = some (script.writes session)
  | .error _, _ => True

theorem provision_safe (scripted : Scripted operations basis session script)
    (opened : store.pending session = some []) :
    SafeCall reading operations basis session operation (Provisioned session script)
      (provision session script.identity script.userId script.identityId script.clock script.invite) store := by
  have within (count : Nat) : (script.writes session).take count <+: script.writes session := take_prefix count _
  refine Call.SafeWhile.bind (script_safe scripted opened (within 1)) (fun _ _ created => ?_)
    fun _ _ _ => trivial
  refine Call.SafeWhile.bind (script_safe scripted created (within 2)) (fun _ _ identified => ?_)
    fun _ _ _ => trivial
  refine Call.SafeWhile.bind (script_safe scripted identified (within 3)) (fun _ _ attached => ?_)
    fun _ _ _ => trivial
  refine Call.SafeWhile.bind (script_safe scripted attached (within 4)) (fun _ _ marked => ?_)
    fun _ _ _ => trivial
  exact marked

theorem provisionViaInvite_safe
    (named : operations[session]? = some (.provisionViaInvite identity userId identityId clock))
    (closed : store.pending session = none) :
    SafeCall reading operations basis session (.provisionViaInvite identity userId identityId clock)
      (fun _ _ => True) (provisionViaInvite reading session identity userId identityId clock) store := by
  refine Call.SafeWhile.bind (findInvite_safe closed) (fun found reached looked => ?_)
    fun _ _ _ => trivial
  cases found with
  | none => trivial
  | some invite =>
    dsimp only
    cases refused : invite.refused clock.checked with
    | true => trivial
    | false =>
      rw [if_neg Bool.false_ne_true]
      have scripted : Scripted operations basis session
          ⟨identity, userId, identityId, clock, invite⟩ := ⟨named, basis_of_looked looked refused⟩
      refine transaction_safe (Provisioned session ⟨identity, userId, identityId, clock, invite⟩)
        (fun db relied _ => ?_) (fun _ last written db relied _ => ?_)
        (fun _ => ⟨rfl, trivial⟩) fun _ _ => trivial
      · refine ⟨⟨rfl, _, scripted⟩, provision_safe scripted ?_⟩
        have isClosed := relied.own.trans looked.1
        dsimp only [Statement.effect]
        rw [isClosed, Option.isSome_none, if_neg Bool.false_ne_true]
        exact Database.pending_start_self isClosed
      · exact ⟨⟨rfl, _, scripted, relied.own.trans written⟩, trivial⟩

theorem call_safe (named : operations[session]? = some operation) (closed : store.pending session = none) :
    SafeCall reading operations basis session operation (fun _ _ => True) (operation.call reading session) store := by
  cases operation with
  | autoApplyOrgInviteByEmail userId email clock => exact autoApply_safe named closed
  | provisionViaInvite identity userId identityId clock => exact provisionViaInvite_safe named closed

end

section

variable {reading : TextReading}

def isQuery (stmt : InviteStatement) : Bool :=
  match stmt.action with
  | .query _ => true
  | _ => false

def QueriesFirst (steps : List (InviteStatement × InviteDb)) (stmt : InviteStatement) : Prop :=
  isQuery stmt = true → steps = []

abbrev NoQuery (stmt : InviteStatement) : Prop := isQuery stmt = false

theorem NoQuery.recalls {α : Type} {call : InviteCall α} (issues : call.Issues NoQuery)
    (steps : List (InviteStatement × InviteDb)) : call.Recalls QueriesFirst (fun _ _ => True) steps := by
  refine issues.recalls fun stmt other steps isRead => ?_
  rw [other] at isRead
  cases isRead

variable {client : Nat}

theorem query_recalls {label : InviteQuery} {report : Contents → Option OrgInvite}
    {rest : Option OrgInvite → InviteCall InviteResult} (issues : ∀ found, (rest found).Issues NoQuery) :
    (query client label report >>= rest).Recalls QueriesFirst (fun _ _ => True) [] :=
  Call.recalls_perform_bind (fun _ => rfl) fun _ => NoQuery.recalls (issues _) _

theorem write_unread (client : Nat) (change : InviteWrite) :
    (write client change .constraintViolation : InviteCall Unit).Issues NoQuery :=
  write_issues rfl

variable {userId : Text} {clock : Clock}

theorem provision_issues : (provision client identity userId identityId clock invite).Issues NoQuery := by
  refine (write_unread client _).bind fun _ => (write_unread client _).bind fun _ => ?_
  exact (write_unread client _).bind fun _ => (write_unread client _).bind fun _ => trivial

def provisionFound (client : Nat) (identity : VerifiedIdentity) (userId identityId : Text) (clock : Clock) :
    Option OrgInvite → InviteCall InviteResult
  | none => return .notProvisioned
  | some invite =>
    if invite.refused clock.checked then return .notProvisioned
    else transaction client (provision client identity userId identityId clock invite)

theorem provisionViaInvite_eq (client : Nat) (identity : VerifiedIdentity) (userId identityId : Text) (clock : Clock) :
    provisionViaInvite reading client identity userId identityId clock =
      findInvite reading client identity clock >>= provisionFound client identity userId identityId clock := by
  refine congrArg (Bind.bind _) (funext fun found => ?_)
  cases found with
  | none => rfl
  | some invite => rfl

theorem provisionFound_issues {session : Nat} (found : Option OrgInvite) :
    (provisionFound session identity userId identityId clock found).Issues NoQuery := by
  cases found with
  | none => trivial
  | some invite =>
    rw [provisionFound]
    split
    · trivial
    · exact transaction_issues rfl rfl rfl provision_issues

/-- A provisioning that fails leaves no user, identity or membership, and the invite unmarked. -/
theorem failed_provision_undone (client : Nat) (identity : VerifiedIdentity) (userId identityId : Text)
    (clock : Clock) (db : InviteDb) (closed : db.pending client = none) :
    UndoneOnError (provisionViaInvite reading client identity userId identityId clock) db := by
  have within (change : InviteWrite) :
      (write client change .constraintViolation : InviteCall Unit).Issues (Inside client) :=
    write_issues ⟨rfl, trivial⟩
  have undone (found : Option OrgInvite) :
      UndoneOnError (provisionFound client identity userId identityId clock found) db := by
    cases found with
    | none => exact fun _ _ => rfl
    | some invite =>
      rw [provisionFound]
      split
      · exact fun _ _ => rfl
      · refine transaction_undone ?_ closed
        exact (within _).bind fun _ => (within _).bind fun _ => (within _).bind fun _ => (within _).bind fun _ =>
          trivial
  rw [provisionViaInvite_eq, findInvite]
  split
  · exact undone _
  · exact undone _

theorem call_recalls (session : Nat) (operation : InviteOperation) :
    (operation.call reading session).Recalls QueriesFirst (fun _ _ => True) [] := by
  cases operation with
  | autoApplyOrgInviteByEmail userId email clock =>
    refine Call.Heeds.free_handle (query_recalls fun found => ?_) fun _ _ => trivial
    cases found with
    | none => trivial
    | some invite =>
      dsimp only
      split
      · trivial
      · refine (write_unread session _).bind fun _ => (write_unread session _).bind fun _ => ?_
        split
        · trivial
        · refine Call.Issues.bind ?_ fun _ => trivial
          exact (write_unread session _).handle fun _ => trivial
  | provisionViaInvite identity userId identityId clock =>
    rw [InviteOperation.call, provisionViaInvite_eq, findInvite]
    split
    · exact query_recalls provisionFound_issues
    · exact query_recalls provisionFound_issues

end

section

variable {reading : TextReading} {contents : Contents} {inviteId : Text}

def Contents.Used (contents : Contents) (inviteId : Text) : Prop :=
  ∀ invite ∈ contents.invites, invite.id = inviteId → invite.usedAt.isSome = true

theorem used_apply (used : contents.Used inviteId) (change : InviteWrite) :
    (Write.apply change contents).Used inviteId := by
  cases change with
  | markUsed other userId now =>
    intro invite member named
    obtain ⟨old, present, rfl⟩ := mem_map.mp member
    split
    · rfl
    · rename_i unmarked
      rw [if_neg unmarked] at named
      exact used old present named
  | _ => exact used

theorem used_markUsed (contents : Contents) (inviteId userId : Text) (now : Nat) :
    (Write.apply (InviteWrite.markUsed inviteId userId now) contents).Used inviteId := by
  intro invite member named
  obtain ⟨old, present, rfl⟩ := mem_map.mp member
  split
  · rfl
  · rename_i unmarked
    rw [if_neg unmarked] at named
    exact absurd (beq_iff_eq.mpr named) unmarked

theorem used_effect {db : InviteDb} (used : db.committed.Used inviteId) (stmt : InviteStatement) :
    (Statement.effect stmt db).committed.Used inviteId :=
  Database.committed_keeps (·.Used inviteId) (fun change _ used => used_apply used change) stmt used

variable {invite : OrgInvite}

theorem newest_mem {invites : List OrgInvite} (found : newest invites = some invite) : invite ∈ invites := by
  induction invites with
  | nil => cases found
  | cons first rest ih =>
    rw [newest] at found
    cases others : newest rest with
    | none =>
      rw [others] at found
      cases found
      exact mem_cons_self
    | some other =>
      rw [others] at found
      dsimp only at found
      split at found
      · cases found
        exact mem_cons_of_mem _ (ih others)
      · cases found
        exact mem_cons_self

theorem mem_of_findByIdentityHint {provider hint : Text} {now : Nat}
    (found : contents.findByIdentityHint reading provider hint now = some invite) : invite ∈ contents.invites :=
  mem_of_mem_filter (newest_mem found)

theorem unused_of_finds {operation : InviteOperation}
    (finds : operation.finds reading contents = some invite) : ¬ contents.Used invite.id := by
  intro used
  have open_of {now : Nat} (accepted : (!invite.refused now) = true)
      (member : invite ∈ contents.invites) : False := by
    have isUsed := used invite member rfl
    rw [OrgInvite.refused, isUsed] at accepted
    cases accepted
  cases operation with
  | autoApplyOrgInviteByEmail userId email clock =>
    obtain ⟨found, accepted⟩ := Option.filter_eq_some_iff.mp finds
    exact open_of accepted (mem_of_findByIdentityHint found)
  | provisionViaInvite identity userId identityId clock =>
    obtain ⟨found, accepted⟩ := Option.filter_eq_some_iff.mp finds
    refine open_of accepted ?_
    split at found
    · exact mem_of_find?_eq_some found
    · exact mem_of_findByIdentityHint found

variable {operations : List InviteOperation} {basis : Nat → Option OrgInvite}
  {execution : Execution InviteStatement InviteDb}

section

variable (allowed : mayExecute operations basis execution.session execution.statement execution.before)
include allowed

theorem used_of_marks (marks : Marks execution) (found : basis execution.session = some invite) :
    (Statement.effect execution.statement execution.before).committed.Used invite.id := by
  obtain ⟨session, ⟨client, action⟩, before, after⟩ := execution
  dsimp only at allowed
  obtain ⟨same, may⟩ := allowed
  cases same
  rcases marks with isCommit | ⟨inviteId, userId, now, isWrite, closed⟩
  · cases isCommit
    obtain ⟨script, scripted, opened⟩ := may
    rw [scripted.found] at found
    cases found
    change (before.view client).Used script.invite.id
    rw [Database.view_open opened]
    exact used_markUsed _ _ _ _
  · cases isWrite
    dsimp only at may closed
    rw [closed] at may
    obtain ⟨⟨own, isOwn, rfl⟩, known⟩ := may
    dsimp only at found
    rw [isOwn] at found
    cases found
    have accepted : Write.rejected (InviteWrite.markUsed invite.id userId now) (before.view client) = false := by
      rw [Database.view_closed closed]
      change (!before.committed.hasUser userId && _) = false
      rw [known]
      rfl
    change (before.write client (.markUsed invite.id userId now)).committed.Used invite.id
    rw [Database.write_closed closed accepted]
    exact used_markUsed _ _ _ _

theorem backed_of_wrote {attachment : Attachment}
    (wrote : Wrote execution (InviteWrite.upsertOrgMembership attachment)) :
    attachment.session = execution.session ∧ Backed operations basis attachment := by
  obtain ⟨session, ⟨client, action⟩, before, after⟩ := execution
  dsimp only at allowed
  obtain ⟨same, may⟩ := allowed
  cases same
  have isWrite : action = .write (.upsertOrgMembership attachment) := wrote.1
  rw [isWrite] at may
  dsimp only at may
  cases opened : before.pending client with
  | none =>
    rw [opened] at may
    exact ⟨may.1, may.2.1⟩
  | some changes =>
    rw [opened] at may
    obtain ⟨script, scripted, within⟩ := may
    have member : InviteWrite.upsertOrgMembership attachment ∈ script.writes client :=
      within.subset (mem_append_right _ (mem_singleton_self _))
    have isAttachment : attachment = script.invite.attachment client script.userId := by
      simpa [Script.writes] using member
    rw [isAttachment]
    exact ⟨rfl, _, script.invite, scripted.named, scripted.found, rfl⟩

end

end

end EveHorizon.Invites
