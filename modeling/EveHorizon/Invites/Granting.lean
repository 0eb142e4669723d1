import EveHorizon.Invites.Invites

/-!
# What invites grant

A call grants from the invite that it has found open, and marks it.
-/

namespace EveHorizon.Invites

open Interleaving ReadCommitted List Statement
open Auth (MembershipRole Membership)

variable (reading : TextReading)

def InviteOperation.finds : InviteOperation → Contents → Option OrgInvite
  | .autoApplyOrgInviteByEmail _ email clock, contents =>
    (contents.findByIdentityHint reading "supabase".toList email clock.found).filter fun invite =>
      !invite.refused clock.checked
  | .provisionViaInvite identity _ _ clock, contents =>
    Option.filter (fun invite => !invite.refused clock.checked)
      (match identity.inviteCode.filter (· ≠ []) with
        | some code => contents.findByCode code
        | none =>
          contents.findByIdentityHint reading identity.provider identity.externalId clock.found)

section

variable (operations : List InviteOperation)

def Finds (execution : Execution InviteStatement InviteDb) (operation : InviteOperation)
    (invite : OrgInvite) : Prop :=
  (∃ label, execution.statement.action = .query label) ∧ operations[execution.session]? = some operation ∧
      operation.finds reading execution.before.committed = some invite

def Marks (execution : Execution InviteStatement InviteDb) : Prop :=
  execution.statement.action = .commit ∨
    ∃ inviteId userId now, execution.statement.action = .write (.markUsed inviteId userId now) ∧
      execution.before.pending execution.session = none

structure Unraced (trace : InviteTrace) : Prop where
  /-- Between finding an invite and granting from it, no grant of another user from it. -/
  alone : ∀ earlier found middle granting later,
    trace = earlier ++ found :: middle ++ granting :: later → found.session = granting.session →
      ∀ operation invite, Finds reading operations found operation invite →
        ∀ attachment, Wrote granting (.upsertOrgMembership attachment) →
          ∀ other ∈ middle, ∀ made, Wrote other (.upsertOrgMembership made) →
            made.inviteId = attachment.inviteId → made.userId = attachment.userId
  /-- An invite that another user has been granted from is found open only after it is marked. -/
  marked : ∀ earlier granting middle found later, trace = earlier ++ granting :: middle ++ found :: later →
      ∀ made, Wrote granting (.upsertOrgMembership made) →
        ∀ operation invite, Finds reading operations found operation invite →
          invite.id = made.inviteId → operation.userId ≠ made.userId →
            ∃ marking ∈ middle, marking.session = granting.session ∧ Marks marking

def FindsNoHigherRole (trace : InviteTrace) : Prop :=
  ∀ execution ∈ trace, ∀ userId email clock,
    operations[execution.session]? = some (.autoApplyOrgInviteByEmail userId email clock) →
      ∀ attachment, Wrote execution (.upsertOrgMembership attachment) →
        ∀ role ∈ execution.before.committed.orgRole attachment.orgId attachment.userId, rank role ≤ rank attachment.role

end

structure Contents.Consistent (contents : Contents) : Prop where
  ungranted : contents.grants = []
  members : ∀ row ∈ contents.memberships, contents.hasUser row.userId = true

structure Script where
  identity : VerifiedIdentity
  userId : Text
  identityId : Text
  clock : Clock
  invite : OrgInvite

def Script.writes (script : Script) (session : Nat) : List InviteWrite :=
  [.createUser ⟨script.userId, syntheticEmail script.identity, script.identity.displayName⟩,
    .createIdentity ⟨script.identityId, script.userId, script.identity.provider, script.identity.externalId⟩,
    .upsertOrgMembership (script.invite.attachment session script.userId),
    .markUsed script.invite.id script.userId script.clock.marked]

section

variable (operations : List InviteOperation) (basis : Nat → Option OrgInvite)

structure Scripted (session : Nat) (script : Script) : Prop where
  named : operations[session]? = some (.provisionViaInvite script.identity script.userId script.identityId script.clock)
  found : basis session = some script.invite

/-- The attachment is of the user of the call, and of the invite that the call has found. -/
def Backed (attachment : Attachment) : Prop :=
  ∃ operation invite, operations[attachment.session]? = some operation ∧ basis attachment.session = some invite ∧
      attachment = invite.attachment attachment.session operation.userId

structure Settled (contents : Contents) : Prop where
  backed : ∀ grant ∈ contents.grants, Backed operations basis grant.toAttachment
  roles : ∀ grant ∈ contents.grants, ∀ role ∈ grant.previous, rank role ≤ rank grant.role
  members : ∀ row ∈ contents.memberships, contents.hasUser row.userId = true

structure Sound (db : InviteDb) : Prop where
  settled : Settled operations basis db.committed
  scripted : ∀ session changes, db.pending session = some changes →
    ∃ script, Scripted operations basis session script ∧ changes <+: script.writes session
  unknown : ∀ session changes, db.pending session = some changes → ∀ user,
    .createUser user ∈ changes → db.committed.hasUser user.id = false
  apart : db.Apart

def mayWriteAlone (session : Nat) (contents : Contents) : InviteWrite → Prop
  | .upsertOrgMembership attachment =>
    attachment.session = session ∧ Backed operations basis attachment ∧ (contents.hasUser attachment.userId = true →
        ∀ role ∈ contents.orgRole attachment.orgId attachment.userId, rank role ≤ rank attachment.role)
  | .markUsed inviteId userId _ =>
    (∃ invite, basis session = some invite ∧ inviteId = invite.id) ∧ contents.hasUser userId = true
  | .createEvent _ => True
  | _ => False

def mayExecute (session : Nat) (stmt : InviteStatement) (db : InviteDb) : Prop :=
  stmt.client = session ∧
    match stmt.action with
    | .query _ => True
    | .begin => ∃ script, Scripted operations basis session script
    | .write change =>
      match db.pending session with
      | none => mayWriteAlone operations basis session db.committed change
      | some changes => ∃ script, Scripted operations basis session script ∧
          changes ++ [change] <+: script.writes session
    | .commit => ∃ script, Scripted operations basis session script ∧ db.pending session = some (script.writes session)
    | .rollback => True

end

structure Rely (session : Nat) (before after : InviteDb) : Prop where
  own : after.pending session = before.pending session
  users : ∀ userId, before.committed.hasUser userId = true → after.committed.hasUser userId = true

namespace Rely

theorem refl (session : Nat) (db : InviteDb) : Rely session db db where
  own := rfl
  users _ known := known

theorem trans {session : Nat} {first second third : InviteDb} (before : Rely session first second)
    (after : Rely session second third) : Rely session first third where
  own := after.own.trans before.own
  users userId known := after.users userId (before.users userId known)

end Rely

variable {script : Script}

section

variable {operations : List InviteOperation} {basis : Nat → Option OrgInvite} {contents : Contents} {userId : Text}

theorem hasUser_apply (change : InviteWrite) (known : contents.hasUser userId = true) :
    (Write.apply change contents).hasUser userId = true := by
  cases change with
  | createUser user =>
    change (contents.users ++ [user]).any (·.id == userId) = true
    rw [any_append, Bool.or_eq_true]
    exact .inl known
  | _ => exact known

theorem orgRole_of_unknown (members : ∀ row ∈ contents.memberships, contents.hasUser row.userId = true) {orgId : Text}
    (unknown : contents.hasUser userId = false) : contents.orgRole orgId userId = none := by
  rw [Contents.orgRole, Option.map_eq_none_iff, find?_eq_none]
  intro row member isRow
  have same : row.userId = userId := by simpa using (Bool.and_eq_true_iff.mp isRow).2
  have known := members row member
  rw [same, unknown] at known
  cases known

theorem mem_upsertMembership {attachment : Attachment} {memberships : List Membership}
    {row : Membership} (member : row ∈ InviteWrite.upsertMembership attachment memberships) :
    row.userId = attachment.userId ∨ ∃ old ∈ memberships, row.userId = old.userId := by
  rw [InviteWrite.upsertMembership] at member
  split at member
  · obtain ⟨old, present, isRow⟩ := mem_map.mp member
    refine .inr ⟨old, present, ?_⟩
    rw [← isRow]
    split
    · rfl
    · rfl
  · cases mem_append.mp member with
    | inl old => exact .inr ⟨row, old, rfl⟩
    | inr new =>
      rw [mem_singleton.mp new]
      exact .inl rfl

section

variable (settled : Settled operations basis contents)
include settled

theorem Settled.apply (change : InviteWrite) (other : ∀ attachment, change ≠ .upsertOrgMembership attachment) :
    Settled operations basis (Write.apply change contents) := by
  cases change with
  | upsertOrgMembership attachment => exact absurd rfl (other attachment)
  | createUser user =>
    exact ⟨settled.backed, settled.roles, fun row member =>
      hasUser_apply (.createUser user) (settled.members row member)⟩
  | createIdentity identity => exact ⟨settled.backed, settled.roles, settled.members⟩
  | markUsed inviteId userId now | createEvent event => exact ⟨settled.backed, settled.roles, settled.members⟩

theorem Settled.attach (attachment : Attachment) (backed : Backed operations basis attachment)
    (known : contents.hasUser attachment.userId = true)
    (roles : ∀ role ∈ contents.orgRole attachment.orgId attachment.userId, rank role ≤ rank attachment.role) :
    Settled operations basis (Write.apply (InviteWrite.upsertOrgMembership attachment) contents) := by
  constructor
  · intro grant member
    cases mem_append.mp member with
    | inl old => exact settled.backed grant old
    | inr new =>
      rw [mem_singleton.mp new]
      exact backed
  · intro grant member
    cases mem_append.mp member with
    | inl old => exact settled.roles grant old
    | inr new =>
      rw [mem_singleton.mp new]
      exact roles
  · intro row member
    change contents.hasUser row.userId = true
    rcases mem_upsertMembership member with isNew | ⟨old, present, same⟩
    · rw [isNew]
      exact known
    · rw [same]
      exact settled.members old present

theorem Settled.provision {session : Nat} (scripted : Scripted operations basis session script)
    (unknown : contents.hasUser script.userId = false) :
    Settled operations basis (applyAll (script.writes session) contents) := by
  have created := settled.apply (.createUser
    ⟨script.userId, syntheticEmail script.identity, script.identity.displayName⟩) nofun
  have identified := created.apply (.createIdentity ⟨script.identityId, script.userId,
    script.identity.provider, script.identity.externalId⟩) nofun
  have attached := identified.attach (script.invite.attachment session script.userId)
    ⟨_, script.invite, scripted.named, scripted.found, rfl⟩ ?_ ?_
  · exact attached.apply (.markUsed script.invite.id script.userId script.clock.marked) nofun
  · change (contents.users ++ [_]).any (·.id == script.userId) = true
    rw [any_append]
    simp
  · intro role isRole
    change role ∈ contents.orgRole script.invite.orgId script.userId at isRole
    rw [orgRole_of_unknown settled.members unknown] at isRole
    cases isRole

end

end

section

variable {operations : List InviteOperation} {basis : Nat → Option OrgInvite} {db : InviteDb}
  {session : Nat}

theorem InviteWrite.blocks_comm (held other : InviteWrite) : Write.blocks held other = Write.blocks other held := by
  have symmetric (left right : Text) : (left == right) = (right == left) := BEq.comm
  cases held with
  | createUser user =>
    cases other with
    | createUser second =>
      change (user.id == second.id || user.email == second.email) = _
      rw [symmetric user.id, symmetric user.email]
      rfl
    | _ => rfl
  | createIdentity identity =>
    cases other with
    | createIdentity second =>
      change (identity.id == second.id ||
        (identity.provider == second.provider && identity.fingerprint == second.fingerprint)) = _
      rw [symmetric identity.id, symmetric identity.provider, symmetric identity.fingerprint]
      rfl
    | _ => rfl
  | upsertOrgMembership attachment =>
    cases other with
    | upsertOrgMembership second =>
      change (attachment.orgId == second.orgId && attachment.userId == second.userId) = _
      rw [symmetric attachment.orgId, symmetric attachment.userId]
      rfl
    | _ => rfl
  | markUsed inviteId userId now =>
    cases other with
    | markUsed second _ _ => exact symmetric inviteId second
    | _ => rfl
  | createEvent event => cases other <;> rfl

theorem hasUser_script {contents : Contents} (script : Script) (userId : Text) :
    (applyAll (script.writes session) contents).hasUser userId =
      (contents.hasUser userId || script.userId == userId) := by
  change (contents.users ++ [_]).any (·.id == userId) = _
  rw [any_append, any_cons, any_nil, Bool.or_false]
  rfl

theorem createUser_first {changes : List InviteWrite} {user : User}
    (within : changes ++ [.createUser user] <+: script.writes session) : changes = [] := by
  cases changes with
  | nil => rfl
  | cons first rest =>
    have later : InviteWrite.createUser user ∈ (script.writes session).tail := by
      obtain ⟨more, isWhole⟩ := within
      rw [← isWhole]
      simp
    simp [Script.writes] at later

variable {stmt : InviteStatement}

theorem users_effect {userId : Text} (known : db.committed.hasUser userId = true) :
    (effect stmt db).committed.hasUser userId = true :=
  Database.committed_keeps (·.hasUser userId = true) (fun change _ => hasUser_apply change) stmt known

theorem rely_effect {other : Nat} (different : session ≠ other)
    (allowed : mayExecute operations basis session stmt db) :
    Rely other db (effect stmt db) where
  own := Database.pending_effect stmt db fun same => different (allowed.1.symm.trans same.symm)
  users _ known := users_effect known

section

variable (sound : Sound operations basis db)
include sound

variable {change : InviteWrite}

theorem Sound.alone (allowed : mayWriteAlone operations basis session db.committed change)
    (accepted : Write.rejected change db.committed = false) :
    Settled operations basis (Write.apply change db.committed) ∧
      (Write.apply change db.committed).users = db.committed.users := by
  cases change with
  | upsertOrgMembership attachment =>
    have known : db.committed.hasUser attachment.userId = true := by
      simpa [Write.rejected, InviteWrite.rejected] using accepted
    exact ⟨sound.settled.attach attachment allowed.2.1 known (allowed.2.2 known), rfl⟩
  | markUsed inviteId userId now =>
    exact ⟨sound.settled.apply (.markUsed inviteId userId now) nofun, rfl⟩
  | createEvent event => exact ⟨sound.settled.apply (.createEvent event) nofun, rfl⟩
  | createUser user | createIdentity identity => exact allowed.elim

theorem sound_written (accepted : Write.rejected change db.committed = false)
    (may : mayWriteAlone operations basis session db.committed change) (apart : db.Apart) :
    Sound operations basis { db with committed := Write.apply change db.committed } := by
  obtain ⟨settled, sameUsers⟩ := sound.alone may accepted
  refine ⟨settled, sound.scripted, fun other changes isOpen user member => ?_, apart⟩
  have unknown := sound.unknown other changes isOpen user member
  rw [Contents.hasUser] at unknown ⊢
  rw [sameUsers]
  exact unknown

theorem sound_held {held : List InviteWrite} (opened : db.pending session = some held)
    (accepted : Write.rejected change (db.view session) = false) {script : Script}
    (scripted : Scripted operations basis session script) (within : held ++ [change] <+: script.writes session)
    (apart : (db.push session change).Apart) : Sound operations basis (db.push session change) := by
  refine ⟨sound.settled, fun other changes isOpen => ?_, fun other changes isOpen user member => ?_, apart⟩
  · rcases Database.pending_of_push opened isOpen with ⟨rfl, rfl⟩ | ⟨-, wasOpen⟩
    · exact ⟨script, scripted, within⟩
    · exact sound.scripted other changes wasOpen
  · rcases Database.pending_of_push opened isOpen with ⟨-, rfl⟩ | ⟨-, wasOpen⟩
    · cases mem_append.mp member with
      | inl old => exact sound.unknown session held opened user old
      | inr new =>
        rw [← mem_singleton.mp new] at within accepted
        -- The user is created on what is committed, and was not there.
        rw [createUser_first within] at opened
        rw [Database.view_open opened] at accepted
        refine any_eq_false.mpr fun row isRow isSame => ?_
        refine any_eq_false.mp accepted row isRow ?_
        exact Bool.or_eq_true_iff.mpr (.inl isSame)
    · exact sound.unknown other changes wasOpen user member

theorem sound_commit (scripted : Scripted operations basis session script)
    (opened : db.pending session = some (script.writes session)) :
    Sound operations basis { db.close session with committed := db.view session } := by
  have created : InviteWrite.createUser ⟨script.userId, syntheticEmail script.identity, script.identity.displayName⟩ ∈
        script.writes session := mem_cons_self
  have unknown := sound.unknown session _ opened _ created
  have committed := Database.view_open opened
  refine ⟨?_, ?_, ?_, ?_⟩
  · change Settled operations basis (db.view session)
    rw [committed]
    exact sound.settled.provision scripted unknown
  · intro other changes isOpen
    exact sound.scripted other changes (Database.pending_of_close isOpen).2
  · intro other changes isOpen user member
    obtain ⟨different, wasOpen⟩ := Database.pending_of_close isOpen
    change (db.view session).hasUser user.id = false
    rw [committed, hasUser_script, sound.unknown other changes wasOpen user member, Bool.false_or]
    -- The two transactions do not create one user.
    have free := sound.apart session other different.symm _ changes opened wasOpen _ created _ member
    exact (Bool.or_eq_false_iff.mp free).1
  · exact sound.apart.close

theorem sound_effect (isReady : ready stmt db = true)
    (allowed : mayExecute operations basis session stmt db) : Sound operations basis (effect stmt db) := by
  have apart := Database.apart_effect InviteWrite.blocks_comm isReady sound.apart
  obtain ⟨client, action⟩ := stmt
  obtain ⟨rfl, may⟩ := allowed
  obtain ⟨after, isEffect, effects⟩ := Database.effect_cases client action db
  rw [isEffect] at apart ⊢
  cases effects with
  | same => exact sound
  | begun closed =>
    refine ⟨sound.settled, fun other changes isOpen => ?_, fun other changes isOpen user member => ?_, apart⟩
    · rcases Database.pending_of_start closed isOpen with ⟨rfl, rfl⟩ | ⟨-, wasOpen⟩
      · obtain ⟨script, scripted⟩ := may
        exact ⟨script, scripted, nil_prefix⟩
      · exact sound.scripted other changes wasOpen
    · rcases Database.pending_of_start closed isOpen with ⟨-, rfl⟩ | ⟨-, wasOpen⟩
      · cases member
      · exact sound.unknown other changes wasOpen user member
  | written closed accepted =>
    dsimp only at may
    rw [closed] at may
    exact sound_written sound accepted may apart
  | held opened accepted =>
    dsimp only at may
    rw [opened] at may
    obtain ⟨script, scripted, within⟩ := may
    exact sound_held sound opened accepted scripted within apart
  | committed =>
    obtain ⟨script, scripted, opened⟩ := may
    exact sound_commit sound scripted opened
  | undone =>
    refine ⟨sound.settled, fun other changes isOpen => ?_, fun other changes isOpen user member => ?_, apart⟩
    · exact sound.scripted other changes (Database.pending_of_close isOpen).2
    · exact sound.unknown other changes (Database.pending_of_close isOpen).2 user member

end

end

variable (operations : List InviteOperation) (basis : Nat → Option OrgInvite) in
def inviteDiscipline : Discipline InviteStatement InviteDb where
  inv := Sound operations basis
  allowed := mayExecute operations basis
  rely := Rely
  rely_refl := Rely.refl
  rely_trans := Rely.trans
  keeps sound isReady allowed := sound_effect sound isReady allowed
  respects different _ _ allowed := rely_effect different allowed

end EveHorizon.Invites
