import EveHorizon.Invites.Applying

/-!
# Invites are single use

In a run without races on an invite, whose sign-ins find no higher roles, each invite makes members
of one user only and lowers no role.
-/

namespace EveHorizon.Invites

open Interleaving ReadCommitted List
open Auth (MembershipRole Membership)

variable {execution : Execution InviteStatement InviteDb}

section

variable {reading : TextReading} {contents : Contents} {schedule : List (Choice InviteOperation)}

def basisOf (reading : TextReading) (operations : List InviteOperation) (trace : InviteTrace)
    (session : Nat) : Option OrgInvite :=
  (trace.find? fun execution => execution.session == session && isQuery execution.statement).bind
    fun execution => operations[session]?.bind (·.finds reading execution.before.committed)

abbrev basis (reading : TextReading) (contents : Contents) (schedule : List (Choice InviteOperation)) :
    Nat → Option OrgInvite :=
  basisOf reading (operations schedule) (runInvites reading contents schedule).trace

theorem isQuery_of_label {stmt : InviteStatement} {label : InviteQuery}
    (isLabel : stmt.action = .query label) : isQuery stmt = true := by
  rw [isQuery, isLabel]

variable {earlier later : InviteTrace}

theorem first_of_query (split : (runInvites reading contents schedule).trace = earlier ++ execution :: later)
    (isRead : isQuery execution.statement = true) : ∀ older ∈ earlier, older.session ≠ execution.session := by
  have first := (System.run_recalls (fun client (operation : InviteOperation) =>
    operation.call reading client) (fun session operation => call_recalls session operation)
      { committed := contents } schedule).1 earlier execution later split isRead
  rw [stepsIn, map_eq_nil_iff, filter_eq_nil_iff] at first
  intro older member same
  exact first older member (beq_iff_eq.mpr same)

theorem basis_of_query {operation : InviteOperation}
    (split : (runInvites reading contents schedule).trace = earlier ++ execution :: later)
    (isRead : isQuery execution.statement = true) (named : (operations schedule)[execution.session]? = some operation) :
    basis reading contents schedule execution.session = operation.finds reading execution.before.committed := by
  have others := first_of_query split isRead
  have isFound : (execution :: later).find? (fun other =>
      other.session == execution.session && isQuery other.statement) = some execution := by
    refine find?_cons_of_pos ?_
    rw [BEq.rfl, isRead]
    rfl
  have unfound : earlier.find? (fun other =>
      other.session == execution.session && isQuery other.statement) = none := by
    refine find?_eq_none.mpr fun older member isOwn => others older member ?_
    exact beq_iff_eq.mp (Bool.and_eq_true_iff.mp isOwn).1
  rw [basis, basisOf, split, find?_append, unfound, Option.none_or, isFound, Option.bind_some, named, Option.bind_some]

theorem found_of_basis {session : Nat} {invite : OrgInvite}
    (found : basis reading contents schedule session = some invite) :
    ∃ earlier execution later operation, (runInvites reading contents schedule).trace = earlier ++ execution :: later ∧
        execution.session = session ∧ Finds reading (operations schedule) execution operation invite := by
  obtain ⟨execution, search, finds⟩ := Option.bind_eq_some_iff.mp found
  obtain ⟨operation, named, finds⟩ := Option.bind_eq_some_iff.mp finds
  obtain ⟨passes, earlier, later, split, -⟩ := find?_eq_some_iff_append.mp search
  obtain ⟨own, isRead⟩ := Bool.and_eq_true_iff.mp passes
  have same := beq_iff_eq.mp own
  refine ⟨earlier, execution, later, operation, split, same, ?_, ?_, finds⟩
  · rw [isQuery] at isRead
    split at isRead
    · exact ⟨_, ‹_›⟩
    · cases isRead
  · rw [same]
    exact named

theorem run_promised (lower : FindsNoHigherRole (operations schedule) (runInvites reading contents schedule).trace) :
    ∀ execution ∈ (runInvites reading contents schedule).trace,
      ∀ operation, (operations schedule)[execution.session]? = some operation →
        Promised reading operation (basis reading contents schedule execution.session)
          execution.statement execution.before := by
  intro execution member operation named
  constructor
  · intro label isLabel
    obtain ⟨earlier, later, split⟩ := append_of_mem member
    exact basis_of_query split (isQuery_of_label isLabel) named
  · intro userId email clock isSignIn attachment isWrite accepted
    rw [isSignIn] at named
    exact lower execution member userId email clock named attachment ⟨isWrite, accepted⟩

theorem start_sound {operations : List InviteOperation} {basis : Nat → Option OrgInvite}
    (consistent : contents.Consistent) : Sound operations basis { committed := contents } where
  settled := by
    have none : ∀ grant, grant ∉ contents.grants := by
      rw [consistent.ungranted]
      exact fun _ => not_mem_nil
    exact ⟨fun grant member => absurd member (none grant),
      fun grant member => absurd member (none grant), consistent.members⟩
  scripted _ _ opened := nomatch opened
  unknown _ _ opened := nomatch opened
  apart _ _ _ _ _ opened := nomatch opened

theorem run_kept (consistent : contents.Consistent)
    (lower : FindsNoHigherRole (operations schedule) (runInvites reading contents schedule).trace) :
    ∃ promised, System.Kept (inviteDiscipline (operations schedule) (basis reading contents schedule))
      promised (fun _ _ _ _ => True) (fun client (operation : InviteOperation) => operation.call reading client)
      (operations schedule) (runInvites reading contents schedule).trace
      (runInvites reading contents schedule).store := by
  refine ⟨fun session stmt db => ∀ operation, (operations schedule)[session]? = some operation →
    Promised reading operation (basis reading contents schedule session) stmt db, ?_⟩
  refine System.run_kept _ _ ?_ (start_sound consistent) (run_promised lower)
  intro session operation named
  have safe : SafeCall reading (operations schedule) (basis reading contents schedule) session operation
      (fun _ _ => True) (operation.call reading session) { committed := contents } :=
    call_safe named rfl
  exact safe.promise fun stmt found promised => promised operation named

theorem granted_again (consistent : contents.Consistent)
    (unraced : Unraced reading (operations schedule) (runInvites reading contents schedule).trace)
    (lower : FindsNoHigherRole (operations schedule) (runInvites reading contents schedule).trace)
    {middle : InviteTrace} {first second : Execution InviteStatement InviteDb}
    (split : (runInvites reading contents schedule).trace = earlier ++ first :: middle ++ second :: later)
    {made attachment : Attachment} (isMade : Wrote first (InviteWrite.upsertOrgMembership made))
    (isAttached : Wrote second (InviteWrite.upsertOrgMembership attachment))
    (same : made.inviteId = attachment.inviteId) : made.userId = attachment.userId := by
  obtain ⟨promised, kept⟩ := run_kept consistent lower
  have allowed (execution : Execution InviteStatement InviteDb)
      (member : execution ∈ (runInvites reading contents schedule).trace) :=
    (kept.executed execution member).2
  have isFirst : first ∈ (runInvites reading contents schedule).trace := by
    rw [split]
    simp
  have isSecond : second ∈ (runInvites reading contents schedule).trace := by
    rw [split]
    simp
  obtain ⟨ownMade, maker, madeFrom, -, basisMade, isInviteMade⟩ := backed_of_wrote (allowed first isFirst) isMade
  obtain ⟨own, operation, invite, named, isBasis, isInvite⟩ := backed_of_wrote (allowed second isSecond) isAttached
  rw [own] at named isBasis isInvite
  rw [ownMade] at basisMade isInviteMade
  obtain ⟨front, query, back, other, isSplit, isOwn, finds⟩ := found_of_basis isBasis
  obtain ⟨⟨label, isLabel⟩, isOther, found⟩ := id finds
  rw [isOwn, named] at isOther
  cases isOther
  have isRead := isQuery_of_label isLabel
  have users : attachment.userId = operation.userId := by rw [isInvite]; rfl
  have unread {execution : Execution InviteStatement InviteDb} {granted : Attachment}
      (wrote : Wrote execution (InviteWrite.upsertOrgMembership granted)) : query ≠ execution := by
    intro equal
    rw [equal, wrote.1] at isLabel
    cases isLabel
  have whole := isSplit
  rw [split, append_assoc, cons_append] at whole
  rcases order_of_splits whole.symm with ⟨between, rfl, -⟩ | ⟨-, equal⟩ | ⟨between, rfl, isRest⟩
  · -- The invite was found before the first grant.
    refine unraced.alone front query (between ++ first :: middle) second later ?_ (isOwn) operation
      invite finds attachment isAttached first ?_ made isMade same
    · rw [split]
      simp
    · simp
  · exact absurd equal (unread isMade)
  · rcases order_of_splits isRest.symm with ⟨others, rfl, -⟩ | ⟨-, equal⟩ | ⟨others, rfl, -⟩
    · -- It was found after the first grant, and is not marked in between.
      by_contra different
      have sameInvite : invite.id = made.inviteId := by
        rw [same, isInvite]
        rfl
      have onward : (runInvites reading contents schedule).trace =
          earlier ++ first :: between ++ query :: (others ++ second :: later) := by
        rw [split]
        simp
      obtain ⟨marking, isBetween, isSession, marks⟩ := unraced.marked earlier first between query _
        onward made isMade operation invite finds sameInvite fun equal =>
          different (equal.symm.trans users.symm)
      obtain ⟨start, rest, isPlace⟩ := append_of_mem isBetween
      have placed : (runInvites reading contents schedule).trace =
          (earlier ++ first :: start) ++ marking :: rest ++ query :: (others ++ second :: later) := by
        rw [onward, isPlace]
        simp
      have isMarking : marking ∈ (runInvites reading contents schedule).trace := by
        rw [placed]
        simp
      have used := used_of_marks (allowed marking isMarking) marks (by rw [isSession]; exact basisMade)
      let marked : InviteDb → Prop := fun db => db.committed.Used madeFrom.id
      have stillMarked : marked query.before := System.run_stretch _ _ schedule placed used
        fun execution _ holds => used_effect holds execution.statement
      refine unused_of_finds found ?_
      rw [sameInvite, isInviteMade]
      exact stillMarked
    · exact absurd equal (unread isAttached)
    · -- A session queries before anything else.
      refine absurd isOwn.symm (first_of_query isSplit isRead second ?_)
      simp

variable {grant : Grant}

theorem granted_of_mem {changes : List InviteWrite} (member : grant ∈ (applyAll changes contents).grants) :
    grant ∈ contents.grants ∨ InviteWrite.upsertOrgMembership grant.toAttachment ∈ changes := by
  induction changes generalizing contents with
  | nil => exact .inl member
  | cons change rest ih =>
    rcases ih member with earlier | later
    · cases change with
      | upsertOrgMembership attachment =>
        cases mem_append.mp earlier with
        | inl old => exact .inl old
        | inr new =>
          rw [mem_singleton.mp new]
          exact .inr mem_cons_self
      | _ => exact .inl earlier
    · exact .inr (mem_cons_of_mem _ later)

theorem wrote_of_granted (consistent : contents.Consistent)
    (member : grant ∈ (runInvites reading contents schedule).store.committed.grants) :
    ∃ execution ∈ (runInvites reading contents schedule).trace,
      Wrote execution (InviteWrite.upsertOrgMembership grant.toAttachment) := by
  obtain ⟨changes, isCommitted, wrote⟩ := (run_written (fun client (operation : InviteOperation) =>
    operation.call reading client) contents schedule).committed
  change (runInvites reading contents schedule).store.committed = _ at isCommitted
  rw [isCommitted] at member
  rcases granted_of_mem member with old | written
  · rw [consistent.ungranted] at old
    cases old
  · exact wrote _ written

/-- In a run without races on an invite, and without higher roles at a sign-in, invites are single
use and never demote. -/
theorem invites_sound (reading : TextReading) (contents : Contents)
    (schedule : List (Choice InviteOperation)) (consistent : contents.Consistent)
    (unraced : Unraced reading (operations schedule) (runInvites reading contents schedule).trace)
    (lower : FindsNoHigherRole (operations schedule) (runInvites reading contents schedule).trace) :
    InvitesSound (runInvites reading contents schedule).store.committed := by
  constructor
  · intro first isFirst second isSecond same
    obtain ⟨granting, member, wrote⟩ := wrote_of_granted consistent isFirst
    obtain ⟨other, isOther, wroteToo⟩ := wrote_of_granted consistent isSecond
    obtain ⟨earlier, later, split⟩ := append_of_mem member
    obtain ⟨front, back, splitToo⟩ := append_of_mem isOther
    have whole := split
    rw [splitToo] at whole
    rcases order_of_splits whole with ⟨middle, rfl, -⟩ | ⟨-, rfl⟩ | ⟨middle, rfl, -⟩
    · exact (granted_again consistent unraced lower split wroteToo wrote same.symm).symm
    · have one := Action.write.inj (wrote.1.symm.trans wroteToo.1)
      exact congrArg Attachment.userId (InviteWrite.upsertOrgMembership.inj one)
    · exact granted_again consistent unraced lower splitToo wrote wroteToo same
  · obtain ⟨promised, kept⟩ := run_kept consistent lower
    exact kept.inv.settled.roles

end

def plainReading : TextReading where
  lower text := text
  hashEmail text := text

def acme : Text := "org_acme".toList

def ann : User where
  id := "user_ann".toList
  email := "ann@acme.test".toList

def inviteOf (role : MembershipRole) : OrgInvite where
  id := "invite".toList
  orgId := acme
  inviteCode := "code".toList
  providerHint := some "supabase".toList
  identityHint := some ann.email
  role := some role

def invited (held offered : MembershipRole) : Contents where
  invites := [inviteOf offered]
  memberships := [⟨acme, ann.id, held⟩]
  users := [ann]

def signIn : InviteOperation := .autoApplyOrgInviteByEmail ann.id ann.email {}

def newcomer (name : String) : InviteOperation :=
  .provisionViaInvite
    { provider := "nostr".toList, externalId := name.toList, inviteCode := some "code".toList }
    ("user_".toList ++ name.toList) ("identity_".toList ++ name.toList) {}

def finish (position : Nat) : List (Choice InviteOperation) := List.replicate 9 (.advance position)

def oneByOne : List (Choice InviteOperation) :=
  .start signIn :: finish 0 ++ .start (newcomer "bob") :: finish 0

def sharedCode : List (Choice InviteOperation) :=
  [.start (newcomer "bob"), .start (newcomer "eve"), .advance 0] ++ finish 1 ++ finish 0

theorem failed_provision_undone_taken : UndoneOnError
    (provisionViaInvite plainReading 0 ⟨"nostr".toList, "bob".toList, none, some "code".toList⟩ ann.id [] {})
    { committed := invited .member .admin } :=
  failed_provision_undone _ _ _ _ _ _ rfl

theorem invited_consistent (held offered : MembershipRole) : (invited held offered).Consistent where
  ungranted := rfl
  members row member := by
    rw [mem_singleton.mp member]
    simp [Contents.hasUser, invited]

def attaching (execution : Execution InviteStatement InviteDb) : Option Attachment :=
  match execution.statement.action with
  | .write (.upsertOrgMembership attachment) => some attachment
  | _ => none

theorem attaching_of_wrote {attachment : Attachment}
    (wrote : Wrote execution (InviteWrite.upsertOrgMembership attachment)) : attaching execution = some attachment := by
  rw [attaching, wrote.1]

variable {operations : List InviteOperation} {trace : InviteTrace}

theorem unraced_of_pairwise {reading : TextReading}
    (settled : trace.Pairwise fun first second => (attaching first).isSome = true →
      (attaching second).isNone = true ∧ (isQuery second.statement = true →
      ∀ operation ∈ operations, (operation.finds reading second.before.committed).isNone = true)) :
    Unraced reading operations trace := by
  constructor
  · intro earlier found middle granting later split _ operation invite _ attachment isGranting other
      between made isMade _
    rw [split, pairwise_append] at settled
    have after := settled.2.2 other (mem_append_right _ (mem_cons_of_mem _ between)) granting mem_cons_self
    have nothing := (after (by rw [attaching_of_wrote isMade]; rfl)).1
    rw [attaching_of_wrote isGranting] at nothing
    cases nothing
  · intro earlier granting middle found later split made isMade operation invite finds _ _
    rw [split, pairwise_append] at settled
    have after := settled.2.2 granting (mem_append_right _ mem_cons_self) found mem_cons_self
    obtain ⟨⟨label, isLabel⟩, named, isFound⟩ := finds
    have nothing := (after (by rw [attaching_of_wrote isMade]; rfl)).2 (isQuery_of_label isLabel)
      operation (mem_of_getElem? named)
    rw [isFound] at nothing
    cases nothing

theorem lower_of_all
    (lower : ∀ execution ∈ trace, ∀ attachment ∈ attaching execution,
      ∀ role ∈ execution.before.committed.orgRole attachment.orgId attachment.userId,
      rank role ≤ rank attachment.role) :
    FindsNoHigherRole operations trace := by
  intro execution member _ _ _ _ attachment wrote
  exact lower execution member attachment (attaching_of_wrote wrote)

/-- Ann becomes an admin by her invite, and nobody else comes in with it. -/
theorem one_by_one_sound : InvitesSound (runInvites plainReading (invited .member .admin) oneByOne).store.committed ∧
      (runInvites plainReading (invited .member .admin) oneByOne).ended.length = 2 ∧
        (runInvites plainReading (invited .member .admin) oneByOne).store.committed.orgRole acme
          ann.id = some .admin := by
  refine ⟨invites_sound plainReading (invited .member .admin) oneByOne (invited_consistent _ _)
    (unraced_of_pairwise ?_) (lower_of_all ?_), by decide +kernel, by decide +kernel⟩
  · decide +kernel
  · decide +kernel

/-- Two newcomers are made members with one code, and an owner who is invited as a member is made
one. -/
theorem invites_unsound :
    ¬ InvitesSound (runInvites plainReading (invited .member .member) sharedCode).store.committed ∧
      ¬ InvitesSound (runInvites plainReading (invited .owner .member)
        (.start signIn :: finish 0)).store.committed := by
  constructor
  · intro sound
    have grants : (runInvites plainReading (invited .member .member)
        sharedCode).store.committed.grants.map (fun grant => (grant.inviteId, grant.userId)) =
          [("invite".toList, "user_eve".toList), ("invite".toList, "user_bob".toList)] := by
      decide +kernel
    obtain ⟨first, others, isCons, isFirst, rest⟩ := map_eq_cons_iff.mp grants
    obtain ⟨second, none, isOther, isSecond, -⟩ := map_eq_cons_iff.mp rest
    have same := sound.singleUse first (by rw [isCons]; simp) second (by rw [isCons, isOther]; simp)
      ((congrArg Prod.fst isFirst).trans (congrArg Prod.fst isSecond).symm)
    have eve : first.userId = "user_eve".toList := congrArg Prod.snd isFirst
    have bob : second.userId = "user_bob".toList := congrArg Prod.snd isSecond
    rw [eve, bob] at same
    exact absurd same (by decide +kernel)
  · intro sound
    have grants : (runInvites plainReading (invited .owner .member)
        (.start signIn :: finish 0)).store.committed.grants =
          [⟨⟨0, "invite".toList, acme, ann.id, .member⟩, some .owner⟩] := by
      decide +kernel
    have lowered := sound.neverDemotes _ (by rw [grants]; exact mem_singleton_self _) .owner rfl
    exact absurd lowered (by decide)

end EveHorizon.Invites
