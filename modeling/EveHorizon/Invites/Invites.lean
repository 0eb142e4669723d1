import EveHorizon.Auth.Rbac
import EveHorizon.Library.Json
import EveHorizon.Library.ReadCommitted

/-!
# Organisation invites

An invite is applied when its user signs in, by three statements that are each committed at once,
or when a new user is provisioned with it, in a transaction. The statements of any number of calls
interleave.
-/

namespace EveHorizon.Invites

open Interleaving ReadCommitted
open Auth (MembershipRole Membership)

structure OrgInvite where
  id : Text
  orgId : Text
  inviteCode : Text
  providerHint : Option Text := none
  identityHint : Option Text := none
  role : Option MembershipRole := none
  redirectTo : Option Text := none
  appContext : Option (List (Text × Json)) := none
  expiresAt : Option Nat := none
  usedAt : Option Nat := none
  usedBy : Option Text := none
  createdAt : Nat := 0

structure User where
  id : Text
  email : Text
  displayName : Option Text := none

structure Identity where
  id : Text
  userId : Text
  provider : Text
  fingerprint : Text

structure MemberAttached where
  projectId : Text
  orgId : Text
  userId : Text
  emailDomain : Option Text
  emailHash : Text

structure Attachment where
  session : Nat
  inviteId : Text
  orgId : Text
  userId : Text
  role : MembershipRole
  deriving DecidableEq

/-- A membership that was made of an invite, and the role that its user had before. -/
structure Grant extends Attachment where
  previous : Option MembershipRole
  deriving DecidableEq

/-- The tables, and which memberships were made of which invites. -/
structure Contents where
  invites : List OrgInvite := []
  memberships : List Membership := []
  users : List User := []
  identities : List Identity := []
  events : List MemberAttached := []
  grants : List Grant := []

def rank : MembershipRole → Nat
  | .member => 0
  | .admin => 1
  | .owner => 2

namespace Contents

def orgRole (contents : Contents) (orgId userId : Text) : Option MembershipRole :=
  (contents.memberships.find? fun row => row.scopeId == orgId && row.userId == userId).map
    Membership.role

def hasUser (contents : Contents) (userId : Text) : Bool := contents.users.any (·.id == userId)

end Contents

inductive InviteQuery where
  | findByCode (code : Text)
  | findByIdentityHint (provider hint : Text)

inductive InviteWrite where
  | createUser (user : User)
  | createIdentity (identity : Identity)
  | upsertOrgMembership (attachment : Attachment)
  | markUsed (inviteId userId : Text) (now : Nat)
  | createEvent (event : MemberAttached)

namespace InviteWrite

def upsertMembership (attachment : Attachment) (memberships : List Membership) : List Membership :=
  if memberships.any fun row => row.scopeId == attachment.orgId && row.userId == attachment.userId then
    memberships.map fun row =>
      if row.scopeId == attachment.orgId && row.userId == attachment.userId then
        { row with role := attachment.role }
      else row
  else memberships ++ [⟨attachment.orgId, attachment.userId, attachment.role⟩]

def apply : InviteWrite → Contents → Contents
  | .createUser user, contents => { contents with users := contents.users ++ [user] }
  | .createIdentity identity, contents =>
    { contents with identities := contents.identities ++ [identity] }
  | .upsertOrgMembership attachment, contents =>
    { contents with
      memberships := upsertMembership attachment contents.memberships
      grants := contents.grants ++
        [{ attachment with previous := contents.orgRole attachment.orgId attachment.userId }] }
  | .markUsed inviteId userId now, contents =>
    { contents with
      invites := contents.invites.map fun invite =>
        if invite.id == inviteId then { invite with usedAt := some now, usedBy := some userId }
        else invite }
  | .createEvent event, contents => { contents with events := contents.events ++ [event] }

/-- The keys of the tables, and the references of memberships, identities and invites to users. -/
def rejected : InviteWrite → Contents → Bool
  | .createUser user, contents =>
    contents.users.any fun row => row.id == user.id || row.email == user.email
  | .createIdentity identity, contents =>
    !contents.hasUser identity.userId || contents.identities.any fun row =>
      row.id == identity.id ||
        (row.provider == identity.provider && row.fingerprint == identity.fingerprint)
  | .upsertOrgMembership attachment, contents => !contents.hasUser attachment.userId
  | .markUsed inviteId userId _, contents =>
    !contents.hasUser userId && contents.invites.any (·.id == inviteId)
  | .createEvent _, _ => false

def blocks : InviteWrite → InviteWrite → Bool
  | .createUser held, .createUser user => held.id == user.id || held.email == user.email
  | .createIdentity held, .createIdentity identity =>
    held.id == identity.id ||
      (held.provider == identity.provider && held.fingerprint == identity.fingerprint)
  | .upsertOrgMembership held, .upsertOrgMembership attachment =>
    held.orgId == attachment.orgId && held.userId == attachment.userId
  | .markUsed held _ _, .markUsed inviteId _ _ => held == inviteId
  | _, _ => false

end InviteWrite

instance : Write InviteWrite Contents where
  apply := InviteWrite.apply
  rejected := InviteWrite.rejected
  blocks := InviteWrite.blocks

abbrev InviteDb := Database InviteWrite Contents

abbrev InviteStatement := Request InviteQuery InviteWrite

inductive InviteError where
  | constraintViolation

abbrev InviteCall := Call InviteStatement InviteDb InviteError

structure TextReading where
  lower : Text → Text
  hashEmail : Text → Text

structure Clock where
  found : Nat := 0
  checked : Nat := 0
  marked : Nat := 0

def newest : List OrgInvite → Option OrgInvite
  | [] => none
  | invite :: rest =>
    match newest rest with
    | none => some invite
    | some other => if invite.createdAt < other.createdAt then some other else some invite

namespace Contents

variable (reading : TextReading) (contents : Contents)

def findByCode (code : Text) : Option OrgInvite := contents.invites.find? (·.inviteCode == code)

def findByIdentityHint (provider hint : Text) (now : Nat) : Option OrgInvite :=
  newest <| contents.invites.filter fun invite =>
    invite.providerHint == some provider && invite.identityHint.map reading.lower == some (reading.lower hint) &&
        invite.usedAt.isNone && invite.expiresAt.all (now < ·)

end Contents

inductive InviteResult where
  | notApplied (error : Option InviteError)
  | applied (orgId : Text) (redirectTo : Option Text) (appContext : Option (List (Text × Json)))
  | notProvisioned
  | provisioned (user : User)

structure VerifiedIdentity where
  provider : Text
  externalId : Text
  displayName : Option Text := none
  inviteCode : Option Text := none

def OrgInvite.refused (invite : OrgInvite) (now : Nat) : Bool :=
  invite.usedAt.isSome || invite.expiresAt.any (· < now)

def OrgInvite.attachment (invite : OrgInvite) (session : Nat) (userId : Text) : Attachment where
  session := session
  inviteId := invite.id
  orgId := invite.orgId
  userId := userId
  role := invite.role.getD .member

def contextText (appContext : List (Text × Json)) (name : String) : Option Text :=
  match (Json.Member.json (.object appContext)).get name.toList with
  | .json (.string text) => some text
  | _ => none

section

variable (reading : TextReading) (client : Nat)

def memberAttached (invite : OrgInvite) (userId email : Text) : Option MemberAttached :=
  let appCtx := invite.appContext.getD []
  match contextText appCtx "project_id" with
  | none => none
  | some projectId =>
    if projectId ≠ [] ∧ contextText appCtx "source" = some "domain_signup".toList then
      some { projectId, orgId := invite.orgId, userId
             emailDomain := contextText appCtx "matched_domain"
             emailHash := reading.hashEmail email }
    else none

def emitDomainSignupEvent (event : MemberAttached) : InviteCall Unit :=
  (write client (.createEvent event) .constraintViolation).handle fun _ => return ()

def autoApplyOrgInviteByEmail (userId email : Text) (clock : Clock) : InviteCall InviteResult :=
  Call.handle
    (do
      let invite ← query client (.findByIdentityHint "supabase".toList email) fun contents =>
        contents.findByIdentityHint reading "supabase".toList email clock.found
      match invite with
      | none => return .notApplied none
      | some invite =>
        if invite.refused clock.checked then return .notApplied none
        else
          write client (.upsertOrgMembership (invite.attachment client userId))
            .constraintViolation
          write client (.markUsed invite.id userId clock.marked) .constraintViolation
          match memberAttached reading invite userId email with
          | none => return .applied invite.orgId invite.redirectTo invite.appContext
          | some event =>
            emitDomainSignupEvent client event
            return .applied invite.orgId invite.redirectTo invite.appContext)
    fun error => return .notApplied (some error)

variable (identity : VerifiedIdentity)

def findInvite (clock : Clock) : InviteCall (Option OrgInvite) :=
  match identity.inviteCode.filter (· ≠ []) with
  | some code => query client (.findByCode code) fun contents => contents.findByCode code
  | none =>
    query client (.findByIdentityHint identity.provider identity.externalId) fun contents =>
      contents.findByIdentityHint reading identity.provider identity.externalId clock.found

def syntheticEmail : Text :=
  identity.provider ++ [':'] ++ identity.externalId.take 16 ++ "@provision.local".toList

def provision (userId identityId : Text) (clock : Clock) (invite : OrgInvite) : InviteCall InviteResult := do
  let user : User := ⟨userId, syntheticEmail identity, identity.displayName⟩
  write client (.createUser user) .constraintViolation
  write client (.createIdentity ⟨identityId, user.id, identity.provider, identity.externalId⟩)
    .constraintViolation
  write client (.upsertOrgMembership (invite.attachment client user.id)) .constraintViolation
  write client (.markUsed invite.id user.id clock.marked) .constraintViolation
  return .provisioned user

def provisionViaInvite (userId identityId : Text) (clock : Clock) :
    InviteCall InviteResult := do
  match ← findInvite reading client identity clock with
  | none => return .notProvisioned
  | some invite =>
    if invite.refused clock.checked then return .notProvisioned
    else transaction client (provision client identity userId identityId clock invite)

end

inductive InviteOperation where
  | autoApplyOrgInviteByEmail (userId email : Text) (clock : Clock)
  | provisionViaInvite (identity : VerifiedIdentity) (userId identityId : Text) (clock : Clock)

namespace InviteOperation

def call (reading : TextReading) (client : Nat) : InviteOperation → InviteCall InviteResult
  | .autoApplyOrgInviteByEmail userId email clock =>
    Invites.autoApplyOrgInviteByEmail reading client userId email clock
  | .provisionViaInvite identity userId identityId clock =>
    Invites.provisionViaInvite reading client identity userId identityId clock

def userId : InviteOperation → Text
  | .autoApplyOrgInviteByEmail userId _ _ => userId
  | .provisionViaInvite _ userId _ _ => userId

end InviteOperation

abbrev InviteSystem := System InviteStatement InviteDb InviteError InviteResult

abbrev InviteTrace := List (Execution InviteStatement InviteDb)

def runInvites (reading : TextReading) (contents : Contents)
    (schedule : List (Choice InviteOperation)) : InviteSystem :=
  System.run (fun client operation => operation.call reading client) { committed := contents } schedule

structure InvitesSound (contents : Contents) : Prop where
  singleUse : ∀ first ∈ contents.grants, ∀ second ∈ contents.grants,
    first.inviteId = second.inviteId → first.userId = second.userId
  neverDemotes : ∀ grant ∈ contents.grants, ∀ role ∈ grant.previous, rank role ≤ rank grant.role

end EveHorizon.Invites
