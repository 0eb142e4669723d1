import EveHorizon.Access.Scope
import EveHorizon.Auth.Jwt

/-!
# Accounts

The users whom a verified identity stands for: found by their identity, linked by their email,
or created, and joined to the organisation that invited their email.
-/

namespace EveHorizon.Auth

structure User where
  id : Text
  email : Text
  isAdmin : Bool

structure Identity where
  userId : Text
  provider : Text
  fingerprint : Text

structure Org where
  id : Text
  name : Text
  slug : Text
  deleted : Bool := false

structure OrgMembership where
  orgId : Text
  userId : Text
  role : Text

structure OrgInvite where
  id : Text
  orgId : Text
  providerHint : Option Text
  identityHint : Option Text
  role : Text
  redirectTo : Option Text
  appContext : Option Json
  expiresAt : Option Nat
  usedAt : Option Nat := none
  usedBy : Option Text := none

structure AppLinkGrant where
  producerProjectId : Text
  exportName : Text
  envs : List Text
  revokedAt : Option Nat

structure AppLinkSubscriptionWithGrant where
  id : Text
  consumerProjectId : Text
  requestedScopes : List Text
  apiGrant : Option AppLinkGrant

structure AuthDb where
  users : List User := []
  identities : List Identity := []
  orgs : List Org := []
  memberships : List OrgMembership := []
  invites : List OrgInvite := []
  subscriptions : List AppLinkSubscriptionWithGrant := []

/-- How the database's driver sends a value, if it does, and the lower case that the database
compares emails in. -/
structure Driver where
  sent : Json.Member → Option Text
  lower : Text → Text

structure OrgRole where
  orgId : Text
  role : Text
  orgName : Option Text
  orgSlug : Option Text

structure AuthUser where
  userId : Text
  email : Option Text := none
  role : Option Text
  isAdmin : Bool
  orgId : Option Text := none
  isJobToken : Bool := false
  jobId : Option Text := none
  projectId : Option Text := none
  agentSlug : Option Text := none
  permissions : Option (List Text) := none
  scope : Option Access.AccessBindingScope := none
  isServicePrincipal : Bool := false
  isServiceToken : Bool := false
  isAppLinkToken : Bool := false
  serviceName : Option Text := none
  envName : Option Text := none
  subscriptionId : Option Text := none
  consumerProjectId : Option Text := none
  producerProjectId : Option Text := none
  consumerPrincipal : Option Text := none
  consumerEnv : Option Text := none
  producerEnv : Option Text := none
  apiName : Option Text := none
  memberships : Option (List OrgRole) := none
  inviteRedirectTo : Option Text := none
  inviteOrgId : Option Text := none
  inviteAppContext : Option (Option Json) := none

namespace AuthDb

variable (db : AuthDb)

def findUser (id : Text) : Option User := db.users.find? (·.id == id)

def findByEmail (driver : Driver) (db : AuthDb) (email : Text) : Option User :=
  db.users.find? fun user => driver.lower user.email == driver.lower email

def findByFingerprint (provider fingerprint : Text) : Option Identity :=
  db.identities.find? fun identity =>
    identity.provider == provider && identity.fingerprint == fingerprint

def listOrgMembershipsForUser (userId : Text) : List OrgMembership :=
  db.memberships.filter (·.userId == userId)

def findOrg (id : Text) : Option Org := db.orgs.find? fun org => org.id == id && !org.deleted

def findWithGrantsById (id : Text) : Option AppLinkSubscriptionWithGrant :=
  db.subscriptions.find? fun subscription => id.isEmpty || subscription.id == id

def createUser (user : User) : Except Failure AuthDb :=
  if db.users.any fun other => other.id == user.id || other.email == user.email then
    .error (.fault "duplicate key value violates unique constraint on users")
  else .ok { db with users := db.users ++ [user] }

def createIdentity (identity : Identity) : Except Failure AuthDb :=
  if (db.findByFingerprint identity.provider identity.fingerprint).isSome then
    .error (.fault "duplicate key value violates unique constraint on identities")
  else if (db.findUser identity.userId).isNone then
    .error (.fault "insert on identities violates foreign key constraint")
  else .ok { db with identities := db.identities ++ [identity] }

def upsertOrgMembership (orgId userId role : Text) : Except Failure AuthDb :=
  if !db.orgs.any (·.id == orgId) || (db.findUser userId).isNone then
    .error (.fault "insert on org_memberships violates foreign key constraint")
  else if db.memberships.any (fun row => row.orgId == orgId && row.userId == userId) then
    .ok { db with memberships := db.memberships.map fun row =>
      if row.orgId == orgId && row.userId == userId then { row with role } else row }
  else .ok { db with memberships := db.memberships ++ [{ orgId, userId, role }] }

def findByIdentityHint (driver : Driver) (db : AuthDb) (nowMs : Nat) (provider hint : Text) : Option OrgInvite :=
  (db.invites.filter fun invite =>
    invite.providerHint == some provider &&
      invite.identityHint.any (fun stored => driver.lower stored == driver.lower hint) &&
      invite.usedAt.isNone && invite.expiresAt.all (nowMs < ·)).getLast?

def markUsed (nowMs : Nat) (id usedBy : Text) : AuthDb :=
  { db with invites := db.invites.map fun invite =>
      if invite.id == id then { invite with usedAt := some nowMs, usedBy := some usedBy }
      else invite }

end AuthDb

def orgRole (db : AuthDb) (membership : OrgMembership) : OrgRole where
  orgId := membership.orgId
  role := membership.role
  orgName := (db.findOrg membership.orgId).map Org.name
  orgSlug := (db.findOrg membership.orgId).map Org.slug

def authUserFromUser (db : AuthDb) (user : User) : AuthUser :=
  let memberships := db.listOrgMembershipsForUser user.id
  let inferred := if memberships.length = 1 then memberships.head? else none
  { userId := user.id
    email := some user.email
    role := if user.isAdmin then some "system_admin".toList else inferred.map OrgMembership.role
    isAdmin := user.isAdmin
    orgId := inferred.map OrgMembership.orgId
    memberships := some (memberships.map (orgRole db)) }

structure InviteResult where
  applied : Bool
  orgId : Option Text := none
  redirectTo : Option Text := none
  appContext : Option (Option Json) := none

/-- Failures are reported in the log and leave the invite as it is; an email that cannot be sent
is one. -/
def autoApplyOrgInviteByEmail (driver : Driver) (nowMs : Nat) (db : AuthDb)
    (userId : Text) (email : Option Text) : InviteResult × AuthDb :=
  match email.bind (db.findByIdentityHint driver nowMs "supabase".toList) with
  | none => ({ applied := false }, db)
  | some invite =>
    if invite.usedAt.isSome || invite.expiresAt.any (· < nowMs) then ({ applied := false }, db)
    else
      match db.upsertOrgMembership invite.orgId userId invite.role with
      | .error _ => ({ applied := false }, db)
      | .ok joined =>
        ({ applied := true
           orgId := some invite.orgId
           redirectTo := invite.redirectTo
           appContext := some invite.appContext }, joined.markUsed nowMs invite.id userId)

def withInvite (user : AuthUser) (result : InviteResult) : AuthUser :=
  { user with
    inviteRedirectTo := (result.redirectTo.filter (!·.isEmpty)) <|> user.inviteRedirectTo
    inviteOrgId := (result.orgId.filter (!·.isEmpty)) <|> user.inviteOrgId
    inviteAppContext := result.appContext <|> user.inviteAppContext }

def attachPendingSupabaseInvite (driver : Driver) (nowMs : Nat) (db : AuthDb) (user : User)
    (email : Option (Option Text)) : AuthUser × AuthDb :=
  match email with
  | none => (authUserFromUser db user, db)
  | some email =>
    let (result, applied) := autoApplyOrgInviteByEmail driver nowMs db user.id email
    let authUser :=
      if result.applied then authUserFromUser applied user else authUserFromUser db user
    (withInvite authUser result, applied)

section

variable {PublicKey PrivateKey : Type} (runtime : Runtime PublicKey PrivateKey) (driver : Driver)

def claimedEmail (claims : Json) : Option (Option Text) :=
  if runtime.truthy (field claims "email") then some (driver.sent (field claims "email"))
  else none

def unsendable : Failure := .fault "value cannot be sent to the database"

def supabaseIdentity (userId fingerprint : Text) : Identity where
  userId := userId
  provider := "supabase".toList
  fingerprint := fingerprint

def provisionedEmail (claims : Json) (supabaseUuid : Text) : Except Failure Text :=
  if (field claims "email").missing then .ok (supabaseUuid ++ "@supabase.local".toList)
  else
    match driver.sent (field claims "email") with
    | some email => .ok email
    | none => .error unsendable

def autoProvisionSupabaseUser (nowMs : Nat) (db : AuthDb) (newId : Text) (claims : Json)
    (supabaseUuid : Text) : Except Failure AuthUser × AuthDb :=
  match provisionedEmail driver claims supabaseUuid with
  | .error failure => (.error failure, db)
  | .ok email =>
    let user : User := { id := newId, email, isAdmin := false }
    match db.createUser user with
    | .error failure => (.error failure, db)
    | .ok created =>
      match created.createIdentity (supabaseIdentity newId supabaseUuid) with
      | .error failure => (.error failure, created)
      | .ok linked =>
        match claimedEmail runtime driver claims with
        | none => (.ok (authUserFromUser linked user), linked)
        | some claimed =>
          let (result, applied) := autoApplyOrgInviteByEmail driver nowMs linked newId claimed
          (.ok (withInvite (authUserFromUser applied user) result), applied)

def resolveSupabaseClaims (nowMs : Nat) (db : AuthDb) (newId : Text) (claims : Json) :
    Except Failure AuthUser × AuthDb :=
  if !runtime.truthy (field claims "sub") then
    (.error (.unauthorized "Supabase token missing sub claim"), db)
  else
    match driver.sent (field claims "sub") with
    | none => (.error unsendable, db)
    | some supabaseUuid =>
      let email := claimedEmail runtime driver claims
      let linked := (db.findByFingerprint "supabase".toList supabaseUuid).bind fun identity =>
        db.findUser identity.userId
      match linked with
      | some user =>
        let (authUser, applied) := attachPendingSupabaseInvite driver nowMs db user email
        (.ok authUser, applied)
      | none =>
        match email with
        | some none => (.error unsendable, db)
        | some (some claimed) =>
          match db.findByEmail driver claimed with
          | some user =>
            match db.createIdentity (supabaseIdentity user.id supabaseUuid) with
            | .error failure => (.error failure, db)
            | .ok linked =>
              let (authUser, applied) := attachPendingSupabaseInvite driver nowMs linked user email
              (.ok authUser, applied)
          | none =>
            autoProvisionSupabaseUser runtime driver nowMs db newId claims supabaseUuid
        | none => autoProvisionSupabaseUser runtime driver nowMs db newId claims supabaseUuid

end

end EveHorizon.Auth
