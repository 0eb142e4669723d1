import EveHorizon.Access.JobScope
import EveHorizon.Auth.Accounts

/-!
# Verification of bearer tokens

The header of a request names a token.
-/

namespace EveHorizon.Auth

def hasType (kind : String) (payload : Json) : Bool := string? (field payload "type") == some kind.toList

def claimedPermissions (payload : Json) (first second : String) : Option (List Text) :=
  strings? ((field payload first).orElse (field payload second))

def principalPrefix : Text := "sp:".toList

section

variable {PublicKey PrivateKey : Type} (runtime : Runtime PublicKey PrivateKey)

/-- What the verifiers of machine tokens have in common: the ring signs, and it signed a token
of this kind. -/
def verifyTyped (now : Nat) (token : Text) (keys : List (KeyEntry PublicKey PrivateKey))
    (kind : String) : Except Failure Json :=
  if !keys.any (·.privateKey.isSome) then .error (.unauthorized "Auth is not configured")
  else
    match verifyJwtRs256 runtime now token keys with
    | .error failure => .error failure
    | .ok payload =>
      if hasType kind payload then .ok payload
      else .error (.unauthorized "Invalid token type")

variable (now : Nat) (token : Text) (keys : List (KeyEntry PublicKey PrivateKey))

def requireString (payload : Json) (name : String) (message : String) : Except Failure Text :=
  match string? (field payload name) with
  | some text => .ok text
  | none => .error (.unauthorized message)

def servicePrincipalUser (payload : Json) : Except Failure AuthUser := do
  let sub ← requireString payload "sub" "Invalid service principal token subject"
  if !Text.startsWith principalPrefix sub then
    .error (.unauthorized "Invalid service principal token subject")
  else do
    let orgId ← requireString payload "org_id" "Service principal token missing org_id"
    match claimedPermissions payload "scopes" "permissions" with
    | none => .error (.unauthorized "Invalid service principal token scopes")
    | some scopes =>
      .ok {
        userId := sub.drop principalPrefix.length
        orgId := some orgId
        role := some "member".toList
        isAdmin := false
        isServicePrincipal := true
        permissions := some scopes }

def verifyServicePrincipalToken : Except Failure AuthUser := do
  let payload ← verifyTyped runtime now token keys "service_principal"
  servicePrincipalUser payload

variable (payload : Json)

def requireTimestamps : Except Failure Unit :=
  if isNumber (field payload "exp") && isNumber (field payload "iat") then .ok ()
  else .error (.unauthorized "Invalid token timestamps")

def nullableOrg : Except Failure (Option Text) :=
  match field payload "org_id" with
  | .json .null => .ok none
  | .json (.string orgId) => .ok (some orgId)
  | _ => .error (.unauthorized "Invalid token org_id")

def claimedScope : Except Failure (Option Access.AccessBindingScope) :=
  match field payload "scope" with
  | .undefined => .ok none
  | .json claim =>
    match Access.accessBindingScopeSchema claim with
    | some scope => .ok (some scope)
    | none => .error (.unauthorized "Invalid token scope")
  | _ => .error (.unauthorized "Invalid token scope")

def jobUser : Except Failure AuthUser := do
  let some userId := string? ((field payload "user_id").orElse (field payload "sub"))
    | .error (.unauthorized "Token user_id missing")
  let orgId ← nullableOrg payload
  let projectId ← requireString payload "project_id" "Token project_id missing"
  let jobId ← requireString payload "job_id" "Token job_id missing"
  let some permissions := claimedPermissions payload "permissions" "scopes"
    | .error (.unauthorized "Invalid token permissions")
  requireTimestamps payload
  let scope ← claimedScope payload
  return {
    userId
    role := some "member".toList
    isAdmin := false
    orgId
    isJobToken := true
    jobId := some jobId
    projectId := some projectId
    permissions := some permissions
    scope
    agentSlug := (string? (field payload "agent_slug")).filter (!·.isEmpty)
    email := (string? (field payload "email")).filter (!·.isEmpty) }

def verifyJobToken : Except Failure AuthUser := do
  let payload ← verifyTyped runtime now token keys "job"
  jobUser payload

def serviceUser (payload : Json) : Except Failure AuthUser := do
  let sub ← requireString payload "sub" "Invalid service token subject"
  if !Text.startsWith "service:".toList sub then
    .error (.unauthorized "Invalid service token subject")
  else do
    let orgId ← requireString payload "org_id" "Service token missing org_id"
    let projectId ← requireString payload "project_id" "Service token missing project_id"
    let envName ← requireString payload "env_name" "Service token missing env_name"
    let serviceName ← requireString payload "service_name" "Service token missing service_name"
    let some permissions := strings? (field payload "permissions")
      | .error (.unauthorized "Invalid service token permissions")
    requireTimestamps payload
    return {
      userId := sub
      role := some "member".toList
      isAdmin := false
      orgId := some orgId
      projectId := some projectId
      isServiceToken := true
      serviceName := some serviceName
      envName := some envName
      permissions := some permissions }

def verifyServiceToken : Except Failure AuthUser := do
  let payload ← verifyTyped runtime now token keys "service"
  serviceUser payload

structure AppLinkClaims where
  sub : Text
  subscriptionId : Text
  consumerProjectId : Text
  consumerOrgId : Text
  consumerPrincipal : Text
  consumerEnv : Option Text
  producerProjectId : Text
  producerEnv : Text
  apiName : Text
  scopes : List Text

def nullableEnv (payload : Json) : Except Failure (Option Text) :=
  match field payload "consumer_env" with
  | .undefined | .json .null => .ok none
  | .json (.string env) => .ok (some env)
  | _ => .error (.unauthorized "Invalid app-link consumer_env")

def appLinkClaims (payload : Json) : Except Failure AppLinkClaims := do
  let sub ← requireString payload "sub" "Invalid app-link token subject"
  if !Text.startsWith "app_link:".toList sub then
    .error (.unauthorized "Invalid app-link token subject")
  else do
    let subscriptionId ←
      requireString payload "subscription_id" "Invalid app-link subscription claim"
    if sub ≠ "app_link:".toList ++ subscriptionId then
      .error (.unauthorized "Invalid app-link subscription claim")
    else do
      let consumerProjectId ←
        requireString payload "consumer_project_id" "App-link token missing consumer_project_id"
      let consumerOrgId ←
        requireString payload "consumer_org_id" "App-link token missing consumer_org_id"
      let consumerPrincipal ←
        requireString payload "consumer_principal" "App-link token missing consumer_principal"
      let consumerEnv ← nullableEnv payload
      let producerProjectId ←
        requireString payload "producer_project_id" "App-link token missing producer_project_id"
      let producerEnv ← requireString payload "producer_env" "App-link token missing producer_env"
      let apiName ← requireString payload "api_name" "App-link token missing api_name"
      if string? (field payload "aud") ≠ some ("project:".toList ++ producerProjectId) then
        .error (.unauthorized "Invalid app-link token audience")
      else do
        let some scopes := strings? (field payload "scopes")
          | .error (.unauthorized "Invalid app-link token scopes")
        if scopes.isEmpty then .error (.unauthorized "Invalid app-link token scopes")
        else do
          requireTimestamps payload
          return {
            sub, subscriptionId, consumerProjectId, consumerOrgId, consumerPrincipal, consumerEnv,
            producerProjectId, producerEnv, apiName, scopes }

def checkAppLink (db : AuthDb) (claims : AppLinkClaims) : Except Failure Unit :=
  match db.findWithGrantsById claims.subscriptionId with
  | none => .error (.unauthorized "App-link subscription not found")
  | some subscription =>
    match subscription.apiGrant with
    | none => .error (.unauthorized "App-link subscription not found")
    | some grant =>
      if grant.revokedAt.isSome then .error (.unauthorized "App-link grant is revoked")
      else if subscription.consumerProjectId ≠ claims.consumerProjectId then
        .error (.unauthorized "App-link consumer mismatch")
      else if grant.producerProjectId ≠ claims.producerProjectId then
        .error (.unauthorized "App-link producer mismatch")
      else if grant.exportName ≠ claims.apiName then
        .error (.unauthorized "App-link API mismatch")
      else if claims.scopes.any fun scope => !subscription.requestedScopes.contains scope then
        .error (.unauthorized "App-link token scopes exceed subscription")
      else if !grant.envs.isEmpty && !grant.envs.contains claims.producerEnv then
        .error (.unauthorized "App-link producer environment is not granted")
      else .ok ()

def appLinkUser (claims : AppLinkClaims) : AuthUser where
  userId := claims.sub
  role := some "member".toList
  isAdmin := false
  orgId := some claims.consumerOrgId
  projectId := some claims.producerProjectId
  isAppLinkToken := true
  subscriptionId := some claims.subscriptionId
  consumerProjectId := some claims.consumerProjectId
  producerProjectId := some claims.producerProjectId
  consumerPrincipal := some claims.consumerPrincipal
  consumerEnv := claims.consumerEnv
  producerEnv := some claims.producerEnv
  apiName := some claims.apiName
  permissions := some claims.scopes

def verifyAppLinkToken (db : AuthDb) : Except Failure AuthUser := do
  let payload ← verifyTyped runtime now token keys "app_link"
  let claims ← appLinkClaims payload
  checkAppLink db claims
  return appLinkUser claims

section

variable (driver : Driver)

def resolveInternalUserToken (db : AuthDb) : Except Failure AuthUser := do
  let claims ← verifyJwtRs256 runtime now token keys
  if !runtime.truthy (field claims "sub") then
    .error (.unauthorized "Token subject missing")
  else
    match driver.sent (field claims "sub") with
    | none => .error unsendable
    | some id =>
      match db.findUser id with
      | none => .error (.unauthorized "User not found for token")
      | some user => .ok (authUserFromUser db user)

end

end

structure Settings (PublicKey PrivateKey : Type) where
  enabled : Bool
  keys : List (KeyEntry PublicKey PrivateKey)
  supabaseSecret : Option Text

/-- The token of a header. Each letter of the scheme is the lower case of ASCII letters only. -/
def extractBearerToken (header : Text) : Except Failure Text :=
  match header.splitOn ' ' with
  | scheme :: token :: _ =>
    if scheme.map Char.toLower ≠ "bearer".toList ∨ token.isEmpty then
      .error (.unauthorized "Authorization header must be a Bearer token")
    else .ok token
  | _ => .error (.unauthorized "Authorization header must be a Bearer token")

section

variable {PublicKey PrivateKey : Type} (runtime : Runtime PublicKey PrivateKey) (driver : Driver)
  (settings : Settings PublicKey PrivateKey) (nowMs : Nat) (db : AuthDb)

def resolveSupabaseToken (newId token secret : Text) : Except Failure AuthUser × AuthDb :=
  match verifyJwtHs256 runtime (nowMs / 1000) token secret with
  | .error failure => (.error failure, db)
  | .ok claims => resolveSupabaseClaims runtime driver nowMs db newId claims

def resolveUserToken (newId token : Text) : Except Failure AuthUser × AuthDb :=
  let internal :=
    if settings.keys.any (·.privateKey.isSome) then
      resolveInternalUserToken runtime (nowMs / 1000) token settings.keys driver db
    else .error (.unauthorized "No valid token verification method available")
  match internal with
  | .ok user => (.ok user, db)
  | .error _ =>
    match settings.supabaseSecret.filter (!·.isEmpty) with
    | some secret => resolveSupabaseToken runtime driver nowMs db newId token secret
    | none => (.error (.unauthorized "No valid token verification method available"), db)

def resolveToken (newId token : Text) : Except Failure AuthUser × AuthDb :=
  let now := nowMs / 1000
  match decodeJwtPayload runtime token with
  | none => resolveUserToken runtime driver settings nowMs db newId token
  | some rawPayload =>
    if hasType "job" rawPayload then
      (verifyJobToken runtime now token settings.keys, db)
    else if hasType "service" rawPayload then
      (verifyServiceToken runtime now token settings.keys, db)
    else if hasType "app_link" rawPayload then
      (verifyAppLinkToken runtime now token settings.keys db, db)
    else if hasType "service_principal" rawPayload then
      (verifyServicePrincipalToken runtime now token settings.keys, db)
    else resolveUserToken runtime driver settings nowMs db newId token

def verifyAuthorizationHeader (newId header : Text) : Except Failure AuthUser × AuthDb :=
  if !settings.enabled then (.error (.unauthorized "Auth is disabled"), db)
  else
    match extractBearerToken header with
    | .error failure => (.error failure, db)
    | .ok token => resolveToken runtime driver settings nowMs db newId token

end

end EveHorizon.Auth
