import EveHorizon.Auth.TokenVerifier
import EveHorizon.Library.Checks

/-!
# Service principals

An organisation's administrators create principals, mint tokens for them, revoke tokens and
delete principals.
-/

namespace EveHorizon.Auth

structure ServicePrincipal where
  id : Text
  orgId : Text
  name : Text

structure ServicePrincipalToken where
  id : Text
  principalId : Text
  tokenHash : Text
  scopes : List Text
  expiresAt : Int

structure PrincipalClaims where
  principalId : Text
  orgId : Text
  scopes : List Text
  exp : ℚ
  iat : Nat

structure MintedToken extends PrincipalClaims where
  tokenId : Text
  accessToken : Text

structure PrincipalState where
  principals : List ServicePrincipal := []
  tokens : List ServicePrincipalToken := []
  nextId : Nat := 0
  minted : List MintedToken := []
  revokedTokens : List Text := []
  deletedPrincipals : List Text := []

structure Caller where
  userId : Text
  isAdmin : Bool
  orgAdmin : Bool

structure MintServicePrincipalTokenRequest where
  scopes : List Text
  ttlHours : ℚ

def MintServicePrincipalTokenRequestSchema (body : MintServicePrincipalTokenRequest) : Bool :=
  !body.scopes.isEmpty && decide (1 ≤ body.ttlHours) && decide (body.ttlHours ≤ 8760)

def requireOrgAdmin (caller : Caller) : Except Failure Unit :=
  if caller.userId.isEmpty then .error (.unauthorized "Authorization required")
  else if caller.isAdmin || caller.orgAdmin then .ok ()
  else .error (.fault "Forbidden")

def typeId (tag : String) (id : Nat) : Text := tag.toList ++ '_' :: (toString id).toList

namespace PrincipalState

def getServicePrincipal (state : PrincipalState) (orgId id : Text) : Option ServicePrincipal :=
  state.principals.find? fun principal => principal.orgId == orgId && principal.id == id

def find (state : PrincipalState) (orgId id : Text) : Except Failure ServicePrincipal :=
  match state.getServicePrincipal orgId id with
  | some principal => .ok principal
  | none => .error (.fault "Service principal not found")

end PrincipalState

variable (caller : Caller)

def createServicePrincipal (orgId name : Text) (state : PrincipalState) :
    Except Failure PrincipalState := do
  requireOrgAdmin caller
  if state.principals.any fun other => other.orgId == orgId && other.name == name then
    .error (.fault "duplicate key value violates unique constraint on service_principals")
  else
    let principal := { id := typeId "sp" state.nextId, orgId, name }
    return { state with
      principals := state.principals ++ [principal]
      nextId := state.nextId + 1 }

def deleteServicePrincipal (orgId id : Text) (state : PrincipalState) :
    Except Failure PrincipalState := do
  requireOrgAdmin caller
  let principal ← state.find orgId id
  return { state with
    principals := state.principals.filter fun other => !(other.orgId == orgId && other.id == id)
    tokens := state.tokens.filter (·.principalId != id)
    deletedPrincipals := state.deletedPrincipals ++ [principal.id] }

def revokeToken (orgId id tokenId : Text) (state : PrincipalState) :
    Except Failure PrincipalState := do
  requireOrgAdmin caller
  let principal ← state.find orgId id
  if !state.tokens.any fun row => row.principalId == principal.id && row.id == tokenId then
    .error (.fault "Token not found")
  else
    return { state with
      tokens := state.tokens.filter fun row =>
        !(row.principalId == principal.id && row.id == tokenId)
      revokedTokens := state.revokedTokens ++ [tokenId] }

section

variable {PublicKey PrivateKey : Type} (runtime : Runtime PublicKey PrivateKey)

def jwtHeader (kid : Text) : Json :=
  .object [("alg".toList, .string "RS256".toList), ("typ".toList, .string "JWT".toList), ("kid".toList, .string kid)]

def jwtPayload (claims : PrincipalClaims) : Json :=
  .object [("sub".toList, .string (principalPrefix ++ claims.principalId)), ("org_id".toList, .string claims.orgId),
    ("scopes".toList, .array (claims.scopes.map Json.string)), ("exp".toList, .number (runtime.numeral claims.exp)),
    ("iat".toList, .number (runtime.numeral claims.iat)), ("type".toList, .string "service_principal".toList)]

def expiry (now : Nat) (ttlHours : ℚ) : ℚ :=
  runtime.round (now + runtime.round (runtime.round (ttlHours * 60) * 60))

variable (keys : List (KeyEntry PublicKey PrivateKey))

def signer? : Option (Text × PrivateKey) :=
  keys.findSome? fun key => key.privateKey.map fun privateKey => (key.kid, privateKey)

def mintServicePrincipalToken (nowMs : Nat) (principalId orgId : Text) (scopes : List Text)
    (ttlHours : ℚ) (tokenId : Text) : Except Failure MintedToken :=
  match signer? keys with
  | none => .error (.fault "Signing key not configured")
  | some (kid, privateKey) =>
    let now := nowMs / 1000
    let claims : PrincipalClaims :=
      { principalId, orgId, scopes, exp := expiry runtime now ttlHours, iat := now }
    .ok { claims with
      tokenId
      accessToken := createJwtRs256 runtime (jwtPayload runtime claims) kid privateKey }

variable (digest : Text → Text) (knownPermissions : List Text)

def checkScopes (caller : Caller) (scopes : List Text) : Except Failure Unit :=
  if scopes.any fun scope => !knownPermissions.contains scope then
    .error (.fault "Unknown scopes")
  else if (scopes.any fun scope => Text.startsWith "system:".toList scope) && !caller.isAdmin then
    .error (.fault "Only system admins can grant system:* scopes")
  else .ok ()

def tokenRow (minted : MintedToken) : ServicePrincipalToken where
  id := minted.tokenId
  principalId := minted.principalId
  tokenHash := digest minted.accessToken
  scopes := minted.scopes
  expiresAt := (runtime.round (minted.exp * 1000)).floor

def mintToken (nowMs : Nat) (caller : Caller) (orgId id : Text)
    (body : MintServicePrincipalTokenRequest) (state : PrincipalState) :
    Except Failure PrincipalState := do
  if !MintServicePrincipalTokenRequestSchema body then .error (.fault "Validation failed")
  else
    requireOrgAdmin caller
    let principal ← state.find orgId id
    checkScopes knownPermissions caller body.scopes
    let minted ← mintServicePrincipalToken runtime keys nowMs principal.id orgId body.scopes
      body.ttlHours (typeId "spt" state.nextId)
    return { state with
      tokens := state.tokens ++ [tokenRow runtime digest minted]
      minted := state.minted ++ [minted]
      nextId := state.nextId + 1 }

end

inductive PrincipalAction where
  | create (caller : Caller) (orgId name : Text)
  | mint (caller : Caller) (orgId id : Text) (body : MintServicePrincipalTokenRequest)
  | revoke (caller : Caller) (orgId id tokenId : Text)
  | delete (caller : Caller) (orgId id : Text)
  | request (accounts : AuthDb) (newId header : Text)

structure PrincipalStep where
  nowMs : Nat
  action : PrincipalAction

section

variable {PublicKey PrivateKey : Type} (runtime : Runtime PublicKey PrivateKey)
  (settings : Settings PublicKey PrivateKey) (digest : Text → Text) (knownPermissions : List Text)

def changed (state : PrincipalState) (step : PrincipalStep) : Except Failure PrincipalState :=
  match step.action with
  | .create caller orgId name => createServicePrincipal caller orgId name state
  | .mint caller orgId id body =>
    mintToken runtime settings.keys digest knownPermissions step.nowMs caller orgId id body state
  | .revoke caller orgId id tokenId => revokeToken caller orgId id tokenId state
  | .delete caller orgId id => deleteServicePrincipal caller orgId id state
  | .request _ _ _ => .ok state

def nextState (state : PrincipalState) (step : PrincipalStep) : PrincipalState :=
  match changed runtime settings digest knownPermissions state step with
  | .ok after => after
  | .error _ => state

end

end EveHorizon.Auth
