import EveHorizon.Auth.ServicePrincipals
import EveHorizon.Auth.TokenKinds
import EveHorizon.Library.Visits
import Mathlib.Logic.Equiv.List

/-!
# Revocation of principals' tokens

A minted token is verified by what it says alone: until it expires it is accepted with the
scopes it was minted with, whether or not its record and its principal are still there.
-/

namespace EveHorizon.Auth

open List Checks

section

variable {PublicKey PrivateKey : Type}

/-- What the service relies on in its runtime: segments are read back, Base64url has neither dots
nor blanks, the key verifies what it signed, and rounded numbers are read back. -/
structure Lawful (runtime : Runtime PublicKey PrivateKey)
    (keys : List (KeyEntry PublicKey PrivateKey)) : Prop where
  header : ∀ kid, runtime.decode (runtime.encode (jwtHeader kid)) = some (jwtHeader kid)
  payload : ∀ claims, runtime.decode (runtime.encode (jwtPayload runtime claims)) = some (jwtPayload runtime claims)
  encoded : ∀ value, '.' ∉ runtime.encode value ∧ ' ' ∉ runtime.encode value
  signed : ∀ privateKey input, '.' ∉ runtime.sign privateKey input ∧ ' ' ∉ runtime.sign privateKey input
  verified : ∀ key ∈ keys, ∀ privateKey, key.privateKey = some privateKey → ∀ input,
    runtime.verifies key.publicKey input (runtime.sign privateKey input) = true
  number : ∀ number, runtime.read (runtime.numeral (runtime.round number)) = some (runtime.round number)

variable {runtime : Runtime PublicKey PrivateKey} {settings : Settings PublicKey PrivateKey}

def principalUser (claims : PrincipalClaims) : AuthUser where
  userId := claims.principalId
  orgId := some claims.orgId
  role := some "member".toList
  isAdmin := false
  isServicePrincipal := true
  permissions := some claims.scopes

structure Signs (runtime : Runtime PublicKey PrivateKey)
    (keys : List (KeyEntry PublicKey PrivateKey)) (token : Text) (claims : PrincipalClaims) :
    Prop where
  byRing : ∃ kid privateKey, signer? keys = some (kid, privateKey) ∧
    token = createJwtRs256 runtime (jwtPayload runtime claims) kid privateKey
  rounded : ∃ number, claims.exp = runtime.round number

def isExpired (now : Nat) (claims : PrincipalClaims) : Bool := decide (claims.exp < (now : ℚ))

theorem signer?_mem {keys : List (KeyEntry PublicKey PrivateKey)} {kid : Text}
    {privateKey : PrivateKey} (found : signer? keys = some (kid, privateKey)) :
    ∃ key ∈ keys, key.kid = kid ∧ key.privateKey = some privateKey := by
  obtain ⟨key, member, signs⟩ := exists_of_findSome?_eq_some found
  obtain ⟨private', isPrivate, same⟩ := Option.map_eq_some_iff.mp signs
  cases same
  exact ⟨key, member, rfl, isPrivate⟩

section

variable (lawful : Lawful runtime settings.keys)
include lawful

theorem segments_createJwtRs256 (payload : Json) (kid : Text) (privateKey : PrivateKey) :
    segments (createJwtRs256 runtime payload kid privateKey) =
      some (runtime.encode (jwtHeader kid), runtime.encode payload, runtime.sign privateKey
          (signingInput (runtime.encode (jwtHeader kid)) (runtime.encode payload))) := by
  have parts : (createJwtRs256 runtime payload kid privateKey).splitOn '.' =
      [runtime.encode (jwtHeader kid), runtime.encode payload, runtime.sign privateKey
          (signingInput (runtime.encode (jwtHeader kid)) (runtime.encode payload))] := by
    unfold createJwtRs256
    dsimp only
    rw [splitOn_append_cons_self]
    conv_lhs => rw [signingInput, splitOn_append_cons_self]
    rw [splitOn_eq_singleton (lawful.encoded _).1, splitOn_eq_singleton (lawful.encoded _).1,
      splitOn_eq_singleton (lawful.signed _ _).1]
    rfl
  unfold segments
  rw [parts]

omit lawful in
theorem mapM_string (texts : List Text) :
    (texts.map Json.string).mapM (fun item => string? (.json item)) = some texts := by
  induction texts with
  | nil => rfl
  | cons text rest ih =>
    rw [map_cons, mapM_cons, ih]
    rfl

omit lawful in
theorem servicePrincipalUser_jwtPayload (claims : PrincipalClaims) :
    servicePrincipalUser (jwtPayload runtime claims) = .ok (principalUser claims) := by
  have sub : requireString (jwtPayload runtime claims) "sub"
      "Invalid service principal token subject" = .ok (principalPrefix ++ claims.principalId) :=
    rfl
  have org : requireString (jwtPayload runtime claims) "org_id"
      "Service principal token missing org_id" = .ok claims.orgId :=
    rfl
  have permissions : claimedPermissions (jwtPayload runtime claims) "scopes" "permissions" = some claims.scopes :=
    mapM_string claims.scopes
  have begins : Text.startsWith principalPrefix (principalPrefix ++ claims.principalId) = true := by
    simp [Text.startsWith]
  unfold servicePrincipalUser
  rw [sub]
  simp only [bind, Except.bind, begins, org, permissions]
  rfl

variable {token : Text} {claims : PrincipalClaims} {now : Nat}

theorem verifyJwtRs256_signed (signs : Signs runtime settings.keys token claims) (payload : Json) :
    verifyJwtRs256 runtime now token settings.keys = .ok payload ↔
      payload = jwtPayload runtime claims ∧ isExpired now claims = false := by
  obtain ⟨⟨kid, privateKey, found, rfl⟩, number, rounded⟩ := signs
  obtain ⟨key, member, rfl, isPrivate⟩ := signer?_mem found
  have parts := segments_createJwtRs256 lawful (jwtPayload runtime claims) key.kid privateKey
  have asked : key ∈ candidates runtime (jwtHeader key.kid) settings.keys := by
    unfold candidates
    split
    · exact mem_filter.mpr ⟨member, beq_self_eq_true (some key.kid)⟩
    · exact member
  have checked : checkedPayload runtime now (runtime.encode (jwtPayload runtime claims)) =
      .ok payload ↔ payload = jwtPayload runtime claims ∧ isExpired now claims = false := by
    have expires : expired runtime now (jwtPayload runtime claims) = isExpired now claims := by
      have read : runtime.read (runtime.numeral claims.exp) = some claims.exp := by
        rw [rounded]
        exact lawful.number number
      have field : field (jwtPayload runtime claims) "exp" = .json (.number (runtime.numeral claims.exp)) := rfl
      unfold expired
      rw [field]
      dsimp only
      rw [read]
      rfl
    have active : notActive runtime now (jwtPayload runtime claims) = false := rfl
    rw [checkedPayload_eq_ok, lawful.payload, Option.some.injEq]
    constructor
    · rintro ⟨rfl, -, valid, -⟩
      exact ⟨rfl, expires ▸ valid⟩
    · rintro ⟨rfl, valid⟩
      exact ⟨rfl, rfl, expires.trans valid, active⟩
  rw [← checked, verifyJwtRs256_eq_ok]
  constructor
  · rintro ⟨_, _, _, _, same, -, -, -, -, accepted⟩
    cases parts.symm.trans same
    exact accepted
  · intro accepted
    exact ⟨_, _, _, jwtHeader key.kid, parts, lawful.header key.kid, rfl, rfl,
      ⟨key, asked, lawful.verified key member privateKey isPrivate _⟩, accepted⟩

theorem verifyServicePrincipalToken_signed (signs : Signs runtime settings.keys token claims) (user : AuthUser) :
    verifyServicePrincipalToken runtime now token settings.keys = .ok user ↔
      user = principalUser claims ∧ isExpired now claims = false := by
  have configured : settings.keys.any (·.privateKey.isSome) = true := by
    obtain ⟨kid, privateKey, found, -⟩ := signs.byRing
    obtain ⟨key, member, -, isPrivate⟩ := signer?_mem found
    exact any_eq_true.mpr ⟨key, member, by rw [isPrivate]; rfl⟩
  have typed : hasType "service_principal" (jwtPayload runtime claims) = true := rfl
  constructor
  · intro accepted
    obtain ⟨payload, verified, isUser⟩ := bind_eq_ok.mp accepted
    obtain ⟨rfl, valid⟩ := (verifyJwtRs256_signed lawful signs payload).mp (verifyTyped_eq_ok verified).1
    rw [servicePrincipalUser_jwtPayload] at isUser
    exact ⟨(Except.ok.inj isUser).symm, valid⟩
  · rintro ⟨rfl, valid⟩
    have verified := (verifyJwtRs256_signed lawful signs _).mpr ⟨rfl, valid⟩
    apply bind_eq_ok.mpr
    refine ⟨jwtPayload runtime claims, ?_, servicePrincipalUser_jwtPayload claims⟩
    unfold verifyTyped
    rw [configured, verified]
    dsimp only
    rw [if_neg (by decide), if_pos typed]

variable (driver : Driver)

theorem resolveToken_signed (nowMs : Nat) (db : AuthDb) (newId : Text)
    (signs : Signs runtime settings.keys token claims) : resolveToken runtime driver settings nowMs db newId token =
      (verifyServicePrincipalToken runtime (nowMs / 1000) token settings.keys, db) := by
  have read : decodeJwtPayload runtime token = some (jwtPayload runtime claims) := by
    obtain ⟨kid, privateKey, -, rfl⟩ := signs.byRing
    unfold decodeJwtPayload
    rw [segments_createJwtRs256 lawful]
    exact lawful.payload claims
  unfold resolveToken
  rw [read]
  rfl

variable (runtime)

def response (driver : Driver) (settings : Settings PublicKey PrivateKey) (nowMs : Nat) (accounts : AuthDb)
    (newId header : Text) : Except Failure AuthUser :=
  (verifyAuthorizationHeader runtime driver settings nowMs accounts newId header).1

def Withdrawn (state : PrincipalState) (minted : MintedToken) : Prop :=
  minted.tokenId ∈ state.revokedTokens ∨ minted.principalId ∈ state.deletedPrincipals

def Current (state : PrincipalState) (now : Nat) (minted : MintedToken) : Prop :=
  minted.tokenId ∉ state.revokedTokens ∧ (∃ principal ∈ state.principals, principal.id = minted.principalId) ∧
    isExpired now minted.toPrincipalClaims = false

/-- A request with a minted token is rejected once the token is withdrawn, and accepted with the
scopes of the mint while it is current. -/
def RevocationEffective (driver : Driver) (settings : Settings PublicKey PrivateKey) (state : PrincipalState)
    (step : PrincipalStep) : Prop :=
  match step.action with
  | .request accounts newId header =>
    ∀ minted ∈ state.minted, extractBearerToken header = .ok minted.accessToken → (Withdrawn state minted → ∃ failure,
        response runtime driver settings step.nowMs accounts newId header = .error failure) ∧
      (Current state (step.nowMs / 1000) minted → response runtime driver settings step.nowMs accounts newId header =
          .ok (principalUser minted.toPrincipalClaims))
  | _ => True

variable {runtime}

/-- A request with a withdrawn token comes after the token has expired, or while authentication
is off; a request with a current token comes while it is on. -/
def RequestInTime (settings : Settings PublicKey PrivateKey) (state : PrincipalState)
    (step : PrincipalStep) : Prop :=
  match step.action with
  | .request _ _ header =>
    ∀ minted ∈ state.minted, extractBearerToken header = .ok minted.accessToken → (Withdrawn state minted →
        isExpired (step.nowMs / 1000) minted.toPrincipalClaims = true ∨ settings.enabled = false) ∧
      (Current state (step.nowMs / 1000) minted → settings.enabled = true)
  | _ => True

theorem response_eq_ok (nowMs : Nat) (accounts : AuthDb) (newId : Text) {header : Text}
    (signs : Signs runtime settings.keys token claims) (extracted : extractBearerToken header = .ok token)
    (user : AuthUser) : response runtime driver settings nowMs accounts newId header = .ok user ↔
      settings.enabled = true ∧ user = principalUser claims ∧ isExpired (nowMs / 1000) claims = false := by
  unfold response verifyAuthorizationHeader
  cases enabled : settings.enabled with
  | false => simp
  | true =>
    rw [if_neg (by decide), extracted]
    dsimp only
    rw [resolveToken_signed lawful driver nowMs accounts newId signs, verifyServicePrincipalToken_signed lawful signs]
    simp

theorem revocationEffective_iff {state : PrincipalState} {step : PrincipalStep}
    (signed : ∀ minted ∈ state.minted, Signs runtime settings.keys minted.accessToken minted.toPrincipalClaims) :
    RevocationEffective runtime driver settings state step ↔ RequestInTime settings state step := by
  unfold RevocationEffective RequestInTime
  cases step.action with
  | request accounts newId header =>
    dsimp only
    apply forall_congr'
    intro minted
    apply forall_congr'
    intro member
    apply forall_congr'
    intro extracted
    have answer := response_eq_ok lawful driver step.nowMs accounts newId (signed minted member) extracted
    apply and_congr
    · apply forall_congr'
      intro _
      rw [← not_ok_iff]
      constructor
      · intro rejected
        by_contra inTime
        rw [not_or, Bool.not_eq_true, Bool.not_eq_false] at inTime
        exact rejected ⟨_, (answer _).mpr ⟨inTime.2, rfl, inTime.1⟩⟩
      · rintro (expired | disabled) ⟨user, accepted⟩
        · rw [((answer user).mp accepted).2.2] at expired
          cases expired
        · rw [((answer user).mp accepted).1] at disabled
          cases disabled
    · apply forall_congr'
      intro current
      rw [answer]
      constructor
      · exact And.left
      · exact fun enabled => ⟨enabled, rfl, current.2.2⟩
  | create caller orgId name | mint caller orgId id body | revoke caller orgId id tokenId => exact Iff.rfl
  | delete caller orgId id => exact Iff.rfl

end

def AllSigned (runtime : Runtime PublicKey PrivateKey) (settings : Settings PublicKey PrivateKey)
    (state : PrincipalState) : Prop :=
  ∀ minted ∈ state.minted, Signs runtime settings.keys minted.accessToken minted.toPrincipalClaims

theorem signs_of_minted {nowMs : Nat} {principalId orgId tokenId : Text} {scopes : List Text}
    {ttlHours : ℚ} {minted : MintedToken}
    (made : mintServicePrincipalToken runtime settings.keys nowMs principalId orgId scopes ttlHours
      tokenId = .ok minted) : Signs runtime settings.keys minted.accessToken minted.toPrincipalClaims := by
  unfold mintServicePrincipalToken at made
  split at made
  · cases made
  · next kid privateKey found =>
      cases made
      exact ⟨⟨kid, privateKey, found, rfl⟩, _, rfl⟩

variable {knownPermissions : List Text} {digest : Text → Text}

theorem allSigned_changed {state after : PrincipalState} {step : PrincipalStep}
    (signed : AllSigned runtime settings state)
    (accepted : changed runtime settings digest knownPermissions state step = .ok after) :
    AllSigned runtime settings after := by
  unfold changed at accepted
  split at accepted
  · unfold createServicePrincipal at accepted
    obtain ⟨_, _, accepted⟩ := bind_eq_ok.mp accepted
    split at accepted
    · cases accepted
    · cases accepted
      exact signed
  · unfold mintToken at accepted
    split at accepted
    · cases accepted
    · obtain ⟨_, _, accepted⟩ := bind_eq_ok.mp accepted
      obtain ⟨principal, _, accepted⟩ := bind_eq_ok.mp accepted
      obtain ⟨_, _, accepted⟩ := bind_eq_ok.mp accepted
      obtain ⟨minted, made, accepted⟩ := bind_eq_ok.mp accepted
      cases accepted
      intro other member
      rcases mem_append.mp member with earlier | last
      · exact signed other earlier
      · rw [mem_singleton.mp last]
        exact signs_of_minted made
  · unfold revokeToken at accepted
    obtain ⟨_, _, accepted⟩ := bind_eq_ok.mp accepted
    obtain ⟨principal, _, accepted⟩ := bind_eq_ok.mp accepted
    split at accepted
    · cases accepted
    · cases accepted
      exact signed
  · unfold deleteServicePrincipal at accepted
    obtain ⟨_, _, accepted⟩ := bind_eq_ok.mp accepted
    obtain ⟨principal, _, accepted⟩ := bind_eq_ok.mp accepted
    cases accepted
    exact signed
  · cases accepted
    exact signed

theorem allSigned_nextState (state : PrincipalState) (step : PrincipalStep)
    (signed : AllSigned runtime settings state) :
    AllSigned runtime settings (nextState runtime settings digest knownPermissions state step) := by
  unfold nextState
  split
  · next accepted => exact allSigned_changed signed accepted
  · exact signed

/-- Over every history, requests with minted tokens are answered as their revocation asks for
exactly when none of them is made with a withdrawn token that has not expired. -/
theorem revocation_effective_iff (lawful : Lawful runtime settings.keys) (driver : Driver)
    (digest : Text → Text) (knownPermissions : List Text) (steps : List PrincipalStep) :
    (∀ visit ∈ visits (nextState runtime settings digest knownPermissions) {} steps,
      RevocationEffective runtime driver settings visit.1 visit.2) ↔
    ∀ visit ∈ visits (nextState runtime settings digest knownPermissions) {} steps,
      RequestInTime settings visit.1 visit.2 := by
  have start : AllSigned runtime settings {} := fun minted member => absurd member not_mem_nil
  have kept : ∀ state step, AllSigned runtime settings state →
      AllSigned runtime settings (nextState runtime settings digest knownPermissions state step) :=
    allSigned_nextState
  have agree : ∀ state step, AllSigned runtime settings state → True →
      (RevocationEffective runtime driver settings state step ↔ RequestInTime settings state step) :=
    fun _ _ signed _ => revocationEffective_iff lawful driver signed
  exact visits_forall_iff kept agree start steps fun _ _ => trivial

end

instance encodableChar : Encodable Char := Encodable.ofLeftInverse Char.toNat Char.ofNat Char.ofNat_toNat

abbrev PrintedClaims := Text × Text × List Text × Text × Text

def printedPayload : PrintedClaims → Json
  | (sub, orgId, scopes, exp, iat) =>
    .object [("sub".toList, .string sub), ("org_id".toList, .string orgId),
      ("scopes".toList, .array (scopes.map Json.string)), ("exp".toList, .number exp),
      ("iat".toList, .number iat), ("type".toList, .string "service_principal".toList)]

def row (value : Text ⊕ PrintedClaims) : Text := List.replicate (Encodable.encode value) 'x'

def readRow (text : Text) : Option (Text ⊕ PrintedClaims) := Encodable.decode text.length

theorem readRow_row (value : Text ⊕ PrintedClaims) : readRow (row value) = some value := by
  unfold readRow row
  rw [length_replicate, Encodable.encodek]

def printedNumber (number : ℚ) : Text :=
  if number = 3600 then "3600".toList else if number = 60 then "60".toList else "0".toList

def botPrinted : PrintedClaims :=
  ("sp:sp_0".toList, "acme".toList, ["jobs:read".toList], "3600".toList, "0".toList)

def rowSegment (value : Text ⊕ PrintedClaims) : Text :=
  if value = .inl "main".toList then headerSegment else if value = .inr botPrinted then payloadSegment else row value

def rowSignature (input : Text) : Text := if input = botInput then botSignature else ['s']

/-- The token of the bot is as it is on the wire. Other segments are rows of one letter. -/
def rowRuntime : Runtime Unit Unit where
  decode segment :=
    match principalRuntime.decode segment, readRow segment with
    | some value, _ => some value
    | none, some (.inl kid) => some (jwtHeader kid)
    | none, some (.inr claims) => some (printedPayload claims)
    | none, none => none
  encode value :=
    match value with
    | .object [_, _, (_, .string kid)] => rowSegment (.inl kid)
    | .object [(_, .string sub), (_, .string orgId), (_, .array scopes), (_, .number exp), (_, .number iat), _] =>
        rowSegment (.inr (sub, orgId, scopes.filterMap fun scope => string? (.json scope), exp, iat))
    | _ => []
  verifies _ input signature := signature == rowSignature input
  sign _ := rowSignature
  hmac _ _ := ['m']
  round number := if number = 3600 ∨ number = 60 then number else 0
  numeral := printedNumber

def rowSettings : Settings Unit Unit where
  enabled := true
  keys := [{ kid := "main".toList, publicKey := (), privateKey := some () }]
  supabaseSecret := none

theorem plain_rowSegment (value : Text ⊕ PrintedClaims) : ∀ char ∈ rowSegment value, char ≠ '.' ∧ char ≠ ' ' := by
  intro char member
  unfold rowSegment at member
  split_ifs at member
  · exact plain_segments char (by simp [member])
  · exact plain_segments char (by simp [member])
  · rw [eq_of_mem_replicate member]
    decide

theorem decode_rowSegment (value : Text ⊕ PrintedClaims) : rowRuntime.decode (rowSegment value) =
    some (value.elim jwtHeader printedPayload) := by
  unfold rowSegment
  split_ifs with isHeader isPayload
  · rw [isHeader]
    simp [rowRuntime, principalRuntime]
    rfl
  · rw [isPayload]
    simp [rowRuntime, principalRuntime, payloadSegment_ne]
    rfl
  · have apart : ∀ segment : Text, 'e' ∈ segment → row value ≠ segment := by
      rintro _ member rfl
      exact absurd (eq_of_mem_replicate member) (by decide)
    have unread : principalRuntime.decode (row value) = none := by
      simp [principalRuntime, apart headerSegment (by decide +kernel), apart payloadSegment (by decide +kernel)]
    have read := readRow_row value
    cases value with
    | inl kid => simp only [rowRuntime, unread, read, Sum.elim_inl]
    | inr claims => simp only [rowRuntime, unread, read, Sum.elim_inr]

theorem lawful_rowRuntime : Lawful rowRuntime rowSettings.keys where
  header kid := decode_rowSegment (.inl kid)
  payload claims := by
    have texts : (claims.scopes.map Json.string).filterMap (fun scope => string? (.json scope)) =
        claims.scopes := by
      rw [filterMap_map]
      exact filterMap_some
    have read := decode_rowSegment (.inr (principalPrefix ++ claims.principalId, claims.orgId,
      claims.scopes, printedNumber claims.exp, printedNumber claims.iat))
    rw [← texts] at read
    exact read.trans (by rw [texts]; rfl)
  encoded value := by
    have apart : ∀ coded, '.' ∉ rowSegment coded ∧ ' ' ∉ rowSegment coded := fun coded =>
      ⟨fun member => (plain_rowSegment coded _ member).1 rfl, fun member => (plain_rowSegment coded _ member).2 rfl⟩
    unfold rowRuntime
    dsimp only
    split
    · exact apart _
    · exact apart _
    · exact ⟨not_mem_nil, not_mem_nil⟩
  signed privateKey input := by
    change '.' ∉ rowSignature input ∧ ' ' ∉ rowSignature input
    unfold rowSignature
    split_ifs
    · have plain := fun char member => plain_segments char (mem_append_right _ member)
      exact ⟨fun member => (plain _ member).1 rfl, fun member => (plain _ member).2 rfl⟩
    · decide
  verified _ _ _ _ _ := beq_self_eq_true _
  number number := by
    by_cases known : number = 3600 ∨ number = 60
    · rcases known with rfl | rfl
      · decide +kernel
      · decide +kernel
    · simp only [rowRuntime, if_neg known]
      decide +kernel

def administrator : Caller where
  userId := "root".toList
  isAdmin := true
  orgAdmin := false

def botClaims : PrincipalClaims where
  principalId := "sp_0".toList
  orgId := "acme".toList
  scopes := ["jobs:read".toList]
  exp := expiry rowRuntime 0 1
  iat := 0

def botMinted : MintedToken where
  toPrincipalClaims := botClaims
  tokenId := "spt_1".toList
  accessToken := createJwtRs256 rowRuntime (jwtPayload rowRuntime botClaims) "main".toList ()

def botCreation : PrincipalStep where
  nowMs := 0
  action := .create administrator "acme".toList "bot".toList

def botMint : PrincipalStep where
  nowMs := 0
  action := .mint administrator "acme".toList "sp_0".toList
    { scopes := ["jobs:read".toList], ttlHours := 1 }

def botRevocation : PrincipalStep where
  nowMs := 0
  action := .revoke administrator "acme".toList "sp_0".toList "spt_1".toList

def botRequest : PrincipalStep where
  nowMs := 0
  action := .request {} [] ("Bearer".toList ++ ' ' :: botMinted.accessToken)

def botNext : PrincipalState → PrincipalStep → PrincipalState :=
  nextState rowRuntime rowSettings (fun token => token) ["jobs:read".toList]

def botState : PrincipalState where
  principals := [{ id := "sp_0".toList, orgId := "acme".toList, name := "bot".toList }]
  tokens := [tokenRow rowRuntime (fun token => token) botMinted]
  nextId := 2
  minted := [botMinted]

theorem botState_eq : botNext (botNext {} botCreation) botMint = botState := by
  have valid : MintServicePrincipalTokenRequestSchema
      { scopes := ["jobs:read".toList], ttlHours := 1 } = true := by
    decide +kernel
  have made : mintToken rowRuntime rowSettings.keys (fun token => token) ["jobs:read".toList] 0
      administrator "acme".toList "sp_0".toList { scopes := ["jobs:read".toList], ttlHours := 1 }
      (botNext {} botCreation) = .ok botState := by
    unfold mintToken
    rw [valid]
    rfl
  change nextState _ _ _ _ _ _ = _
  unfold nextState changed
  dsimp only [botMint]
  rw [made]

theorem botState_revoked : (botNext botState botRevocation).minted = [botMinted] ∧
    (botNext botState botRevocation).revokedTokens = ["spt_1".toList] := by
  exact ⟨rfl, rfl⟩

/-- What the service mints is the token on the wire. -/
theorem botMinted_token : botMinted.accessToken = botToken := by
  have header : rowRuntime.encode (jwtHeader "main".toList) = headerSegment :=
    (if_pos rfl : rowSegment (.inl "main".toList) = headerSegment)
  have exp : printedNumber botClaims.exp = "3600".toList := by decide +kernel
  have iat : printedNumber botClaims.iat = "0".toList := by decide +kernel
  have payload : rowRuntime.encode (jwtPayload rowRuntime botClaims) = payloadSegment := by
    change rowSegment (.inr (_, _, _, printedNumber botClaims.exp, printedNumber botClaims.iat)) = _
    rw [exp, iat, rowSegment, if_neg (by simp)]
    exact if_pos rfl
  change signingInput (rowRuntime.encode (jwtHeader "main".toList))
    (rowRuntime.encode (jwtPayload rowRuntime botClaims)) ++
    '.' :: rowSignature (signingInput (rowRuntime.encode (jwtHeader "main".toList)) (rowRuntime.encode
      (jwtPayload rowRuntime botClaims))) = _
  rw [header, payload, ← botInput, rowSignature, if_pos rfl]
  rfl

theorem botMinted_extracted :
    extractBearerToken ("Bearer".toList ++ ' ' :: botMinted.accessToken) = .ok botMinted.accessToken := by
  rw [botMinted_token]
  exact botBearer_extracted

/-- While its record is there, the token of the bot is honoured. -/
theorem bot_token_effective :
    RevocationEffective rowRuntime plainDriver rowSettings (botNext (botNext {} botCreation) botMint) botRequest := by
  refine (revocation_effective_iff lawful_rowRuntime plainDriver (fun token => token)
    ["jobs:read".toList] [botCreation, botMint, botRequest]).mpr ?_ _ (mem_of_getElem? (i := 2) rfl)
  intro visit member
  change visit ∈ visits botNext {} [botCreation, botMint, botRequest] at member
  simp only [visits, botState_eq, mem_cons, not_mem_nil, or_false] at member
  rcases member with rfl | rfl | rfl
  · exact trivial
  · exact trivial
  · intro minted isMinted _
    rw [mem_singleton.mp isMinted]
    refine ⟨fun withdrawn => ?_, fun _ => rfl⟩
    rcases withdrawn with revoked | deleted
    · exact absurd revoked not_mem_nil
    · exact absurd deleted not_mem_nil

/-- After its record is revoked, the token of the bot is still accepted. -/
theorem revoked_token_accepted : ¬ ∀ visit ∈ visits botNext {} [botCreation, botMint, botRevocation, botRequest],
      RevocationEffective rowRuntime plainDriver rowSettings visit.1 visit.2 := by
  intro effective
  have last : (botNext botState botRevocation, botRequest) ∈
      visits botNext {} [botCreation, botMint, botRevocation, botRequest] := by
    simp only [visits, botState_eq, mem_cons, true_or, or_true]
  have minted : botMinted ∈ (botNext botState botRevocation).minted := by
    rw [botState_revoked.1]
    exact mem_cons_self
  have withdrawn : Withdrawn (botNext botState botRevocation) botMinted := by
    apply Or.inl
    rw [botState_revoked.2]
    exact mem_cons_self
  obtain ⟨failure, rejected⟩ := (effective _ last botMinted minted botMinted_extracted).1 withdrawn
  have signs : Signs rowRuntime rowSettings.keys botMinted.accessToken botClaims :=
    ⟨⟨"main".toList, (), rfl, rfl⟩, _, rfl⟩
  have accepted := (response_eq_ok lawful_rowRuntime plainDriver 0 {} [] signs botMinted_extracted
    (principalUser botClaims)).mpr ⟨rfl, rfl, by decide +kernel⟩
  cases rejected.symm.trans accepted

end EveHorizon.Auth
