import EveHorizon.Auth.TokenVerifier
import EveHorizon.Library.Checks

/-!
# Kinds of tokens

A verified user is a machine of a kind exactly when the ring signed the token with the type of
that kind, and carries what the signed payload says.
-/

namespace EveHorizon.Auth

open Checks

inductive MachineKind where
  | job | service | servicePrincipal | appLink
  deriving DecidableEq

namespace MachineKind

def typeName : MachineKind → String
  | .job => "job"
  | .service => "service"
  | .servicePrincipal => "service_principal"
  | .appLink => "app_link"

def carriedBy (user : AuthUser) : MachineKind → Bool
  | .job => user.isJobToken
  | .service => user.isServiceToken
  | .servicePrincipal => user.isServicePrincipal
  | .appLink => user.isAppLinkToken

theorem hasType_unique {payload : Json} {kind other : MachineKind} (first : hasType kind.typeName payload = true)
    (second : hasType other.typeName payload = true) : kind = other := by
  unfold hasType at first second
  rw [beq_iff_eq] at first second
  have same : kind.typeName.toList = other.typeName.toList := Option.some.inj (first.symm.trans second)
  revert same
  cases kind <;> cases other <;> decide

end MachineKind

def claim (payload : Json) (name : String) : Option Text := string? (field payload name)

/-- The ids and permissions of a user are those that the payload claims for its kind. -/
def IdsOf (payload : Json) (user : AuthUser) : MachineKind → Prop
  | .job =>
    string? ((field payload "user_id").orElse (field payload "sub")) = some user.userId ∧
    nullableOrg payload = .ok user.orgId ∧
    (user.projectId.isSome ∧ user.projectId = claim payload "project_id") ∧
    (user.jobId.isSome ∧ user.jobId = claim payload "job_id") ∧
    (user.permissions.isSome ∧ user.permissions = claimedPermissions payload "permissions" "scopes") ∧
    claimedScope payload = .ok user.scope
  | .service =>
    claim payload "sub" = some user.userId ∧
    (user.orgId.isSome ∧ user.orgId = claim payload "org_id") ∧
    (user.projectId.isSome ∧ user.projectId = claim payload "project_id") ∧
    (user.envName.isSome ∧ user.envName = claim payload "env_name") ∧
    (user.serviceName.isSome ∧ user.serviceName = claim payload "service_name") ∧
    (user.permissions.isSome ∧ user.permissions = strings? (field payload "permissions"))
  | .servicePrincipal =>
    claim payload "sub" = some (principalPrefix ++ user.userId) ∧
    (user.orgId.isSome ∧ user.orgId = claim payload "org_id") ∧
    (user.permissions.isSome ∧ user.permissions = claimedPermissions payload "scopes" "permissions")
  | .appLink =>
    claim payload "sub" = some user.userId ∧
    (user.orgId.isSome ∧ user.orgId = claim payload "consumer_org_id") ∧
    (user.projectId.isSome ∧ user.projectId = claim payload "producer_project_id") ∧
    (user.subscriptionId.isSome ∧ user.subscriptionId = claim payload "subscription_id") ∧
    user.consumerProjectId = claim payload "consumer_project_id" ∧
    user.producerProjectId = claim payload "producer_project_id" ∧
    user.consumerPrincipal = claim payload "consumer_principal" ∧
    nullableEnv payload = .ok user.consumerEnv ∧
    user.producerEnv = claim payload "producer_env" ∧
    user.apiName = claim payload "api_name" ∧
    (user.permissions.isSome ∧ user.permissions = strings? (field payload "scopes"))

structure StandsFor (kind : MachineKind) (payload : Json) (user : AuthUser) : Prop where
  only : ∀ other : MachineKind, other.carriedBy user = true ↔ other = kind
  ids : IdsOf payload user kind
  notAdmin : user.isAdmin = false

variable {payload : Json}

theorem requireString_eq_ok {name message : String} {text : Text} :
    requireString payload name message = .ok text ↔ claim payload name = some text := by
  unfold requireString claim
  split
  · next found => simp [found]
  · next missing => simp [missing]

variable {user : AuthUser}

theorem standsFor_servicePrincipal (accepted : servicePrincipalUser payload = .ok user) :
    StandsFor .servicePrincipal payload user := by
  unfold servicePrincipalUser at accepted
  obtain ⟨sub, subject, accepted⟩ := bind_eq_ok.mp accepted
  split at accepted
  · cases accepted
  · next begins =>
      obtain ⟨orgId, org, accepted⟩ := bind_eq_ok.mp accepted
      split at accepted
      · cases accepted
      · next scopes permissions =>
          cases accepted
          rw [requireString_eq_ok] at subject org
          have leading : principalPrefix <+: sub := by simpa [Text.startsWith] using begins
          obtain ⟨rest, rfl⟩ := leading
          refine ⟨fun other => by cases other <;> simp [MachineKind.carriedBy], ?_, rfl⟩
          exact ⟨by simpa using subject, ⟨rfl, org.symm⟩, rfl, permissions.symm⟩

theorem standsFor_job (accepted : jobUser payload = .ok user) : StandsFor .job payload user := by
  unfold jobUser at accepted
  cases subject : string? ((field payload "user_id").orElse (field payload "sub")) with
  | none => simp [subject] at accepted
  | some userId =>
    simp only [subject] at accepted
    obtain ⟨orgId, org, accepted⟩ := bind_eq_ok.mp accepted
    obtain ⟨projectId, project, accepted⟩ := bind_eq_ok.mp accepted
    obtain ⟨jobId, job, accepted⟩ := bind_eq_ok.mp accepted
    cases permissions : claimedPermissions payload "permissions" "scopes" with
    | none => simp [permissions] at accepted
    | some found =>
      simp only [permissions] at accepted
      obtain ⟨_, _, accepted⟩ := bind_eq_ok.mp accepted
      obtain ⟨scope, limited, accepted⟩ := bind_eq_ok.mp accepted
      cases accepted
      rw [requireString_eq_ok] at project job
      refine ⟨fun other => by cases other <;> simp [MachineKind.carriedBy], ?_, rfl⟩
      exact ⟨subject, org, ⟨rfl, project.symm⟩, ⟨rfl, job.symm⟩, ⟨rfl, permissions.symm⟩, limited⟩

theorem standsFor_service (accepted : serviceUser payload = .ok user) : StandsFor .service payload user := by
  unfold serviceUser at accepted
  obtain ⟨sub, subject, accepted⟩ := bind_eq_ok.mp accepted
  split at accepted
  · cases accepted
  · obtain ⟨orgId, org, accepted⟩ := bind_eq_ok.mp accepted
    obtain ⟨projectId, project, accepted⟩ := bind_eq_ok.mp accepted
    obtain ⟨envName, env, accepted⟩ := bind_eq_ok.mp accepted
    obtain ⟨serviceName, service, accepted⟩ := bind_eq_ok.mp accepted
    cases permissions : strings? (field payload "permissions") with
    | none => simp [permissions] at accepted
    | some found =>
      simp only [permissions] at accepted
      obtain ⟨_, _, accepted⟩ := bind_eq_ok.mp accepted
      cases accepted
      rw [requireString_eq_ok] at subject org project env service
      refine ⟨fun other => by cases other <;> simp [MachineKind.carriedBy], ?_, rfl⟩
      exact ⟨subject, ⟨rfl, org.symm⟩, ⟨rfl, project.symm⟩, ⟨rfl, env.symm⟩, ⟨rfl, service.symm⟩, rfl, permissions.symm⟩

theorem standsFor_appLink {claims : AppLinkClaims} (accepted : appLinkClaims payload = .ok claims) :
    StandsFor .appLink payload (appLinkUser claims) := by
  unfold appLinkClaims at accepted
  obtain ⟨sub, subject, accepted⟩ := bind_eq_ok.mp accepted
  split at accepted
  · cases accepted
  · obtain ⟨subscriptionId, subscription, accepted⟩ := bind_eq_ok.mp accepted
    split at accepted
    · cases accepted
    · obtain ⟨consumerProjectId, consumer, accepted⟩ := bind_eq_ok.mp accepted
      obtain ⟨consumerOrgId, org, accepted⟩ := bind_eq_ok.mp accepted
      obtain ⟨consumerPrincipal, principal, accepted⟩ := bind_eq_ok.mp accepted
      obtain ⟨consumerEnv, env, accepted⟩ := bind_eq_ok.mp accepted
      obtain ⟨producerProjectId, producer, accepted⟩ := bind_eq_ok.mp accepted
      obtain ⟨producerEnv, granted, accepted⟩ := bind_eq_ok.mp accepted
      obtain ⟨apiName, api, accepted⟩ := bind_eq_ok.mp accepted
      split at accepted
      · cases accepted
      · cases permissions : strings? (field payload "scopes") with
        | none => simp [permissions] at accepted
        | some scopes =>
          simp only [permissions] at accepted
          split at accepted
          · cases accepted
          · obtain ⟨_, _, accepted⟩ := bind_eq_ok.mp accepted
            cases accepted
            rw [requireString_eq_ok] at subject subscription consumer org principal
            rw [requireString_eq_ok] at producer granted api
            refine ⟨fun other => by cases other <;> simp [MachineKind.carriedBy, appLinkUser], ?_,
              rfl⟩
            exact ⟨subject, ⟨rfl, org.symm⟩, ⟨rfl, producer.symm⟩, ⟨rfl, subscription.symm⟩,
              consumer.symm, producer.symm, principal.symm, env, granted.symm, api.symm, rfl, permissions.symm⟩

structure IsAccount (db : AuthDb) (user : AuthUser) : Prop where
  plain : ∀ kind : MachineKind, kind.carriedBy user = false
  byRow : user.isAdmin = true → ∃ row ∈ db.users, row.id = user.userId ∧ row.isAdmin = true

variable {db : AuthDb}

theorem isAccount_authUserFromUser {current : AuthDb} {user : User} (row : user.isAdmin = true → user ∈ db.users) :
    IsAccount db (authUserFromUser current user) where
  plain kind := by cases kind <;> rfl
  byRow admin := ⟨user, row admin, rfl, admin⟩

theorem IsAccount.withInvite (account : IsAccount db user) (result : InviteResult) :
    IsAccount db (withInvite user result) where
  plain kind := by
    have plain := account.plain kind
    cases kind <;> exact plain
  byRow := account.byRow

section

variable {PublicKey PrivateKey : Type} {runtime : Runtime PublicKey PrivateKey} {driver : Driver}
  {settings : Settings PublicKey PrivateKey} {nowMs : Nat} {db : AuthDb} {newId token : Text} {user : AuthUser}
  {row : User}

theorem mem_users_of_findUser {id : Text} (found : db.findUser id = some row) : row ∈ db.users :=
  List.mem_of_find?_eq_some found

theorem isAccount_attachPendingSupabaseInvite {current : AuthDb} (member : row ∈ db.users)
    (email : Option (Option Text)) : IsAccount db (attachPendingSupabaseInvite driver nowMs current row email).1 := by
  cases email with
  | none => exact isAccount_authUserFromUser fun _ => member
  | some email =>
    unfold attachPendingSupabaseInvite
    dsimp only
    apply IsAccount.withInvite
    split
    · exact isAccount_authUserFromUser fun _ => member
    · exact isAccount_authUserFromUser fun _ => member

variable {claims : Json}

theorem isAccount_autoProvisionSupabaseUser {supabaseUuid : Text}
    (accepted : (autoProvisionSupabaseUser runtime driver nowMs db newId claims supabaseUuid).1 = .ok user) :
    IsAccount db user := by
  have fresh : ∀ email current, IsAccount db
      (authUserFromUser current { id := newId, email, isAdmin := false }) :=
    fun _ _ => isAccount_authUserFromUser fun admin => absurd admin Bool.false_ne_true
  unfold autoProvisionSupabaseUser at accepted
  cases provisioned : provisionedEmail driver claims supabaseUuid with
  | error failure => simp [provisioned] at accepted
  | ok email =>
    simp only [provisioned] at accepted
    split at accepted
    · cases accepted
    · split at accepted
      · cases accepted
      · split at accepted
        · cases accepted
          exact fresh _ _
        · cases accepted
          exact (fresh _ _).withInvite _

theorem isAccount_resolveSupabaseClaims
    (accepted : (resolveSupabaseClaims runtime driver nowMs db newId claims).1 = .ok user) : IsAccount db user := by
  unfold resolveSupabaseClaims at accepted
  split at accepted
  · cases accepted
  · split at accepted
    · cases accepted
    · dsimp only at accepted
      split at accepted
      · next row linked =>
          cases accepted
          obtain ⟨identity, -, found⟩ := Option.bind_eq_some_iff.mp linked
          exact isAccount_attachPendingSupabaseInvite (mem_users_of_findUser found) _
      · split at accepted
        · cases accepted
        · split at accepted
          · next row byEmail =>
              split at accepted
              · cases accepted
              · cases accepted
                exact isAccount_attachPendingSupabaseInvite (List.mem_of_find?_eq_some byEmail) _
          · exact isAccount_autoProvisionSupabaseUser accepted
        · exact isAccount_autoProvisionSupabaseUser accepted

theorem isAccount_resolveInternalUserToken {now : Nat}
    (accepted : resolveInternalUserToken runtime now token settings.keys driver db = .ok user) : IsAccount db user := by
  unfold resolveInternalUserToken at accepted
  obtain ⟨claims, -, accepted⟩ := bind_eq_ok.mp accepted
  split at accepted
  · cases accepted
  · split at accepted
    · cases accepted
    · split at accepted
      · cases accepted
      · next row found =>
          cases accepted
          exact isAccount_authUserFromUser fun _ => mem_users_of_findUser found

theorem isAccount_resolveUserToken
    (accepted : (resolveUserToken runtime driver settings nowMs db newId token).1 = .ok user) : IsAccount db user := by
  unfold resolveUserToken at accepted
  dsimp only at accepted
  split at accepted
  · next internal =>
      cases accepted
      split at internal
      · exact isAccount_resolveInternalUserToken internal
      · cases internal
  · split at accepted
    · unfold resolveSupabaseToken at accepted
      split at accepted
      · cases accepted
      · exact isAccount_resolveSupabaseClaims accepted
    · cases accepted

structure Machine (runtime : Runtime PublicKey PrivateKey) (now : Nat) (token : Text)
    (keys : List (KeyEntry PublicKey PrivateKey)) (user : AuthUser) (kind : MachineKind)
    (payload : Json) : Prop where
  verified : verifyJwtRs256 runtime now token keys = .ok payload
  typed : hasType kind.typeName payload = true
  standsFor : StandsFor kind payload user

theorem verifyTyped_eq_ok {now : Nat} {keys : List (KeyEntry PublicKey PrivateKey)} {kind : String}
    {payload : Json} (accepted : verifyTyped runtime now token keys kind = .ok payload) :
    verifyJwtRs256 runtime now token keys = .ok payload ∧ hasType kind payload = true := by
  unfold verifyTyped at accepted
  split at accepted
  · cases accepted
  · split at accepted
    · cases accepted
    · next verified =>
        split at accepted
        · next typed =>
            cases accepted
            exact ⟨verified, typed⟩
        · cases accepted

theorem resolveToken_cases (accepted : (resolveToken runtime driver settings nowMs db newId token).1 = .ok user) :
    (∃ kind payload, Machine runtime (nowMs / 1000) token settings.keys user kind payload) ∨
      (∀ payload, decodeJwtPayload runtime token = some payload →
        ∀ kind : MachineKind, hasType kind.typeName payload = false) ∧ IsAccount db user := by
  unfold resolveToken at accepted
  dsimp only at accepted
  split at accepted
  · next unread =>
      exact .inr ⟨fun payload read => by simp [unread] at read,
        isAccount_resolveUserToken accepted⟩
  · next rawPayload read =>
      split at accepted
      · obtain ⟨payload, typed, isUser⟩ := bind_eq_ok.mp accepted
        obtain ⟨verified, typed⟩ := verifyTyped_eq_ok typed
        exact .inl ⟨.job, payload, verified, typed, standsFor_job isUser⟩
      · next notJob =>
          split at accepted
          · obtain ⟨payload, typed, isUser⟩ := bind_eq_ok.mp accepted
            obtain ⟨verified, typed⟩ := verifyTyped_eq_ok typed
            exact .inl ⟨.service, payload, verified, typed, standsFor_service isUser⟩
          · next notService =>
              split at accepted
              · obtain ⟨payload, typed, accepted⟩ := bind_eq_ok.mp accepted
                obtain ⟨verified, typed⟩ := verifyTyped_eq_ok typed
                obtain ⟨claims, claimed, accepted⟩ := bind_eq_ok.mp accepted
                obtain ⟨_, _, accepted⟩ := bind_eq_ok.mp accepted
                cases accepted
                exact .inl ⟨.appLink, payload, verified, typed, standsFor_appLink claimed⟩
              · next notAppLink =>
                  split at accepted
                  · obtain ⟨payload, typed, isUser⟩ := bind_eq_ok.mp accepted
                    obtain ⟨verified, typed⟩ := verifyTyped_eq_ok typed
                    exact .inl ⟨.servicePrincipal, payload, verified, typed, standsFor_servicePrincipal isUser⟩
                  · next notPrincipal =>
                      refine .inr ⟨fun payload same kind => ?_, isAccount_resolveUserToken accepted⟩
                      cases same.symm.trans read
                      cases kind with
                      | job => exact Bool.eq_false_iff.mpr notJob
                      | service => exact Bool.eq_false_iff.mpr notService
                      | servicePrincipal => exact Bool.eq_false_iff.mpr notPrincipal
                      | appLink => exact Bool.eq_false_iff.mpr notAppLink

def RingSigned (runtime : Runtime PublicKey PrivateKey) (Signed : PublicKey → Text → Prop)
    (keys : List (KeyEntry PublicKey PrivateKey)) : Text → Json → Prop :=
  Carries runtime "RS256" fun input => ∃ key ∈ keys, Signed key.publicKey input

/-- If signatures cannot be forged, a verified user is a machine of a kind exactly when the ring
signed its token with the type of the kind; its ids and permissions are those of the payload;
it is an administrator only by a row of a user; and a token whose header names HS256 gives no
machine, whatever it claims and whoever signed it. -/
theorem token_kinds_separated (Signed : PublicKey → Text → Prop)
    (unforgeable : ∀ key ∈ settings.keys, ∀ input signature,
      runtime.verifies key.publicKey input signature = true → Signed key.publicKey input) {header : Text}
    (accepted : (verifyAuthorizationHeader runtime driver settings nowMs db newId header).1 = .ok user) :
    ∃ token, extractBearerToken header = .ok token ∧ (∀ kind : MachineKind, kind.carriedBy user = true ↔
        ∃ payload, RingSigned runtime Signed settings.keys token payload ∧ hasType kind.typeName payload = true) ∧
      (∀ kind : MachineKind, kind.carriedBy user = true →
        ∀ payload, RingSigned runtime Signed settings.keys token payload → IdsOf payload user kind) ∧
      (user.isAdmin = true → ∃ row ∈ db.users, row.id = user.userId ∧ row.isAdmin = true) ∧
      (∀ Mark payload, Carries runtime "HS256" Mark token payload →
        ∀ kind : MachineKind, kind.carriedBy user = false) := by
  unfold verifyAuthorizationHeader at accepted
  split at accepted
  · cases accepted
  · split at accepted
    · cases accepted
    · next token extracted =>
        refine ⟨token, extracted, ?_⟩
        rcases resolveToken_cases accepted with ⟨kind, payload, machine⟩ | ⟨untyped, account⟩
        · have carries := carries_of_verifyJwtRs256 unforgeable machine.verified
          have unique : ∀ {algorithm Mark other}, Carries runtime algorithm Mark token other →
              other = payload := fun found => Option.some.inj
            ((decodeJwtPayload_of_carries found).symm.trans (decodeJwtPayload_of_carries carries))
          refine ⟨fun other => ?_, fun other carried claimed signed => ?_, fun admin => ?_,
            fun Mark claimed other => absurd (algorithm_unique carries other) (by decide)⟩
          · rw [machine.standsFor.only other]
            constructor
            · rintro rfl
              exact ⟨payload, carries, machine.typed⟩
            · rintro ⟨claimed, signed, typed⟩
              rw [unique signed] at typed
              exact MachineKind.hasType_unique typed machine.typed
          · rw [unique signed, (machine.standsFor.only other).mp carried]
            exact machine.standsFor.ids
          · rw [machine.standsFor.notAdmin] at admin
            cases admin
        · refine ⟨fun kind => ?_, fun kind carried => ?_, account.byRow, fun _ _ _ kind => account.plain kind⟩
          · rw [account.plain kind]
            constructor
            · intro carried
              cases carried
            · rintro ⟨payload, signed, typed⟩
              rw [untyped payload (decodeJwtPayload_of_carries signed) kind] at typed
              cases typed
          · rw [account.plain kind] at carried
            cases carried

/-! ## A token of the service principal `sp_0`, signed with a key of 2048 bits -/

def botHeader : Json := .object
  [("alg".toList, .string "RS256".toList), ("typ".toList, .string "JWT".toList), ("kid".toList, .string "main".toList)]

def botPayload : Json := .object
  [("sub".toList, .string "sp:sp_0".toList), ("org_id".toList, .string "acme".toList),
    ("scopes".toList, .array [.string "jobs:read".toList]), ("exp".toList, .number "3600".toList),
    ("iat".toList, .number "0".toList), ("type".toList, .string "service_principal".toList)]

def headerSegment : Text :=
  (["eyJhbGciOiJSUzI1NiIsInR5cCI6IkpXVCIsImtpZCI", "6Im1haW4ifQ"].map String.toList).flatten

def payloadSegment : Text :=
  (["eyJzdWIiOiJzcDpzcF8wIiwib3JnX2lkIjoiYWNtZSI", "sInNjb3BlcyI6WyJqb2JzOnJlYWQiXSwiZXhwIjozNj",
    "AwLCJpYXQiOjAsInR5cGUiOiJzZXJ2aWNlX3ByaW5ja", "XBhbCJ9"].map String.toList).flatten

def botSignature : Text :=
  (["jkuUvAPT_rgWjbXLcEH1rQ2RBnp_m4zMXOwiNVEaKOr", "HiLnuiT8TRNGHGQTdEr6cLxO9h6DOi9JDDwp3QXijIJ",
    "KlO64u0AJj_19EKe-quMrRrkBSHMmJZ2CbagIZkznqv", "nXkXffHOqmWNP_PYDYF3lrk2RVy3bnpt78JIBxcXitv",
    "gD32t1wvQugaseFa3s931Dy-QlYCGpUMzzOaIlvsd9S", "_HVLg9xQW7RiRBn05jjVtvCBMudNQ6kQDtdQ77HwcUB",
    "kAA0P2BHLJC2YqdFwHk6ZmZYD0WFHKWDG9I4k6chaJX", "XFHDI4WuYim8XyfTvEfgbVfwyFzBfHvNXDrAqnBgQ"].map
      String.toList).flatten

def botInput : Text := signingInput headerSegment payloadSegment

def botToken : Text := botInput ++ '.' :: botSignature

def botBearer : Text := "Bearer".toList ++ ' ' :: botToken

def principalRuntime : Runtime Unit Unit where
  decode segment :=
    if segment = headerSegment then some botHeader else if segment = payloadSegment then some botPayload else none
  encode _ := []
  verifies _ input signature := input == botInput && signature == botSignature
  sign _ _ := botSignature
  hmac _ _ := "m".toList
  round number := number
  numeral _ := []

def plainDriver : Driver where
  sent := Json.Member.scalar?
  lower text := text

def principalSettings : Settings Unit Unit where
  enabled := true
  keys := [{ kid := "main".toList, publicKey := (), privateKey := some () }]
  supabaseSecret := none

theorem plain_segments : ∀ char ∈ headerSegment ++ payloadSegment ++ botSignature, char ≠ '.' ∧ char ≠ ' ' := by
  have checked : (headerSegment ++ payloadSegment ++ botSignature).all (fun char => char != '.' && char != ' ') = true := by
    decide +kernel
  intro char member
  simpa using List.all_eq_true.mp checked char member

theorem payloadSegment_ne : payloadSegment ≠ headerSegment := by
  decide +kernel

theorem extractBearerToken_bearer {token : Text} (free : ' ' ∉ token) (nonempty : token ≠ []) :
    extractBearerToken ("Bearer".toList ++ ' ' :: token) = .ok token := by
  have parts : ("Bearer".toList ++ ' ' :: token).splitOn ' ' = ["Bearer".toList, token] := by
    rw [List.splitOn_append_cons_self, List.splitOn_eq_singleton (by decide), List.splitOn_eq_singleton free]
    rfl
  have present : token.isEmpty = false := by simpa using nonempty
  unfold extractBearerToken
  rw [parts]
  dsimp only
  rw [if_neg]
  rintro (scheme | empty)
  · exact scheme (by decide)
  · rw [present] at empty
    cases empty

theorem botBearer_extracted : extractBearerToken botBearer = .ok botToken := by
  refine extractBearerToken_bearer (fun member => ?_) (by simp [botToken])
  have plain := plain_segments ' '
  simp only [botToken, botInput, signingInput, List.mem_append, List.mem_cons] at member plain
  rcases member with (inHeader | blank | inPayload) | blank | inSignature
  · exact (plain (.inl (.inl inHeader))).2 rfl
  · exact absurd blank (by decide)
  · exact (plain (.inl (.inr inPayload))).2 rfl
  · exact absurd blank (by decide)
  · exact (plain (.inr inSignature)).2 rfl

theorem segments_botToken : segments botToken = some (headerSegment, payloadSegment, botSignature) := by
  have plain := plain_segments '.'
  simp only [List.mem_append] at plain
  have parts : botToken.splitOn '.' = [headerSegment, payloadSegment, botSignature] := by
    rw [botToken, List.splitOn_append_cons_self, botInput, signingInput, List.splitOn_append_cons_self,
      List.splitOn_eq_singleton fun member => (plain (.inl (.inl member))).1 rfl,
      List.splitOn_eq_singleton fun member => (plain (.inl (.inr member))).1 rfl,
      List.splitOn_eq_singleton fun member => (plain (.inr member)).1 rfl]
    rfl
  rw [segments, parts]

def bot : AuthUser where
  userId := "sp_0".toList
  orgId := some "acme".toList
  role := some "member".toList
  isAdmin := false
  isServicePrincipal := true
  permissions := some ["jobs:read".toList]

theorem bot_verified : (verifyAuthorizationHeader principalRuntime plainDriver principalSettings 0 {} [] botBearer).1 =
      .ok bot := by
  have header : principalRuntime.decode headerSegment = some botHeader := by simp [principalRuntime]
  have payload : principalRuntime.decode payloadSegment = some botPayload := by
    simp [principalRuntime, payloadSegment_ne]
  have verified : verifyJwtRs256 principalRuntime 0 botToken principalSettings.keys = .ok botPayload :=
    verifyJwtRs256_eq_ok.mpr ⟨_, _, _, botHeader, segments_botToken, header, rfl, rfl,
      ⟨_, List.mem_singleton_self _, by simp [principalRuntime, botInput]⟩,
      checkedPayload_eq_ok.mpr ⟨payload, rfl, by decide +kernel, rfl⟩⟩
  have decoded : decodeJwtPayload principalRuntime botToken = some botPayload := by
    rw [decodeJwtPayload, segments_botToken]
    exact payload
  have accepted : verifyServicePrincipalToken principalRuntime 0 botToken principalSettings.keys = .ok bot := by
    unfold verifyServicePrincipalToken verifyTyped
    rw [verified]
    rfl
  rw [verifyAuthorizationHeader, if_neg (by decide), botBearer_extracted]
  dsimp only
  rw [resolveToken, decoded]
  exact accepted

theorem principal_token_separated :
    ∃ user : AuthUser, (verifyAuthorizationHeader principalRuntime plainDriver principalSettings 0 {} []
        botBearer).1 = .ok user ∧ user.isServicePrincipal = true ∧
      ∃ payload, RingSigned principalRuntime (fun _ input => input = botInput)
        principalSettings.keys botToken payload ∧ hasType "service_principal" payload = true := by
  obtain ⟨token, extracted, kinds, -⟩ := token_kinds_separated (fun _ input => input = botInput)
      (by
        intro _ _ input signature verified
        simp only [principalRuntime, Bool.and_eq_true, beq_iff_eq] at verified
        exact verified.1) bot_verified
  obtain rfl : token = botToken := Except.ok.inj (extracted.symm.trans botBearer_extracted)
  exact ⟨_, bot_verified, rfl, (kinds .servicePrincipal).mp rfl⟩

end

end EveHorizon.Auth
