import EveHorizon.Auth.PermissionGuard
import EveHorizon.Auth.TokenKinds

/-!
# Tenancy of tokens

The guard compares the scope of a token with what a request addresses only when the request
addresses a resource by its id.
-/

namespace EveHorizon.Auth

inductive Target where
  | project (input : Text)
  | resource (ref : ResourceRef)
  | org (value : Json.Member)

section

variable {PublicKey PrivateKey : Type} (runtime : Runtime PublicKey PrivateKey) (driver : Driver)
  (db : RbacDb) (user : AuthUser)

def target (request : GuardedRequest) : Option Target :=
  match extractProjectId request, extractResourceRef request with
  | some projectId, _ => some (.project projectId)
  | none, some resource => some (.resource resource)
  | none, none => (extractOrgId runtime request).map .org

def OwnProject (project : Project) : Prop :=
  match given user.projectId with
  | some projectId => project.id = projectId
  | none => given user.orgId = some project.orgId

def Within : Target → Prop
  | .project input => ∀ project, db.resolveProject input = some project → OwnProject user project
  | .resource ref => ∀ owner, db.getResourceProjectContext ref.kind ref.id = some owner → OwnProject user owner
  | .org value => ∀ orgId, driver.sent value = some orgId → given user.projectId = none ∧ given user.orgId = some orgId

def MayUse (required : List Text) : Prop := ∃ permission ∈ required, permission ∈ user.permissions.getD []

/-- An admitted request addresses what is the token's, with a permission that it carries. -/
def TokenTenancy (enabled : Bool) (endpoint : Endpoint) (request : GuardedRequest)
    (required : List Text) : Prop :=
  canActivate db runtime driver enabled endpoint (some user) request = .ok true →
    (∀ found, target runtime request = some found → Within driver db user found) ∧ MayUse user required

def Uncompared : Target → Prop
  | .resource ref => inOwnSubtree user ref = true
  | _ => True

/-- What a user of the token's name may do at the target, by memberships and bindings, or as
any member does where the request addresses nothing. -/
def Granted (permission : Text) : Option Target → Prop
  | none => permission ∈ expandPermissions .member
  | some (.project input) => ∃ project, db.resolveProject input = some project ∧
      permission ∈ permissionsWithin db user.userId project.orgId (some input)
  | some (.resource ref) => ∃ owner, db.getResourceProjectContext ref.kind ref.id = some owner ∧
      permission ∈ permissionsWithin db user.userId owner.orgId (some owner.id)
  | some (.org value) => ∃ orgId, driver.sent value = some orgId ∧
      permission ∈ db.getEffectivePermissions user.userId orgId none

/-- A token with permissions of its own addresses no foreign target that the guard does not
compare; a token of an app link, which the guard takes for a user, is granted nothing, or only
where it is at home and has a permission itself. -/
def Contained (request : GuardedRequest) (required : List Text) : Prop :=
  user.userId = [] ∨
    if user.isAppLinkToken then
      (∃ permission ∈ required, Granted driver db user permission (target runtime request)) →
        (∀ found, target runtime request = some found → Within driver db user found) ∧ MayUse user required
    else
      MayUse user required → ∀ found, target runtime request = some found →
        Uncompared user found → Within driver db user found

end

section

variable {PublicKey PrivateKey : Type} {runtime : Runtime PublicKey PrivateKey} {driver : Driver}
  {db : RbacDb} {user : AuthUser} {request : GuardedRequest} {endpoint : Endpoint}
  {required : List Text}

theorem hasAnyPermission_iff {permissions : List Text} :
    hasAnyPermission permissions required = true ↔ ∃ permission ∈ required, permission ∈ permissions := by
  simp [hasAnyPermission]

theorem assertTokenMayAddressResource_eq_ok {resource : ResourceRef} :
    assertTokenMayAddressResource db user resource = .ok () ↔ inOwnSubtree user resource = true ∨
        ∃ owner, db.getResourceProjectContext resource.kind resource.id = some owner ∧ OwnProject user owner := by
  unfold assertTokenMayAddressResource
  by_cases own : inOwnSubtree user resource = true
  · simp [own]
  · rw [if_neg own]
    simp only [own]
    unfold resourceOwner OwnProject
    cases db.getResourceProjectContext resource.kind resource.id with
    | none => simp [bind, Except.bind]
    | some owner =>
      simp only [Option.some.injEq, exists_eq_left', bind, Except.bind]
      cases given user.projectId with
      | some projectId =>
        dsimp only
        split
        · next other => simpa using fun same => other same.symm
        · next same => simpa using (not_not.mp same).symm
      | none =>
        cases given user.orgId with
        | some orgId =>
          dsimp only
          split
          · next other => simpa using other
          · next same => simpa using not_not.mp same
        | none => simp

theorem canActivate_required (guarded : endpoint.isPublic = false)
    (isRequired : endpoint.required = some required) (present : required ≠ []) (notAdmin : user.isAdmin = false) :
    canActivate db runtime driver true endpoint (some user) request = .ok true ↔ user.userId ≠ [] ∧ ∃ permissions,
        resolvePermissions db runtime driver user request = .ok permissions ∧
          ∃ permission ∈ required, permission ∈ permissions := by
  have listed : required.isEmpty = false := by simpa using present
  unfold canActivate
  rw [guarded, isRequired]
  by_cases nameless : user.userId = []
  · simp [nameless, Option.filter]
  · have kept : (some user).filter (!·.userId.isEmpty) = some user := by
      simpa [Option.filter] using nameless
    rw [kept]
    simp only [notAdmin, Option.getD_some, listed, Bool.not_true, Bool.or_self, Bool.false_eq_true, if_false]
    rw [Checks.bind_eq_ok]
    constructor
    · rintro ⟨permissions, resolved, accepted⟩
      split at accepted
      · cases accepted
      · next some =>
          exact ⟨nameless, permissions, resolved, hasAnyPermission_iff.mp (by simpa using some)⟩
    · rintro ⟨-, permissions, resolved, some⟩
      refine ⟨permissions, resolved, ?_⟩
      rw [hasAnyPermission_iff.mpr some]
      rfl

theorem resolveTokenPermissions_eq_ok {permissions : List Text} :
    resolveTokenPermissions db user request = .ok permissions ↔ permissions = user.permissions.getD [] ∧
        ∀ ref, target runtime request = some (.resource ref) → inOwnSubtree user ref = true ∨
            ∃ owner, db.getResourceProjectContext ref.kind ref.id = some owner ∧ OwnProject user owner := by
  have plain : (Except.ok (user.permissions.getD []) : Except Refusal (List Text)) =
      .ok permissions ↔ permissions = user.permissions.getD [] := by
    rw [Except.ok.injEq]
    exact eq_comm
  unfold resolveTokenPermissions target
  cases extractProjectId request with
  | some projectId => simpa using plain
  | none =>
    cases extractResourceRef request with
    | none => simpa using plain
    | some resource =>
      simp only [Checks.bind_eq_ok, Option.some.injEq, Target.resource.injEq, forall_eq',
        ← assertTokenMayAddressResource_eq_ok]
      constructor
      · rintro ⟨_, asserted, ⟨⟩⟩
        exact ⟨rfl, asserted⟩
      · rintro ⟨rfl, asserted⟩
        exact ⟨(), asserted, rfl⟩

theorem resolveUserPermissions_granted {permission : Text} :
    (∃ permissions, resolveUserPermissions db runtime driver user request = .ok permissions ∧
        permission ∈ permissions) ↔ Granted driver db user permission (target runtime request) := by
  unfold resolveUserPermissions target
  cases extractProjectId request with
  | some projectId =>
    simp only [Granted, projectOwner]
    cases db.resolveProject projectId with
    | none => simp [bind, Except.bind]
    | some project => simp [bind, Except.bind, pure, Except.pure]
  | none =>
    cases extractResourceRef request with
    | some resource =>
      simp only [Granted, resourceOwner]
      cases db.getResourceProjectContext resource.kind resource.id with
      | none => simp [bind, Except.bind]
      | some owner => simp [bind, Except.bind, pure, Except.pure]
    | none =>
      dsimp only
      cases extractOrgId runtime request with
      | none => simp [Granted]
      | some value =>
        simp only [Option.map_some, Granted]
        cases driver.sent value with
        | none | some orgId => simp

theorem carriesPermissions_machine {kind : MachineKind} {payload : Json} (stands : StandsFor kind payload user) :
    carriesPermissions user = !user.isAppLinkToken := by
  have job := stands.only .job
  have service := stands.only .service
  have principal := stands.only .servicePrincipal
  have appLink := stands.only .appLink
  simp only [MachineKind.carriedBy] at job service principal appLink
  unfold carriesPermissions
  cases kind with
  | job | service | servicePrincipal | appLink => simp_all

theorem within_of_compared {found : Target} (asserted : ∀ ref, found = .resource ref → inOwnSubtree user ref = true ∨
        ∃ owner, db.getResourceProjectContext ref.kind ref.id = some owner ∧ OwnProject user owner)
    (compared : ¬ Uncompared user found) : Within driver db user found := by
  cases found with
  | project input | org value => exact absurd trivial compared
  | resource ref =>
    obtain own | ⟨owner, isOwner, home⟩ := asserted ref rfl
    · exact absurd own compared
    · intro other isOther
      cases isOwner.symm.trans isOther
      exact home

/-- The guard keeps the tokens of machines to what is theirs exactly when they address no
foreign target that it does not compare, and app links are granted nothing that is not theirs. -/
theorem token_tenancy_iff (settings : Settings PublicKey PrivateKey) (nowMs : Nat) (authDb : AuthDb)
    (newId header : Text) (kind : MachineKind)
    (accepted : (verifyAuthorizationHeader runtime driver settings nowMs authDb newId header).1 = .ok user)
    (machine : kind.carriedBy user = true) (guarded : endpoint.isPublic = false)
    (isRequired : endpoint.required = some required) (present : required ≠ []) :
    TokenTenancy runtime driver db user settings.enabled endpoint request required ↔
      Contained runtime driver db user request required := by
  obtain ⟨enabled, own, payload, stands⟩ : settings.enabled = true ∧ ∃ own payload, StandsFor own payload user := by
    unfold verifyAuthorizationHeader at accepted
    split at accepted
    · cases accepted
    · next enabled =>
        split at accepted
        · cases accepted
        · obtain ⟨own, payload, machine⟩ | ⟨-, account⟩ := resolveToken_cases accepted
          · exact ⟨by simpa using enabled, own, payload, machine.standsFor⟩
          · rw [account.plain kind] at machine
            cases machine
  have carries := carriesPermissions_machine stands
  unfold TokenTenancy Contained
  rw [enabled, canActivate_required guarded isRequired present stands.notAdmin]
  unfold resolvePermissions
  rw [carries]
  by_cases nameless : user.userId = []
  · simp [nameless]
  by_cases appLink : user.isAppLinkToken = true
  · simp only [nameless, appLink, ne_eq, not_false_eq_true, true_and, Bool.not_true,
      Bool.false_eq_true, if_false, if_true, false_or]
    have admitted : (∃ permissions, resolveUserPermissions db runtime driver user request = .ok permissions ∧
          ∃ permission ∈ required, permission ∈ permissions) ↔
        ∃ permission ∈ required, Granted driver db user permission (target runtime request) := by
      simp only [← resolveUserPermissions_granted]
      constructor
      · rintro ⟨permissions, resolved, permission, listed, held⟩
        exact ⟨permission, listed, permissions, resolved, held⟩
      · rintro ⟨permission, listed, permissions, resolved, held⟩
        exact ⟨permissions, resolved, permission, listed, held⟩
    rw [admitted]
  · simp only [nameless, appLink, ne_eq, not_false_eq_true, true_and, Bool.not_false, if_true,
      Bool.false_eq_true, if_false, false_or, @resolveTokenPermissions_eq_ok _ _ runtime]
    constructor
    · intro tenant may found isTarget uncompared
      refine (tenant ⟨_, ⟨rfl, fun ref isRef => ?_⟩, may⟩).1 found isTarget
      cases isTarget.symm.trans isRef
      exact .inl uncompared
    · rintro contained ⟨_, ⟨rfl, asserted⟩, may⟩
      refine ⟨fun found isTarget => ?_, may⟩
      by_cases uncompared : Uncompared user found
      · exact contained may found isTarget uncompared
      · exact within_of_compared (fun ref same => asserted ref (same ▸ isTarget)) uncompared

end

def twoOrgs : RbacDb where
  projects := [ { id := "proj_1".toList, slug := "shop".toList, orgId := "acme".toList },
    { id := "proj_2".toList, slug := "shop".toList, orgId := "rival".toList }]
  orgMemberships := []
  projectMemberships := []
  roles := []
  bindings := []
  groups := []
  groupMembers := []
  resources := [{ kind := .job, id := "task-1".toList, projectId := "proj_1".toList }]
  project_ids := by decide +kernel
  project_slugs := by decide +kernel
  ids_begin := by decide +kernel
  slugs_begin := by decide +kernel
  slugs_present := by decide +kernel
  bound_projects _ member := absurd member List.not_mem_nil

def readJobs : Endpoint where
  required := some ["jobs:read".toList]

def jobRequest : GuardedRequest where
  params := { jobId := some "task-1".toList }
  routeUrl := some "/jobs/:job_id".toList

theorem bot_reads_own_job :
    canActivate twoOrgs principalRuntime plainDriver principalSettings.enabled readJobs (some bot)
        jobRequest = .ok true ∧ TokenTenancy principalRuntime plainDriver twoOrgs bot principalSettings.enabled readJobs
        jobRequest ["jobs:read".toList] := by
  refine ⟨by rfl, ?_⟩
  apply (token_tenancy_iff principalSettings 0 {} [] botBearer .servicePrincipal
    bot_verified (by rfl) (by rfl) (by rfl) (by decide)).mpr
  right
  rw [if_neg (by decide)]
  intro _ found isTarget uncompared
  cases isTarget
  have below : inOwnSubtree bot { kind := .job, id := "task-1".toList } = false := by rfl
  rw [Uncompared, below] at uncompared
  cases uncompared

def foreignRequest : GuardedRequest where
  params := { projectId := some "proj_2".toList }
  routeUrl := some "/projects/:project_id/jobs".toList

/-- The principal is admitted to a project of another organisation. -/
theorem bot_reads_foreign_jobs : (verifyAuthorizationHeader principalRuntime plainDriver principalSettings 0 {} []
      botBearer).1 = .ok bot ∧
      ¬ TokenTenancy principalRuntime plainDriver twoOrgs bot principalSettings.enabled readJobs
        foreignRequest ["jobs:read".toList] := by
  refine ⟨bot_verified, fun tenant => ?_⟩
  have within := (tenant (by rfl)).1 (.project "proj_2".toList) (by rfl)
  have found : twoOrgs.resolveProject "proj_2".toList = some
      { id := "proj_2".toList, slug := "shop".toList, orgId := "rival".toList } := by
    decide +kernel
  have home : given bot.orgId = some "rival".toList := within _ found
  revert home
  decide

end EveHorizon.Auth
