import EveHorizon.Auth.Rbac

/-!
# When the two resolutions agree

Both services read the same bindings, but the guard lets the role in the project hide the role
in the organisation, and both compare the project of a binding with the name the caller gave.
-/

namespace EveHorizon.Auth

open List

namespace RbacDb

variable (db : RbacDb) (userId orgId permission : Text)

def Holds (role : Option MembershipRole) : Prop :=
  ∃ held, role = some held ∧ permission ∈ expandPermissions held

def roleIn (found : Option Project) : Option MembershipRole :=
  (found.bind fun project => db.findProjectMembership userId project.id).map Membership.role

def orgRole : Option MembershipRole := (db.findOrgMembership userId orgId).map Membership.role

/-- A binding of the user, or of a group of the user, gives the permission for this project, or
for the whole organisation. -/
def Bound (projectId : Option Text) : Prop :=
  ∃ binding ∈ db.listApplicableBindings orgId .user userId projectId,
    binding.projectId = projectId ∧ permission ∈ binding.rolePermissions

variable {db userId orgId permission}

theorem applies_projectId {projectId : Option Text} {binding : AccessBinding} {bound : AccessBindingWithRole}
    (applies : db.applies orgId .user userId projectId binding = some bound) :
    bound.projectId = binding.projectId ∧ (binding.projectId = none ∨ binding.projectId = projectId) := by
  unfold RbacDb.applies at applies
  obtain ⟨role, _, applies⟩ := Option.bind_eq_some_iff.mp applies
  obtain ⟨_, guarded, applies⟩ := Option.bind_eq_some_iff.mp applies
  have allowed : binding.projectId = none ∨ binding.projectId = projectId := by
    by_contra refused
    simp [guard, refused] at guarded
  dsimp only at applies
  split at applies
  · cases applies
    exact ⟨rfl, allowed⟩
  · obtain ⟨group, _, applies⟩ := Option.bind_eq_some_iff.mp applies
    cases applies
    exact ⟨rfl, allowed⟩

theorem applies_orgWide {projectId : Option Text} {binding : AccessBinding} (orgWide : binding.projectId = none) :
    db.applies orgId .user userId projectId binding = db.applies orgId .user userId none binding := by
  unfold RbacDb.applies
  simp [orgWide]

variable (projectId : Option Text)

theorem mem_getEffectiveCustomPermissions : permission ∈ db.getEffectiveCustomPermissions .user userId orgId projectId ↔
      db.Bound userId orgId permission none ∨ db.Bound userId orgId permission projectId := by
  simp only [getEffectiveCustomPermissions, mem_flatMap, Bound]
  constructor
  · rintro ⟨bound, member, held⟩
    obtain ⟨binding, inTable, applied⟩ := mem_filterMap.mp member
    obtain ⟨same, orgWide | limited⟩ := applies_projectId applied
    · rw [applies_orgWide orgWide] at applied
      exact .inl ⟨bound, mem_filterMap.mpr ⟨binding, inTable, applied⟩, same.trans orgWide, held⟩
    · exact .inr ⟨bound, member, same.trans limited, held⟩
  · rintro (⟨bound, member, orgWide, held⟩ | ⟨bound, member, _, held⟩)
    · obtain ⟨binding, inTable, applied⟩ := mem_filterMap.mp member
      have unlimited := (applies_projectId applied).1.symm.trans orgWide
      have applied' := (@applies_orgWide db _ _ projectId _ unlimited).trans applied
      exact ⟨bound, mem_filterMap.mpr ⟨binding, inTable, applied'⟩, held⟩
    · exact ⟨bound, member, held⟩

variable {project : Project}

theorem not_bound_slug (member : project ∈ db.projects) : ¬ db.Bound userId orgId permission (some project.slug) := by
  rintro ⟨bound, applied, limited, -⟩
  obtain ⟨binding, inTable, applied⟩ := mem_filterMap.mp applied
  have same := (applies_projectId applied).1.symm.trans limited
  obtain ⟨other, isProject, named⟩ := db.bound_projects binding inTable _ same
  have begins := db.ids_begin other isProject
  rw [named, db.slugs_begin project member] at begins
  cases begins

def found (db : RbacDb) (projectId : Option Text) : Option Project := (named projectId).bind db.resolveProject

theorem baseRole_eq :
    db.baseRole userId orgId projectId = (db.roleIn userId (db.found projectId)).or (db.orgRole userId orgId) := by
  unfold RbacDb.baseRole RbacDb.roleIn RbacDb.found RbacDb.orgRole
  rw [Option.bind_assoc]
  dsimp only
  split
  · next row isRow => rw [isRow]; rfl
  · next none => rw [none]; rfl

theorem mem_getEffectivePermissions : permission ∈ db.getEffectivePermissions userId orgId projectId ↔
      Holds permission ((db.roleIn userId (db.found projectId)).or (db.orgRole userId orgId)) ∨
        db.Bound userId orgId permission none ∨ db.Bound userId orgId permission projectId := by
  unfold RbacDb.getEffectivePermissions
  rw [mem_append, mem_getEffectiveCustomPermissions, baseRole_eq]
  apply or_congr_left
  unfold Holds
  cases (db.roleIn userId (db.found projectId)).or (db.orgRole userId orgId) with
  | none | some role => simp

def roleInOrg (db : RbacDb) (userId orgId : Text) (projectId : Option Text) : Option MembershipRole :=
  db.roleIn userId ((db.found projectId).filter (·.orgId == orgId))

section

variable (unscoped : Access.permissionResourceType permission = none)
include unscoped

theorem membershipGrant_admits (kind : String) (membership : Membership)
    (resource : Option Access.AccessResourceContext) :
    (membershipGrant kind membership).admits permission resource = true ↔
      permission ∈ expandPermissions membership.role := by
  simp [Access.RawGrant.admits, Access.evaluateScope, unscoped, membershipGrant]

theorem bindingGrant_admits (binding : AccessBindingWithRole) (resource : Option Access.AccessResourceContext) :
    (bindingGrant orgId binding).admits permission resource = true ↔ permission ∈ binding.rolePermissions := by
  simp [Access.RawGrant.admits, Access.evaluateScope, unscoped, bindingGrant]

theorem projectGrant_admits (projectId : Option Text) (resource : Option Access.AccessResourceContext) :
    (∃ grant ∈ (db.projectGrant orgId userId projectId).toList, grant.admits permission resource = true) ↔
      Holds permission (db.roleInOrg userId orgId projectId) := by
  have shape : db.projectGrant orgId userId projectId =
      (((db.found projectId).filter (·.orgId == orgId)).bind fun project =>
        db.findProjectMembership userId project.id).map (membershipGrant "project") := by
    unfold RbacDb.projectGrant RbacDb.found
    cases named projectId with
    | none => rfl
    | some input =>
      cases found : db.resolveProject input with
      | none => simp [found]
      | some project =>
        by_cases own : project.orgId = orgId
        · simp [found, own, guard, Option.filter]
          cases db.findProjectMembership userId project.id <;> rfl
        · simp [found, own, guard, Option.filter]
  rw [shape]
  unfold RbacDb.roleInOrg RbacDb.roleIn Holds
  cases ((db.found projectId).filter (·.orgId == orgId)).bind fun project =>
      db.findProjectMembership userId project.id with
  | none => simp
  | some membership => simp [membershipGrant_admits unscoped]

end

theorem canUser_allows (known : permission ∈ ALL_PERMISSIONS)
    (unscoped : Access.permissionResourceType permission = none) (projectId : Option Text)
    (resource : Option Access.AccessResourceContext) :
    db.canUser orgId userId projectId permission resource = .ok true ↔
      Holds permission (db.roleInOrg userId orgId projectId) ∨ Holds permission (db.orgRole userId orgId) ∨
        db.Bound userId orgId permission none ∨ db.Bound userId orgId permission projectId := by
  have inOrg : (∃ grant ∈ ((db.findOrgMembership userId orgId).map (membershipGrant "org")).toList,
      grant.admits permission resource = true) ↔ Holds permission (db.orgRole userId orgId) := by
    unfold RbacDb.orgRole Holds
    cases db.findOrgMembership userId orgId with
    | none => simp
    | some membership => simp [membershipGrant_admits unscoped]
  have byBinding : (∃ grant ∈ (db.listApplicableBindings orgId .user userId projectId).map
      (bindingGrant orgId), grant.admits permission resource = true) ↔
      db.Bound userId orgId permission none ∨ db.Bound userId orgId permission projectId := by
    rw [← mem_getEffectiveCustomPermissions]
    simp [getEffectiveCustomPermissions, bindingGrant_admits unscoped]
  have valid : validatePermission permission = .ok () := if_pos (by simpa using known)
  rw [RbacDb.canUser, valid]
  change Except.ok _ = Except.ok true ↔ _
  rw [Except.ok.injEq, Access.evaluatePermission_allowed]
  simp only [any_eq_true, RbacDb.collectUserGrants, mem_append, or_and_right, exists_or]
  rw [projectGrant_admits unscoped, inOrg, byBinding, or_assoc]

theorem found_id (member : project ∈ db.projects) :
    db.found (some project.id) = if project.deleted then none else some project := by
  have begins := db.ids_begin project member
  have nonempty : project.id.isEmpty = false := by
    cases shape : project.id with
    | nil =>
      rw [shape] at begins
      exact absurd begins (by decide)
    | cons _ _ => rfl
  have only : ∀ other ∈ db.projects, other.id = project.id → other = project :=
    fun other isProject same => db.project_ids other isProject project member same
  have findsIt : db.findProject project.id = if project.deleted then none else some project := by
    unfold RbacDb.findProject
    cases gone : project.deleted with
    | true =>
      rw [if_pos rfl, find?_eq_none]
      intro other isProject
      rw [Bool.and_eq_true, beq_iff_eq, Bool.not_eq_true']
      rintro ⟨same, kept⟩
      rw [only other isProject same, gone] at kept
      cases kept
    | false =>
      rw [if_neg (by decide)]
      cases found : db.projects.find? fun other => other.id == project.id && !other.deleted with
      | none =>
        have absent := find?_eq_none.mp found project member
        simp [gone] at absent
      | some other =>
        have same := find?_some found
        rw [Bool.and_eq_true, beq_iff_eq] at same
        rw [only other (mem_of_find?_eq_some found) same.1]
  unfold RbacDb.found named
  simp only [Option.filter, nonempty, Bool.not_false, if_pos, Option.bind_some]
  unfold RbacDb.resolveProject
  rw [if_pos begins, findsIt]

theorem found_slug (member : project ∈ db.projects) :
    db.found (some project.slug) = db.projects.find? fun other => other.slug == project.slug && !other.deleted := by
  have nonempty : project.slug.isEmpty = false := by simpa using db.slugs_present project member
  unfold RbacDb.found named
  simp only [Option.filter, nonempty, Bool.not_false, if_pos, Option.bind_some]
  unfold RbacDb.resolveProject
  rw [if_neg (by rw [db.slugs_begin project member]; decide)]

theorem foreign_of_found_slug_ne (member : project ∈ db.projects)
    (apart : db.found (some project.slug) ≠ db.found (some project.id)) :
    ∃ other, db.found (some project.slug) = some other ∧ other.orgId ≠ project.orgId := by
  rw [found_id member] at apart
  cases byName : db.found (some project.slug) with
  | none =>
    rw [found_slug member] at byName
    have absent := find?_eq_none.mp byName project member
    have gone : project.deleted = true := by simpa using absent
    rw [if_pos gone, found_slug member, byName] at apart
    exact absurd rfl apart
  | some other =>
    refine ⟨other, rfl, fun same => apart ?_⟩
    rw [byName]
    rw [found_slug member] at byName
    have fits := find?_some byName
    rw [Bool.and_eq_true, beq_iff_eq, Bool.not_eq_true'] at fits
    have itself := db.project_slugs other (mem_of_find?_eq_some byName) project member same
      fits.1
    rw [itself] at fits
    rw [if_neg (by rw [fits.2]; decide), itself]

variable (db)

/-- The guard and the access service give one answer, for either name of the project. -/
def ResolversAgree (userId orgId permission : Text) (project : Project)
    (resource : Option Access.AccessResourceContext) :
    Prop :=
  (∀ name ∈ [project.id, project.slug], (permission ∈ db.getEffectivePermissions userId orgId (some name) ↔
      db.canUser orgId userId (some name) permission resource = .ok true)) ∧
  (permission ∈ db.getEffectivePermissions userId orgId (some project.id) ↔
    permission ∈ db.getEffectivePermissions userId orgId (some project.slug)) ∧
  (db.canUser orgId userId (some project.id) permission resource = .ok true ↔
    db.canUser orgId userId (some project.slug) permission resource = .ok true)

def Kept (permission : Text) (role : Option MembershipRole) : Prop :=
  ∀ held, role = some held → permission ∈ expandPermissions held

/-- The slug finds the project: its role does not hide what the role in the organisation
holds, and a binding limited to the project gives nothing that neither role holds. -/
def AgreesByName (userId orgId permission : Text) (project : Project) : Prop :=
  (Holds permission (db.orgRole userId orgId) → Kept permission (db.roleIn userId (db.found (some project.id)))) ∧
  (db.Bound userId orgId permission (some project.id) →
    Holds permission (db.roleIn userId (db.found (some project.id))) ∨ Holds permission (db.orgRole userId orgId))

/-- The slug finds a project of another organisation: the role in the organisation holds the
permission exactly when the project, through a role or a binding, gives it, or when the project
knows nothing of the user, and the role in the other project says the same. -/
def AgreesThoughForeign (userId orgId permission : Text) (project : Project) : Prop :=
  (Holds permission (db.roleIn userId (db.found (some project.id))) ∨
    db.Bound userId orgId permission (some project.id) → Holds permission (db.orgRole userId orgId)) ∧
  (Holds permission (db.orgRole userId orgId) → Kept permission (db.roleIn userId (db.found (some project.id))) ∨
      db.Bound userId orgId permission (some project.id)) ∧
  (Holds permission (db.roleIn userId (db.found (some project.slug))) → Holds permission (db.orgRole userId orgId)) ∧
  (Holds permission (db.orgRole userId orgId) → Kept permission (db.roleIn userId (db.found (some project.slug))))

/-- What the memberships and bindings have to be for the two resolutions to agree. -/
def RolesDecide (userId orgId permission : Text) (project : Project) : Prop :=
  db.Bound userId orgId permission none ∨
  (db.found (some project.slug) = db.found (some project.id) ∧ AgreesByName db userId orgId permission project) ∨
  (db.found (some project.slug) ≠ db.found (some project.id) ∧ AgreesThoughForeign db userId orgId permission project)

variable {db}

theorem holds_or (role orgRole : Option MembershipRole) :
    Holds permission (role.or orgRole) ↔ Holds permission role ∨ (Kept permission role ∧ Holds permission orgRole) := by
  cases role with
  | none => simp [Holds, Kept]
  | some held =>
    simp only [Option.some_or, Holds, Kept, Option.some.injEq, exists_eq_left', forall_eq']
    constructor
    · exact Or.inl
    · rintro (here | ⟨here, -⟩)
      · exact here
      · exact here

theorem kept_of_holds {role : Option MembershipRole} (holds : Holds permission role) : Kept permission role := by
  obtain ⟨held, rfl, member⟩ := holds
  rintro _ ⟨⟩
  exact member

/-- For a permission that needs no scope, the guard and the access service agree on a user and
on both names of a project exactly when the memberships and bindings decide so. -/
theorem resolvers_agree_iff (project : Project) (member : project ∈ db.projects) (known : permission ∈ ALL_PERMISSIONS)
    (unscoped : Access.permissionResourceType permission = none) (resource : Option Access.AccessResourceContext) :
    ResolversAgree db userId project.orgId permission project resource ↔
      RolesDecide db userId project.orgId permission project := by
  have noSlug : ¬ db.Bound userId project.orgId permission (some project.slug) := not_bound_slug member
  have ownId : db.roleInOrg userId project.orgId (some project.id) = db.roleIn userId (db.found (some project.id)) := by
    unfold RbacDb.roleInOrg
    rw [found_id member]
    split
    · rfl
    · simp [Option.filter]
  unfold ResolversAgree RolesDecide AgreesByName AgreesThoughForeign
  simp only [forall_mem_cons, not_mem_nil, false_imp_iff, forall_const, and_true,
    mem_getEffectivePermissions, canUser_allows known unscoped, holds_or, noSlug, or_false, ownId]
  by_cases same : db.found (some project.slug) = db.found (some project.id)
  · have ownSlug : db.roleInOrg userId project.orgId (some project.slug) =
        db.roleIn userId (db.found (some project.id)) := by
      rw [← ownId]
      unfold RbacDb.roleInOrg
      rw [same]
    rw [ownSlug, same]
    have kept := @kept_of_holds permission (db.roleIn userId (db.found (some project.id)))
    grind
  · obtain ⟨other, byName, foreign⟩ := foreign_of_found_slug_ne member same
    have noOther : ¬ Holds permission (db.roleInOrg userId project.orgId (some project.slug)) := by
      unfold RbacDb.roleInOrg RbacDb.roleIn Holds
      rw [byName]
      simp [Option.filter, foreign]
    have kept := @kept_of_holds permission (db.roleIn userId (db.found (some project.id)))
    have kept' := @kept_of_holds permission (db.roleIn userId (db.found (some project.slug)))
    grind

def shop : Project where
  id := "proj_1".toList
  slug := "shop".toList
  orgId := "acme".toList

def shopDb : RbacDb where
  projects := [shop]
  orgMemberships := [{ scopeId := "acme".toList, userId := "ann".toList, role := .admin }]
  projectMemberships := [{ scopeId := "proj_1".toList, userId := "ann".toList, role := .member }]
  roles := []
  bindings := []
  groups := []
  groupMembers := []
  resources := []
  project_ids := by decide +kernel
  project_slugs := by decide +kernel
  ids_begin := by decide +kernel
  slugs_begin := by decide +kernel
  slugs_present := by decide +kernel
  bound_projects _ member := absurd member not_mem_nil

theorem shop_readers_agree : ResolversAgree shopDb "ann".toList shop.orgId "jobs:read".toList shop none := by
  apply (resolvers_agree_iff shop (by decide +kernel) (by decide +kernel) (by decide +kernel) none).mpr
  refine .inr (.inl ⟨by decide +kernel, ?_, ?_⟩)
  · intro _ held isRole
    have role : shopDb.roleIn "ann".toList (shopDb.found (some shop.id)) = some .member := by
      decide +kernel
    rw [role] at isRole
    cases isRole
    decide +kernel
  · rintro ⟨_, applied, -⟩
    cases applied

/-- The role in the project hides from the guard what the role in the organisation holds. -/
theorem project_role_hides_org_role :
    ¬ ResolversAgree shopDb "ann".toList shop.orgId "projects:write".toList shop none := by
  rintro ⟨agree, -⟩
  have byId := agree shop.id (by decide +kernel)
  have denied : ¬ "projects:write".toList ∈ shopDb.getEffectivePermissions "ann".toList shop.orgId (some shop.id) := by
    decide +kernel
  have allowed : shopDb.canUser shop.orgId "ann".toList (some shop.id) "projects:write".toList none = .ok true := by
    rfl
  exact denied (byId.mpr allowed)

end RbacDb

end EveHorizon.Auth
