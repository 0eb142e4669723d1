import EveHorizon.EnvDb.Sessions

/-!
# Which environments share a schema

A schema in the database of the platform shows the slug of its project and as much of the
environment's name as fits behind it, and nothing of the organisation.
-/

namespace EveHorizon.EnvDb

open List

/-- What the schema shows of the environment's name: every UTF-16 unit but letters, digits and
underscores an underscore, cut to the room that 63 characters leave. -/
def shownName (slug envName : Text) : Text := (replaceOutside envName).take (54 - slug.length)

theorem replaceOutside_append (left right : Text) :
    replaceOutside (left ++ right) = replaceOutside left ++ replaceOutside right :=
  flatMap_append

theorem replaceOutside_eq_self {text : Text} (inside : ∀ char ∈ text, isSchemaCharacter char = true) :
    replaceOutside text = text := by
  induction text with
  | nil => rfl
  | cons head rest ih =>
    have kept := ih fun char member => inside char (mem_cons_of_mem _ member)
    have same : schemaCharacters head = [head] := by
      rw [schemaCharacters, if_pos (inside head mem_cons_self)]
    unfold replaceOutside at kept ⊢
    rw [flatMap_cons, same, kept, singleton_append]

variable {slug : Text}

theorem slug_accepted (accepted : Kubernetes.SlugSchema slug = true) :
    (∀ char ∈ slug, (Kubernetes.isLetter char || Kubernetes.isDigit char) = true) ∧ slug.length ≤ 8 := by
  unfold Kubernetes.SlugSchema at accepted
  split at accepted
  · cases accepted
  · next first rest =>
      simp only [Bool.and_eq_true, all_eq_true, decide_eq_true_eq] at accepted
      obtain ⟨⟨starts, others⟩, -, short⟩ := accepted
      constructor
      · intro char member
        cases mem_cons.mp member with
        | inl same =>
          rw [same, starts]
          rfl
        | inr later => exact others char later
      · rw [length_cons]
        omega

theorem underscore_not_mem_slug (accepted : Kubernetes.SlugSchema slug = true) : '_' ∉ slug := by
  intro member
  have letter := (slug_accepted accepted).1 '_' member
  cases letter

theorem replaceOutside_fallbackSource (accepted : Kubernetes.SlugSchema slug = true) (envName : Text) :
    replaceOutside (fallbackSource slug envName) = "eve_env_".toList ++ slug ++ '_' :: replaceOutside envName := by
  have leading : replaceOutside ("eve_env_".toList ++ slug) = "eve_env_".toList ++ slug := by
    have inside : ∀ char ∈ slug, isSchemaCharacter char = true := by
      intro char member
      rw [isSchemaCharacter, (slug_accepted accepted).1 char member]
      rfl
    rw [replaceOutside_append, replaceOutside_eq_self inside]
    rfl
  unfold fallbackSource
  rw [replaceOutside_append, leading]
  rfl

theorem normalizeSchemaName_fallbackSource (accepted : Kubernetes.SlugSchema slug = true) (envName : Text) :
    normalizeSchemaName (some (fallbackSource slug envName)) =
      some ("eve_env_".toList ++ (slug ++ '_' :: shownName slug envName)) := by
  have short := (slug_accepted accepted).2
  have cut : (replaceOutside (fallbackSource slug envName)).take 63 =
      "eve_env_".toList ++ (slug ++ '_' :: shownName slug envName) := by
    have leading : ("eve_env_".toList ++ slug).length = 8 + slug.length := length_append
    rw [replaceOutside_fallbackSource accepted, take_append, take_of_length_le (by omega), leading, append_assoc]
    have room : 63 - (8 + slug.length) = (54 - slug.length) + 1 := by omega
    rw [room, take_succ_cons]
    rfl
  have start : (replaceOutside (fallbackSource slug envName)).dropWhile (· == '_') =
      replaceOutside (fallbackSource slug envName) := by
    rw [replaceOutside_fallbackSource accepted]
    rfl
  have nonempty : fallbackSource slug envName ≠ [] := nofun
  unfold normalizeSchemaName
  dsimp only
  rw [if_neg nonempty, start, cut, if_neg nofun]

theorem fallback_eq_iff {slug' : Text} (accepted : Kubernetes.SlugSchema slug = true)
    (accepted' : Kubernetes.SlugSchema slug' = true) (envName envName' : Text) :
    normalizeSchemaName (some (fallbackSource slug envName)) =
        normalizeSchemaName (some (fallbackSource slug' envName')) ↔
      slug = slug' ∧ shownName slug envName = shownName slug' envName' := by
  rw [normalizeSchemaName_fallbackSource accepted, normalizeSchemaName_fallbackSource accepted',
    Option.some.injEq, append_cancel_left_eq,
    Text.join_injective (underscore_not_mem_slug accepted) (underscore_not_mem_slug accepted')]

def LeavesAlone (own other : EnvDbConfig) : Prop :=
  ∀ (operation : EnvDbOperation) (context : DbContext),
    ∀ stmt ∈ operation.issued own context, ∀ schema ∈ stmt.schemas,
      (own.url, some schema) ≠ (other.url, other.schema)

structure Isolated (left right : EnvDbConfig) : Prop where
  apart : (left.url, left.schema) ≠ (right.url, right.schema)
  left_leaves : LeavesAlone left right
  right_leaves : LeavesAlone right left

structure FallbackEnvironment (catalog : Catalog) where
  projectId : String
  envName : Text
  project : Project
  environment : Environment
  found : findEnvironment catalog projectId envName = .ok (project, environment)
  undeclared : resolveDeclared catalog project environment envName = .ok none
  slug_accepted : Kubernetes.SlugSchema project.slug = true
  name_accepted : Kubernetes.EnvironmentName envName = true

namespace FallbackEnvironment

variable {catalog : Catalog}

def resolved (env : FallbackEnvironment catalog) : EnvDbConfig :=
  fallbackConfig catalog env.project.slug env.envName

variable (env : FallbackEnvironment catalog)

theorem resolveEnvDb_eq :
    resolveEnvDb catalog env.projectId env.envName = .ok ⟨env.resolved, env.resolved.schema, env.project.orgId⟩ := by
  unfold resolveEnvDb
  rw [env.found]
  change (resolveDeclared catalog env.project env.environment env.envName >>= fun declared => _) = _
  rw [env.undeclared]
  rfl

theorem schema_resolved : env.resolved.schema =
      some ("eve_env_".toList ++ (env.project.slug ++ '_' :: shownName env.project.slug env.envName)) :=
  normalizeSchemaName_fallbackSource env.slug_accepted env.envName

theorem schema_ne_public : env.resolved.schema ≠ some publicSchema := by
  rw [env.schema_resolved]
  intro same
  cases Option.some.inj same

theorem leavesAlone {left right : FallbackEnvironment catalog} (apart : left.resolved.schema ≠ right.resolved.schema) :
    LeavesAlone left.resolved right.resolved := by
  intro operation context stmt member schema named same
  have isRight : some schema = right.resolved.schema := (Prod.mk.inj same).2
  cases mem_issued member named with
  | inl own => exact apart (own.trans isRight)
  | inr isPublic => exact right.schema_ne_public (by rw [← isRight, isPublic])

end FallbackEnvironment

def EnvironmentsIsolated (catalog : Catalog) (left right : String × Text) : Prop :=
  ∃ first second, resolveEnvDb catalog left.1 left.2 = .ok first ∧
    resolveEnvDb catalog right.1 right.2 = .ok second ∧ Isolated first.config second.config

/-- Two environments that fall back are isolated exactly when the slugs of their projects
differ, or what their schemas show of their names. -/
theorem environments_isolated_iff {catalog : Catalog} (left right : FallbackEnvironment catalog) :
    EnvironmentsIsolated catalog (left.projectId, left.envName) (right.projectId, right.envName) ↔
      left.project.slug ≠ right.project.slug ∨
        shownName left.project.slug left.envName ≠ shownName right.project.slug right.envName := by
  have schemas : left.resolved.schema = right.resolved.schema ↔ _ :=
    fallback_eq_iff left.slug_accepted right.slug_accepted left.envName right.envName
  rw [← not_and_or, ← schemas]
  constructor
  · intro isolated same
    obtain ⟨first, second, isFirst, isSecond, apart⟩ := isolated
    rw [left.resolveEnvDb_eq] at isFirst
    rw [right.resolveEnvDb_eq] at isSecond
    cases isFirst
    cases isSecond
    exact apart.apart (Prod.ext rfl same)
  · intro differ
    refine ⟨_, _, left.resolveEnvDb_eq, right.resolveEnvDb_eq, ?_, ?_, ?_⟩
    · exact fun same => differ (Prod.mk.inj same).2
    · exact FallbackEnvironment.leavesAlone differ
    · exact FallbackEnvironment.leavesAlone fun same => differ same.symm

def shops : Catalog where
  project id :=
    if id = "proj_a" then some { id, orgId := "org_a", slug := "shop".toList }
    else if id = "proj_b" then some { id, orgId := "org_b", slug := "shop".toList }
    else none
  orgSlug _ := none
  environment projectId name := some { id := "env", projectId, name }
  services _ := .ok none
  readyTenant _ _ := none
  secretValue _ _ := .ok none
  databaseUrl := "postgres://eve@db/eve".toList

/-- An environment of the first shop: it declares no database. -/
def shopEnvironment (envName : Text) (accepted : Kubernetes.EnvironmentName envName = true) :
    FallbackEnvironment shops where
  projectId := "proj_a"
  envName
  project := { id := "proj_a", orgId := "org_a", slug := "shop".toList }
  environment := { id := "env", projectId := "proj_a", name := envName }
  found := rfl
  undeclared := rfl
  slug_accepted := by decide
  name_accepted := accepted

theorem shop_environments_isolated :
    EnvironmentsIsolated shops ("proj_a", "test".toList) ("proj_a", "prod".toList) :=
  (environments_isolated_iff (shopEnvironment "test".toList (by decide))
    (shopEnvironment "prod".toList (by decide))).mpr (.inr (by decide +kernel))

/-- The environments "test" of two organisations' shops share a schema, and the environments
"pr-1" and "pr_1" of one shop. -/
theorem shops_share_schemas : ¬ EnvironmentsIsolated shops ("proj_a", "test".toList) ("proj_b", "test".toList) ∧
    ¬ EnvironmentsIsolated shops ("proj_a", "pr-1".toList) ("proj_a", "pr_1".toList) := by
  have shared (left right : String × Text) (first second : ResolvedEnvDb)
      (isFirst : resolveEnvDb shops left.1 left.2 = .ok first)
      (isSecond : resolveEnvDb shops right.1 right.2 = .ok second)
      (same : first.config = second.config) : ¬ EnvironmentsIsolated shops left right := by
    intro isolated
    obtain ⟨one, other, isOne, isOther, apart⟩ := isolated
    rw [isFirst] at isOne
    rw [isSecond] at isOther
    cases isOne
    cases isOther
    exact apart.apart (by rw [same])
  constructor
  · exact shared _ _ _ _ rfl rfl (by decide +kernel)
  · exact shared _ _ _ _ rfl rfl (by decide +kernel)

end EveHorizon.EnvDb
