import EveHorizon.Batches.Recorded

/-!
# Growth of the relations

How the relations between jobs grow.
-/

namespace EveHorizon.Dependencies

open Interleaving List Statement
open Batches (RowsKept rowsOf)
open Jobs (JobId Job JobRelation JobsDb RelationType)
open Precedence (Acyclic)
open Workflows (WorkflowStatement WorkflowCall Failure)

section

variable (counts : RelationType → Bool)

def Leads (relation : JobRelation) (jobId relatedJobId : JobId) : Prop :=
  relation.jobId = jobId ∧ relation.relatedJobId = relatedJobId ∧ counts relation.relationType = true

/-- `jobId` waits for `relatedJobId` through a relation that counts. -/
def Waits (db : JobsDb) (jobId relatedJobId : JobId) : Prop :=
  ∃ relation ∈ db.relations, Leads counts relation jobId relatedJobId

def Referenced (db : JobsDb) : Prop :=
  ∀ relation ∈ db.relations, (db.findJob relation.jobId).isSome = true ∧
    (db.findJob relation.relatedJobId).isSome = true

end

variable {id : JobId}

theorem rowsOf_ne_nil {db : JobsDb} : rowsOf db id ≠ [] ↔ (db.findJob id).isSome = true := by
  rw [JobsDb.findJob, find?_isSome, rowsOf, ne_eq, filter_eq_nil_iff]
  push Not
  rfl

theorem RowsKept.found {before after : JobsDb} (kept : RowsKept before after)
    (found : (before.findJob id).isSome = true) : (after.findJob id).isSome = true := by
  obtain ⟨change, _, rows⟩ := kept.rows id (rowsOf_ne_nil.mpr found)
  apply rowsOf_ne_nil.mp
  rw [rows]
  simpa using rowsOf_ne_nil.mpr found

/-- Rows are kept, and only jobs that were not there before are given new relations. -/
structure Extends (before after : JobsDb) : Prop where
  kept : RowsKept before after
  added : ∀ relation ∈ after.relations, relation ∈ before.relations ∨
    (before.findJob relation.jobId = none ∧ (after.findJob relation.jobId).isSome = true ∧
      (after.findJob relation.relatedJobId).isSome = true)

def Added (counts : RelationType → Bool) (before after : JobsDb) (jobId relatedJobId : JobId) : Prop :=
  ∃ relation ∈ after.relations, relation ∉ before.relations ∧ Leads counts relation jobId relatedJobId

section

variable {counts : RelationType → Bool} {before after : JobsDb}

theorem Extends.referenced (extension : Extends before after) (referenced : Referenced before) : Referenced after := by
  intro relation member
  cases extension.added relation member with
  | inl old =>
    have found := referenced relation old
    exact ⟨RowsKept.found extension.kept found.1, RowsKept.found extension.kept found.2⟩
  | inr new => exact new.2

theorem Extends.acyclic_iff (extension : Extends before after) (referenced : Referenced before) :
    Acyclic (Waits counts after) ↔ Acyclic (Waits counts before) ∧ Acyclic (Added counts before after) := by
  have split : Waits counts after = fun jobId relatedJobId =>
      Waits counts before jobId relatedJobId ∨ Added counts before after jobId relatedJobId := by
    funext jobId relatedJobId
    apply propext
    constructor
    · intro ⟨relation, member, leads⟩
      by_cases old : relation ∈ before.relations
      · exact Or.inl ⟨relation, old, leads⟩
      · exact Or.inr ⟨relation, member, old, leads⟩
    · intro either
      cases either with
      | inl old =>
        obtain ⟨relation, member, leads⟩ := old
        exact ⟨relation, extension.kept.relations relation member, leads⟩
      | inr new =>
        obtain ⟨relation, member, _, leads⟩ := new
        exact ⟨relation, member, leads⟩
  rw [split]
  refine @Precedence.acyclic_or_iff _ _ _ (fun id => (before.findJob id).isSome = true) ?_ ?_
  · intro jobId relatedJobId waits
    obtain ⟨relation, member, source, target, _⟩ := waits
    rw [← source, ← target]
    exact referenced relation member
  · intro jobId relatedJobId added found
    obtain ⟨relation, member, new, source, _⟩ := added
    have fresh := ((extension.added relation member).resolve_left new).1
    rw [source] at fresh
    rw [fresh] at found
    cases found

end

theorem mem_relations_effect {stmt : WorkflowStatement} {db : JobsDb} {relation : JobRelation}
    (member : relation ∈ (stmt.effect db).relations) :
    relation ∈ db.relations ∨ stmt = .insertRelation relation := by
  cases stmt with
  | jobs stmt =>
    cases stmt with
    | insertAttempt new =>
      simp only [WorkflowStatement.effect, Jobs.JobStatement.effect] at member
      split at member
      · exact Or.inl member
      · exact Or.inl member
    | _ => exact Or.inl member
  | insertJob job =>
    simp only [WorkflowStatement.effect] at member
    split at member
    · exact Or.inl member
    · exact Or.inl member
  | insertRelation new =>
    cases Batches.mem_insertRelation.mp member with
    | inl old => exact Or.inl old
    | inr same => exact Or.inr (same ▸ rfl)
  | supersede jobId retryJobId generation | reopenRoot rootId generation => exact Or.inl member

variable {may : JobRelation → Prop}

section

variable {κ τ ε α : Type} [Statement κ τ] {view : τ → JobsDb} {acts : κ → WorkflowStatement}
  (agrees : ∀ stmt store, view (effect stmt store) = (acts stmt).effect (view store))

include agrees

theorem alone_rowsKept (call : Call κ τ ε α) (store : τ) : RowsKept (view store) (view (call.alone store).2) := by
  induction call generalizing store with
  | ret value | raise error => exact RowsKept.refl _
  | stmt stmt next ih =>
    have first := Batches.rowsKept_effect (acts stmt) (view store)
    rw [← agrees] at first
    exact first.trans (ih store (effect stmt store))

variable {call : Call κ τ ε α}

theorem alone_added (issues : call.Issues fun stmt => ∀ relation, acts stmt = .insertRelation relation → may relation)
    (store : τ) :
    ∀ relation ∈ (view (call.alone store).2).relations, relation ∈ (view store).relations ∨ may relation := by
  induction call generalizing store with
  | ret value | raise error => exact fun relation member => Or.inl member
  | stmt stmt next ih =>
    intro relation member
    cases ih store (issues.2 store) (effect stmt store) relation member with
    | inr isNew => exact Or.inr isNew
    | inl before =>
      rw [agrees] at before
      exact (mem_relations_effect before).imp_right (issues.1 relation)

theorem alone_still (issues : call.Issues fun stmt => acts stmt = .jobs .select) (store : τ) :
    view (call.alone store).2 = view store := by
  induction call generalizing store with
  | ret value | raise error => rfl
  | stmt stmt next ih =>
    have still : view (effect stmt store) = view store := by
      rw [agrees, issues.1]
      rfl
    exact (ih store (issues.2 store) (effect stmt store)).trans still

end

/-- The jobs `ids` are new, and nothing is related yet. -/
structure Sown (before : JobsDb) (ids : List JobId) (db : JobsDb) : Prop where
  kept : RowsKept before db
  relations : db.relations = before.relations
  distinct : ids.Nodup
  fresh : ∀ id ∈ ids, before.findJob id = none ∧ (db.findJob id).isSome = true

section

variable {ids : List (String × JobId)} {jobId : JobId}

theorem snd_mem_of_lookup {key : String} (found : ids.lookup key = some jobId) : jobId ∈ ids.map Prod.snd :=
  mem_map_of_mem (Table.mem_of_lookup found)

theorem key_eq_of_lookup (distinct : (ids.map Prod.snd).Nodup) {first second : String}
    (isFirst : ids.lookup first = some jobId) (isSecond : ids.lookup second = some jobId) : first = second :=
  congrArg Prod.fst (inj_on_of_nodup_map distinct (Table.mem_of_lookup isFirst) (Table.mem_of_lookup isSecond) rfl)

end

section

variable {before db : JobsDb} {ids : List JobId}

theorem Sown.start (db : JobsDb) : Sown db [] db := ⟨.refl db, rfl, nodup_nil, nofun⟩

theorem Sown.fewer {fewer : List JobId} (sown : Sown before ids db) (within : fewer.Sublist ids) :
    Sown before fewer db :=
  ⟨sown.kept, sown.relations, sown.distinct.sublist within, fun id member =>
    sown.fresh id (within.subset member)⟩

theorem Sown.insertJob (sown : Sown before ids db) (job : Job) (vacant : db.findJob job.id = none) :
    Sown before (ids ++ [job.id]) (WorkflowStatement.effect (.insertJob job) db) := by
  have inserts : WorkflowStatement.effect (.insertJob job) db =
      { db with jobs := db.jobs ++ [Workflows.newJob db.now job] } := by
    rw [WorkflowStatement.effect, vacant]
    rfl
  have kept := Batches.rowsKept_insertJob job db
  constructor
  · exact sown.kept.trans kept
  · rw [inserts]
    exact sown.relations
  · refine nodup_append.mpr ⟨sown.distinct, nodup_singleton _, ?_⟩
    intro id member last isLast same
    rw [mem_singleton.mp isLast] at same
    have found := (sown.fresh id member).2
    rw [same, vacant] at found
    cases found
  · intro id member
    cases mem_append.mp member with
    | inl old => exact ⟨(sown.fresh id old).1, RowsKept.found kept (sown.fresh id old).2⟩
    | inr new =>
      rw [mem_singleton.mp new]
      constructor
      · by_contra taken
        have found := RowsKept.found sown.kept (Option.isSome_iff_ne_none.mpr taken)
        rw [vacant] at found
        cases found
      · rw [inserts, JobsDb.findJob, find?_isSome]
        exact ⟨Workflows.newJob db.now job, mem_append_right _ mem_cons_self, beq_self_eq_true _⟩

theorem create_sown (sown : Sown before ids db) (job : Job) : (Workflows.create job).Ends (fun result reached =>
      match result with
      | .ok row => row.id = job.id ∧ Sown before (ids ++ [job.id]) reached
      | .error _ => Sown before ids reached) db := by
  unfold Call.Ends Workflows.create
  rw [Call.alone_stmt]
  cases vacant : db.findJob job.id with
  | none => exact ⟨rfl, sown.insertJob job vacant⟩
  | some row =>
    have same : effect (WorkflowStatement.insertJob job) db = db := by
      change WorkflowStatement.effect (.insertJob job) db = db
      rw [WorkflowStatement.effect, vacant]
      rfl
    rw [same]
    exact sown

end

section

variable {projects : List Workflows.Project} {projectId : String}

theorem generateRootJobId_quiet {rootIds : Workflows.RootIds} :
    (Workflows.generateRootJobId projects rootIds projectId).Issues (· = .jobs .select) := by
  apply Call.issues_ofExcept_bind
  intro project _
  exact Call.issues_perform rfl

theorem generateChildJobId_quiet {parentId : JobId} :
    (Workflows.generateChildJobId projects projectId parentId).Issues (· = .jobs .select) := by
  apply Call.issues_ofExcept_bind
  intro project _
  split
  · trivial
  · refine Call.Issues.bind ?_ fun sequence => ?_
    · exact Call.issues_perform rfl
    · cases sequence <;> trivial

end

/-- What a call leaves that relates only what it has created, and in no circle. -/
structure Grows (counts : RelationType → Bool) (before after : JobsDb) : Prop where
  extension : Extends before after
  acyclic : Acyclic (Added counts before after)

section

variable {counts : RelationType → Bool} {before middle after : JobsDb} {ids : List JobId}

theorem Sown.grows (sown : Sown before ids after) : Grows counts before after := by
  constructor
  · exact ⟨sown.kept, fun relation member => Or.inl (sown.relations ▸ member)⟩
  · intro jobId cycle
    obtain ⟨_, added, _⟩ := Relation.TransGen.head'_iff.mp cycle
    obtain ⟨relation, member, new, _⟩ := added
    exact new (sown.relations ▸ member)

theorem Sown.extension (sown : Sown before ids middle) (kept : RowsKept middle after)
    (added : ∀ relation ∈ after.relations, relation ∈ middle.relations ∨ may relation)
    (starts : ∀ relation, may relation → relation.jobId ∈ ids ∧ (middle.findJob relation.relatedJobId).isSome = true) :
    Extends before after := by
  constructor
  · exact sown.kept.trans kept
  · intro relation member
    cases added relation member with
    | inl old => exact Or.inl (sown.relations ▸ old)
    | inr new =>
      obtain ⟨fresh, found⟩ := sown.fresh _ (starts relation new).1
      exact Or.inr ⟨fresh, RowsKept.found kept found, RowsKept.found kept (starts relation new).2⟩

theorem Sown.wired (sown : Sown before ids middle) (kept : RowsKept middle after)
    (added : ∀ relation ∈ after.relations, relation ∈ middle.relations ∨ may relation)
    (starts : ∀ relation, may relation → relation.jobId ∈ ids ∧ (middle.findJob relation.relatedJobId).isSome = true)
    (acyclic : Acyclic fun jobId relatedJobId => ∃ relation, may relation ∧ relation ∉ before.relations ∧
      Leads counts relation jobId relatedJobId) :
    Grows counts before after := by
  refine ⟨sown.extension kept added starts, acyclic.mono fun jobId relatedJobId isAdded => ?_⟩
  obtain ⟨relation, member, new, leads⟩ := isAdded
  have isNew := (added relation member).resolve_left fun old => new (sown.relations ▸ old)
  exact ⟨relation, isNew, new, leads⟩

end

end EveHorizon.Dependencies
