import EveHorizon.Workflows.Settings

/-!
# Creating jobs

The ids of new jobs, and the statements by which a workflow creates its jobs, relates them,
and replaces them by others.
-/

namespace EveHorizon.Workflows

open Interleaving List
open Jobs (JobId Timestamp Phase Job JobRelation JobsDb JobStatement JobCall)

structure Project where
  id : String
  slug : String
  orgId : String
  deriving DecidableEq

def lastSegment (id : JobId) : Text := (id.toList.reverse.takeWhile (· ≠ '.')).reverse

def castInt (text : Text) : Option Nat :=
  if text.isEmpty ∨ !text.all Char.isDigit then none else some (Nat.ofDigitChars 10 text 0)

def JobsDb.children (db : JobsDb) (parentId : JobId) : List Job :=
  db.jobs.filter (·.parentId == some parentId)

def JobsDb.nextChildSequence (db : JobsDb) (parentId : JobId) : Option Nat :=
  ((JobsDb.children db parentId).mapM fun row => castInt (lastSegment row.id)).map fun numbers =>
    numbers.foldl max 0 + 1

def childId (parentId : JobId) (sequence : Nat) : JobId := parentId ++ "." ++ toString sequence

def hierarchyDepth (id : JobId) : Nat := id.toList.count '.' + 1

structure Unfiled (db : JobsDb) (id : JobId) : Prop where
  unused : ∀ row ∈ db.jobs, row.id ≠ id
  childless : ∀ row ∈ db.jobs, row.parentId ≠ some id
  vacant : ∀ row ∈ db.jobs, ∀ sequence, row.id ≠ childId id sequence
  shallow : hierarchyDepth id < 3

/-- How ids of root jobs are drawn: a hash after the slug of the project, drawn again until
no job has it. Ids of other jobs extend the id of their parent. -/
structure RootIds where
  draw : String → JobsDb → JobId
  unfiled : ∀ slug db, Unfiled db (draw slug db)

inductive WorkflowStatement where
  | jobs (stmt : JobStatement)
  | insertJob (job : Job)
  -- `ON CONFLICT DO NOTHING`.
  | insertRelation (relation : JobRelation)
  | supersede (jobId retryJobId : JobId) (generation : Nat)
  | reopenRoot (rootId : JobId) (generation : Nat)

variable (now : Timestamp)

def newJob (job : Job) : Job :=
  { job with
    createdAt := now
    updatedAt := now
    readyAt := if job.phase = .ready then some now else none }

def supersededJob (retryJobId : JobId) (generation : Nat) (row : Job) : Job :=
  { row with
    hints := { row.hints with
      workflowRetrySupersededBy := some retryJobId
      workflowRetrySupersededGeneration := some generation }
    updatedAt := now }

def reopenedRoot (generation : Nat) (row : Job) : Job :=
  { row with
    phase := .active
    closedAt := none
    closeReason := none
    failureDisposition := none
    hints := { row.hints with workflowRetryGeneration := some generation }
    updatedAt := now }

def updateJob (db : JobsDb) (jobId : JobId) (change : Timestamp → Job → Job) : JobsDb :=
  { db with jobs := Table.updateWhere (·.id == jobId) (change db.now) db.jobs }

def WorkflowStatement.effect : WorkflowStatement → JobsDb → JobsDb
  | .jobs stmt, db => stmt.effect db
  | .insertJob job, db =>
    if (db.findJob job.id).isSome then db
    else { db with jobs := db.jobs ++ [newJob db.now job] }
  | .insertRelation relation, db =>
    if db.relations.contains relation then db
    else { db with relations := db.relations ++ [relation] }
  | .supersede jobId retryJobId generation, db =>
    updateJob db jobId fun now => supersededJob now retryJobId generation
  | .reopenRoot rootId generation, db => updateJob db rootId fun now => reopenedRoot now generation

instance : Statement WorkflowStatement JobsDb where
  ready _ _ := true
  effect := WorkflowStatement.effect

abbrev WorkflowCall := Call WorkflowStatement JobsDb Failure

def onJobs {α : Type} (call : JobCall α) : WorkflowCall α := (call.lift .jobs id).mapError .error

def select {α : Type} (query : JobsDb → α) : WorkflowCall α := .perform (.jobs .select) query

def create (job : Job) : WorkflowCall Job :=
  .stmt (.insertJob job) fun db =>
    if (db.findJob job.id).isSome then
      .raise (.error "duplicate key value violates unique constraint \"jobs_pkey\"")
    else .ret (newJob db.now job)

def addDependency (fromId toId : JobId) (relationType : Jobs.RelationType) : WorkflowCall Unit := do
  let fromJob ← select (·.findJob fromId)
  let toJob ← select (·.findJob toId)
  if fromJob.isNone then .raise (.error ("Job not found: " ++ fromId))
  else if toJob.isNone then .raise (.error ("Job not found: " ++ toId))
  else .perform (.insertRelation ⟨fromId, toId, relationType⟩) fun _ => ()

section

variable (projects : List Project)

def resolveProjectForJobId (projectInput : String) : Except Failure Project :=
  let found :=
    if projectInput.startsWith "proj_" then projects.find? (·.id == projectInput)
    else projects.find? (·.slug == projectInput)
  match found with
  | none => .error (.error ("Project not found: " ++ projectInput))
  | some project => .ok project

def generateRootJobId (rootIds : RootIds) (projectInput : String) : WorkflowCall JobId := do
  let project ← .ofExcept (resolveProjectForJobId projects projectInput)
  select (rootIds.draw project.slug)

def generateChildJobId (projectInput : String) (parentId : JobId) : WorkflowCall JobId := do
  let _ ← Call.ofExcept (resolveProjectForJobId projects projectInput)
  if 3 ≤ hierarchyDepth parentId then .raise (.error "Max hierarchy depth (3) exceeded")
  else
    match ← select (JobsDb.nextChildSequence · parentId) with
    | none => .raise (.error "invalid input syntax for type integer")
    | some sequence => return childId parentId sequence

end

theorem castInt_toString (number : Nat) : castInt (toString number).toList = some number := by
  have digits : ∀ char ∈ Nat.toDigits 10 number, char.isDigit = true :=
    fun char member => Nat.isDigit_of_mem_toDigits (by decide) (by decide) member
  have nonempty : Nat.toDigits 10 number ≠ [] := ne_nil_of_length_pos Nat.length_toDigits_pos
  unfold castInt
  rw [Nat.toString_eq_repr, Nat.toList_repr, if_neg, Nat.ofDigitChars_ten_toDigits]
  simp [nonempty, all_eq_true.mpr digits]

theorem lastSegment_childId (parentId : JobId) (sequence : Nat) :
    lastSegment (childId parentId sequence) = (toString sequence).toList := by
  have plain : ∀ char ∈ (toString sequence).toList.reverse, (char ≠ '.' : Bool) = true := by
    intro char member
    rw [mem_reverse, Nat.toString_eq_repr, Nat.toList_repr] at member
    have digit := Nat.isDigit_of_mem_toDigits (by decide) (by decide) member
    rw [decide_eq_true_eq]
    rintro rfl
    exact absurd digit (by decide)
  have split : (childId parentId sequence).toList.reverse =
      (toString sequence).toList.reverse ++ '.' :: parentId.toList.reverse := by
    simp [childId]
  unfold lastSegment
  rw [split, takeWhile_append_of_pos plain]
  simp

theorem castInt_lastSegment (parentId : JobId) (sequence : Nat) :
    castInt (lastSegment (childId parentId sequence)) = some sequence := by
  rw [lastSegment_childId, castInt_toString]

variable {parentId : JobId}

theorem childId_inj {first second : Nat} : childId parentId first = childId parentId second ↔ first = second := by
  constructor
  · intro same
    have numbers := congrArg (fun id => castInt (lastSegment id)) same
    rw [castInt_lastSegment, castInt_lastSegment] at numbers
    exact Option.some.inj numbers
  · rintro rfl
    rfl

theorem nextChildSequence_numbered {db : JobsDb} {rows : List Job} (children : JobsDb.children db parentId = rows)
    (numbered : rows.map (·.id) = (List.range rows.length).map fun index => childId parentId (index + 1)) :
    JobsDb.nextChildSequence db parentId = some (rows.length + 1) := by
  have cast : (rows.map (·.id)).mapM (fun id => castInt (lastSegment id)) =
      some ((List.range rows.length).map (· + 1)) := by
    rw [numbered]
    induction rows.length with
    | zero => rfl
    | succ count ih =>
      rw [range_succ, map_append, mapM_append, ih]
      simp [castInt_lastSegment]
  have largest : ∀ count, ((List.range count).map (· + 1)).foldl max 0 = count := by
    intro count
    induction count with
    | zero => rfl
    | succ count ih => rw [range_succ, map_append, foldl_append, ih]; simp
  rw [mapM_map] at cast
  unfold JobsDb.nextChildSequence
  rw [children]
  refine (congrArg (Option.map _) cast).trans ?_
  simp [largest]

end EveHorizon.Workflows
