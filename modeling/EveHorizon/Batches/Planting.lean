import EveHorizon.Batches.Forest

/-!
# Creating the jobs of a batch

What a batch leaves behind when all of its statements succeed: one job for each node, filed
under the job of its parent, with the relations of its dependencies.
-/

namespace EveHorizon.Batches

open Interleaving Precedence List Call
open Jobs (JobId Timestamp Job JobRelation JobsDb)
open Workflows (Project WorkflowCall WorkflowStatement childId hierarchyDepth newJob resolveProjectForJobId)
open KeyToJobId (get)

section

variable {α : Type}

theorem alone_onWorkflow (call : WorkflowCall α) (db : BatchDb) : (onWorkflow call).alone db =
      ((call.alone db.jobs).1.mapError .failure, { db with jobs := (call.alone db.jobs).2 }) := by
  rw [onWorkflow, alone_mapError,
    alone_lift_part BatchStatement.jobs BatchDb.jobs (fun db jobs => { db with jobs := jobs })
      (fun _ _ => rfl) (fun _ _ _ => rfl) (fun _ => rfl) (fun _ _ => rfl)]

theorem statements_onWorkflow (call : WorkflowCall α) (db : BatchDb) :
    (onWorkflow call).statements db = call.statements db.jobs := by
  rw [onWorkflow, statements_mapError, statements_lift fun _ _ => rfl]

theorem runs_onWorkflow {call : WorkflowCall α} {db : BatchDb} {count : Nat} {value : α}
    {reached : JobsDb} (runs : call.Runs db.jobs count value reached) :
    (onWorkflow call).Runs db count value { db with jobs := reached } := by
  constructor
  · rw [alone_onWorkflow, runs.ended]
    rfl
  · rw [statements_onWorkflow, runs.counted]

theorem runs_select (query : JobsDb → α) (db : JobsDb) : (Workflows.select query).Runs db 1 (query db) db :=
  ⟨rfl, rfl⟩

variable {db : JobsDb}

theorem runs_create {job : Job} (vacant : db.findJob job.id = none) :
    (Workflows.create job).Runs db 1 (newJob db.now job) { db with jobs := db.jobs ++ [newJob db.now job] } := by
  constructor
  · exact Workflows.create_alone job vacant
  · rw [Workflows.create, Call.statements, vacant]
    rfl

theorem runs_addDependency {fromId toId : JobId} (fromKnown : (db.findJob fromId).isSome)
    (toKnown : (db.findJob toId).isSome) :
    (Workflows.addDependency fromId toId .blocks).Runs db 3 ()
      (Statement.effect (WorkflowStatement.insertRelation ⟨fromId, toId, .blocks⟩) db) := by
  change (Workflows.addDependency fromId toId .blocks).Runs db (1 + (1 + 1)) () _
  unfold Workflows.addDependency
  apply (runs_select (·.findJob fromId) db).bind
  apply (runs_select (·.findJob toId) db).bind
  rw [Option.isNone_eq_false_iff.mpr fromKnown, Option.isNone_eq_false_iff.mpr toKnown]
  exact Call.Runs.perform _ _ _

end

section

variable {projects : List Project} {rootIds : TreeIds} {request : CreateBatchRequest}
  {projectId batchId : String} {userId : Option String} {before : BatchDb}

def Stands (request : CreateBatchRequest) (projectId : String) (userId : Option String)
    (now : Timestamp) (ids : KeyToJobId) (entry : String × JobId) (row : Job) : Prop :=
  ∃ node, request.nodes.find? (·.key == entry.1) = some node ∧ (∀ parent ∈ node.parentKey, parent ∈ ids.map Prod.fst) ∧
      row = newJob now
        (nodeJob request projectId userId node entry.2 (node.parentKey.bind (get ids)))

variable {ids : KeyToJobId} {key : String}

theorem get_isSome : (get ids key).isSome ↔ key ∈ ids.map Prod.fst := by
  unfold KeyToJobId.get
  induction ids with
  | nil => simp
  | cons entry ids ih =>
    obtain ⟨other, id⟩ := entry
    rw [lookup_cons, map_cons, mem_cons]
    by_cases same : key = other
    · simp [same]
    · rw [beq_eq_false_iff_ne.mpr same]
      exact ih.trans (by simp [same])

theorem get_mem {id : JobId} (found : get ids key = some id) : (key, id) ∈ ids := by
  unfold KeyToJobId.get at found
  induction ids with
  | nil => cases found
  | cons entry ids ih =>
    obtain ⟨other, first⟩ := entry
    rw [lookup_cons] at found
    by_cases same : key = other
    · subst same
      rw [beq_self_eq_true] at found
      cases found
      exact mem_cons_self
    · rw [beq_eq_false_iff_ne.mpr same] at found
      exact mem_cons_of_mem _ (ih found)

theorem get_append {more : KeyToJobId} (known : key ∈ ids.map Prod.fst) : get (ids ++ more) key = get ids key := by
  obtain ⟨id, found⟩ := Option.isSome_iff_exists.mp (get_isSome.mpr known)
  unfold KeyToJobId.get at found ⊢
  rw [lookup_append, found]
  rfl

theorem Stands.mono {now : Timestamp} {entry : String × JobId} {row : Job}
    (stands : Stands request projectId userId now ids entry row) (more : KeyToJobId) :
    Stands request projectId userId now (ids ++ more) entry row := by
  obtain ⟨node, found, parented, rfl⟩ := stands
  refine ⟨node, found, ?_, ?_⟩
  · intro parent given
    rw [map_append]
    exact mem_append_left _ (parented parent given)
  · have same : node.parentKey.bind (get (ids ++ more)) = node.parentKey.bind (get ids) := by
      cases given : node.parentKey with
      | none => rfl
      | some parent => exact get_append (parented parent given)
    rw [same]

theorem generateJobId_runs {project : Project}
    (resolved : resolveProjectForJobId projects projectId = .ok project) {old rows : List Job}
    (grove : Grove old rows) {reached : BatchDb} (jobs : reached.jobs.jobs = old ++ rows)
    (parentJobId : Option JobId) (known : ∀ parent ∈ parentJobId, parent ∈ rows.map (·.id))
    (shallow : ∀ parent ∈ parentJobId, hierarchyDepth parent < 3) :
    ∃ jobId, (generateJobId projects rootIds.rootIds projectId parentJobId).Runs reached 1 jobId reached ∧
      jobId ∉ rows.map (·.id) ∧ Apart old (rootPart jobId) ∧
      hierarchyDepth jobId = ((parentJobId.map hierarchyDepth).getD 0) + 1 ∧
      ∀ row : Job, row.id = jobId → row.parentId = parentJobId → Grows rows row := by
  cases parentJobId with
  | none =>
    have dotless := rootIds.dotless project.slug reached.jobs
    have apart := rootIds.apart project.slug reached.jobs
    rw [jobs] at apart
    refine ⟨rootIds.draw project.slug reached.jobs, ?_, ?_, ?_, ?_, ?_⟩
    · apply runs_onWorkflow
      rw [Workflows.generateRootJobId, resolved]
      exact runs_select _ _
    · exact vacant_root dotless fun row listed => apart row (mem_append_right _ listed)
    · rw [rootPart_of_dotless dotless]
      exact fun row listed => apart row (mem_append_left _ listed)
    · exact hierarchyDepth_of_dotless dotless
    · intro row same top
      rw [Grows, top, same]
      exact dotless
  | some parent =>
    have listed := known parent rfl
    have children := grove.children jobs listed
    have numbered := grove.numbered parent listed
    have sequence := Workflows.nextChildSequence_numbered children numbered.ids
    refine ⟨childId parent ((rows.filter (·.parentId == some parent)).length + 1), ?_, ?_, ?_, ?_, ?_⟩
    · apply runs_onWorkflow
      rw [Workflows.generateChildJobId, resolved]
      simp only [Call.ofExcept, ret_bind, Nat.not_le.mpr (shallow parent rfl), if_false]
      have asked := runs_select (Workflows.JobsDb.nextChildSequence · parent) reached.jobs
      rw [sequence] at asked
      change Call.Runs _ _ (1 + 0) _ _
      refine asked.bind ?_
      exact Call.Runs.ret _ _
    · exact grove.vacant_child listed
    · rw [rootPart_childId]
      obtain ⟨row, isRow, rfl⟩ := mem_map.mp listed
      exact grove.apart row isRow
    · exact hierarchyDepth_childId ..
    · intro row same filed
      rw [Grows, filed]
      exact ⟨listed, same⟩

variable {project : Project}

theorem generateJobId_deep (resolved : resolveProjectForJobId projects projectId = .ok project)
    (reached : BatchDb) {parent : JobId} (deep : 3 ≤ hierarchyDepth parent) :
    (generateJobId projects rootIds.rootIds projectId (some parent)).alone reached =
      (.error (.failure (.error "Max hierarchy depth (3) exceeded")), reached) := by
  rw [generateJobId, alone_onWorkflow, Workflows.generateChildJobId, resolved]
  simp only [Call.ofExcept, ret_bind, deep, if_true]
  rfl

def retagged (tags : List BatchTag) (batchId : String) (ids : KeyToJobId) : List BatchTag :=
  tags.filter (fun tag => !(ids.map Prod.snd).contains tag.jobId) ++ ids.map fun entry => ⟨entry.2, batchId, entry.1⟩

theorem retagged_append {jobId : JobId} (fresh : jobId ∉ ids.map Prod.snd) (tags : List BatchTag) (key : String) :
    (retagged tags batchId ids).filter (·.jobId != jobId) ++ [⟨jobId, batchId, key⟩] =
      retagged tags batchId (ids ++ [(key, jobId)]) := by
  have own : ids.filter ((fun tag : BatchTag => tag.jobId != jobId) ∘
      fun entry => ⟨entry.2, batchId, entry.1⟩) = ids := by
    rw [filter_eq_self]
    intro entry member
    rw [Function.comp_apply, bne_iff_ne]
    rintro rfl
    exact fresh (mem_map_of_mem (f := Prod.snd) member)
  have others : (fun tag : BatchTag => tag.jobId != jobId && !(ids.map Prod.snd).contains tag.jobId) =
      fun tag => !((ids ++ [(key, jobId)]).map Prod.snd).contains tag.jobId := by
    funext tag
    rw [map_append, map_singleton, contains_append, Bool.not_or, Bool.and_comm]
    by_cases same : tag.jobId = jobId <;> simp [same]
  unfold retagged
  rw [filter_append, filter_filter, filter_map, own, others, append_assoc]
  simp

variable (request projectId batchId userId before) in
/-- What the nodes so far have left: a row for each, in the tree of its root, and its tag. -/
structure Planted (ids : KeyToJobId) (rows : List Job) (reached : BatchDb) : Prop where
  jobs : reached.jobs = { before.jobs with jobs := before.jobs.jobs ++ rows }
  batches : reached.batches = before.batches
  tags : reached.tags = retagged before.tags batchId ids
  stand : List.Forall₂ (Stands request projectId userId before.jobs.now ids) ids rows
  grove : Grove before.jobs.jobs rows
  level : ∀ entry ∈ ids, ∀ depth, exceedsDepth request depth (some entry.1) = decide (depth < hierarchyDepth entry.2)

theorem Planted.start : Planted request projectId batchId userId before [] [] before := by
  constructor
  · simp
  · rfl
  · simp [retagged]
  · exact .nil
  · exact Grove.empty _
  · simp

variable {rows : List Job} {reached : BatchDb}

section

variable (planted : Planted request projectId batchId userId before ids rows reached)
include planted

theorem Planted.rowIds : rows.map (·.id) = ids.map Prod.snd := by
  have named : ∀ {given : KeyToJobId} {made : List Job},
      List.Forall₂ (Stands request projectId userId before.jobs.now ids) given made →
        made.map (·.id) = given.map Prod.snd := by
    intro given made stand
    induction stand with
    | nil => rfl
    | cons first _ rest =>
      obtain ⟨node, _, _, rfl⟩ := first
      rw [map_cons, map_cons, rest]
      rfl
  exact named planted.stand

theorem Planted.get {id : JobId} (found : get ids key = some id) :
    id ∈ rows.map (·.id) ∧ ∀ depth, exceedsDepth request depth (some key) = decide (depth < hierarchyDepth id) := by
  have member := get_mem found
  constructor
  · rw [planted.rowIds]
    exact mem_map_of_mem (f := Prod.snd) member
  · exact planted.level _ member

theorem Planted.append {node : BatchNode} (found : request.nodes.find? (·.key == node.key) = some node)
    (parented : ∀ parent ∈ node.parentKey, parent ∈ ids.map Prod.fst) {jobId : JobId}
    (fresh : jobId ∉ rows.map (·.id)) (apart : Apart before.jobs.jobs (rootPart jobId))
    (deeper : hierarchyDepth jobId = (((node.parentKey.bind (KeyToJobId.get ids)).map hierarchyDepth).getD 0) + 1)
    {row : Job} (grows : Grows rows row) (stands : row = newJob before.jobs.now
      (nodeJob request projectId userId node jobId (node.parentKey.bind (KeyToJobId.get ids)))) :
    Planted request projectId batchId userId before (ids ++ [(node.key, jobId)]) (rows ++ [row])
      { reached with
        jobs := { reached.jobs with jobs := reached.jobs.jobs ++ [row] }
        tags := reached.tags.filter (·.jobId != jobId) ++ [⟨jobId, batchId, node.key⟩] } := by
  have named : row.id = jobId := by rw [stands]; rfl
  constructor
  · rw [planted.jobs, append_assoc]
  · exact planted.batches
  · rw [planted.tags]
    exact retagged_append (planted.rowIds ▸ fresh) _ _
  · have earlier := planted.stand.imp fun entry row stands => stands.mono [(node.key, jobId)]
    have last : Stands request projectId userId before.jobs.now ids (node.key, jobId) row :=
      ⟨node, found, parented, stands⟩
    exact rel_append earlier (.cons (last.mono _) .nil)
  · exact planted.grove.append (named ▸ fresh) (named ▸ apart) grows
  · intro entry member depth
    rcases mem_append.mp member with earlier | last
    · exact planted.level entry earlier depth
    · rw [mem_singleton.mp last]
      cases depth with
      | zero => simp [exceedsDepth, hierarchyDepth]
      | succ depth =>
        rw [exceedsDepth, parentOf, found, Option.bind_some, deeper]
        cases given : node.parentKey with
        | none => simp [exceedsDepth]
        | some parent =>
          obtain ⟨id, known⟩ := Option.isSome_iff_exists.mp (get_isSome.mpr (parented parent given))
          rw [Option.bind_some, known, (planted.get known).2 depth]
          simp

end

theorem Planted.parent (planted : Planted request projectId batchId userId before ids rows reached)
    {node : BatchNode} (shallow : exceedsDepth request 2 node.parentKey = false) :
    ∀ parent ∈ node.parentKey.bind (KeyToJobId.get ids), parent ∈ rows.map (·.id) ∧ hierarchyDepth parent < 3 := by
  intro parent given
  obtain ⟨key, isParent, found⟩ := Option.bind_eq_some_iff.mp given
  obtain ⟨listed, level⟩ := planted.get found
  rw [isParent, level, decide_eq_false_iff_not] at shallow
  exact ⟨listed, by omega⟩

theorem Closed.find (closed : Closed request) {node : BatchNode} (member : node ∈ request.nodes) :
    request.nodes.find? (·.key == node.key) = some node := by
  have distinct := closed.distinct
  unfold CreateBatchRequest.keys at distinct
  revert distinct member
  induction request.nodes with
  | nil => simp
  | cons first nodes ih =>
    intro member distinct
    rw [map_cons, nodup_cons] at distinct
    rcases mem_cons.mp member with rfl | later
    · simp
    · have other : first.key ≠ node.key := by
        intro same
        exact distinct.1 (same ▸ mem_map_of_mem (f := BatchNode.key) later)
      rw [find?_cons_of_neg (by simpa using other)]
      exact ih later distinct.2

theorem CreationOrder.node {sorted done rest : List String} {key : String}
    (order : CreationOrder request sorted) (closed : Closed request) (split : sorted = done ++ key :: rest) :
    ∃ node ∈ request.nodes, node.key = key ∧ request.nodes.find? (·.key == node.key) = some node ∧
      ∀ parent ∈ node.parentKey, parent ∈ done := by
  have listed : key ∈ request.keys := by
    rw [← order.same, split]
    simp
  obtain ⟨node, member, rfl⟩ := mem_map.mp listed
  refine ⟨node, member, rfl, closed.find member, ?_⟩
  intro parent given
  apply order.ordered done node.key rest split parent
  apply mem_append_left
  exact mem_filterMap.mpr ⟨node, member, by rw [given, Option.map_some]⟩

theorem CreationOrder.length {sorted : List String} (order : CreationOrder request sorted)
    (closed : Closed request) : sorted.length = request.nodes.length := by
  have perm := (perm_ext_iff_of_nodup order.distinct closed.distinct).mpr order.same
  rw [perm.length_eq, CreateBatchRequest.keys, length_map]

section

variable (request projectId batchId userId before)

def PlantedKeys (keys : List String) (ids : KeyToJobId) (reached : BatchDb) : Prop :=
  ids.map Prod.fst = keys ∧ ∃ rows, Planted request projectId batchId userId before ids rows reached

theorem PlantedKeys.start : PlantedKeys request projectId batchId userId before [] [] before :=
  ⟨rfl, [], Planted.start⟩

end

section

variable {project : Project} (resolved : resolveProjectForJobId projects projectId = .ok project)
include resolved

theorem createNode_runs (planted : Planted request projectId batchId userId before ids rows reached) {node : BatchNode}
    (found : request.nodes.find? (·.key == node.key) = some node)
    (parented : ∀ parent ∈ node.parentKey, parent ∈ ids.map Prod.fst)
    (shallow : exceedsDepth request 2 node.parentKey = false) :
    ∃ jobId row final, (createNode projects rootIds.rootIds request projectId batchId userId ids node).Runs reached 3
        jobId final ∧ Planted request projectId batchId userId before (ids ++ [(node.key, jobId)]) (rows ++ [row])
        final := by
  have parents := planted.parent shallow
  have jobs : reached.jobs.jobs = before.jobs.jobs ++ rows := by rw [planted.jobs]
  have now : reached.jobs.now = before.jobs.now := by rw [planted.jobs]
  obtain ⟨jobId, generated, fresh, apart, deeper, grows⟩ :=
    generateJobId_runs resolved planted.grove jobs (node.parentKey.bind (get ids)) (fun parent given => (parents
        parent given).1) (fun parent given => (parents parent given).2)
  have vacant : reached.jobs.findJob jobId = none := findJob_vacant jobs apart fresh
  let job := nodeJob request projectId userId node jobId (node.parentKey.bind (get ids))
  let row := newJob reached.jobs.now job
  let created : BatchDb :=
    { reached with jobs := { reached.jobs with jobs := reached.jobs.jobs ++ [row] } }
  have creates : (onWorkflow (Workflows.create job)).Runs reached 1 row created := runs_onWorkflow (runs_create vacant)
  have filed : (created.jobs.findJob jobId).isSome := by
    rw [JobsDb.findJob, find?_isSome]
    exact ⟨row, mem_append_right _ (mem_singleton_self row), beq_self_eq_true jobId⟩
  have tagged : Statement.effect (BatchStatement.tagJob ⟨jobId, batchId, node.key⟩) created =
      { created with
        tags := reached.tags.filter (·.jobId != jobId) ++ [⟨jobId, batchId, node.key⟩] } :=
    if_pos filed
  have ran : Call.Runs (createNode projects rootIds.rootIds request projectId batchId userId ids node)
      reached (1 + (1 + 1)) jobId _ :=
    generated.bind (creates.bind (Call.Runs.perform (BatchStatement.tagJob ⟨jobId, batchId, node.key⟩) _ _))
  rw [tagged] at ran
  exact ⟨jobId, row, _, ran, planted.append found parented fresh apart deeper (grows row rfl rfl)
    (congrArg (newJob · job) now)⟩

theorem createNode_deep (planted : Planted request projectId batchId userId before ids rows reached) {node : BatchNode}
    (parented : ∀ parent ∈ node.parentKey, parent ∈ ids.map Prod.fst)
    (deep : exceedsDepth request 2 node.parentKey = true) :
    (createNode projects rootIds.rootIds request projectId batchId userId ids node).alone reached =
      (.error (.failure (.error "Max hierarchy depth (3) exceeded")), reached) := by
  cases given : node.parentKey with
  | none =>
    rw [given] at deep
    cases deep
  | some key =>
    obtain ⟨parent, known⟩ := Option.isSome_iff_exists.mp (get_isSome.mpr (parented key given))
    rw [given, (planted.get known).2 2, decide_eq_true_eq] at deep
    rw [createNode, given, Option.bind_some, known, alone_bind, generateJobId_deep resolved reached deep]

variable (rootIds) {sorted rest done : List String} (closed : Closed request) (order : CreationOrder request sorted)
include closed order

theorem createNodes_runs
    (shallow : ∀ node ∈ request.nodes, exceedsDepth request 2 node.parentKey = false) (split : sorted = done ++ rest)
    {ids : KeyToJobId} {reached : BatchDb}
    (planted : PlantedKeys request projectId batchId userId before done ids reached) :
    ∃ all final, (createNodes projects rootIds.rootIds request projectId batchId userId rest ids).Runs reached
        (3 * rest.length) all final ∧ PlantedKeys request projectId batchId userId before sorted all final := by
  induction rest generalizing done ids reached with
  | nil =>
    rw [append_nil] at split
    exact ⟨ids, reached, .ret _ _, split ▸ planted⟩
  | cons key rest ih =>
    obtain ⟨keys, rows, planted⟩ := planted
    obtain ⟨node, member, rfl, found, parented⟩ := order.node closed split
    obtain ⟨jobId, row, middle, ran, grown⟩ := createNode_runs resolved planted found
      (keys ▸ parented) (shallow node member)
    obtain ⟨all, final, later, whole⟩ := @ih (done ++ [node.key]) (by simp [split])
      (ids ++ [(node.key, jobId)]) middle ⟨by simp [keys], rows ++ [row], grown⟩
    refine ⟨all, final, ?_, whole⟩
    have count : 3 * (node.key :: rest).length = 3 + 3 * rest.length := by
      rw [length_cons]
      omega
    rw [createNodes, found, count]
    exact ran.bind later

theorem createNodes_deep (split : sorted = done ++ rest)
    (deep : ∃ node ∈ request.nodes, node.key ∈ rest ∧ exceedsDepth request 2 node.parentKey = true) {ids : KeyToJobId}
    {reached : BatchDb} (planted : PlantedKeys request projectId batchId userId before done ids reached) :
    ((createNodes projects rootIds.rootIds request projectId batchId userId rest ids).alone
      reached).1 = .error (.failure (.error "Max hierarchy depth (3) exceeded")) := by
  induction rest generalizing done ids reached with
  | nil =>
    obtain ⟨node, _, nowhere, _⟩ := deep
    cases nowhere
  | cons key rest ih =>
    obtain ⟨keys, rows, planted⟩ := planted
    obtain ⟨node, member, rfl, found, parented⟩ := order.node closed split
    rw [createNodes, found]
    cases level : exceedsDepth request 2 node.parentKey with
    | true =>
      rw [alone_bind, createNode_deep resolved planted (keys ▸ parented) level]
    | false =>
      obtain ⟨jobId, row, middle, ran, grown⟩ := createNode_runs resolved planted found (keys ▸ parented) level
      rw [alone_bind, ran.ended]
      apply @ih (done ++ [node.key]) (by simp [split]) _ (ids ++ [(node.key, jobId)]) middle
        ⟨by simp [keys], rows ++ [row], grown⟩
      obtain ⟨other, isNode, listed, tooDeep⟩ := deep
      refine ⟨other, isNode, ?_, tooDeep⟩
      rcases mem_cons.mp listed with same | later
      · have equal := (closed.find isNode).symm.trans (same ▸ found)
        cases equal
        rw [level] at tooDeep
        cases tooDeep
      · exact later

end

def dependencyPairs (dependencies : List BatchDependency) : List (String × String) :=
  dependencies.flatMap fun dependency => dependency.dependsOn.map fun key => (dependency.job, key)

def pairRelation (ids : KeyToJobId) (pair : String × String) : JobRelation :=
  ⟨(get ids pair.1).getD "", (get ids pair.2).getD "", .blocks⟩

/-- Only relations have been added, one for each pair. -/
structure Wired (ids : KeyToJobId) (start : BatchDb) (pairs : List (String × String))
    (reached : BatchDb) : Prop where
  rest : reached = { start with
    jobs := { start.jobs with relations := reached.jobs.relations } }
  relations : ∀ relation, relation ∈ reached.jobs.relations ↔
    relation ∈ start.jobs.relations ∨ ∃ pair ∈ pairs, relation = pairRelation ids pair

def Known (request : CreateBatchRequest) (ids : KeyToJobId) (reached : BatchDb) : Prop :=
  ∀ key ∈ request.keys, ∃ id, get ids key = some id ∧ (reached.jobs.findJob id).isSome

theorem insertRelation_rest (relation : JobRelation) (db : JobsDb) :
    WorkflowStatement.effect (.insertRelation relation) db =
      { db with relations := (WorkflowStatement.effect (.insertRelation relation) db).relations } := by
  rw [WorkflowStatement.effect]
  split <;> rfl

theorem mem_insertRelation {relation new : JobRelation} {db : JobsDb} :
    relation ∈ (WorkflowStatement.effect (.insertRelation new) db).relations ↔
      relation ∈ db.relations ∨ relation = new := by
  rw [WorkflowStatement.effect]
  split
  · next known =>
      constructor
      · exact .inl
      · rintro (old | rfl)
        · exact old
        · exact contains_iff_mem.mp known
  · rw [mem_append, mem_singleton]

variable {start : BatchDb}

theorem Wired.add {pairs : List (String × String)} (wired : Wired ids start pairs reached) (pair : String × String) :
    Wired ids start (pairs ++ [pair])
      { reached with
        jobs := Statement.effect (WorkflowStatement.insertRelation (pairRelation ids pair))
          reached.jobs } := by
  change Wired ids start (pairs ++ [pair])
    { reached with
      jobs := WorkflowStatement.effect (.insertRelation (pairRelation ids pair)) reached.jobs }
  constructor
  · rw [insertRelation_rest, wired.rest]
  · intro relation
    rw [mem_insertRelation, wired.relations]
    simp only [mem_append, mem_singleton, or_and_right, exists_or, exists_eq_left, or_assoc]

theorem wireDependency_runs {pairs : List (String × String)} (known : Known request ids start)
    (wired : Wired ids start pairs reached) {job dependsOn : String} (isJob : job ∈ request.keys)
    (isDependency : dependsOn ∈ request.keys) :
    ∃ final, (wireDependency ids job dependsOn).Runs reached 3 () final ∧
      Wired ids start (pairs ++ [(job, dependsOn)]) final := by
  obtain ⟨fromId, fromKnown, fromFiled⟩ := known job isJob
  obtain ⟨toId, toKnown, toFiled⟩ := known dependsOn isDependency
  have same : reached.jobs.jobs = start.jobs.jobs := by rw [wired.rest]
  have added := wired.add (job, dependsOn)
  rw [pairRelation, fromKnown, toKnown] at added
  refine ⟨_, ?_, added⟩
  rw [wireDependency, fromKnown, toKnown]
  apply runs_onWorkflow
  apply runs_addDependency
  · rw [JobsDb.findJob, same]
    exact fromFiled
  · rw [JobsDb.findJob, same]
    exact toFiled

theorem wireDependencies_eq (ids : KeyToJobId) :
    wireDependencies request ids = Call.forEach (dependencyPairs request.dependencies) fun pair =>
      wireDependency ids pair.1 pair.2 := by
  unfold dependencyPairs wireDependencies
  rw [forEach_flatMap]
  congr 1
  funext dependency
  rw [forEach_map]

theorem Closed.pairs (closed : Closed request) :
    ∀ pair ∈ dependencyPairs request.dependencies, pair.1 ∈ request.keys ∧ pair.2 ∈ request.keys := by
  intro pair member
  obtain ⟨dependency, listed, inPairs⟩ := mem_flatMap.mp member
  obtain ⟨key, depends, rfl⟩ := mem_map.mp inPairs
  exact ⟨closed.jobs dependency listed, closed.dependsOn dependency listed key depends⟩

theorem wireDependencies_runs (closed : Closed request) (known : Known request ids start) :
    ∃ final, (wireDependencies request ids).Runs start (3 * (dependencyPairs request.dependencies).length) () final ∧
      Wired ids start (dependencyPairs request.dependencies) final := by
  have count : 3 * (dependencyPairs request.dependencies).length =
      ((dependencyPairs request.dependencies).map fun _ => 3).sum := by
    simp [Nat.mul_comm]
  have wired : Wired ids start [] start := ⟨rfl, by simp⟩
  rw [wireDependencies_eq, count]
  apply Call.Runs.forEach wired
  intro earlier pair later split reached wired
  obtain ⟨isJob, isDependency⟩ := closed.pairs pair (by simp [split])
  exact wireDependency_runs known wired isJob isDependency

end

end EveHorizon.Batches
