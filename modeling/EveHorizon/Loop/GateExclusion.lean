import EveHorizon.Loop.Gates

/-! Gates over whole runs. A dispatch executes with all its gates acquired, whatever runs
beside it; the rows stay as long as nobody deletes a row another dispatch of the job needs. -/

namespace EveHorizon.Loop

open Interleaving List
open Jobs (JobId Timestamp Job JobAttempt JobGate JobsDb JobOperation)

def HoldsGates (db : GateDb) : Prop :=
  ∀ entry ∈ db.executing, ∀ gateKey ∈ entry.requiredGates,
    ∃ gate ∈ db.gates, gate.gateKey = gateKey ∧ gate.jobId = entry.jobId

/-- Two jobs that share a required gate do not execute at the same time. -/
def Exclusive (db : GateDb) : Prop :=
  ∀ left ∈ db.executing, ∀ right ∈ db.executing, left.jobId ≠ right.jobId →
    ∀ gateKey ∈ left.requiredGates, gateKey ∉ right.requiredGates

def GateStatement.givesBack : GateStatement → Nat → Bool
  | .giveBack dispatch _ _, other => dispatch == other
  | _, _ => false

/-- The statement deletes no gate that another dispatch of the job has acquired and still
needs. -/
def sparesHeld (execution : Execution GateStatement GateDb) : Bool :=
  execution.before.gates.all fun gate =>
    !execution.statement.deletes execution.before gate ||
      execution.before.holdings.all fun holding =>
        !(holding.gateKey == gate.gateKey && holding.jobId == gate.jobId) ||
          execution.statement.givesBack holding.dispatch

def HasGate (gates : List JobGate) (gateKey : String) (jobId : JobId) : Prop :=
  ∃ gate ∈ gates, gate.gateKey = gateKey ∧ gate.jobId = jobId

variable {gates : List JobGate} {gateKey : String} {jobId : JobId}

theorem updateWhere_gates {selected : JobGate → Bool} {ttlExpiresAt : Timestamp} (has : HasGate gates gateKey jobId) :
    HasGate (Table.updateWhere selected (fun gate => { gate with ttlExpiresAt }) gates) gateKey jobId := by
  obtain ⟨gate, member, named⟩ := has
  refine ⟨_, mem_map_of_mem member, ?_⟩
  split <;> exact named

theorem updateWhere_keys (selected : JobGate → Bool) (ttlExpiresAt : Timestamp) (gates : List JobGate) :
    (Table.updateWhere selected (fun gate => { gate with ttlExpiresAt }) gates).map (·.gateKey) =
      gates.map (·.gateKey) := by
  rw [Table.updateWhere, map_map]
  apply map_congr_left
  intro gate _
  simp only [Function.comp_apply]
  split <;> rfl

theorem upsertGate_keeps (has : HasGate gates gateKey jobId) (upserting : JobId) (upserted : String)
    (ttlExpiresAt : Timestamp) : HasGate (upsertGate gates upserting upserted ttlExpiresAt) gateKey jobId := by
  unfold upsertGate
  split
  · obtain ⟨gate, member, named⟩ := has
    exact ⟨gate, mem_append_left _ member, named⟩
  · exact updateWhere_gates has

theorem upsertGate_grants (granted : grants gates jobId gateKey = true) (ttlExpiresAt : Timestamp) :
    HasGate (upsertGate gates jobId gateKey ttlExpiresAt) gateKey jobId := by
  unfold grants at granted
  unfold upsertGate
  split
  · exact ⟨_, mem_append_right _ (mem_singleton.mpr rfl), rfl, rfl⟩
  · next gate found =>
    rw [found] at granted
    have named := find?_some found
    exact updateWhere_gates ⟨gate, mem_of_find?_eq_some found, beq_iff_eq.mp named, beq_iff_eq.mp granted⟩

theorem upsertGate_distinct (distinct : (gates.map (·.gateKey)).Nodup) (jobId : JobId)
    (gateKey : String) (ttlExpiresAt : Timestamp) :
    ((upsertGate gates jobId gateKey ttlExpiresAt).map (·.gateKey)).Nodup := by
  unfold upsertGate
  split
  · next absent =>
    rw [map_append, nodup_append]
    refine ⟨distinct, by simp, ?_⟩
    intro older member newer added same
    obtain ⟨gate, present, rfl⟩ := mem_map.mp member
    have other := find?_eq_none.mp absent gate present
    have equal : newer = gateKey := by simpa using added
    rw [same, equal] at other
    exact other (beq_self_eq_true gateKey)
  · rw [updateWhere_keys]
    exact distinct

theorem filter_distinct (distinct : (gates.map (·.gateKey)).Nodup) (kept : JobGate → Bool) :
    ((gates.filter kept).map (·.gateKey)).Nodup :=
  distinct.sublist (filter_sublist.map _)

theorem loop_gates (stmt : LoopStatement) (db : GateDb) : (stmt.effect db.loop).jobs.gates =
      db.gates.filter fun gate => !(GateStatement.loop stmt).deletes db gate := by
  have unchanged : db.gates = db.gates.filter fun _ => true := (filter_eq_self.mpr fun _ _ => rfl).symm
  cases stmt with
  | jobs stmt =>
    cases stmt with
    | deleteGates jobIds => rfl
    | insertAttempt new =>
      refine Eq.trans ?_ unchanged
      simp only [LoopStatement.effect, Jobs.JobStatement.effect]
      split <;> rfl
    | _ => exact unchanged
  | _ => exact unchanged

variable {stmt : GateStatement} {db : GateDb}

theorem keeps_gate {gate : JobGate} (member : gate ∈ db.gates) (kept : stmt.deletes db gate = false) :
    HasGate (stmt.effect db).gates gate.gateKey gate.jobId := by
  have stays : gate ∈ db.gates.filter fun gate => !stmt.deletes db gate :=
    mem_filter.mpr ⟨member, by rw [kept]; rfl⟩
  cases stmt with
  | loop stmt =>
    rw [← loop_gates] at stays
    exact ⟨gate, stays, rfl, rfl⟩
  | cleanupExpiredGates | giveBack dispatch jobId gateKeys => exact ⟨gate, stays, rfl, rfl⟩
  | upsert dispatch jobId gateKey ttlExpiresAt =>
    simp only [GateStatement.effect]
    split
    · exact upsertGate_keeps ⟨gate, member, rfl, rfl⟩ _ _ _
    · exact upsertGate_keeps ⟨gate, member, rfl, rfl⟩ _ _ _
  | refreshGatesTTL jobId ttlExpiresAt => exact updateWhere_gates ⟨gate, member, rfl, rfl⟩
  | updateBlockedOnGates jobId blockedOnGates => exact ⟨gate, member, rfl, rfl⟩
  | execute dispatch jobId relevant | stopExecuting dispatch => exact ⟨gate, member, rfl, rfl⟩

def Held (dispatch : Nat) (jobId : JobId) (gateKey : String) (db : GateDb) : Prop :=
  (⟨dispatch, jobId, gateKey⟩ : Holding) ∈ db.holdings

/-- A key has one row, and a dispatch on a worker has acquired its gates. -/
structure Registered (db : GateDb) : Prop where
  distinct : (db.gates.map (·.gateKey)).Nodup
  acquired : ∀ entry ∈ db.executing, ∀ gateKey ∈ entry.requiredGates, Held entry.dispatch entry.jobId gateKey db

variable (dispatch : Nat)

/-- A dispatch acquires and drops gates of its own only. -/
def GateStatement.allowed : GateStatement → GateDb → Prop
  | .upsert acting _ _ _, _ => acting = dispatch
  | .giveBack acting _ _, _ => acting = dispatch
  | .stopExecuting acting, _ => acting = dispatch
  | .execute acting jobId relevant, db =>
    acting = dispatch ∧ ∀ gateKey ∈ resolveRequiredJobGates relevant, Held dispatch jobId gateKey db
  | _, _ => True

open GateStatement (allowed effect giveBack loop upsert)

def Keeps (before after : GateDb) : Prop :=
  ∀ holding ∈ before.holdings, holding.dispatch = dispatch → holding ∈ after.holdings

theorem registered_loop (registered : Registered db) (stmt : LoopStatement) :
    Registered ((loop stmt).effect db) where
  distinct := by
    have same := loop_gates stmt db
    change ((stmt.effect db.loop).jobs.gates.map (·.gateKey)).Nodup
    rw [same]
    exact filter_distinct registered.distinct _
  acquired := registered.acquired

theorem registered_drop (registered : Registered db) (dispatch : Nat) : Registered (db.drop dispatch) where
  distinct := registered.distinct
  acquired := by
    intro entry member gateKey required
    obtain ⟨present, other⟩ := mem_filter.mp member
    exact mem_filter.mpr ⟨registered.acquired entry present gateKey required, other⟩

variable {session : Nat}

theorem registered_effect (registered : Registered db) (isAllowed : stmt.allowed session db) :
    Registered (stmt.effect db) := by
  cases stmt with
  | loop stmt => exact registered_loop registered stmt
  | cleanupExpiredGates => exact ⟨filter_distinct registered.distinct _, registered.acquired⟩
  | upsert dispatch jobId gateKey ttlExpiresAt =>
    have distinct := upsertGate_distinct registered.distinct jobId gateKey ttlExpiresAt
    simp only [effect]
    split
    · refine ⟨distinct, fun entry member key required => ?_⟩
      exact mem_cons_of_mem _ (registered.acquired entry member key required)
    · exact ⟨distinct, registered.acquired⟩
  | giveBack dispatch jobId gateKeys =>
    have filtered : Registered (db.withGates (db.gates.filter fun gate =>
        !(giveBack dispatch jobId gateKeys).deletes db gate)) :=
      ⟨filter_distinct registered.distinct _, registered.acquired⟩
    exact registered_drop filtered dispatch
  | refreshGatesTTL jobId ttlExpiresAt =>
    refine ⟨?_, registered.acquired⟩
    change ((Table.updateWhere _ (fun gate => { gate with ttlExpiresAt }) db.gates).map (·.gateKey)).Nodup
    rw [updateWhere_keys]
    exact registered.distinct
  | updateBlockedOnGates jobId blockedOnGates => exact ⟨registered.distinct, registered.acquired⟩
  | execute dispatch jobId relevant =>
    refine ⟨registered.distinct, fun entry member gateKey required => ?_⟩
    cases member with
    | head =>
      obtain ⟨same, held⟩ := isAllowed
      rw [same]
      exact held gateKey required
    | tail _ present => exact registered.acquired entry present gateKey required
  | stopExecuting dispatch => exact registered_drop registered dispatch

theorem keeps_effect {other : Nat} (different : session ≠ other)
    (isAllowed : stmt.allowed session db) : Keeps other db (stmt.effect db) := by
  have dropped : ∀ db : GateDb, Keeps other db (db.drop session) := by
    intro db holding member own
    refine mem_filter.mpr ⟨member, ?_⟩
    rw [own]
    exact bne_iff_ne.mpr different.symm
  cases stmt with
  | upsert dispatch jobId gateKey ttlExpiresAt =>
    intro holding member own
    simp only [effect]
    split
    · exact mem_cons_of_mem _ member
    · exact member
  | giveBack dispatch jobId gateKeys =>
    have same : dispatch = session := isAllowed
    subst same
    exact dropped _
  | stopExecuting dispatch =>
    have same : dispatch = session := isAllowed
    subst same
    exact dropped db
  | _ => exact fun _ member _ => member

def gateDiscipline : Discipline GateStatement GateDb where
  inv := Registered
  allowed := GateStatement.allowed
  rely := Keeps
  rely_refl _ _ _ member _ := member
  rely_trans first second holding member own := second holding (first holding member own) own
  keeps registered _ isAllowed := registered_effect registered isAllowed
  respects different _ _ isAllowed := keeps_effect different isAllowed

theorem Held.keeps {dispatch : Nat} {before after : GateDb}
    (held : Held dispatch jobId gateKey before) (keeps : Keeps dispatch before after) :
    Held dispatch jobId gateKey after :=
  keeps _ held rfl

theorem gate_keeps_trans {dispatch : Nat} {first second third : GateDb}
    (before : Keeps dispatch first second) (after : Keeps dispatch second third) : Keeps dispatch first third :=
  fun holding member own => after holding (before holding member own) own

abbrev Whatever {α : Type} : Except String α → GateDb → Prop := fun _ _ => True

variable {α : Type}

theorem safe_onLoop (call : LoopCall α) (db : GateDb) : (onLoop call).Safe gateDiscipline session Whatever db :=
  call.issues_true.safe_lift fun _ _ _ _ => trivial

theorem safe_onRecovery (call : RecoveryCall α) (db : GateDb) :
    (onRecovery call).Safe gateDiscipline session Whatever db :=
  call.issues_true.safe_lift fun _ _ _ _ => trivial

theorem safe_then {β : Type} {call : GateCall β} {cont : β → GateCall α}
    (first : call.Safe gateDiscipline session Whatever db)
    (rest : ∀ value reached, (cont value).Safe gateDiscipline session Whatever reached) :
    (call >>= cont).Safe gateDiscipline session Whatever db :=
  first.bind (fun value reached _ => rest value reached) fun _ _ _ => trivial

def Upserted (jobId : JobId) (gateKeys : List String) (base : GateDb) :
    Except String (List String) → GateDb → Prop
  | .ok acquired, db => Keeps dispatch base db ∧ acquired.Sublist gateKeys ∧
      ∀ gateKey ∈ acquired, Held dispatch jobId gateKey db
  | .error _, _ => True

theorem safe_upsertGates (jobId : JobId) (ttlExpiresAt : Timestamp) (gateKeys : List String) (db : GateDb) :
    (upsertGates session jobId ttlExpiresAt gateKeys).Safe gateDiscipline session
      (Upserted session jobId gateKeys db) db := by
  induction gateKeys generalizing db with
  | nil =>
    have nothing : Upserted session jobId [] db (.ok []) db := ⟨fun _ member _ => member, List.Sublist.refl [], by simp⟩
    exact nothing
  | cons gateKey rest ih =>
    intro found relied _ _ _
    refine ⟨rfl, ?_⟩
    let upserted := (upsert session jobId gateKey ttlExpiresAt).effect found
    have kept : Keeps session found upserted := by
      intro holding member _
      simp only [upserted, effect]
      split
      · exact mem_cons_of_mem _ member
      · exact member
    have granted : grants found.gates jobId gateKey = true → Held session jobId gateKey upserted := by
      intro isGranted
      simp only [upserted, effect, isGranted, ↓reduceIte]
      exact mem_cons_self
    refine (ih upserted).bind ?_ fun _ _ _ => trivial
    intro acquired reached result
    obtain ⟨later, within, held⟩ := result
    have since := gate_keeps_trans relied (gate_keeps_trans kept later)
    split
    · next inserted =>
      refine ⟨since, within.cons_cons gateKey, fun key member => ?_⟩
      cases member with
      | head => exact (granted inserted).keeps later
      | tail _ present => exact held key present
    · exact ⟨since, within.cons gateKey, held⟩

def Acquired (jobId : JobId) (gateKeys : List String) :
    Except String AcquireGatesResult → GateDb → Prop
  | .ok result, db => result.success = true → ∀ gateKey ∈ gateKeys, Held dispatch jobId gateKey db
  | .error _, _ => True

theorem safe_acquireGates (jobId : JobId) (gateKeys : List String) (ttlExpiresAt : Timestamp) (db : GateDb) :
    (acquireGates session jobId gateKeys ttlExpiresAt).Safe gateDiscipline session
      (Acquired session jobId gateKeys) db := by
  unfold acquireGates
  split
  · next none_ =>
    have nothing : Acquired session jobId gateKeys
        (.ok { success := true, acquired := [], blockedBy := [] }) db := by
      intro _ gateKey member
      rw [none_] at member
      cases member
    exact nothing
  · intro cleaning _ _ _ _
    refine ⟨trivial, ?_⟩
    intro reading _ _ _ _
    refine ⟨trivial, ?_⟩
    simp only [Call.bind_eq, Call.ret_bind]
    split
    · exact fun succeeded => by cases succeeded
    · refine (safe_upsertGates jobId ttlExpiresAt gateKeys _).bind ?_ fun _ _ _ => trivial
      intro acquired reached result
      obtain ⟨_, within, held⟩ := result
      split
      · next all =>
        intro _ gateKey member
        rw [← within.eq_of_length all] at member
        exact held gateKey member
      · have reads : ∀ later : GateDb, (Call.perform (loop .select)
            (fun db => db.heldByOthers jobId gateKeys) >>= fun blocking =>
              (pure { success := false, acquired := [], blockedBy := blocking } :
                GateCall AcquireGatesResult)).Safe gateDiscipline session
              (Acquired session jobId gateKeys) later := by
          intro later found _ _ _ _
          exact ⟨trivial, fun succeeded => by cases succeeded⟩
        split
        · intro giving _ _ _ _
          exact ⟨rfl, reads _⟩
        · exact reads reached

def Cleared (jobId : JobId) (gateKeys : List String) : Except String GateOutcome → GateDb → Prop
  | .ok .acquired, db => ∀ gateKey ∈ gateKeys, Held dispatch jobId gateKey db
  | _, _ => True

theorem safe_acquireJobGates (job : Job) (attempt : JobAttempt) (requiredGates : List String)
    (ttlExpiresAt : Timestamp) (db : GateDb) :
    (acquireJobGates session job attempt requiredGates ttlExpiresAt).Safe gateDiscipline session
      (Cleared session job.id requiredGates) db := by
  unfold acquireJobGates
  split
  · next none_ =>
    have nothing : Cleared session job.id requiredGates (.ok .acquired) db := by
      intro gateKey member
      rw [none_] at member
      cases member
    exact nothing
  · refine (safe_acquireGates job.id requiredGates ttlExpiresAt db).bind ?_ fun _ _ _ => trivial
    intro gateResult reached acquired
    split
    · next succeeded =>
      intro clearing relied _ _ _
      refine ⟨trivial, fun gateKey member => ?_⟩
      exact (acquired succeeded gateKey member).keeps relied
    · have blocks : ∀ {α : Type} {call : GateCall α} {later : GateDb} {rest : α → GateCall GateOutcome},
          call.Safe gateDiscipline session Whatever later → (∀ value reached, (rest value).Safe gateDiscipline session
            (Cleared session job.id requiredGates) reached) →
          (call >>= rest).Safe gateDiscipline session (Cleared session job.id requiredGates) later :=
        fun first rest => first.bind (fun value reached _ => rest value reached) fun _ _ _ => trivial
      intro updating _ _ _ _
      refine ⟨trivial, ?_⟩
      simp only [Call.bind_eq, Call.ret_bind]
      refine blocks (safe_onLoop _ _) fun _ later => ?_
      intro reading _ _ _ _
      refine ⟨trivial, ?_⟩
      simp only [Call.bind_eq, Call.ret_bind]
      exact blocks (safe_onLoop _ _) fun _ _ => trivial

section

variable (assemble : AssembleReceipt) (toLowerCase : String → String)

theorem safe_releaseJobResources {session : Nat} (job : Job) (requiredGates : List String)
    (outcome : GateOutcome) (db : GateDb) :
    (releaseJobResources job requiredGates outcome).Safe gateDiscipline session Whatever db := by
  unfold releaseJobResources
  refine safe_then ?_ fun _ later => ?_
  · split
    · trivial
    · exact safe_onLoop _ db
  · cases outcome with
    | blocked => trivial
    | acquired => exact safe_onLoop _ later

theorem safe_processGatedJob {session : Nat} (newId : Nat → String) (job : Job)
    (attempt : JobAttempt) (relevant : GateRelevantJob) (ttlExpiresAt : Timestamp)
    (worker : Except String HarnessResult) (db : GateDb) :
    (processGatedJob assemble toLowerCase session newId job attempt relevant ttlExpiresAt
      worker).Safe gateDiscipline session Whatever db := by
  refine (safe_acquireJobGates job attempt (resolveRequiredJobGates relevant) ttlExpiresAt db).bind
    ?_ fun _ _ _ => trivial
  intro outcome reached cleared
  refine safe_then ?_ fun _ later => safe_releaseJobResources job _ outcome later
  cases outcome with
  | blocked => trivial
  | acquired =>
    intro starting relied _ _ _
    refine ⟨⟨rfl, fun gateKey member => (cleared gateKey member).keeps relied⟩, ?_⟩
    intro stopping _ _ _ _
    refine ⟨rfl, ?_⟩
    exact (safe_onLoop _ _).handle (fun _ _ _ => trivial) fun _ _ _ => trivial

theorem safe_gateOperation (session : Nat) (operation : GateOperation) (db : GateDb) :
    (operation.call assemble toLowerCase session).Safe gateDiscipline session Whatever db := by
  cases operation with
  | dispatchJob newId job attempt relevant ttlExpiresAt worker =>
    exact safe_processGatedJob assemble toLowerCase newId job attempt relevant ttlExpiresAt worker db
  | recovery operation => exact safe_onRecovery _ db
  | refreshGatesTTL jobId ttlExpiresAt => exact fun _ _ _ _ _ => ⟨trivial, trivial⟩

/-- Every gate a dispatch has acquired and still needs has its row. -/
def Backed (db : GateDb) : Prop := ∀ holding ∈ db.holdings, HasGate db.gates holding.gateKey holding.jobId

structure NoDispatch (db : GateDb) : Prop where
  holdings : db.holdings = []
  executing : db.executing = []
  distinct : (db.gates.map (·.gateKey)).Nodup

variable {db : GateDb}

theorem holding_cases {stmt : GateStatement} {holding : Holding}
    (member : holding ∈ (stmt.effect db).holdings) :
    (holding ∈ db.holdings ∧ stmt.givesBack holding.dispatch = false) ∨
      HasGate (stmt.effect db).gates holding.gateKey holding.jobId := by
  cases stmt with
  | upsert dispatch jobId gateKey ttlExpiresAt =>
    simp only [effect] at member ⊢
    split
    · next granted =>
      rw [if_pos granted] at member
      cases member with
      | head => exact .inr (upsertGate_grants granted ttlExpiresAt)
      | tail _ present => exact .inl ⟨present, rfl⟩
    · next refused =>
      rw [if_neg refused] at member
      exact .inl ⟨member, rfl⟩
  | giveBack dispatch jobId gateKeys =>
    obtain ⟨present, other⟩ := mem_filter.mp member
    refine .inl ⟨present, ?_⟩
    exact beq_eq_false_iff_ne.mpr (bne_iff_ne.mp other).symm
  | stopExecuting dispatch => exact .inl ⟨(mem_filter.mp member).1, rfl⟩
  | _ => exact .inl ⟨member, rfl⟩

theorem backed_effect {execution : Execution GateStatement GateDb}
    (effect : execution.after = execution.statement.effect execution.before)
    (spares : sparesHeld execution = true) (backed : Backed execution.before) : Backed execution.after := by
  intro holding member
  rw [effect] at member ⊢
  rcases holding_cases member with ⟨present, others⟩ | has
  · obtain ⟨gate, isRow, sameKey, sameJob⟩ := backed holding present
    have kept : execution.statement.deletes execution.before gate = false := by
      have spared := all_eq_true.mp spares gate isRow
      cases deleted : execution.statement.deletes execution.before gate with
      | false => rfl
      | true =>
        rw [deleted, Bool.not_true, Bool.false_or] at spared
        have own := all_eq_true.mp spared holding present
        simp [sameKey, sameJob, others] at own
    have stays := keeps_gate isRow kept
    rw [sameKey, sameJob] at stays
    exact stays
  · exact has

theorem holdsGates_of_backed (registered : Registered db) (backed : Backed db) : HoldsGates db := by
  intro entry member gateKey required
  exact backed _ (registered.acquired entry member gateKey required)

theorem exclusive_of_holds (registered : Registered db) (holds : HoldsGates db) : Exclusive db := by
  intro left first right second different gateKey requiredLeft requiredRight
  obtain ⟨gate, member, named, ofLeft⟩ := holds left first gateKey requiredLeft
  obtain ⟨other, present, same, ofRight⟩ := holds right second gateKey requiredRight
  have equal : gate = other := inj_on_of_nodup_map registered.distinct member present (named.trans same.symm)
  rw [equal, ofRight] at ofLeft
  exact different ofLeft.symm

/-- In every run in which nobody deletes a gate that another dispatch of the job has acquired
and still needs, the jobs on workers hold their gates and exclude each other. -/
theorem gates_exclude {db : GateDb} (idle : NoDispatch db) (schedule : List (Choice GateOperation))
    (spares : ∀ execution ∈ (runGates assemble toLowerCase db schedule).trace, sparesHeld execution = true) :
    (HoldsGates (runGates assemble toLowerCase db schedule).store ∧
      Exclusive (runGates assemble toLowerCase db schedule).store) ∧
    ∀ execution ∈ (runGates assemble toLowerCase db schedule).trace,
      HoldsGates execution.after ∧ Exclusive execution.after := by
  have registered : Registered db := ⟨idle.distinct, fun entry member => by rw [idle.executing] at member; cases member⟩
  have unheld : Backed db := fun holding member => by rw [idle.holdings] at member; cases member
  have executes := System.run_executes (GateOperation.call assemble toLowerCase) db schedule
  have kept := System.run_kept (GateOperation.call assemble toLowerCase) schedule (fun session operation _ =>
    safe_gateOperation assemble toLowerCase session operation db) registered fun _ _ => trivial
  obtain ⟨last, throughout⟩ := System.run_invariant (GateOperation.call assemble toLowerCase) unheld
    schedule fun execution member backed =>
      backed_effect (executes execution member).2 (spares execution member) backed
  constructor
  · have holds := holdsGates_of_backed kept.inv last
    exact ⟨holds, exclusive_of_holds kept.inv holds⟩
  · intro execution member
    have after := kept.after member
    have holds := holdsGates_of_backed after (throughout execution member).2
    exact ⟨holds, exclusive_of_holds after holds⟩

end

def gatedColumns : GateRelevantJob := { projectId := "proj", gates := ["env"] }

def stagedLead : Job :=
  { id := "lead", projectId := "proj", phase := .active, hints := { staged := true } }

def otherJob : Job := { id := "other", projectId := "proj", phase := .active }

def leadAttempt : JobAttempt := { id := 0, jobId := "lead", attemptNumber := 1, status := .running }

def otherAttempt : JobAttempt :=
  { id := 1, jobId := "other", attemptNumber := 1, status := .running }

def twoGatedJobs : GateDb where
  loop := { jobs := {
    jobs := [stagedLead, otherJob], attempts := [leadAttempt, otherAttempt], nextAttempt := 2 } }

theorem twoGatedJobs_idle : NoDispatch twoGatedJobs := ⟨rfl, rfl, by decide⟩

def blockedDispatch : List (Choice GateOperation) :=
  .start (.dispatchJob (fun _ => "bt_1") otherJob otherAttempt gatedColumns 1800000
      (.ok { success := true, exitCode := 0 })) :: List.replicate 5 (.advance 0) ++
    .start (.dispatchJob (fun _ => "bt_2") stagedLead leadAttempt gatedColumns 1800000
      (.ok { success := true, exitCode := 0 })) :: List.replicate 12 (.advance 1)

theorem blocked_dispatch_waits :
    (runGates unpriced id twoGatedJobs blockedDispatch).store.executing = [⟨0, "other", gatedColumns⟩] ∧
    HoldsGates (runGates unpriced id twoGatedJobs blockedDispatch).store ∧
    Exclusive (runGates unpriced id twoGatedJobs blockedDispatch).store :=
  ⟨by decide +kernel,
    (gates_exclude unpriced id twoGatedJobs_idle blockedDispatch (by decide +kernel)).1⟩

/-- The lead's dispatch has handed the job out again and not yet come to its `finally`
block. The job is claimed and dispatched again; then the old dispatch releases its gates, and
the other job's dispatch acquires them. -/
def overlappingDispatches : List (Choice GateOperation) :=
  .start (.dispatchJob (fun _ => "bt_1") stagedLead leadAttempt gatedColumns 1800000
      (.ok { success := true, exitCode := 0, control := some .prepared })) ::
    List.replicate 13 (.advance 0) ++
  .start (.recovery (.jobQuery (.claim "lead" "orchestrator" none))) ::
    List.replicate 8 (.advance 1) ++
  .start (.dispatchJob (fun _ => "bt_2") stagedLead { leadAttempt with id := 2, attemptNumber := 2 }
      gatedColumns 1800000 (.ok { success := true, exitCode := 0 })) ::
    List.replicate 5 (.advance 1) ++
  .advance 0 ::
  .start (.dispatchJob (fun _ => "bt_3") otherJob otherAttempt gatedColumns 1800000
      (.ok { success := true, exitCode := 0 })) :: List.replicate 5 (.advance 2)

theorem overlapping_dispatches_share_gate : ¬ ∀ (db : GateDb) (schedule : List (Choice GateOperation)), NoDispatch db →
      HoldsGates (runGates unpriced id db schedule).store ∧ Exclusive (runGates unpriced id db schedule).store := by
  intro excludes
  have shared : ∃ left ∈ (runGates unpriced id twoGatedJobs overlappingDispatches).store.executing,
      ∃ right ∈ (runGates unpriced id twoGatedJobs overlappingDispatches).store.executing, left.jobId ≠ right.jobId ∧
          ∃ gateKey ∈ left.requiredGates, gateKey ∈ right.requiredGates := by decide +kernel
  obtain ⟨left, first, right, second, different, gateKey, ofLeft, ofRight⟩ := shared
  obtain ⟨_, exclusive⟩ := excludes twoGatedJobs overlappingDispatches twoGatedJobs_idle
  exact exclusive left first right second different gateKey ofLeft ofRight

end EveHorizon.Loop
