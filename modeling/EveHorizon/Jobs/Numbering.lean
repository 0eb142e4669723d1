import EveHorizon.Jobs.Inventory
import EveHorizon.Library.Recollection

/-!
# Attempt numbers

A claim numbers an attempt by the count of the job's attempts, and a rejected review by the
greatest of their numbers, both read in an earlier statement.
-/

namespace EveHorizon.Jobs

open Interleaving List Call

def JobAttempt.key (row : JobAttempt) : AttemptId × JobId × Nat := (row.id, row.jobId, row.attemptNumber)

def JobsDb.attemptKeys (db : JobsDb) : List (AttemptId × JobId × Nat) := db.attempts.map JobAttempt.key

theorem attemptUpdate_changes_key (now : Timestamp) (update : AttemptUpdate) (row : JobAttempt) :
    (update.changes now row).key = row.key := by
  cases update <;> rfl

theorem updateWhere_keys {selected : JobAttempt → Bool} {change : JobAttempt → JobAttempt}
    (same : ∀ row, (change row).key = row.key) (rows : List JobAttempt) :
    (Table.updateWhere selected change rows).map JobAttempt.key = rows.map JobAttempt.key := by
  rw [Table.updateWhere, map_map]
  apply map_congr_left
  intro row _
  cases chosen : selected row with
  | true => simp [chosen, same]
  | false => simp [chosen]

theorem attemptKeys_effect (stmt : JobStatement) (db : JobsDb) :
    (stmt.effect db).attemptKeys = db.attemptKeys ∨ ∃ new, stmt = .insertAttempt new ∧ db.refusal new = none ∧
        (stmt.effect db).attemptKeys = db.attemptKeys ++ [(db.nextAttempt, new.jobId, new.attemptNumber)] := by
  cases stmt with
  | updateAttempts update =>
    exact .inl (updateWhere_keys (attemptUpdate_changes_key db.now update) db.attempts)
  | insertAttempt new =>
    cases refused : db.refusal new with
    | some error => exact .inl (by simp [JobStatement.effect, refused])
    | none =>
      refine .inr ⟨new, rfl, refused, ?_⟩
      simp [JobStatement.effect, refused, JobsDb.attemptKeys, JobAttempt.key, NewAttempt.row]
  | _ => exact .inl rfl

theorem attemptKeys_grow (stmt : JobStatement) (db : JobsDb) :
    db.attemptKeys <+: (stmt.effect db).attemptKeys := by
  rcases attemptKeys_effect stmt db with same | ⟨new, _, _, added⟩
  · rw [same]
  · rw [added]
    exact prefix_append _ _

theorem attemptCount_eq (db : JobsDb) (jobId : JobId) :
    db.attemptCount jobId = db.attemptKeys.countP fun key => key.2.1 == jobId := by
  rw [JobsDb.attemptCount, JobsDb.attemptKeys, countP_map, countP_eq_length_filter]
  rfl

variable {before after : JobsDb}

theorem attemptCount_mono (grown : before.attemptKeys <+: after.attemptKeys) (jobId : JobId) :
    before.attemptCount jobId ≤ after.attemptCount jobId := by
  rw [attemptCount_eq, attemptCount_eq]
  exact grown.sublist.countP_le

structure Counted (db : JobsDb) : Prop where
  unique : (db.attemptKeys.map Prod.snd).Nodup
  positive : ∀ key ∈ db.attemptKeys, 0 < key.2.2
  counted : ∀ key ∈ db.attemptKeys, key.2.2 ≤ db.attemptCount key.2.1

theorem Counted.of_keys (counted : Counted before) (same : after.attemptKeys = before.attemptKeys) : Counted after where
  unique := same ▸ counted.unique
  positive := same ▸ counted.positive
  counted := by
    intro key member
    rw [same] at member
    rw [attemptCount_eq, same, ← attemptCount_eq]
    exact counted.counted key member

theorem foldl_max_le {numbers : List Nat} {start bound : Nat} (first : start ≤ bound)
    (within : ∀ number ∈ numbers, number ≤ bound) : numbers.foldl max start ≤ bound := by
  induction numbers generalizing start with
  | nil => exact first
  | cons number rest ih =>
    have below := within number mem_cons_self
    exact ih (Nat.max_le.mpr ⟨first, below⟩) fun other member =>
      within other (mem_cons_of_mem _ member)

variable {db : JobsDb}

theorem Counted.nextAttemptNumber_le (counted : Counted db) (jobId : JobId) :
    db.nextAttemptNumber jobId ≤ db.attemptCount jobId + 1 := by
  refine Nat.succ_le_succ (foldl_max_le (Nat.zero_le _) fun number member => ?_)
  obtain ⟨row, selected, rfl⟩ := mem_map.mp member
  obtain ⟨present, ofJob⟩ := mem_filter.mp selected
  have within := counted.counted row.key (mem_map_of_mem present)
  rw [beq_iff_eq] at ofJob
  exact ofJob ▸ within

variable {new : NewAttempt}

theorem not_taken_of_inserted (inserted : db.refusal new = none) :
    ∀ row ∈ db.attempts, ¬ (row.jobId = new.jobId ∧ row.attemptNumber = new.attemptNumber) := by
  intro row member same
  have taken : (db.attempts.any fun row =>
      row.jobId == new.jobId && row.attemptNumber == new.attemptNumber) = true :=
    any_eq_true.mpr ⟨row, member, by simp [same.1, same.2]⟩
  simp [JobsDb.refusal, taken] at inserted

theorem Counted.insert (counted : Counted before) {attemptId : AttemptId} (inserted : before.refusal new = none)
    (positive : 0 < new.attemptNumber) (within : new.attemptNumber ≤ before.attemptCount new.jobId + 1)
    (added : after.attemptKeys = before.attemptKeys ++ [(attemptId, new.jobId, new.attemptNumber)]) :
    Counted after := by
  have count : ∀ jobId, after.attemptCount jobId = before.attemptCount jobId + if new.jobId == jobId then 1 else 0 := by
    intro jobId
    rw [attemptCount_eq, attemptCount_eq, added, countP_append, countP_singleton]
  constructor
  · rw [added, map_append, nodup_append]
    refine ⟨counted.unique, by simp, ?_⟩
    intro older isOlder newer isNewer same
    obtain ⟨key, isKey, rfl⟩ := mem_map.mp isOlder
    obtain ⟨row, present, rfl⟩ := mem_map.mp isKey
    rw [map_singleton, mem_singleton] at isNewer
    rw [isNewer] at same
    exact not_taken_of_inserted inserted row present (Prod.mk.inj same)
  · intro key member
    rw [added] at member
    rcases mem_append.mp member with old | isNew
    · exact counted.positive key old
    · rw [mem_singleton.mp isNew]
      exact positive
  · intro key member
    rw [added] at member
    rw [count]
    rcases mem_append.mp member with old | isNew
    · exact Nat.le_add_right_of_le (counted.counted key old)
    · rw [mem_singleton.mp isNew]
      simpa using within

def JobStatement.numbers (found : JobsDb) : JobStatement → Prop
  | .insertAttempt new =>
    new.attemptNumber = found.attemptCount new.jobId + 1 ∨ new.attemptNumber = found.nextAttemptNumber new.jobId
  | _ => True

theorem Counted.effect {found : JobsDb} (counted : Counted before) (earlier : Counted found)
    (grown : found.attemptKeys <+: before.attemptKeys) {stmt : JobStatement} (numbered : stmt.numbers found) :
    Counted (stmt.effect before) := by
  rcases attemptKeys_effect stmt before with same | ⟨new, rfl, inserted, added⟩
  · exact counted.of_keys same
  · have count := attemptCount_mono grown new.jobId
    rcases numbered with isCount | isNext
    · exact counted.insert inserted (by omega) (by omega) added
    · have next := earlier.nextAttemptNumber_le new.jobId
      have positive : 0 < found.nextAttemptNumber new.jobId := Nat.succ_pos _
      exact counted.insert inserted (by omega) (by omega) added

/-- What a call keeps in mind is the store that its last statement has found. -/
abbrev JobCall.Numbers {α : Type} (call : JobCall α) : Prop :=
  ∀ last, call.Heeds (fun _ _ found => found) (fun found stmt => stmt.numbers found)
    (fun _ _ => True) last

variable {α : Type}

theorem JobCall.Numbers.bind {β : Type} {call : JobCall β} {cont : β → JobCall α} (first : call.Numbers)
    (rest : ∀ value, (cont value).Numbers) : (call >>= cont).Numbers :=
  fun last => (first last).bind (fun value reached _ => rest value reached) fun _ _ _ => trivial

def JobStatement.inserts : JobStatement → Prop
  | .insertAttempt _ => True
  | _ => False

theorem numbers_of_not_inserts {stmt : JobStatement} (others : ¬ stmt.inserts)
    (found : JobsDb) : stmt.numbers found := by
  cases stmt with
  | insertAttempt new => exact absurd trivial others
  | _ => trivial

variable {call : JobCall α}

theorem numbers_of_issues (issues : call.Issues fun stmt => ¬ stmt.inserts) : call.Numbers :=
  fun _ => issues.heeds trivial (fun _ found others _ => numbers_of_not_inserts others found)
    fun _ _ _ _ _ => trivial

theorem JobCall.Writes.inserts_nothing {writes : Jobs.Writes} (issues : call.Writes writes)
    (others : ∀ jobId, ¬ writes.inserts jobId) : call.Issues fun stmt => ¬ stmt.inserts := by
  refine Issues.imp issues fun stmt allowed => ?_
  cases stmt with
  | insertAttempt new => exact absurd allowed (others new.jobId)
  | _ => exact id

theorem claimPending_numbers (currentJob : Job) (jobId : JobId) (agentId : String)
    (harness : Option String) (pendingAttempt : JobAttempt) :
    (claimPending currentJob jobId agentId harness pendingAttempt).Numbers := by
  refine numbers_of_issues (Issues.bind (issues_perform id) fun started => ?_)
  cases started with
  | none => trivial
  | some attempt => exact ⟨id, fun _ => ⟨id, fun _ => ⟨id, fun _ => trivial⟩⟩⟩

theorem claimReady_numbers (currentJob : Job) (jobId : JobId) (agentId : String)
    (harness : Option String) : (claimReady currentJob jobId agentId harness).Numbers := by
  intro last
  refine ⟨trivial, fun found => ⟨.inl rfl, fun store => ?_⟩⟩
  beta_reduce
  split
  · trivial
  · exact ⟨trivial, fun _ => ⟨trivial, fun _ => ⟨trivial, fun _ => trivial⟩⟩⟩

theorem claim_numbers (jobId : JobId) (agentId : String) (harness : Option String) :
    (claim jobId agentId harness).Numbers := by
  refine JobCall.Numbers.bind (numbers_of_issues (issues_perform id)) fun found => ?_
  cases found with
  | none => exact fun _ => trivial
  | some currentJob =>
    simp only
    split
    · exact fun _ => trivial
    · refine JobCall.Numbers.bind (numbers_of_issues (issues_perform id)) fun pending => ?_
      cases pending with
      | some pendingAttempt => exact claimPending_numbers _ _ _ _ _
      | none =>
        simp only
        split
        · exact fun _ => trivial
        · exact claimReady_numbers _ _ _ _

theorem claimNextJob_numbers (projectId : Option String) (agentId : String)
    (harness : Option String) : (claimNextJob projectId agentId harness).Numbers := by
  refine JobCall.Numbers.bind (numbers_of_issues (issues_perform id)) fun jobs => ?_
  cases jobs with
  | nil => exact fun _ => trivial
  | cons job rest =>
    refine JobCall.Numbers.bind (claim_numbers _ _ _) fun result => ?_
    split
    · refine JobCall.Numbers.bind (numbers_of_issues (issues_perform id)) fun updated => ?_
      cases updated with
      | none | some updatedJob => exact fun _ => trivial
    · exact fun _ => trivial

theorem rejectReview_numbers (jobId : JobId) (reviewerId reason : String) :
    (rejectReview jobId reviewerId reason).Numbers := by
  refine JobCall.Numbers.bind (numbers_of_issues (issues_perform id)) fun found => ?_
  cases found with
  | none => exact fun _ => trivial
  | some currentJob =>
    simp only
    split
    · exact fun _ => trivial
    · intro last
      refine ⟨trivial, fun _ => ⟨trivial, fun _ => ⟨.inr rfl, fun store => ?_⟩⟩⟩
      beta_reduce
      split
      · trivial
      · exact ⟨trivial, fun _ => trivial⟩

theorem JobOperation.call_numbers (operation : JobOperation) : operation.call.Numbers := by
  have answered : ∀ {α : Type} {call : JobCall α} (reply : α → JobReply), call.Numbers →
      (call >>= fun result => pure (reply result)).Numbers := by
    intro α call reply numbers
    exact JobCall.Numbers.bind numbers fun _ _ => trivial
  cases operation with
  | claim jobId agentId harness => exact answered _ (claim_numbers _ _ _)
  | claimNextJob projectId agentId harness => exact answered _ (claimNextJob_numbers _ _ _)
  | rejectReview jobId reviewerId reason => exact answered _ (rejectReview_numbers _ _ _)
  | _ =>
    refine numbers_of_issues (JobCall.Writes.inserts_nothing (JobOperation.call_writes _) ?_)
    exact fun _ => id

end EveHorizon.Jobs
