import EveHorizon.OrgDocuments.Edits

/-!
# Updates that are lost

A call works from the document that its first statement reads, and settles the number of its
version later.
-/

namespace EveHorizon.OrgDocuments

open Interleaving ReadCommitted List

abbrev NoRead (stmt : DocumentStatement) : Prop := stmt.action ≠ .query .findByOrgAndPath

def ReadsFirst (steps : List (DocumentStatement × DocumentDb)) (stmt : DocumentStatement) : Prop :=
  stmt.action = .query .findByOrgAndPath → steps = []

/-- What an edit issues within its transaction. -/
abbrev Edits (client : Nat) (stmt : DocumentStatement) : Prop := Inside client stmt ∧ NoRead stmt

section

variable {client : Nat} {α : Type} {version : OrgDocumentVersion}

theorem createVersion_issues : (createVersion client version).Issues (Edits client) :=
  (write_issues ⟨⟨rfl, trivial⟩, by rintro ⟨⟩⟩).bind fun _ => trivial

variable {data : UpdateOrgDocumentData}

theorem updateDocument_issues : (updateDocument client data).Issues (Edits client) :=
  Call.issues_perform ⟨⟨rfl, trivial⟩, by rintro ⟨⟩⟩

variable {actorId : Option Text} {mutationId type : Text}

theorem announce_issues {document : OrgDocument} :
    (announce client type document version actorId mutationId).Issues (Edits client) := by
  have creates : ∀ event : DocumentEvent, (createEvent client event).Issues (Edits client) := by
    intro event
    refine (query_issues ⟨⟨rfl, trivial⟩, by rintro ⟨⟩⟩).bind fun existing => ?_
    cases existing with
    | some other => trivial
    | none => exact write_issues ⟨⟨rfl, trivial⟩, by rintro ⟨⟩⟩
  rw [announce]
  split
  · exact creates _
  · refine (query_issues ⟨⟨rfl, trivial⟩, by rintro ⟨⟩⟩).bind fun projectId => ?_
    cases projectId with
    | none => trivial
    | some own => exact creates _

variable {existing : OrgDocument}

theorem nextVersion_issues : (nextVersion client existing).Issues (Edits client) := by
  refine (query_issues ⟨⟨rfl, trivial⟩, by rintro ⟨⟩⟩).bind fun latest => ?_
  cases latest with
  | some version => trivial
  | none => exact createVersion_issues.bind fun _ => trivial

theorem edit_issues {make : Nat → OrgDocument → OrgDocumentVersion} {path : Text} :
    (do
      let count ← nextVersion client existing
      match ← updateDocument client data with
      | none => .raise (notFound path)
      | some next =>
        let version ← createVersion client (make count next)
        announce client type next version actorId mutationId
        return detail next version : DocumentCall OrgDocumentDetail).Issues (Edits client) := by
  refine nextVersion_issues.bind fun count => updateDocument_issues.bind fun next => ?_
  cases next with
  | none => trivial
  | some next =>
    exact createVersion_issues.bind fun version => announce_issues.bind fun _ => trivial

theorem read_recalls {rest : Option OrgDocument → DocumentCall α} (issues : ∀ existing, (rest existing).Issues NoRead) :
    (findByOrgAndPath client >>= rest).Recalls ReadsFirst (fun _ _ => True) [] := by
  refine Call.recalls_perform_bind (fun _ => rfl) fun found => ?_
  exact (issues _).recalls fun stmt other steps same => absurd same other

/-- A call that fails at once, or does all it does in one transaction. -/
def Enclosed (client : Nat) (call : DocumentCall OrgDocumentDetail) : Prop :=
  (∃ error, call = .raise error) ∨ ∃ body, call = transaction client body ∧ body.Issues (Edits client)

theorem Enclosed.unread {call : DocumentCall OrgDocumentDetail} (enclosed : Enclosed client call) :
    call.Issues NoRead := by
  rcases enclosed with ⟨error, rfl⟩ | ⟨body, rfl, issues⟩
  · trivial
  · exact transaction_issues (by rintro ⟨⟩) (by rintro ⟨⟩) (by rintro ⟨⟩) (issues.imp fun _ edits => edits.2)

def DocumentOperation.edits : DocumentOperation → Bool
  | .reviewDocument .. => false
  | .create .. | .update .. | .patch .. => true

variable (operation : DocumentOperation)

theorem call_enclosed (path : Text) (client : Nat) (edits : operation.edits = true) :
    (∃ error, operation.call path client = .raise error) ∨
      ∃ rest, operation.call path client = findByOrgAndPath client >>= rest ∧
        ∀ existing, Enclosed client (rest existing) := by
  cases operation with
  | create mutationId data createdBy =>
    rw [DocumentOperation.call, create]
    split
    · exact .inl ⟨_, rfl⟩
    · refine .inr ⟨_, rfl, fun existing => ?_⟩
      cases existing with
      | some document => exact .inl ⟨_, rfl⟩
      | none =>
        refine .inr ⟨_, rfl, Call.Issues.bind ?_ fun created => ?_⟩
        · exact (write_issues ⟨⟨rfl, trivial⟩, by rintro ⟨⟩⟩).bind fun _ => trivial
        · exact createVersion_issues.bind fun version => announce_issues.bind fun _ => trivial
  | update mutationId data actorId =>
    rw [DocumentOperation.call, update]
    split
    · exact .inl ⟨_, rfl⟩
    · refine .inr ⟨_, rfl, fun existing => ?_⟩
      cases existing with
      | none => exact .inl ⟨_, rfl⟩
      | some document => exact .inr ⟨_, rfl, edit_issues⟩
  | patch mutationId operations actorId =>
    refine .inr ⟨_, rfl, fun existing => ?_⟩
    cases existing with
    | none => exact .inl ⟨_, rfl⟩
    | some document =>
      dsimp only
      cases applyOperations operations document.content with
      | error error => exact .inl ⟨_, rfl⟩
      | ok content =>
        dsimp only
        split
        · exact .inl ⟨_, rfl⟩
        · exact .inr ⟨_, rfl, edit_issues⟩
  | reviewDocument mutationId nextReviewAt actorId => cases edits

/-- A create, an update or a patch that fails leaves what is committed as it was. -/
theorem failed_edit_undone (operation : DocumentOperation) (path : Text) (client : Nat) (db : DocumentDb)
    (edits : operation.edits = true) (closed : db.pending client = none) :
    UndoneOnError (operation.call path client) db := by
  rcases call_enclosed operation path client edits with ⟨error, same⟩ | ⟨rest, same, enclosed⟩
  · rw [same]
    exact fun _ _ => rfl
  · rw [same, UndoneOnError, Call.Ends, findByOrgAndPath, query, Call.alone_perform_bind]
    rcases enclosed (Documents.document (db.view client)) with ⟨error, raises⟩ | ⟨body, within, issues⟩
    · rw [raises]
      exact fun _ _ => rfl
    · rw [within]
      exact transaction_undone (issues.imp fun _ edits => edits.1) closed

theorem call_recalls (path : Text) (client : Nat) :
    (operation.call path client).Recalls ReadsFirst (fun _ _ => True) [] := by
  by_cases edits : operation.edits = true
  · rcases call_enclosed operation path client edits with ⟨error, same⟩ | ⟨rest, same, enclosed⟩
    · rw [same]
      trivial
    · rw [same]
      exact read_recalls fun existing => (enclosed existing).unread
  · cases operation with
    | reviewDocument mutationId nextReviewAt actorId =>
      refine read_recalls fun existing => Call.Issues.imp ?_ fun _ (edits : Edits client _) => edits.2
      cases existing with
      | none => trivial
      | some document =>
        refine updateDocument_issues.bind fun updated => ?_
        cases updated with
        | none => trivial
        | some updated =>
          refine (query_issues ⟨⟨rfl, trivial⟩, by rintro ⟨⟩⟩).bind fun latest => ?_
          exact createVersion_issues.bind fun version => trivial
    | _ => exact absurd rfl edits

end

abbrev DocumentTrace := List (Execution DocumentStatement DocumentDb)

abbrev DocumentSystem := System DocumentStatement DocumentDb DocumentError OrgDocumentDetail

def basisOf (trace : DocumentTrace) (session : Nat) : Option Documents :=
  (trace.find? (·.session == session)).map (·.before.committed)

/-- Every statement finds the document as its call has read it, where it matters. -/
def Undisturbed (operations : List DocumentOperation) (trace : DocumentTrace) : Prop :=
  ∀ last ∈ trace, ∀ operation, operations[last.session]? = some operation →
    ∀ read, basisOf trace last.session = some read → Steady operation last.statement.action read last.before.committed

def Newest (state : Documents) : Prop :=
  ∀ newest, state.latestVersion = some newest →
    state.content = some newest.content ∧ state.metadata = some newest.metadata

/-- Versions are numbered without gaps and the newest one is the document when no call is in
progress, and each call has made its version of the one before. -/
structure LosesNoUpdate (operations : List DocumentOperation) (system : DocumentSystem) : Prop where
  settled : system.running = [] → Numbered system.store.committed.versions ∧ Newest system.store.committed
  based : ∀ ending ∈ system.ended, ∀ made, ending.result = .ok made →
    ∀ operation, operations[ending.session]? = some operation →
      ∃ front version rest, system.store.committed.versions = front ++ version :: rest ∧
        version.version = made.currentVersion ∧ version.content = made.document.content ∧
          ∀ last, front.getLast? = some last → operation.based last version

variable {path : Text} {state : Documents} {schedule : List (Choice DocumentOperation)}

theorem run_promised (undisturbed : Undisturbed (operations schedule) (runDocuments path state schedule).trace) :
    ∀ execution ∈ (runDocuments path state schedule).trace,
      ∀ operation, (operations schedule)[execution.session]? = some operation →
        Promised operation (basisOf (runDocuments path state schedule).trace execution.session)
          execution.statement execution.before := by
  intro execution member operation named
  refine ⟨fun reads => ?_, fun read isBasis => undisturbed execution member operation named read isBasis⟩
  obtain ⟨earlier, later, split⟩ := append_of_mem member
  have first := (System.run_recalls (DocumentOperation.call path)
    (fun session operation => call_recalls operation path session) { committed := state }
      schedule).1 earlier execution later split reads
  rw [basisOf, split, find?_append, find?_cons_of_pos (by exact BEq.rfl)]
  rw [stepsIn, map_eq_nil_iff, filter_eq_nil_iff] at first
  rw [find?_eq_none.mpr first]
  rfl

theorem start_sound (numbered : Numbered state.versions) (faithful : state.Faithful) :
    Sound { committed := state } where
  numbered _ := numbered
  committed := numbered
  faithful := faithful
  apart _ _ _ _ _ opened := nomatch opened

theorem created_based {operation : DocumentOperation} {made : OrgDocumentDetail} {session : Nat}
    {reached final : DocumentDb} (created : Created operation.based (.ok made) reached)
    (relied : Rely session reached final) : ∃ front version rest, final.committed.versions = front ++ version :: rest ∧
      version.version = made.currentVersion ∧ version.content = made.document.content ∧
        ∀ last, front.getLast? = some last → operation.based last version := by
  obtain ⟨front, version, isPrefix, number, content, isBased⟩ := created
  obtain ⟨rest, whole⟩ := isPrefix.trans relied.grows
  exact ⟨front, version, rest, by rw [← whole, append_assoc]; rfl, number, content, isBased⟩

abbrev ending (_session : Nat) (operation : DocumentOperation) :
    Except DocumentError OrgDocumentDetail → DocumentDb → Prop :=
  Created operation.based

theorem run_created (numbered : Numbered state.versions) (faithful : state.Faithful)
    (undisturbed : Undisturbed (operations schedule) (runDocuments path state schedule).trace) :
    ∃ promised, System.Kept documentDiscipline promised ending (DocumentOperation.call path)
      (operations schedule) (runDocuments path state schedule).trace (runDocuments path state schedule).store := by
  refine ⟨fun session stmt db => ∀ operation, (operations schedule)[session]? = some operation →
    Promised operation (basisOf (runDocuments path state schedule).trace session) stmt db, ?_⟩
  refine System.run_kept _ _ ?_ (start_sound numbered faithful) (run_promised undisturbed)
  intro session operation named
  have safe : SafeCall operation (basisOf (runDocuments path state schedule).trace session) session
      (Created operation.based) (operation.call path session) { committed := state } :=
    call_safe operation rfl
  exact safe.promise fun stmt found promised => promised operation named

/-- In a run whose calls find the document as they have read it, no update is lost. -/
theorem losesNoUpdate_of_undisturbed (path : Text) (state : Documents)
    (schedule : List (Choice DocumentOperation)) (numbered : Numbered state.versions) (faithful : state.Faithful)
    (undisturbed : Undisturbed (operations schedule) (runDocuments path state schedule).trace) :
    LosesNoUpdate (operations schedule) (runDocuments path state schedule) := by
  obtain ⟨promised, kept⟩ := run_created numbered faithful undisturbed
  constructor
  · intro _
    refine ⟨kept.inv.committed, fun newest isNewest => ?_⟩
    rw [Documents.latestVersion, latest_of_numbered kept.inv.committed] at isNewest
    exact kept.inv.faithful newest isNewest
  · intro finished ended made isMade operation named
    obtain ⟨own, isOwn, reached, created, relied⟩ := System.Kept.ended kept ended
    rw [named] at isOwn
    cases isOwn
    rw [isMade] at created
    exact created_based created relied

def readme : Text := "/readme".toList

def note : OrgDocument where
  projectId := none
  mimeType := "text/markdown".toList
  content := "a".toList
  createdBy := none
  metadata := .object []
  reviewDue := none
  expiresAt := none
  lifecycleStatus := .active

def noted : Documents where
  document := some note
  versions :=
    [{ version := 1, content := note.content, metadata := note.metadata, createdBy := none
       mutationId := none }]

def append (mutationId content : String) : DocumentOperation :=
  .patch mutationId.toList [.append content.toList] none

def finish (position : Nat) : List (Choice DocumentOperation) := List.replicate 9 (.advance position)

def oneByOne : List (Choice DocumentOperation) :=
  .start (append "m1" "b") :: finish 0 ++ .start (append "m2" "c") :: finish 0

def overtaken : List (Choice DocumentOperation) :=
  [.start (append "m1" "b"), .start (append "m2" "c"), .advance 0] ++ finish 1 ++ finish 0

theorem failed_edit_undone_taken :
    UndoneOnError ((DocumentOperation.create [] { content := [] } none).call readme 0)
      { committed := { versions := noted.versions } } :=
  failed_edit_undone _ _ _ _ rfl rfl

theorem noted_numbered : Numbered noted.versions := rfl

theorem noted_faithful : noted.Faithful := by
  intro newest isNewest
  cases isNewest
  exact ⟨rfl, rfl⟩

def isNumbering : Action DocumentQuery DocumentWrite → Bool
  | .query .getLatestVersionInfo => true
  | _ => false

theorem undisturbed_of_patches {calls : List DocumentOperation} {trace : DocumentTrace}
    (patches : ∀ operation ∈ calls, ∃ mutationId operations actorId, operation = .patch mutationId operations actorId)
    (steady : ∀ last ∈ trace, ∀ read ∈ basisOf trace last.session,
      isNumbering last.statement.action = true → last.before.committed.content = read.content) :
    Undisturbed calls trace := by
  intro last member operation named read isBasis
  obtain ⟨mutationId, operations, actorId, rfl⟩ := patches operation (mem_of_getElem? named)
  have same := steady last member read isBasis
  cases action : last.statement.action with
  | query label =>
    rw [action] at same
    cases label with
    | getLatestVersionInfo => exact same rfl
    | _ => trivial
  | _ => trivial

/-- Two patches one after the other lose nothing. -/
theorem one_by_one_keeps :
    (runDocuments readme noted oneByOne).running = [] ∧ (runDocuments readme noted oneByOne).ended.length = 2 ∧
        LosesNoUpdate (operations oneByOne) (runDocuments readme noted oneByOne) := by
  refine ⟨length_eq_zero_iff.mp (by decide +kernel), by decide +kernel,
    losesNoUpdate_of_undisturbed readme noted oneByOne noted_numbered noted_faithful ?_⟩
  apply undisturbed_of_patches
  · intro operation member
    have isPatch : operation = append "m1" "b" ∨ operation = append "m2" "c" := by
      simpa [oneByOne, finish, operations] using member
    rcases isPatch with rfl | rfl
    · exact ⟨_, _, _, rfl⟩
    · exact ⟨_, _, _, rfl⟩
  · decide +kernel

def shown (version : OrgDocumentVersion) : Nat × Text := (version.version, version.content)

def endsWith (number : Nat) (ending : Ending DocumentDb DocumentError OrgDocumentDetail) : Bool :=
  match ending.result with
  | .ok made => ending.session == 0 && made.currentVersion == number
  | .error _ => false

/-- The patch that is overtaken discards the edit of the other one. -/
theorem overtaken_patch_discards : ¬ ∀ (path : Text) (state : Documents) (schedule : List (Choice DocumentOperation)),
      Numbered state.versions → state.Faithful →
        LosesNoUpdate (operations schedule) (runDocuments path state schedule) := by
  intro holds
  have kept := (holds readme noted overtaken noted_numbered noted_faithful).based
  have versions : (runDocuments readme noted overtaken).store.committed.versions.map shown =
      [(1, "a".toList), (2, "ac".toList), (3, "ab".toList)] := by decide +kernel
  have third : (runDocuments readme noted overtaken).ended.any (endsWith 3) = true := by decide +kernel
  obtain ⟨ending, ended, isEnding⟩ := any_eq_true.mp third
  rw [endsWith] at isEnding
  cases result : ending.result with
  | error error =>
    rw [result] at isEnding
    cases isEnding
  | ok made =>
    rw [result] at isEnding
    obtain ⟨isFirst, isThird⟩ := Bool.and_eq_true_iff.mp isEnding
    have named : (operations overtaken)[ending.session]? = some (append "m1" "b") := by
      rw [beq_iff_eq.mp isFirst]
      rfl
    obtain ⟨front, version, rest, split, number, _, isBased⟩ := kept ending ended made result _ named
    have mapped := congrArg (List.map shown) split
    rw [versions, map_append, map_cons] at mapped
    rw [beq_iff_eq.mp isThird] at number
    rcases front with _ | ⟨first, _ | ⟨second, _ | ⟨third, more⟩⟩⟩
    · simp [shown, number] at mapped
    · simp [shown, number] at mapped
    · have patched := isBased second rfl
      simp [shown] at mapped
      obtain ⟨_, ⟨_, isSecond⟩, ⟨_, isVersion⟩, _⟩ := mapped
      change Except.ok (second.content ++ "b".toList) = Except.ok version.content at patched
      rw [← isSecond, ← isVersion] at patched
      revert patched
      decide
    · simp at mapped

end EveHorizon.OrgDocuments
