import EveHorizon.OrgDocuments.Versions

/-!
# Edits of the newest version

What each call leaves behind when the document it works from is still the one it has read: its
version follows the one that it is an edit of.
-/

namespace EveHorizon.OrgDocuments

open Interleaving ReadCommitted List Statement
open Database (pending_push_self view_closed view_open write_open)

/-- The document is as the call has read it, where it matters: for a patch and a review when the
number of the version is settled, for a review and an update that keeps the metadata when the
document is updated. -/
def Steady : DocumentOperation → Action DocumentQuery DocumentWrite → Documents → Documents → Prop
  | .patch _ _ _, .query .getLatestVersionInfo, read, now => now.content = read.content
  | .reviewDocument _ _ _, .query .getLatestVersionInfo, read, now
  | .reviewDocument _ _ _, .write (.updateDocument _), read, now =>
    now.content = read.content ∧ now.metadata = read.metadata
  | .update _ data _, .write (.updateDocument _), read, now =>
    data.metadata.isNone = true → now.metadata = read.metadata
  | _, _, _, _ => True

/-- The store that the call's first statement finds, and what it reads there. -/
structure Promised (operation : DocumentOperation) (basis : Option Documents)
    (stmt : DocumentStatement) (db : DocumentDb) : Prop where
  reads : stmt.action = .query .findByOrgAndPath → basis = some db.committed
  steady : ∀ read, basis = some read → Steady operation stmt.action read db.committed

def Created (based : OrgDocumentVersion → OrgDocumentVersion → Prop) :
    Except DocumentError OrgDocumentDetail → DocumentDb → Prop
  | .ok detail, db => ∃ front version, front ++ [version] <+: db.committed.versions ∧
      version.version = detail.currentVersion ∧ version.content = detail.document.content ∧
        ∀ last, front.getLast? = some last → based last version
  | .error _, _ => True

def DocumentWrite.isDraft : DocumentWrite → Bool
  | .insertEvent _ => false
  | _ => true

open DocumentWrite (insertDocument insertVersion isDraft isUpdate updateDocument version?)

structure Drafted (session : Nat) (changes : List DocumentWrite) (versions : List OrgDocumentVersion)
    (document : Option OrgDocument) (db : DocumentDb) : Prop where
  opened : ∃ pending, db.pending session = some pending ∧ pending.filter isDraft = changes
  since : versions <+: db.committed.versions
  row : db.committed.document = document

/-- The changes hold the row of the document, or the path when there is none. -/
def Holds (changes : List DocumentWrite) (document : Option OrgDocument) : Prop :=
  (changes.any isUpdate = true ∧ document.isSome = true) ∨
    (changes.any DocumentWrite.isInsertion = true ∧ document = none)

variable {session : Nat} {changes : List DocumentWrite} {versions : List OrgDocumentVersion}
  {document : Option OrgDocument}

theorem Drafted.kept {before after : DocumentDb} (drafted : Drafted session changes versions document before)
    (holds : Holds changes document) (relied : Rely session before after) :
    Drafted session changes versions document after := by
  obtain ⟨pending, opened, isDraft⟩ := drafted.opened
  have within : ∀ {test : DocumentWrite → Bool}, changes.any test = true → pending.any test = true := by
    intro test some
    obtain ⟨change, member, passes⟩ := any_eq_true.mp some
    rw [← isDraft] at member
    exact any_eq_true.mpr ⟨change, mem_of_mem_filter member, passes⟩
  refine ⟨⟨pending, relied.own.trans opened, isDraft⟩, drafted.since.trans relied.grows, ?_⟩
  rcases holds with ⟨updates, there⟩ | ⟨inserts, missing⟩
  · rw [← drafted.row] at there ⊢
    exact relied.locked pending opened (within updates) there
  · have nothing := drafted.row
    rw [missing] at nothing ⊢
    exact relied.reserved pending opened (within inserts) nothing

variable {db : DocumentDb}

section

variable (drafted : Drafted session changes versions document db)
include drafted

theorem Drafted.push (change : DocumentWrite) :
    Drafted session (changes ++ [change].filter isDraft) versions document (db.push session change) := by
  obtain ⟨pending, opened, isDraft⟩ := drafted.opened
  refine ⟨⟨pending ++ [change], pending_push_self opened, ?_⟩, drafted.since, drafted.row⟩
  rw [filter_append, isDraft]

abbrev SafeCall {α : Type} (operation : DocumentOperation) (basis : Option Documents) (session : Nat)
    (post : Except DocumentError α → DocumentDb → Prop) (call : DocumentCall α) (db : DocumentDb) : Prop :=
  call.SafeWhile documentDiscipline (Promised operation basis) session post db

variable {operation : DocumentOperation} {basis : Option Documents}

theorem query_drafted {α : Type} {label : DocumentQuery} {report : Documents → α} (holds : Holds changes document) :
    SafeCall operation basis session
      (fun _ later => Drafted session changes versions document later) (query session label report) db := by
  intro found relied _ _ _
  exact ⟨⟨rfl, trivial⟩, drafted.kept holds relied⟩

theorem insertEvent_drafted {event : DocumentEvent} (holds : Holds changes document) :
    SafeCall operation basis session (fun _ later => Drafted session changes versions document later)
      (write session (.insertEvent event) uniqueViolation) db := by
  intro found relied _ _ _
  have there := drafted.kept holds relied
  obtain ⟨pending, opened, _⟩ := there.opened
  refine ⟨⟨rfl, trivial, fun closed => ?_⟩, ?_⟩
  · rw [opened] at closed
    cases closed
  · have pushed := there.push (.insertEvent event)
    rw [filter_cons_of_neg Bool.false_ne_true, filter_nil, append_nil] at pushed
    have effect : effect (⟨session, .write (.insertEvent event)⟩ : DocumentStatement) found =
        found.push session (.insertEvent event) := write_open opened rfl
    rw [effect]
    exact pushed

variable {type : Text} {next : OrgDocument} {version : OrgDocumentVersion} {actorId : Option Text}
  {mutationId : Text}

theorem announce_drafted (holds : Holds changes document) :
    SafeCall operation basis session (fun _ later => Drafted session changes versions document later)
      (announce session type next version actorId mutationId) db := by
  have creates : ∀ {event : DocumentEvent} {reached : DocumentDb}, Drafted session changes versions document reached →
        SafeCall operation basis session
          (fun _ later => Drafted session changes versions document later)
          (createEvent session event) reached := by
    intro event reached isDraft
    refine (query_drafted isDraft holds).bind ?_ fun _ _ later => later
    intro existing later stillDraft
    cases existing with
    | some other => exact stillDraft
    | none => exact insertEvent_drafted stillDraft holds
  rw [announce]
  split
  · exact creates drafted
  · refine (query_drafted drafted holds).bind ?_ fun _ _ later => later
    intro projectId later stillDraft
    cases projectId with
    | none => exact stillDraft
    | some own => exact creates stillDraft

end

variable {pending : List DocumentWrite}

theorem versions_of_drafts : (pending.filter isDraft).filterMap version? =
      pending.filterMap version? := by
  induction pending with
  | nil => rfl
  | cons change rest ih =>
    cases change with
    | insertEvent event => exact ih
    | insertVersion version => exact congrArg (version :: ·) ih
    | _ => exact ih

theorem document_applyAll_congr {changes : List DocumentWrite} {left right : Documents}
    (same : left.document = right.document) : (applyAll changes left).document = (applyAll changes right).document := by
  induction changes generalizing left right with
  | nil => exact same
  | cons change rest ih =>
    refine ih ?_
    cases change with
    | insertDocument other => exact congrArg (· <|> some other) same
    | updateDocument data => exact congrArg (·.map data.apply) same
    | insertVersion version | insertEvent event => exact same

theorem document_of_drafts (state : Documents) :
    (applyAll (pending.filter isDraft) state).document = (applyAll pending state).document := by
  induction pending generalizing state with
  | nil => rfl
  | cons change rest ih =>
    cases change with
    | insertEvent event => exact (ih state).trans (document_applyAll_congr rfl)
    | _ => exact ih _

variable (own : List OrgDocumentVersion)

theorem commit_created {based : OrgDocumentVersion → OrgDocumentVersion → Prop} {next : OrgDocument} (sound : Sound db)
    (drafted : Drafted session changes versions document db)
    (isVersions : changes.filterMap version? = own ++ [version])
    (numbered : version.version = (versions ++ own).length + 1)
    (isNext : ∀ state : Documents, state.document = document → (applyAll changes state).document = some next)
    (content : version.content = next.content) (metadata : version.metadata = next.metadata)
    (isBased : ∀ last, (versions ++ own).getLast? = some last → based last version) :
    documentDiscipline.allowed session ⟨session, .commit⟩ db ∧ Created based (.ok (detail next version))
        (effect (⟨session, .commit⟩ : DocumentStatement) db) := by
  obtain ⟨pending, opened, isDraft⟩ := drafted.opened
  have seen : (db.view session).versions = db.committed.versions ++ (own ++ [version]) := by
    rw [view_versions, opened, Option.getD_some, ← versions_of_drafts, isDraft, isVersions]
  have seenDocument : (db.view session).document = some next := by
    rw [view_open opened, ← document_of_drafts, isDraft]
    exact isNext db.committed drafted.row
  have same : versions = db.committed.versions := by
    have all := sound.numbered session
    rw [seen, ← append_assoc] at all
    have isLast := all.last
    have lengths := numbered.symm.trans isLast
    rw [length_append, length_append] at lengths
    exact drafted.since.eq_of_length (by omega)
  refine ⟨⟨rfl, ?_, ?_⟩, versions ++ own, version, ?_, rfl, content, isBased⟩
  · intro newest isNewest
    rw [seen, ← append_assoc, getLast?_concat] at isNewest
    cases isNewest
    rw [Documents.content, Documents.metadata, seenDocument, content, metadata]
    exact ⟨rfl, rfl⟩
  · intro unchanged
    rw [seen] at unchanged
    exact absurd unchanged (by simp)
  · change versions ++ own ++ [version] <+: (db.view session).versions
    have whole : (db.view session).versions = versions ++ own ++ [version] := by
      rw [seen, same, append_assoc]
    exact whole ▸ prefix_rfl

theorem document_applyAll_versions (state : Documents) :
    (applyAll (own.map insertVersion) state).document = state.document := by
  induction own generalizing state with
  | nil => rfl
  | cons version rest ih => exact ih _

structure Opened (session : Nat) (own versions : List OrgDocumentVersion) (db : DocumentDb) : Prop where
  opened : db.pending session = some (own.map insertVersion)
  since : versions <+: db.committed.versions
  there : db.committed.document.isSome = true

variable {own : List OrgDocumentVersion}

theorem Opened.kept {before after : DocumentDb} (opened : Opened session own versions before)
    (relied : Rely session before after) : Opened session own versions after :=
  ⟨relied.own.trans opened.opened, opened.since.trans relied.grows, relied.present opened.there⟩

def Settled (basedOn : OrgDocumentVersion → Prop) (session : Nat) : Except DocumentError Nat → DocumentDb → Prop
  | .ok number, db => ∃ own versions, Opened session own versions db ∧
      number = (versions ++ own).length + 1 ∧ ∀ last, (versions ++ own).getLast? = some last → basedOn last
  | .error _, _ => True

theorem latest_of_sound (sound : Sound db) (client : Nat) :
    (db.view client).latestVersion = (db.view client).versions.getLast? :=
  latest_of_numbered (sound.numbered client)

theorem length_of_last {versions : List OrgDocumentVersion} {latest : OrgDocumentVersion}
    (numbered : Numbered versions) (isLast : versions.getLast? = some latest) : latest.version = versions.length := by
  obtain ⟨front, rfl⟩ := getLast?_eq_some_iff.mp isLast
  rw [numbered.last, length_append]
  rfl

variable {existing : OrgDocument}

theorem nextVersion_safe {basedOn : OrgDocumentVersion → Prop} (opened : Opened session [] [] db)
    (isBased : ∀ found, Sound found → Promised operation basis ⟨session, .query .getLatestVersionInfo⟩ found →
        ∀ last, found.committed.versions.getLast? = some last → basedOn last)
    (first : ∀ version : OrgDocumentVersion, version.content = existing.content → basedOn version) :
    SafeCall operation basis session (Settled basedOn session) (nextVersion session existing) db := by
  intro found relied sound _ promised
  have there := opened.kept relied
  have seen : (found.view session).versions = found.committed.versions := by
    rw [view_versions, there.opened]
    exact append_nil _
  refine ⟨⟨rfl, trivial⟩, ?_⟩
  dsimp only [Call.bind]
  rw [latest_of_sound sound, seen]
  cases isLast : found.committed.versions.getLast? with
  | some latest =>
    have length := length_of_last sound.committed isLast
    refine ⟨[], found.committed.versions, ⟨there.opened, prefix_rfl, there.there⟩, ?_, ?_⟩
    · rw [append_nil, length]
    · rw [append_nil, isLast]
      intro last same
      cases same
      exact isBased found sound promised latest isLast
  | none =>
    intro later reliedLater soundLater _ _
    have still := there.kept reliedLater
    let version : OrgDocumentVersion :=
      { version := 1, content := existing.content, metadata := existing.metadata,
        createdBy := existing.createdBy, mutationId := none }
    refine ⟨⟨rfl, ⟨Nat.le_refl 1, Nat.le_add_left 1 _⟩, fun closed => ?_⟩, ?_⟩
    · rw [still.opened] at closed
      cases closed
    · cases refused : Write.rejected (insertVersion version) (later.view session) with
      | true =>
        dsimp only
        rw [refused]
        trivial
      | false =>
        dsimp only
        rw [refused]
        have effect : effect (⟨session, .write (.insertVersion version)⟩ : DocumentStatement) later =
              later.push session (.insertVersion version) :=
          write_open still.opened refused
        refine ⟨[version], [], ⟨?_, nil_prefix, ?_⟩, rfl, ?_⟩
        · rw [effect]
          exact pending_push_self still.opened
        · rw [effect]
          exact still.there
        · intro last same
          cases same
          exact first version rfl

theorem createVersion_drafted (drafted : Drafted session changes versions document db)
    (holds : Holds changes document) (isOwn : changes.filterMap version? = own)
    (numbered : version.version = (versions ++ own).length + 1) :
    SafeCall operation basis session
      (fun result later => match result with
        | .ok created => created = version ∧
            Drafted session (changes ++ [.insertVersion version]) versions document later
        | .error _ => True)
      (createVersion session version) db := by
  intro found relied sound _ _
  have there := drafted.kept holds relied
  obtain ⟨pending, opened, isDraft⟩ := there.opened
  have seen : (found.view session).versions = found.committed.versions ++ own := by
    rw [view_versions, opened, Option.getD_some, ← versions_of_drafts, isDraft, isOwn]
  have shorter := there.since.length_le
  refine ⟨⟨rfl, ⟨?_, ?_⟩, fun closed => ?_⟩, ?_⟩
  · rw [numbered]
    exact Nat.le_add_left 1 _
  · rw [numbered]
    change _ ≤ (found.view session).versions.length + 1
    rw [seen, length_append, length_append]
    omega
  · rw [opened] at closed
    cases closed
  · cases refused : Write.rejected (insertVersion version) (found.view session) with
    | true =>
      dsimp only
      rw [refused]
      trivial
    | false =>
      dsimp only
      rw [refused]
      have effect : effect (⟨session, .write (.insertVersion version)⟩ : DocumentStatement) found =
            found.push session (.insertVersion version) := write_open opened refused
      rw [effect]
      exact ⟨rfl, there.push (.insertVersion version)⟩

def editChanges (own : List OrgDocumentVersion) (data : UpdateOrgDocumentData) : List DocumentWrite :=
  own.map insertVersion ++ [.updateDocument data]

theorem version?_editChanges (own : List OrgDocumentVersion) (data : UpdateOrgDocumentData) :
    (editChanges own data).filterMap version? = own := by
  rw [editChanges, filterMap_append, filterMap_map]
  have each : version? ∘ insertVersion = some := rfl
  rw [each, filterMap_some]
  exact append_nil own

variable (own)

theorem isDraft_editChanges (data : UpdateOrgDocumentData) :
    (editChanges own data).filter isDraft = editChanges own data := by
  rw [filter_eq_self]
  intro change member
  rcases mem_append.mp member with version | update
  · obtain ⟨own, _, rfl⟩ := mem_map.mp version
    rfl
  · rw [mem_singleton.mp update]
    rfl

theorem holds_editChanges (data : UpdateOrgDocumentData) (old : OrgDocument) :
    Holds (editChanges own data) (some old) := by
  refine .inl ⟨?_, rfl⟩
  rw [editChanges, any_append]
  exact Bool.or_true _

variable {own}

def Edited (based : OrgDocumentVersion → OrgDocumentVersion → Prop) (session : Nat) :
    Except DocumentError OrgDocumentDetail → DocumentDb → Prop
  | .ok made, db => ∃ own versions data old version, made = detail (data.apply old) version ∧
      Drafted session (editChanges own data ++ [.insertVersion version]) versions (some old) db ∧
        version.version = (versions ++ own).length + 1 ∧ version.content = data.content ∧
          version.metadata = (data.apply old).metadata ∧
            ∀ last, (versions ++ own).getLast? = some last → based last version
  | .error _, _ => True

variable {data : UpdateOrgDocumentData} {path : Text}

theorem edit_safe (make : Nat → OrgDocument → OrgDocumentVersion)
    (basedOn : OrgDocumentVersion → Prop) {based : OrgDocumentVersion → OrgDocumentVersion → Prop}
    (opened : Opened session [] [] db) (isBased : ∀ found, Sound found →
      Promised operation basis ⟨session, .query .getLatestVersionInfo⟩ found →
        ∀ last, found.committed.versions.getLast? = some last → basedOn last)
    (first : ∀ version : OrgDocumentVersion, version.content = existing.content → basedOn version)
    (number : ∀ count next, (make count next).version = count)
    (content : ∀ count next, (make count next).content = data.content)
    (metadata : ∀ count (old : OrgDocument) found, found.committed.document = some old →
      Promised operation basis ⟨session, .write (.updateDocument data)⟩ found →
        (make count (data.apply old)).metadata = (data.apply old).metadata)
    (follows : ∀ last count next, basedOn last → based last (make count next)) :
    SafeCall operation basis session (Edited based session)
      (do
        let count ← nextVersion session existing
        match ← updateDocument session data with
        | none => .raise (notFound path)
        | some next =>
          let version ← createVersion session (make count next)
          announce session type next version actorId mutationId
          return detail next version) db := by
  refine (nextVersion_safe opened isBased first).bind ?_ fun _ _ _ => trivial
  intro count reached settled
  obtain ⟨own, versions, isOpen, isCount, isBasis⟩ := settled
  intro found relied sound _ promised
  have there := isOpen.kept relied
  obtain ⟨old, isOld⟩ := Option.isSome_iff_exists.mp there.there
  have seen : (found.view session).document = some old := by
    rw [view_open there.opened, document_applyAll_versions]
    exact isOld
  have effect : effect (⟨session, .write (.updateDocument data)⟩ : DocumentStatement) found =
        found.push session (.updateDocument data) := write_open there.opened rfl
  have drafted : Drafted session (editChanges own data) versions (some old)
      (found.push session (.updateDocument data)) :=
    ⟨⟨_, pending_push_self there.opened, isDraft_editChanges own data⟩, there.since, isOld⟩
  refine ⟨⟨rfl, trivial, fun closed => ?_⟩, ?_⟩
  · rw [there.opened] at closed
    cases closed
  · dsimp only
    rw [effect, seen]
    have holds := holds_editChanges own data old
    have numbered : (make count (data.apply old)).version = (versions ++ own).length + 1 := by
      rw [number, isCount]
    refine (createVersion_drafted drafted holds (version?_editChanges own data) numbered).bind ?_ fun _ _ _ => trivial
    intro version later created
    obtain ⟨rfl, stillDraft⟩ := created
    have held : Holds (editChanges own data ++ [.insertVersion (make count (data.apply old))]) (some old) := by
      refine .inl ⟨?_, rfl⟩
      rw [any_append, editChanges, any_append]
      simp [isUpdate]
    refine (announce_drafted stillDraft held).bind ?_ fun _ _ _ => trivial
    intro _ last isDraft
    exact ⟨own, versions, data, old, _, rfl, isDraft, numbered, content _ _,
      metadata count old found isOld promised, fun basisVersion same =>
        follows basisVersion count _ (isBasis basisVersion same)⟩

theorem document_editChanges {old : OrgDocument} (state : Documents) (isOld : state.document = some old) :
    (applyAll (editChanges own data ++ [.insertVersion version]) state).document = some (data.apply old) := by
  rw [editChanges, append_assoc, applyAll_append]
  change (applyAll (own.map insertVersion) state).document.map data.apply = _
  rw [document_applyAll_versions, isOld]
  rfl

section

variable (closed : db.pending session = none)
include closed

theorem edit_transaction_safe {based : OrgDocumentVersion → OrgDocumentVersion → Prop}
    {body : DocumentCall OrgDocumentDetail} (there : db.committed.document.isSome = true)
    (safe : ∀ started, Opened session [] [] started →
      SafeCall operation basis session (Edited based session) body started) :
    SafeCall operation basis session (Created based) (transaction session body) db := by
  refine transaction_safe (Edited based session) ?_ ?_ (fun _ => ⟨rfl, trivial⟩)
    fun _ _ => trivial
  · intro found relied _
    have stillClosed := relied.own.trans closed
    have effect : effect (⟨session, .begin⟩ : DocumentStatement) found = found.start session := by
      dsimp only [effect]
      rw [stillClosed]
      rfl
    refine ⟨⟨rfl, trivial⟩, safe _ ⟨?_, nil_prefix, ?_⟩⟩
    · rw [effect]
      exact Database.pending_start_self stillClosed
    · rw [effect]
      exact relied.present there
  · intro made reached edited found relied sound
    obtain ⟨own, versions, data, old, version, rfl, drafted, numbered, content, metadata, isBased⟩ := edited
    have holds : Holds (editChanges own data ++ [.insertVersion version]) (some old) := by
      refine .inl ⟨?_, rfl⟩
      rw [any_append, editChanges, any_append]
      simp [isUpdate]
    have isVersions : (editChanges own data ++ [insertVersion version]).filterMap version? = own ++ [version] := by
      rw [filterMap_append, version?_editChanges]
      rfl
    exact commit_created own sound (drafted.kept holds relied) isVersions numbered document_editChanges
      content metadata isBased

/-- How the content of a version that the call makes follows from the version before. -/
def DocumentOperation.based (operation : DocumentOperation) (last version : OrgDocumentVersion) : Prop :=
  match operation with
  | .patch _ operations _ => applyOperations operations last.content = .ok version.content
  | .reviewDocument _ _ _ => last.content = version.content
  | _ => True

theorem read_safe {α : Type} {rest : Option OrgDocument → DocumentCall α}
    {post : Except DocumentError α → DocumentDb → Prop}
    (safe : ∀ found, found.pending session = none → basis = some found.committed →
      SafeCall operation basis session post (rest found.committed.document) found) :
    SafeCall operation basis session post (findByOrgAndPath session >>= rest) db := by
  intro found relied _ _ promised
  have stillClosed := relied.own.trans closed
  refine ⟨⟨rfl, trivial⟩, ?_⟩
  have read := safe found stillClosed (promised.reads rfl)
  rw [← view_closed stillClosed] at read
  exact read

theorem patch_safe {operations : List PatchOperation} : SafeCall (.patch mutationId operations actorId) basis session
      (Created (DocumentOperation.patch mutationId operations actorId).based)
      (patch session mutationId path operations actorId) db := by
  refine read_safe closed fun found stillClosed isBasis => ?_
  cases isExisting : found.committed.document with
  | none => trivial
  | some existing =>
    dsimp only
    cases applied : applyOperations operations existing.content with
    | error error => trivial
    | ok content =>
      dsimp only
      split
      · trivial
      · refine edit_transaction_safe stillClosed (by rw [isExisting]; rfl) fun started opened => ?_
        refine edit_safe (fun count next =>
            { version := count, content, metadata := next.metadata,
              createdBy := actorId <|> existing.createdBy, mutationId := some mutationId })
          (fun last => last.content = existing.content) opened ?_ (fun _ same => same) (fun _ _ => rfl)
          (fun _ _ => rfl) (fun _ _ _ _ _ => rfl) ?_
        · intro later sound promised last isLast
          have same : later.committed.content = found.committed.content := promised.steady found.committed isBasis
          have newest := (sound.faithful last isLast).1
          rw [same, Documents.content, isExisting] at newest
          exact (Option.some.inj newest).symm
        · intro last count next same
          change applyOperations operations last.content = .ok content
          rw [same]
          exact applied

theorem update_safe {data : UpdateOrgDocumentRequest} : SafeCall (.update mutationId data actorId) basis session
      (Created (DocumentOperation.update mutationId data actorId).based)
      (update session mutationId path data actorId) db := by
  rw [update]
  split
  · trivial
  · refine read_safe closed fun found stillClosed isBasis => ?_
    cases isExisting : found.committed.document with
    | none => trivial
    | some existing =>
      dsimp only
      refine edit_transaction_safe stillClosed (by rw [isExisting]; rfl) fun started opened => ?_
      refine edit_safe (fun count next =>
          { version := count, content := data.content,
            metadata := data.metadata.getD existing.metadata,
            createdBy := actorId <|> existing.createdBy, mutationId := some mutationId })
        (fun _ => True) opened (fun _ _ _ _ _ => trivial) (fun _ _ => trivial) (fun _ _ => rfl)
        (fun _ _ => rfl) ?_ (fun _ _ _ _ => trivial)
      intro count old later isOld promised
      cases given : data.metadata with
      | some metadata =>
        change (some metadata).getD existing.metadata = data.metadata.getD old.metadata
        rw [given]
        rfl
      | none =>
        have same : later.committed.metadata = found.committed.metadata :=
          promised.steady found.committed isBasis (by rw [given]; rfl)
        rw [Documents.metadata, Documents.metadata, isOld, isExisting] at same
        change existing.metadata = data.metadata.getD old.metadata
        rw [given]
        exact (Option.some.inj same).symm

def Begun (session : Nat) : Except DocumentError OrgDocumentDetail → DocumentDb → Prop
  | .ok made, db => ∃ next version, made = detail next version ∧
      Drafted session [.insertDocument next, .insertVersion version] [] none db ∧
        version.version = 1 ∧ version.content = next.content ∧ version.metadata = next.metadata
  | .error _, _ => True

omit closed in
theorem holds_insertion (next : OrgDocument) (rest : List DocumentWrite) : Holds (.insertDocument next :: rest) none :=
  .inr ⟨rfl, rfl⟩

variable {createdBy : Option Text}

omit closed in
theorem begun_safe {next : OrgDocument} (opened : db.pending session = some []) (numbered : version.version = 1)
    (content : version.content = next.content) (metadata : version.metadata = next.metadata) :
    SafeCall operation basis session (Begun session)
      (do
        let created ← insertDocument session next
        let version ← createVersion session version
        announce session type created version createdBy mutationId
        return detail created version) db := by
  intro found relied _ _ _
  have there : found.pending session = some [] := relied.own.trans opened
  refine ⟨⟨rfl, trivial, fun closed => ?_⟩, ?_⟩
  · rw [there] at closed
    cases closed
  · cases refused : Write.rejected (DocumentWrite.insertDocument next) (found.view session) with
    | true =>
      dsimp only
      rw [refused]
      trivial
    | false =>
      dsimp only
      rw [refused]
      have effect : effect (⟨session, .write (.insertDocument next)⟩ : DocumentStatement) found =
            found.push session (.insertDocument next) := write_open there refused
      rw [effect]
      have missing : found.committed.document = none := by
        rw [view_open there] at refused
        exact Option.not_isSome_iff_eq_none.mp (Bool.eq_false_iff.mp refused)
      have drafted : Drafted session [.insertDocument next] [] none (found.push session (.insertDocument next)) :=
        ⟨⟨_, pending_push_self there, rfl⟩, nil_prefix, missing⟩
      have holds := holds_insertion next []
      refine (createVersion_drafted drafted holds rfl numbered).bind ?_ fun _ _ _ => trivial
      intro created later isCreated
      obtain ⟨rfl, stillDraft⟩ := isCreated
      refine (announce_drafted stillDraft (holds_insertion next _)).bind ?_ fun _ _ _ => trivial
      intro _ last isDraft
      exact ⟨next, _, rfl, isDraft, numbered, content, metadata⟩

theorem create_safe {data : CreateOrgDocumentRequest} :
    SafeCall (.create mutationId data createdBy) basis session
      (Created (DocumentOperation.create mutationId data createdBy).based)
      (create session mutationId path data createdBy) db := by
  rw [create]
  split
  · trivial
  · refine read_safe closed fun found stillClosed isBasis => ?_
    cases isExisting : found.committed.document with
    | some existing => trivial
    | none =>
      refine transaction_safe (Begun session) ?_ ?_ (fun _ => ⟨rfl, trivial⟩) fun _ _ => trivial
      · intro later relied _
        have still := relied.own.trans stillClosed
        refine ⟨⟨rfl, trivial⟩, begun_safe ?_ rfl rfl rfl⟩
        have effect : effect (⟨session, .begin⟩ : DocumentStatement) later = later.start session := by
          dsimp only [effect]
          rw [still]
          rfl
        rw [effect]
        exact Database.pending_start_self still
      · intro made reached begun later relied sound
        obtain ⟨next, version, rfl, drafted, numbered, content, metadata⟩ := begun
        have isNext : ∀ state : Documents, state.document = none →
            (applyAll [DocumentWrite.insertDocument next, .insertVersion version] state).document = some next := by
          intro state missing
          change (state.document <|> some next) = some next
          rw [missing]
          rfl
        exact commit_created [] sound (drafted.kept (holds_insertion next _) relied) rfl numbered
          isNext content metadata fun _ _ => trivial

structure AsRead (existing : OrgDocument) (state : Documents) : Prop where
  content : state.content = some existing.content
  metadata : state.metadata = some existing.metadata

omit closed in
theorem AsRead.of_eq {read now : Documents} (asRead : AsRead existing read)
    (same : now.content = read.content ∧ now.metadata = read.metadata) : AsRead existing now :=
  ⟨same.1.trans asRead.content, same.2.trans asRead.metadata⟩

theorem effect_closed {change : DocumentWrite} (accepted : Write.rejected change db.committed = false) :
    effect (⟨session, .write change⟩ : DocumentStatement) db =
      { db with committed := Write.apply change db.committed } := by
  rw [← view_closed closed] at accepted
  exact Database.write_closed closed accepted

omit closed in
theorem review_version_safe {based : OrgDocumentVersion → OrgDocumentVersion → Prop}
    (existing : OrgDocument) {updated : OrgDocument} {seen : DocumentDb}
    (asRead : AsRead existing seen.committed)
    (numbered : version.version = seen.committed.versions.length + 1)
    (content : version.content = existing.content) (metadata : version.metadata = existing.metadata)
    (updatedContent : updated.content = existing.content)
    (isBased : ∀ last : OrgDocumentVersion, last.content = existing.content → based last version)
    (closed : seen.pending session = none) :
    SafeCall operation basis session (Created based)
      (do
        let version ← createVersion session version
        return detail updated version) seen := by
  intro found relied soundNow _ _
  have stillClosed := relied.own.trans closed
  have view := view_closed stillClosed
  have longer := relied.grows.length_le
  have settled : Write.rejected (insertVersion version) found.committed = false → AsRead existing found.committed := by
    intro free
    have next := soundNow.committed.next (by omega) (by omega) free
    have unchanged := relied.grows.eq_of_length (by omega)
    exact asRead.of_eq (relied.steady unchanged.symm)
  refine ⟨⟨rfl, ⟨by omega, by rw [view]; omega⟩, fun _ free => ⟨rfl, ?_, fun other => nomatch other⟩⟩, ?_⟩
  · intro newest isNewest
    have isVersion : newest = version := by
      have last : (found.committed.versions ++ [version]).getLast? = some newest := isNewest
      rw [getLast?_concat] at last
      exact (Option.some.inj last).symm
    rw [isVersion, content, metadata]
    exact ⟨(settled free).content, (settled free).metadata⟩
  · dsimp only
    rw [view]
    cases free : Write.rejected (insertVersion version) found.committed with
    | true => trivial
    | false =>
      rw [effect_closed stillClosed free]
      refine ⟨found.committed.versions, version, prefix_rfl, rfl,
        content.trans updatedContent.symm, fun last isLast => isBased last ?_⟩
      have newest := (soundNow.faithful last isLast).1
      rw [(settled free).content] at newest
      exact (Option.some.inj newest).symm

omit closed in
theorem review_update_allowed (sound : Sound db) (asRead : AsRead existing db.committed)
    (content : data.content = existing.content) (metadata : data.metadata = some existing.metadata)
    : documentDiscipline.allowed session ⟨session, .write (.updateDocument data)⟩ db := by
  have kept : (Write.apply (DocumentWrite.updateDocument data) db.committed).content = db.committed.content ∧
      (Write.apply (DocumentWrite.updateDocument data) db.committed).metadata =
        db.committed.metadata := by
    have isContent := asRead.content
    have isMetadata := asRead.metadata
    rw [Documents.content] at isContent
    rw [Documents.metadata] at isMetadata
    obtain ⟨old, isOld, _⟩ := Option.map_eq_some_iff.mp isContent
    have applied : (Write.apply (DocumentWrite.updateDocument data) db.committed).document = some (data.apply old) := by
      change db.committed.document.map data.apply = _
      rw [isOld]
      rfl
    rw [Documents.content, Documents.metadata, applied, Documents.content, Documents.metadata, isContent, isMetadata]
    constructor
    · exact congrArg some content
    · change some (data.metadata.getD old.metadata) = _
      rw [metadata]
      rfl
  refine ⟨rfl, trivial, fun _ _ => ⟨rfl, fun newest isNewest => ?_, fun _ => kept⟩⟩
  rw [kept.1, kept.2]
  exact sound.faithful newest isNewest

theorem reviewDocument_safe {nextReviewAt : Text} :
    SafeCall (.reviewDocument mutationId nextReviewAt actorId) basis session
      (Created (DocumentOperation.reviewDocument mutationId nextReviewAt actorId).based)
      (reviewDocument session mutationId path nextReviewAt actorId) db := by
  refine read_safe closed fun found stillClosed isBasis => ?_
  cases isExisting : found.committed.document with
  | none => trivial
  | some existing =>
    have asRead : AsRead existing found.committed := by
      constructor
      · rw [Documents.content, isExisting]
        rfl
      · rw [Documents.metadata, isExisting]
        rfl
    intro later relied sound _ promised
    have closedLater := relied.own.trans stillClosed
    have asReadLater := asRead.of_eq (promised.steady found.committed isBasis)
    refine ⟨review_update_allowed sound asReadLater rfl rfl, ?_⟩
    rw [effect_closed closedLater rfl]
    dsimp only
    rw [view_closed closedLater]
    cases isOld : later.committed.document with
    | none => trivial
    | some old =>
      intro seen reliedSeen soundSeen _ promisedSeen
      have closedSeen : seen.pending session = none := reliedSeen.own.trans closedLater
      refine ⟨⟨rfl, trivial⟩, ?_⟩
      have length : (seen.committed.latestVersion.elim 0 OrgDocumentVersion.version) =
          seen.committed.versions.length := by
        rw [Documents.latestVersion, latest_of_numbered soundSeen.committed]
        cases isLast : seen.committed.versions.getLast? with
        | none =>
          rw [getLast?_eq_none_iff.mp isLast]
          rfl
        | some last => exact length_of_last soundSeen.committed isLast
      refine review_version_safe existing (asRead.of_eq (promisedSeen.steady found.committed isBasis)) ?_ rfl rfl rfl
        (fun last same => same) closedSeen
      dsimp only
      rw [view_closed closedSeen, length]
      rfl

end

theorem call_safe (operation : DocumentOperation) (closed : db.pending session = none) :
    SafeCall operation basis session (Created operation.based) (operation.call path session) db := by
  cases operation with
  | create mutationId data createdBy => exact create_safe closed
  | update mutationId data actorId => exact update_safe closed
  | patch mutationId operations actorId => exact patch_safe closed
  | reviewDocument mutationId nextReviewAt actorId => exact reviewDocument_safe closed

end EveHorizon.OrgDocuments
