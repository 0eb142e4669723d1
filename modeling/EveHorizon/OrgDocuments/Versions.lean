import EveHorizon.OrgDocuments.Documents

/-!
# The document and its newest version

The numbers of versions run from one without gaps, whatever the order of statements.
-/

namespace EveHorizon.OrgDocuments

open Interleaving ReadCommitted List Statement

def Numbered (versions : List OrgDocumentVersion) : Prop :=
  versions.map OrgDocumentVersion.version = range' 1 versions.length

namespace Documents

def content (state : Documents) : Option Text := state.document.map OrgDocument.content

def metadata (state : Documents) : Option Json := state.document.map OrgDocument.metadata

def Faithful (state : Documents) : Prop :=
  ∀ newest, state.versions.getLast? = some newest →
    state.content = some newest.content ∧ state.metadata = some newest.metadata

end Documents

variable {changes : List DocumentWrite} {change : DocumentWrite}

namespace DocumentWrite

def version? : DocumentWrite → Option OrgDocumentVersion
  | .insertVersion version => some version
  | _ => none

def isUpdate : DocumentWrite → Bool
  | .updateDocument _ => true
  | _ => false

def isInsertion : DocumentWrite → Bool
  | .insertDocument _ => true
  | _ => false

theorem versions_apply (change : DocumentWrite) (state : Documents) :
    (Write.apply change state).versions = state.versions ++ change.version?.toList := by
  cases change with
  | insertVersion version => rfl
  | _ => exact (append_nil _).symm

variable (changes)

theorem versions_applyAll (state : Documents) :
    (applyAll changes state).versions = state.versions ++ changes.filterMap version? := by
  induction changes generalizing state with
  | nil => exact (append_nil _).symm
  | cons change rest ih =>
    rw [applyAll_cons, ih, versions_apply, append_assoc]
    cases change with
    | insertVersion version | _ => rfl

variable {state : Documents} {document : OrgDocument}

theorem document_apply_of_some (plain : change.isUpdate = false) (there : state.document = some document) :
    (Write.apply change state).document = some document := by
  cases change with
  | insertDocument other =>
    change (state.document <|> some other) = some document
    rw [there]
    rfl
  | updateDocument data => cases plain
  | insertVersion version | insertEvent event => exact there

theorem document_apply_of_none (plain : change.isInsertion = false) (missing : state.document = none) :
    (Write.apply change state).document = none := by
  cases change with
  | insertDocument other => cases plain
  | updateDocument data =>
    change state.document.map data.apply = none
    rw [missing]
    rfl
  | insertVersion version | insertEvent event => exact missing

theorem document_isSome_apply (change : DocumentWrite) (there : state.document.isSome = true) :
    (Write.apply change state).document.isSome = true := by
  obtain ⟨document, isDocument⟩ := Option.isSome_iff_exists.mp there
  cases change with
  | updateDocument data =>
    change (state.document.map data.apply).isSome = true
    rw [isDocument]
    rfl
  | _ => rw [document_apply_of_some rfl isDocument]; rfl

variable {changes}

theorem document_applyAll_of_some (plain : ∀ change ∈ changes, change.isUpdate = false)
    (there : state.document = some document) : (applyAll changes state).document = some document := by
  induction changes generalizing state with
  | nil => exact there
  | cons change rest ih =>
    have first := document_apply_of_some (plain change mem_cons_self) there
    exact ih (fun other member => plain other (mem_cons_of_mem _ member)) first

theorem document_applyAll_of_none (plain : ∀ change ∈ changes, change.isInsertion = false)
    (missing : state.document = none) : (applyAll changes state).document = none := by
  induction changes generalizing state with
  | nil => exact missing
  | cons change rest ih =>
    have first := document_apply_of_none (plain change mem_cons_self) missing
    exact ih (fun other member => plain other (mem_cons_of_mem _ member)) first

theorem beq_comm_version (held other : OrgDocumentVersion) :
    (held.version == other.version) = (other.version == held.version) :=
  BEq.comm

theorem blocks_comm (held other : DocumentWrite) : Write.blocks held other = Write.blocks other held := by
  cases held with
  | insertVersion version =>
    cases other with
    | insertVersion number => exact beq_comm_version version number
    | _ => rfl
  | _ => cases other <;> rfl

end DocumentWrite

open DocumentWrite (blocks_comm insertVersion isUpdate version? versions_apply versions_applyAll)

section

variable {versions : List OrgDocumentVersion} {version : OrgDocumentVersion}

section

variable (numbered : Numbered versions)
include numbered

theorem Numbered.getElem? {index : Nat} (found : versions[index]? = some version) : version.version = index + 1 := by
  have inside := (List.getElem?_eq_some_iff.mp found).1
  have mapped : (versions.map OrgDocumentVersion.version)[index]? = some version.version := by
    rw [getElem?_map, found]
    rfl
  rw [numbered, getElem?_range' inside] at mapped
  have same := Option.some.inj mapped
  omega

theorem Numbered.bounds (member : version ∈ versions) : 1 ≤ version.version ∧ version.version ≤ versions.length := by
  obtain ⟨index, found⟩ := mem_iff_getElem?.mp member
  have isNumber := numbered.getElem? found
  have inside := (List.getElem?_eq_some_iff.mp found).1
  omega

theorem Numbered.next (positive : 1 ≤ version.version) (bounded : version.version ≤ versions.length + 1)
    (free : versions.any (·.version == version.version) = false) : version.version = versions.length + 1 := by
  by_contra other
  have inside : version.version - 1 < versions.length := by omega
  have isNumber := numbered.getElem? (getElem?_eq_getElem inside)
  have taken : versions.any (·.version == version.version) = true := by
    refine any_eq_true.mpr ⟨_, getElem_mem inside, ?_⟩
    rw [isNumber, Nat.sub_add_cancel positive]
    exact BEq.rfl
  rw [taken] at free
  cases free

theorem Numbered.push (next : version.version = versions.length + 1) : Numbered (versions ++ [version]) := by
  rw [Numbered, map_append, numbered, length_append, ← range'_append_1]
  rw [map_singleton, next, Nat.add_comm 1]
  rfl

end

theorem Numbered.of_append {later : List OrgDocumentVersion} (numbered : Numbered (versions ++ later)) :
    Numbered versions := by
  rw [Numbered, map_append, length_append, ← range'_append_1] at numbered
  exact (append_inj numbered (by simp)).1

theorem Numbered.last (numbered : Numbered (versions ++ [version])) : version.version = versions.length + 1 :=
  numbered.getElem? (getElem?_concat_length)

theorem latest_of_numbered (numbered : Numbered versions) :
    Table.latest OrgDocumentVersion.version versions = versions.getLast? := by
  rcases eq_nil_or_concat' versions with rfl | ⟨front, last, rfl⟩
  · rfl
  · rw [getLast?_concat]
    refine Table.latest_concat _ fun version member => ?_
    have isLast := numbered.last
    have bounds := numbered.of_append.bounds member
    omega

end

structure Sound (db : DocumentDb) : Prop where
  numbered : ∀ client, Numbered (db.view client).versions
  committed : Numbered db.committed.versions
  faithful : db.committed.Faithful
  apart : db.Apart

def fits (state : Documents) : DocumentWrite → Prop
  | .insertVersion version =>
    1 ≤ version.version ∧ version.version ≤ state.versions.length + 1
  | _ => True

/-- What a client may do: in a transaction, what makes the document its newest version in the end;
outside, a write that changes neither content nor metadata, and a version that is the document. -/
def allowed (_session : Nat) (stmt : DocumentStatement) (db : DocumentDb) : Prop :=
  match stmt.action with
  | .write change =>
    fits (db.view stmt.client) change ∧
      (db.pending stmt.client = none → Write.rejected change db.committed = false →
        change.isInsertion = false ∧ (Write.apply change db.committed).Faithful ∧ (change.version? = none →
            (Write.apply change db.committed).content = db.committed.content ∧
              (Write.apply change db.committed).metadata = db.committed.metadata))
  | .commit =>
    (db.view stmt.client).Faithful ∧ ((db.view stmt.client).versions = db.committed.versions →
        (db.view stmt.client).content = db.committed.content ∧
          (db.view stmt.client).metadata = db.committed.metadata)
  | _ => True

/-- What a client relies on while others write: its transaction is its own, versions stay, the
document changes with them only, and not at all while its row or its path is held. -/
structure Rely (session : Nat) (before after : DocumentDb) : Prop where
  own : after.pending session = before.pending session
  grows : before.committed.versions <+: after.committed.versions
  steady : after.committed.versions = before.committed.versions → after.committed.content = before.committed.content ∧
      after.committed.metadata = before.committed.metadata
  present : before.committed.document.isSome = true → after.committed.document.isSome = true
  locked : ∀ changes, before.pending session = some changes →
    changes.any isUpdate = true → before.committed.document.isSome = true →
      after.committed.document = before.committed.document
  reserved : ∀ changes, before.pending session = some changes →
    changes.any DocumentWrite.isInsertion = true → before.committed.document = none → after.committed.document = none

theorem Rely.refl (session : Nat) (db : DocumentDb) : Rely session db db where
  own := rfl
  grows := prefix_rfl
  steady _ := ⟨rfl, rfl⟩
  present := id
  locked _ _ _ _ := rfl
  reserved _ _ _ := id

variable {session : Nat}

theorem Rely.trans {first second third : DocumentDb} (before : Rely session first second)
    (after : Rely session second third) : Rely session first third where
  own := after.own.trans before.own
  grows := before.grows.trans after.grows
  steady same := by
    have between : second.committed.versions = first.committed.versions := by
      refine (before.grows.eq_of_length_le ?_).symm
      rw [← same]
      exact after.grows.length_le
    obtain ⟨content, metadata⟩ := after.steady (same.trans between.symm)
    obtain ⟨older, olderToo⟩ := before.steady between
    exact ⟨content.trans older, metadata.trans olderToo⟩
  present there := after.present (before.present there)
  locked changes opened updates there := by
    have same := before.locked changes opened updates there
    have later := after.locked changes (before.own.trans opened) updates (before.present there)
    exact later.trans same
  reserved changes opened inserts missing := by
    have same := before.reserved changes opened inserts missing
    exact after.reserved changes (before.own.trans opened) inserts same

theorem numbered_merge {versions : List OrgDocumentVersion} {left right : List DocumentWrite}
    (numberedLeft : Numbered (versions ++ left.filterMap version?))
    (numberedRight : Numbered (versions ++ right.filterMap version?))
    (apart : ∀ held ∈ left, ∀ other ∈ right, Write.blocks held other = false) :
    Numbered (versions ++ left.filterMap version? ++ right.filterMap version?) := by
  cases isLeft : left.filterMap version? with
  | nil =>
    rw [append_nil]
    exact numberedRight
  | cons first restLeft =>
    cases isRight : right.filterMap version? with
    | nil =>
      rw [append_nil, ← isLeft]
      exact numberedLeft
    | cons second restRight =>
      have ofMem : ∀ {changes : List DocumentWrite} {version : OrgDocumentVersion}
          {rest : List OrgDocumentVersion},
          changes.filterMap version? = version :: rest →
            insertVersion version ∈ changes := by
        intro changes version rest isVersions
        have member : version ∈ changes.filterMap version? := by
          rw [isVersions]
          exact mem_cons_self
        obtain ⟨change, present, isVersion⟩ := mem_filterMap.mp member
        cases change with
        | insertVersion other =>
          cases isVersion
          exact present
        | _ => cases isVersion
      have numberOf : ∀ {changes : List DocumentWrite} {version : OrgDocumentVersion}
          {rest : List OrgDocumentVersion},
          Numbered (versions ++ changes.filterMap version?) →
            changes.filterMap version? = version :: rest → version.version = versions.length + 1 := by
        intro changes version rest numbered isVersions
        rw [isVersions] at numbered
        exact numbered.getElem? (by rw [getElem?_append_right (Nat.le_refl _)]; simp)
      have free := apart _ (ofMem isLeft) _ (ofMem isRight)
      have taken : Write.blocks (insertVersion first) (.insertVersion second) = true := by
        change (first.version == second.version) = true
        rw [numberOf numberedLeft isLeft, numberOf numberedRight isRight]
        exact BEq.rfl
      rw [taken] at free
      cases free

theorem numbered_apply {state : Documents} (numbered : Numbered state.versions) (isFit : fits state change)
    (accepted : Write.rejected change state = false) : Numbered (Write.apply change state).versions := by
  rw [versions_apply]
  cases change with
  | insertVersion version => exact numbered.push (numbered.next isFit.1 isFit.2 accepted)
  | _ =>
    change Numbered (state.versions ++ [])
    rw [append_nil]
    exact numbered

theorem view_versions (db : DocumentDb) (client : Nat) : (db.view client).versions =
      db.committed.versions ++ ((db.pending client).getD []).filterMap version? :=
  versions_applyAll _ _

theorem applyAll_singleton (change : DocumentWrite) (state : Documents) :
    applyAll [change] state = Write.apply change state := rfl

variable {db after : DocumentDb}

theorem numbered_committed (sound : Sound db) {client : Nat}
    (isCommitted : after.committed = applyAll changes db.committed) (numbered : Numbered after.committed.versions)
    (closed : after.pending client = none) (others : ∀ other, other ≠ client → after.pending other = db.pending other)
    (apart : ∀ other, other ≠ client → ∀ pending, db.pending other = some pending →
      ∀ held ∈ changes, ∀ second ∈ pending, Write.blocks held second = false)
    (other : Nat) : Numbered (after.view other).versions := by
  by_cases own : other = client
  · rw [own, Database.view_closed closed]
    exact numbered
  · rw [view_versions, others other own]
    cases opened : db.pending other with
    | none =>
      rw [Option.getD_none, filterMap_nil, append_nil]
      exact numbered
    | some pending =>
      have before := sound.numbered other
      rw [view_versions, opened] at before
      rw [isCommitted, versions_applyAll] at numbered ⊢
      exact numbered_merge numbered before (apart other own pending opened)

variable {other : Nat}

theorem numbered_unmoved (sound : Sound db) (same : after.committed = db.committed)
    (unmoved : after.pending other = db.pending other) : Numbered (after.view other).versions := by
  have view : after.view other = db.view other := by
    unfold Database.view
    rw [same, unmoved]
  rw [view]
  exact sound.numbered other

variable {stmt : DocumentStatement}

theorem sound_effect (sound : Sound db) (isReady : ready stmt db = true) (isAllowed : allowed session stmt db) :
    Sound (effect stmt db) := by
  have apart := Database.apart_effect blocks_comm isReady sound.apart
  obtain ⟨client, action⟩ := stmt
  obtain ⟨after, isEffect, effects⟩ := Database.effect_cases client action db
  rw [isEffect] at apart ⊢
  cases effects with
  | same => exact sound
  | begun closed =>
    refine ⟨fun other => ?_, sound.committed, sound.faithful, apart⟩
    by_cases own : other = client
    · rw [own, Database.view_open (Database.pending_start_self closed)]
      exact sound.committed
    · exact numbered_unmoved sound rfl (Database.pending_start own)
  | @written change closed accepted =>
    obtain ⟨isFit, outside⟩ := isAllowed
    dsimp only at isFit
    rw [Database.view_closed closed] at isFit
    have numbered := numbered_apply sound.committed isFit accepted
    refine ⟨?_, numbered, (outside closed accepted).2.1, apart⟩
    refine numbered_committed sound (applyAll_singleton change db.committed).symm numbered closed (fun _ _ => rfl) ?_
    intro other different pending isOpen held isHeld second isSecond
    rw [mem_singleton.mp isHeld, blocks_comm]
    exact Database.unblocked (by simpa [ready] using isReady) different isOpen isSecond
  | held opened accepted =>
    refine ⟨fun other => ?_, sound.committed, sound.faithful, apart⟩
    by_cases own : other = client
    · rw [own, Database.view_push opened]
      exact numbered_apply (sound.numbered client) isAllowed.1 accepted
    · exact numbered_unmoved sound rfl (Database.pending_push own)
  | committed =>
    refine ⟨?_, sound.numbered client, isAllowed.1, apart⟩
    refine numbered_committed sound rfl (sound.numbered client) Database.pending_close_self
      (fun _ different => Database.pending_close different) ?_
    intro other different pending isOpen held isHeld second isSecond
    cases opened : db.pending client with
    | none =>
      rw [opened] at isHeld
      cases isHeld
    | some changes =>
      rw [opened] at isHeld
      exact sound.apart client other (Ne.symm different) changes pending opened isOpen held isHeld second isSecond
  | undone =>
    refine ⟨fun other => ?_, sound.committed, sound.faithful, apart⟩
    by_cases own : other = client
    · rw [own, Database.view_closed Database.pending_close_self]
      exact sound.committed
    · exact numbered_unmoved sound rfl (Database.pending_close own)

theorem rely_committed (changes : List DocumentWrite) (isCommitted : after.committed = applyAll changes db.committed)
    (own : after.pending session = db.pending session) (steady : after.committed.versions = db.committed.versions →
      after.committed.content = db.committed.content ∧ after.committed.metadata = db.committed.metadata)
    (apart : ∀ pending, db.pending session = some pending → ∀ held ∈ pending,
      ∀ change ∈ changes, Write.blocks held change = false) : Rely session db after := by
  refine ⟨own, ?_, steady, ?_, ?_, ?_⟩
  · rw [isCommitted, versions_applyAll]
    exact prefix_append _ _
  · rw [isCommitted]
    exact applyAll_keeps (·.document.isSome = true) (fun change _ => DocumentWrite.document_isSome_apply change) changes
  · intro pending opened updates there
    obtain ⟨document, isDocument⟩ := Option.isSome_iff_exists.mp there
    rw [isCommitted, isDocument]
    refine DocumentWrite.document_applyAll_of_some (fun change member => ?_) isDocument
    obtain ⟨held, isHeld, isUpdate⟩ := any_eq_true.mp updates
    have free := apart pending opened held isHeld change member
    cases held with
    | updateDocument data =>
      cases change with
      | updateDocument other => cases free
      | _ => rfl
    | _ => cases isUpdate
  · intro pending opened inserts missing
    rw [isCommitted]
    refine DocumentWrite.document_applyAll_of_none (fun change member => ?_) missing
    obtain ⟨held, isHeld, isInsertion⟩ := any_eq_true.mp inserts
    have free := apart pending opened held isHeld change member
    cases held with
    | insertDocument document =>
      cases change with
      | insertDocument other => cases free
      | _ => rfl
    | _ => cases isInsertion

theorem rely_same (same : after.committed = db.committed)
    (own : after.pending session = db.pending session) : Rely session db after := by
  refine rely_committed [] same own (fun _ => ?_) fun _ _ _ _ _ member => nomatch member
  rw [same]
  exact ⟨rfl, rfl⟩

theorem rely_effect (different : stmt.client ≠ other) (sound : Sound db) (isReady : ready stmt db = true)
    (isAllowed : allowed session stmt db) : Rely other db (effect stmt db) := by
  have own := Database.pending_effect stmt db (Ne.symm different)
  rcases Database.committed_effect stmt db with
    same | ⟨change, isWrite, closed, accepted, isCommitted⟩ | ⟨isCommit, isCommitted⟩
  · exact rely_same same own
  · obtain ⟨client, action⟩ := stmt
    cases isWrite
    obtain ⟨_, _, plain⟩ := isAllowed.2 closed accepted
    refine rely_committed [change] (isCommitted.trans (applyAll_singleton change db.committed).symm) own ?_ ?_
    · intro versions
      rw [isCommitted] at versions ⊢
      refine plain ?_
      rw [versions_apply] at versions
      cases isVersion : change.version? with
      | none => rfl
      | some version =>
        rw [isVersion] at versions
        exact absurd versions (by simp)
    · intro pending opened held isHeld applied member
      rw [mem_singleton.mp member]
      exact Database.unblocked (by simpa [ready] using isReady) (Ne.symm different) opened isHeld
  · obtain ⟨client, action⟩ := stmt
    cases isCommit
    refine rely_committed _ isCommitted own ?_ ?_
    · intro versions
      rw [isCommitted] at versions ⊢
      exact isAllowed.2 versions
    · intro pending opened held isHeld applied member
      cases committing : db.pending client with
      | none =>
        rw [committing] at member
        cases member
      | some changes =>
        rw [committing] at member
        exact sound.apart other client (Ne.symm different) pending changes opened committing held isHeld applied member

def documentDiscipline : Discipline DocumentStatement DocumentDb where
  inv := Sound
  allowed session stmt db := stmt.client = session ∧ allowed session stmt db
  rely := Rely
  rely_refl := Rely.refl
  rely_trans := Rely.trans
  keeps sound isReady isAllowed := sound_effect sound isReady isAllowed.2
  respects different sound isReady isAllowed :=
    rely_effect (fun same => different (isAllowed.1.symm.trans same)) sound isReady isAllowed.2

end EveHorizon.OrgDocuments
