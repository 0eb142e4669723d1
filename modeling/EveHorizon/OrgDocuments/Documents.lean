import EveHorizon.Library.Json
import EveHorizon.Library.ReadCommitted
import EveHorizon.Library.Table

/-!
# Org documents and their versions

The document at one path of an organization, its versions, and the calls that create, update,
patch and review it.
-/

namespace EveHorizon.OrgDocuments

open Interleaving ReadCommitted

inductive LifecycleStatus where
  | active | stale | archived | expired

structure OrgDocument where
  projectId : Option Text
  mimeType : Text
  content : Text
  createdBy : Option Text
  metadata : Json
  reviewDue : Option Text
  expiresAt : Option Text
  lifecycleStatus : LifecycleStatus
  embeddingModel : Option Text := none
  embeddingJson : Option Json := none
  embeddedAt : Option Text := none

structure OrgDocumentVersion where
  version : Nat
  content : Text
  metadata : Json
  createdBy : Option Text
  mutationId : Option Text

structure DocumentEvent where
  projectId : Text
  type : Text
  actorId : Option Text
  version : Nat
  mutationId : Text
  metadata : Json

/-- The columns that an update sets; an inner `none` sets `NULL`. -/
structure UpdateOrgDocumentData where
  content : Text
  mimeType : Option Text := none
  metadata : Option Json := none
  reviewDue : Option (Option Text) := none
  expiresAt : Option (Option Text) := none
  lifecycleStatus : Option LifecycleStatus := none
  embeddingModel : Option (Option Text) := none
  embeddingJson : Option Json := none
  embeddedAt : Option (Option Text) := none

/-- What is committed for the path. Events without a project of their own go to the
organization's first one. -/
structure Documents where
  document : Option OrgDocument := none
  versions : List OrgDocumentVersion := []
  events : List DocumentEvent := []
  firstProject : Option Text := none

inductive DocumentQuery where
  | findByOrgAndPath
  | getLatestVersionInfo
  | findFirstByOrg
  | findByDedupeKey (mutationId : Text)

inductive DocumentWrite where
  | insertDocument (document : OrgDocument)
  | updateDocument (data : UpdateOrgDocumentData)
  | insertVersion (version : OrgDocumentVersion)
  | insertEvent (event : DocumentEvent)

def UpdateOrgDocumentData.apply (data : UpdateOrgDocumentData) (document : OrgDocument) : OrgDocument :=
  { document with
    content := data.content
    mimeType := data.mimeType.getD document.mimeType
    metadata := data.metadata.getD document.metadata
    reviewDue := data.reviewDue.getD document.reviewDue
    expiresAt := data.expiresAt.getD document.expiresAt
    lifecycleStatus := data.lifecycleStatus.getD document.lifecycleStatus
    embeddingModel := data.embeddingModel.getD document.embeddingModel
    embeddingJson := data.embeddingJson <|> document.embeddingJson
    embeddedAt := data.embeddedAt.getD document.embeddedAt }

namespace DocumentWrite

def apply : DocumentWrite → Documents → Documents
  | .insertDocument document, state => { state with document := state.document <|> some document }
  | .updateDocument data, state => { state with document := state.document.map data.apply }
  | .insertVersion version, state => { state with versions := state.versions ++ [version] }
  | .insertEvent event, state => { state with events := state.events ++ [event] }

/-- The unique keys: one document at the path, one version of a number. -/
def rejected : DocumentWrite → Documents → Bool
  | .insertDocument _, state => state.document.isSome
  | .insertVersion version, state => state.versions.any (·.version == version.version)
  | _, _ => false

def blocks : DocumentWrite → DocumentWrite → Bool
  | .insertDocument _, .insertDocument _ => true
  | .updateDocument _, .updateDocument _ => true
  | .insertVersion held, .insertVersion version => held.version == version.version
  | _, _ => false

end DocumentWrite

instance : Write DocumentWrite Documents where
  apply := DocumentWrite.apply
  rejected := DocumentWrite.rejected
  blocks := DocumentWrite.blocks

abbrev DocumentDb := Database DocumentWrite Documents

abbrev DocumentStatement := Request DocumentQuery DocumentWrite

inductive DocumentError where
  | api (status : Nat) (code message : Text)
  | database (message : Text)
  deriving DecidableEq

abbrev DocumentCall := Call DocumentStatement DocumentDb DocumentError

section

variable (client : Nat)

def findByOrgAndPath : DocumentCall (Option OrgDocument) := query client .findByOrgAndPath Documents.document

def Documents.latestVersion (state : Documents) : Option OrgDocumentVersion :=
  Table.latest OrgDocumentVersion.version state.versions

def getLatestVersionInfo : DocumentCall (Option OrgDocumentVersion) :=
  query client .getLatestVersionInfo Documents.latestVersion

def uniqueViolation : DocumentError := .database "duplicate key value violates unique constraint".toList

def insertDocument (document : OrgDocument) : DocumentCall OrgDocument := do
  write client (.insertDocument document) uniqueViolation
  return document

def updateDocument (data : UpdateOrgDocumentData) : DocumentCall (Option OrgDocument) :=
  .perform ⟨client, .write (.updateDocument data)⟩ fun db =>
    (db.view client).document.map data.apply

def createVersion (version : OrgDocumentVersion) : DocumentCall OrgDocumentVersion := do
  write client (.insertVersion version) uniqueViolation
  return version

def createEvent (event : DocumentEvent) : DocumentCall Unit := do
  let existing ← query client (.findByDedupeKey event.mutationId) fun state =>
    state.events.find? (·.mutationId == event.mutationId)
  match existing with
  | some _ => return ()
  | none => write client (.insertEvent event) uniqueViolation

def announce (type : Text) (document : OrgDocument) (version : OrgDocumentVersion)
    (actorId : Option Text) (mutationId : Text) : DocumentCall Unit := do
  let projectId ← match document.projectId with
    | some projectId => .ret (some projectId)
    | none => query client .findFirstByOrg Documents.firstProject
  match projectId with
  | none => return ()
  | some projectId =>
    createEvent client
      { projectId, type, actorId, version := version.version, mutationId,
        metadata := document.metadata }

end

def maxOrgDocumentSize : Nat := 10 * 1024 * 1024

def byteLength (text : Text) : Nat := (text.map Char.utf8Size).sum

structure CreateOrgDocumentRequest where
  content : Text
  mimeType : Text := "text/markdown".toList
  projectId : Option Text := none
  metadata : Option Json := none
  reviewDue : Option Text := none
  expiresAt : Option Text := none
  lifecycleStatus : Option LifecycleStatus := none

structure UpdateOrgDocumentRequest where
  content : Text
  mimeType : Option Text := none
  metadata : Option Json := none
  reviewDue : Option (Option Text) := none
  expiresAt : Option (Option Text) := none
  lifecycleStatus : Option LifecycleStatus := none
  embeddingModel : Option (Option Text) := none
  embeddingJson : Option (Option Json) := none
  embeddedAt : Option (Option Text) := none

inductive PatchOperation where
  | replace (search replacement : Text)
  | append (content : Text)
  | insertAfter (anchor content : Text)

structure OrgDocumentDetail where
  document : OrgDocument
  currentVersion : Nat
  latestMutationId : Option Text

def detail (document : OrgDocument) (version : OrgDocumentVersion) : OrgDocumentDetail where
  document := document
  currentVersion := version.version
  latestMutationId := version.mutationId

def notFound (path : Text) : DocumentError :=
  .api 404 "resource_not_found".toList ("Document not found: ".toList ++ path)

def tooLarge (what : String) (content : Text) : DocumentError :=
  .api 400 "resource_uri_invalid".toList
    (what ++ " size (" ++ toString (byteLength content) ++ " bytes) exceeds maximum of " ++
      toString maxOrgDocumentSize ++ " bytes (10 MB)").toList

def indexOf (search : Text) : Text → Option Nat
  | [] => if search.isEmpty then some 0 else none
  | char :: rest =>
    if search.isPrefixOf (char :: rest) then some 0 else (indexOf search rest).map (· + 1)

/-- What a replacement stands for: a dollar sign before another, an ampersand, a grave accent or
an apostrophe is a pattern. -/
def getSubstitution (matched before after : Text) : Text → Text
  | '$' :: '$' :: rest => '$' :: getSubstitution matched before after rest
  | '$' :: '&' :: rest => matched ++ getSubstitution matched before after rest
  | '$' :: char :: rest =>
    if char = Char.ofNat 0x60 then before ++ getSubstitution matched before after rest
    else if char = Char.ofNat 0x27 then after ++ getSubstitution matched before after rest
    else '$' :: getSubstitution matched before after (char :: rest)
  | char :: rest => char :: getSubstitution matched before after rest
  | [] => []

def excerpt (text : Text) : Text :=
  let shown := (List.range (text.length + 1)).filter fun count => Text.unitLength (text.take count) ≤ 100
  text.take (shown.foldl max 0) ++ if Text.unitLength text > 100 then "...".toList else []

def missing (operation what : String) (search : Text) : DocumentError :=
  .api 400 "resource_uri_invalid".toList
    ((operation ++ " operation failed: could not find " ++ what ++ " text: \"").toList ++ excerpt search ++ ['"'])

def PatchOperation.apply (content : Text) : PatchOperation → Except DocumentError Text
  | .replace search replacement =>
    match indexOf search content with
    | none => .error (missing "Replace" "search" search)
    | some index =>
      let before := content.take index
      let after := content.drop (index + search.length)
      .ok (before ++ getSubstitution search before after replacement ++ after)
  | .append added => .ok (content ++ added)
  | .insertAfter anchor added =>
    match indexOf anchor content with
    | none => .error (missing "Insert-after" "anchor" anchor)
    | some index =>
      .ok (content.take (index + anchor.length) ++ added ++ content.drop (index + anchor.length))

def applyOperations (operations : List PatchOperation) (content : Text) : Except DocumentError Text :=
  operations.foldlM PatchOperation.apply content

section

variable (client : Nat) (mutationId path : Text)

def create (data : CreateOrgDocumentRequest) (createdBy : Option Text) : DocumentCall OrgDocumentDetail := do
  if byteLength data.content > maxOrgDocumentSize then .raise (tooLarge "Document" data.content)
  else
    match ← findByOrgAndPath client with
    | some _ =>
      .raise (.api 409 "resource_conflict".toList ("Document already exists at path: ".toList ++ path))
    | none =>
      transaction client do
        let created ← insertDocument client
          { projectId := data.projectId
            mimeType := data.mimeType
            content := data.content
            createdBy
            metadata := data.metadata.getD (.object [])
            reviewDue := data.reviewDue
            expiresAt := data.expiresAt
            lifecycleStatus := data.lifecycleStatus.getD .active }
        let version ← createVersion client
          { version := 1
            content := data.content
            metadata := data.metadata.getD (.object [])
            createdBy
            mutationId := some mutationId }
        announce client "system.doc.created".toList created version createdBy mutationId
        return detail created version

def nextVersion (existing : OrgDocument) : DocumentCall Nat := do
  match ← getLatestVersionInfo client with
  | some latest => return latest.version + 1
  | none =>
    let _ ← createVersion client
      { version := 1
        content := existing.content
        metadata := existing.metadata
        createdBy := existing.createdBy
        mutationId := none }
    return 2

def UpdateOrgDocumentRequest.changes (data : UpdateOrgDocumentRequest) : UpdateOrgDocumentData where
  content := data.content
  mimeType := data.mimeType
  metadata := data.metadata
  reviewDue := data.reviewDue
  expiresAt := data.expiresAt
  lifecycleStatus := data.lifecycleStatus
  embeddingModel := data.embeddingModel
  embeddingJson := data.embeddingJson.join
  embeddedAt := data.embeddedAt

def update (data : UpdateOrgDocumentRequest) (actorId : Option Text) : DocumentCall OrgDocumentDetail := do
  if byteLength data.content > maxOrgDocumentSize then .raise (tooLarge "Document" data.content)
  else
    match ← findByOrgAndPath client with
    | none => .raise (notFound path)
    | some existing =>
      transaction client do
        let number ← nextVersion client existing
        match ← updateDocument client data.changes with
        | none => .raise (notFound path)
        | some next =>
          let version ← createVersion client
            { version := number
              content := data.content
              metadata := data.metadata.getD existing.metadata
              createdBy := actorId <|> existing.createdBy
              mutationId := some mutationId }
          announce client "system.doc.updated".toList next version actorId mutationId
          return detail next version

def patch (operations : List PatchOperation) (actorId : Option Text) : DocumentCall OrgDocumentDetail := do
  match ← findByOrgAndPath client with
  | none => .raise (notFound path)
  | some existing =>
    match applyOperations operations existing.content with
    | .error error => .raise error
    | .ok content =>
      if byteLength content > maxOrgDocumentSize then
        .raise (tooLarge "Resulting document" content)
      else
        transaction client do
          let number ← nextVersion client existing
          match ← updateDocument client { content } with
          | none => .raise (notFound path)
          | some next =>
            let version ← createVersion client
              { version := number
                content
                metadata := next.metadata
                createdBy := actorId <|> existing.createdBy
                mutationId := some mutationId }
            announce client "system.doc.updated".toList next version actorId mutationId
            return detail next version

def reviewDocument (nextReviewAt : Text) (actorId : Option Text) : DocumentCall OrgDocumentDetail := do
  match ← findByOrgAndPath client with
  | none => .raise (notFound path)
  | some existing =>
    let updated ← updateDocument client
      { content := existing.content
        reviewDue := some (some nextReviewAt)
        lifecycleStatus := some .active
        metadata := some existing.metadata
        mimeType := some existing.mimeType }
    match updated with
    | none => .raise (notFound path)
    | some updated =>
      let latest ← getLatestVersionInfo client
      let version ← createVersion client
        { version := (latest.elim 0 OrgDocumentVersion.version) + 1
          content := existing.content
          metadata := existing.metadata
          createdBy := actorId <|> existing.createdBy
          mutationId := some mutationId }
      return detail updated version

end

inductive DocumentOperation where
  | create (mutationId : Text) (data : CreateOrgDocumentRequest) (createdBy : Option Text)
  | update (mutationId : Text) (data : UpdateOrgDocumentRequest) (actorId : Option Text)
  | patch (mutationId : Text) (operations : List PatchOperation) (actorId : Option Text)
  | reviewDocument (mutationId : Text) (nextReviewAt : Text) (actorId : Option Text)

def DocumentOperation.call (path : Text) (client : Nat) : DocumentOperation → DocumentCall OrgDocumentDetail
  | .create mutationId data createdBy => OrgDocuments.create client mutationId path data createdBy
  | .update mutationId data actorId => OrgDocuments.update client mutationId path data actorId
  | .patch mutationId operations actorId => OrgDocuments.patch client mutationId path operations actorId
  | .reviewDocument mutationId nextReviewAt actorId =>
    OrgDocuments.reviewDocument client mutationId path nextReviewAt actorId

def runDocuments (path : Text) (state : Documents) (schedule : List (Choice DocumentOperation)) :
    System DocumentStatement DocumentDb DocumentError OrgDocumentDetail :=
  System.run (DocumentOperation.call path) { committed := state } schedule

end EveHorizon.OrgDocuments
