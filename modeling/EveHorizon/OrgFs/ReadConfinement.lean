import EveHorizon.OrgFs.Reads
import EveHorizon.OrgFs.Tailing

/-!
# Which reads are confined to the caller's scope

Some endpoints ask for every path, the others ask once whether the caller has some scope at all.
-/

namespace EveHorizon.OrgFs

open List
open Access (AccessBindingScope PrefixScope RawGrant)
open Checks (bind_eq_ok)
open Content (ListObjects CreateShare Moment)

def adminPermission : Text := "orgfs:admin".toList

inductive ReadRequest where
  | listEvents (afterSeq limit : Int)
  | streamEvents (afterSeq : Int)
  | listObjects (opts : ListObjects)
  | createShare (body : CreateShare)
  | listShares
  | getDownloadUrl (path : Text)

inductive ReadReply where
  | events (data : List OrgFsEvent)
  | stream (messages : List StreamMessage)
  | objects (data : List OrgFsObject)
  | share (row : OrgFsShareRow)
  | shares (data : List OrgFsShareRow)
  | object (row : OrgFsObject)
  deriving DecidableEq

def StreamMessage.filePath : StreamMessage → Option Text
  | .event row => some row.filePath
  | .checkpoint _ => none

def ReadReply.paths : ReadReply → List Text
  | .events data => data.map OrgFsEvent.filePath
  | .stream messages => messages.filterMap StreamMessage.filePath
  | .objects data => data.map OrgFsObject.path
  | .share row => [row.path]
  | .shares data => data.map OrgFsShareRow.path
  | .object row => [row.path]

namespace ReadRequest

def permission : ReadRequest → Text
  | .listShares => adminPermission
  | _ => readPermission

def normalizeScopedPath (path : Text) : Text :=
  let trimmed := Text.trim path
  if trimmed.isEmpty then ['/']
  else if Text.startsWith ['/'] trimmed then trimmed
  else '/' :: trimmed

def visibleEvents (caller : Caller) : List OrgFsEvent → Except ReadError (List OrgFsEvent)
  | [] => return []
  | event :: events => do
    let allowed ← caller.can readPermission (some ⟨.orgfs, event.filePath, .read⟩)
    let visible ← visibleEvents caller events
    return if allowed then event :: visible else visible

variable (precedes : Text → Text → Bool)

def handle (caller : Caller) (moment : Moment) (orgIdOrSlug : Text) (content : Content) (later : List Content) :
    ReadRequest → Except ReadError ReadReply
  | .listEvents afterSeq limit => do
    let events ← content.listEvents orgIdOrSlug afterSeq limit
    caller.assert readPermission none
    return .events (← visibleEvents caller events)
  | .streamEvents afterSeq => do
    caller.assert readPermission none
    return .stream (OrgFs.streamEvents orgIdOrSlug afterSeq (content :: later))
  | .listObjects opts => do
    caller.assert readPermission none
    return .objects (← content.listObjects precedes orgIdOrSlug opts)
  | .createShare body => do
    caller.assert readPermission none
    let actorId := (caller.user.map (·.userId)).getD "system".toList
    return .share (← content.createShare moment orgIdOrSlug body actorId).1
  | .listShares => do
    caller.assert adminPermission none
    return .shares (← content.listShares moment.now orgIdOrSlug)
  | .getDownloadUrl path => do
    if path.isEmpty then throw (.badRequest "path query parameter is required".toList)
    caller.assert readPermission (some ⟨.orgfs, normalizeScopedPath path, .read⟩)
    return .object (← content.getDownloadUrl orgIdOrSlug path)

def respond (caller : Caller) (moment : Moment) (orgIdOrSlug : Text) (content : Content) (later : List Content)
    (request : ReadRequest) : Except ReadError ReadReply := do
  caller.canActivate request.permission
  request.handle precedes caller moment orgIdOrSlug content later

def AsksEachPath : ReadRequest → Prop
  | .listEvents _ _ | .getDownloadUrl _ => True
  | _ => False

def Admits (request : ReadRequest) (caller : Caller) : Prop :=
  caller.canActivate request.permission = .ok () ∧ caller.assert request.permission none = .ok ()

/-- Some content holds the path where the request finds it. -/
def Reaches : ReadRequest → Text → Prop
  | .listEvents afterSeq _, path | .streamEvents afterSeq, path => 0 ≤ afterSeq ∧ path.head? = some '/'
  | .listObjects opts, path => opts.selects precedes path = true
  | .createShare body, path =>
    normalizePath body.path = .ok path ∧ ∃ expiresAt, parseExpiry 0 body.expiresIn = .ok expiresAt
  | .listShares, _ => True
  | .getDownloadUrl path, found => normalizePath path = .ok found

/-- Whatever is stored, the request returns only paths that the caller may read. -/
def Confined (caller : Caller) (request : ReadRequest) : Prop :=
  ∀ moment orgIdOrSlug content later reply,
    request.respond precedes caller moment orgIdOrSlug content later = .ok reply →
      ∀ path ∈ reply.paths, caller.Reads path

end ReadRequest

theorem Caller.assert_eq_ok {caller : Caller} {permission : Text} {resource : Option Access.AccessResourceContext} :
    caller.assert permission resource = .ok () ↔ caller.can permission resource = .ok true := by
  unfold Caller.assert
  rw [bind_eq_ok]
  constructor
  · intro passed
    obtain ⟨allowed, asked, onward⟩ := passed
    cases allowed with
    | true => exact asked
    | false => cases onward
  · intro asked
    exact ⟨true, asked, rfl⟩

namespace ReadRequest

variable {precedes : Text → Text → Bool} {caller : Caller} {moment : Moment} {orgIdOrSlug : Text} {content : Content}
  {later : List Content} {events : List OrgFsEvent}

theorem visibleEvents_readable {visible : List OrgFsEvent} (filtered : visibleEvents caller events = .ok visible) :
    ∀ event ∈ visible, caller.Reads event.filePath := by
  induction events generalizing visible with
  | nil =>
    cases filtered
    simp
  | cons event events ih =>
    obtain ⟨allowed, asked, onward⟩ := bind_eq_ok.mp filtered
    obtain ⟨others, rest, same⟩ := bind_eq_ok.mp onward
    cases same
    cases allowed with
    | false => exact ih rest
    | true => exact forall_mem_cons.mpr ⟨asked, ih rest⟩

variable {path : Text}

theorem normalizeScopedPath_eq {found : Text} (normalized : normalizePath path = .ok found) :
    normalizeScopedPath path = found := by
  by_cases blank : (Text.trim path).isEmpty = true
  · simp only [normalizePath, blank, if_true, reduceCtorEq] at normalized
  · simp only [normalizePath, if_neg blank] at normalized
    simp only [normalizeScopedPath, if_neg blank]
    by_cases climbs : (List.splitOn '/' (if Text.startsWith ['/'] (Text.trim path) = true then
        Text.trim path else '/' :: Text.trim path)).contains ['.', '.'] = true
    · rw [if_pos climbs] at normalized
      cases normalized
    · rw [if_neg climbs] at normalized
      exact Except.ok.inj normalized

variable {object : OrgFsObject}

theorem findByPath_path {org : Org} (found : content.findByPath org path = .ok object) : object.path = path := by
  unfold Content.findByPath at found
  split at found
  · next object' search =>
      cases found
      have holds := find?_some search
      simp only [Bool.and_eq_true, beq_iff_eq] at holds
      exact holds.1.2
  · cases found

theorem getDownloadUrl_path (returned : content.getDownloadUrl orgIdOrSlug path = .ok object) :
    normalizePath path = .ok object.path := by
  obtain ⟨_, _, returned⟩ := bind_eq_ok.mp returned
  obtain ⟨org, _, returned⟩ := bind_eq_ok.mp returned
  obtain ⟨normalizedPath, normalized, found⟩ := bind_eq_ok.mp returned
  rw [findByPath_path found]
  exact normalized

variable {afterSeq : Int}

theorem mem_listEvents {limit : Int} {event : OrgFsEvent}
    (listed : content.listEvents orgIdOrSlug afterSeq limit = .ok events) (member : event ∈ events) :
    0 ≤ afterSeq ∧ event.filePath.head? = some '/' := by
  obtain ⟨org, _, listed⟩ := bind_eq_ok.mp listed
  by_cases negative : afterSeq < 0
  · rw [if_pos negative] at listed
    cases listed
  · rw [if_neg negative] at listed
    cases listed
    have visible := (Paging.mem_page member).1
    exact ⟨Int.not_lt.mp negative, content.rooted event (mem_of_mem_filter visible)⟩

theorem mem_streamEvents {contents : List Content} {message : StreamMessage}
    (sent : message ∈ OrgFs.streamEvents orgIdOrSlug afterSeq contents)
    (names : message.filePath = some path) : 0 ≤ afterSeq ∧ path.head? = some '/' := by
  induction contents generalizing afterSeq with
  | nil => cases sent
  | cons content later ih =>
    unfold OrgFs.streamEvents at sent
    cases listed : content.listEvents orgIdOrSlug afterSeq streamBatchLimit with
    | error _ =>
      rw [listed] at sent
      cases sent
    | ok batch =>
      rw [listed] at sent
      have started : 0 ≤ afterSeq := by
        obtain ⟨org, _, listed⟩ := bind_eq_ok.mp listed
        by_cases negative : afterSeq < 0
        · rw [if_pos negative] at listed
          cases listed
        · exact Int.not_lt.mp negative
      refine ⟨started, ?_⟩
      rcases mem_append.mp sent with now | onward
      · by_cases quiet : batch.isEmpty = true
        · simp only [streamBatch, quiet, if_true, mem_singleton] at now
          rw [now] at names
          cases names
        · simp only [streamBatch, if_neg quiet, mem_map] at now
          obtain ⟨event, member, rfl⟩ := now
          cases names
          exact (mem_listEvents listed member).2
      · exact (ih onward).2

variable {opts : ListObjects}

theorem mem_listObjects {objects : List OrgFsObject}
    (listed : content.listObjects precedes orgIdOrSlug opts = .ok objects) (member : object ∈ objects) :
    opts.selects precedes object.path = true := by
  obtain ⟨org, _, same⟩ := bind_eq_ok.mp listed
  cases same
  have selected := (mem_insertionSort _).mp (mem_of_mem_take member)
  have holds := (mem_filter.mp selected).2
  simp only [Bool.and_eq_true] at holds
  exact holds.2

theorem parseExpiry_earlier {now : Nat} {expiresIn : Option Text} {expiresAt : Option Nat}
    (parsed : parseExpiry now expiresIn = .ok expiresAt) : ∃ earlier, parseExpiry 0 expiresIn = .ok earlier := by
  unfold parseExpiry at parsed ⊢
  cases given : expiresIn.filter (!·.isEmpty) with
  | none => exact ⟨none, rfl⟩
  | some text =>
    rw [given] at parsed
    cases read : expiryMilliseconds ((Text.trim text).map Char.toLower) with
    | none => simp only [read, reduceCtorEq] at parsed
    | some milliseconds =>
      simp only [read] at parsed ⊢
      by_cases fits : now + milliseconds ≤ lastDate
      · have sooner : 0 + milliseconds ≤ lastDate := by omega
        exact ⟨some (0 + milliseconds), if_pos sooner⟩
      · rw [if_neg fits] at parsed
        cases parsed

variable {body : CreateShare}

theorem createShare_path {actorId : Text} {row : OrgFsShareRow} {after : Content}
    (created : content.createShare moment orgIdOrSlug body actorId = .ok (row, after)) :
    normalizePath body.path = .ok row.path ∧ ∃ expiresAt, parseExpiry 0 body.expiresIn = .ok expiresAt := by
  obtain ⟨_, _, created⟩ := bind_eq_ok.mp created
  obtain ⟨org, _, created⟩ := bind_eq_ok.mp created
  obtain ⟨normalizedPath, normalized, created⟩ := bind_eq_ok.mp created
  obtain ⟨_, _, created⟩ := bind_eq_ok.mp created
  obtain ⟨expiresAt, parsed, same⟩ := bind_eq_ok.mp created
  cases same
  exact ⟨normalized, parseExpiry_earlier parsed⟩

variable {request : ReadRequest}

theorem returned {reply : ReadReply}
    (responded : request.respond precedes caller moment orgIdOrSlug content later = .ok reply)
    (member : path ∈ reply.paths) :
    caller.Reads path ∨ (¬ request.AsksEachPath ∧ request.Admits caller ∧ request.Reaches precedes path) := by
  obtain ⟨_, guarded, handled⟩ := bind_eq_ok.mp responded
  cases request with
  | listEvents afterSeq limit =>
    obtain ⟨events, listed, handled⟩ := bind_eq_ok.mp handled
    obtain ⟨_, _, handled⟩ := bind_eq_ok.mp handled
    obtain ⟨visible, filtered, same⟩ := bind_eq_ok.mp handled
    cases same
    obtain ⟨event, present, rfl⟩ := mem_map.mp member
    exact .inl (visibleEvents_readable filtered event present)
  | streamEvents afterSeq =>
    obtain ⟨_, asserted, same⟩ := bind_eq_ok.mp handled
    cases same
    obtain ⟨message, sent, names⟩ := mem_filterMap.mp member
    exact .inr ⟨id, ⟨guarded, asserted⟩, mem_streamEvents sent names⟩
  | listObjects opts =>
    obtain ⟨_, asserted, handled⟩ := bind_eq_ok.mp handled
    obtain ⟨objects, listed, same⟩ := bind_eq_ok.mp handled
    cases same
    obtain ⟨object, present, rfl⟩ := mem_map.mp member
    exact .inr ⟨id, ⟨guarded, asserted⟩, mem_listObjects listed present⟩
  | createShare body =>
    obtain ⟨_, asserted, handled⟩ := bind_eq_ok.mp handled
    obtain ⟨⟨row, after⟩, created, same⟩ := bind_eq_ok.mp handled
    cases same
    rw [mem_singleton.mp member]
    exact .inr ⟨id, ⟨guarded, asserted⟩, createShare_path created⟩
  | listShares =>
    obtain ⟨_, asserted, _⟩ := bind_eq_ok.mp handled
    exact .inr ⟨id, ⟨guarded, asserted⟩, trivial⟩
  | getDownloadUrl wanted =>
    by_cases absent : wanted.isEmpty = true
    · simp only [handle, absent, if_true] at handled
      cases handled
    simp only [handle, if_neg absent] at handled
    obtain ⟨_, asserted, handled⟩ := bind_eq_ok.mp handled
    obtain ⟨object, found, same⟩ := bind_eq_ok.mp handled
    cases same
    rw [mem_singleton.mp member]
    rw [normalizeScopedPath_eq (getDownloadUrl_path found)] at asserted
    exact .inl (Caller.assert_eq_ok.mp asserted)

def soleOrg : Org where
  id := []
  slug := []

def eventAt (seq : Nat) (path : Text) : OrgFsEvent where
  seq := seq
  id := ""
  orgId := String.ofList soleOrg.id
  linkId := none
  deviceId := none
  eventType := "file.created"
  path := String.ofList path
  contentHash := none
  sizeBytes := none
  sourceSide := .localSide
  storageKey := none

def objectAt (path : Text) : OrgFsObject where
  id := []
  orgId := soleOrg.id
  path := path
  storageKey := path
  contentHash := []
  sizeBytes := 0

def shareOf (path : Text) : OrgFsShareRow where
  id := []
  orgId := soleOrg.id
  path := path
  label := none
  createdBy := []
  expiresAt := none
  createdAt := 0

def storing (path : Text) : Content where
  orgs := [soleOrg]
  log := .empty
  objects := [objectAt path]
  shares := [shareOf path]
  rooted := by simp [EventLog.empty]

def logging (seq : Nat) {path : Text} (rooted : path.head? = some '/') : Content where
  orgs := [soleOrg]
  log :=
    { events := [eventAt seq path]
      uncommitted := []
      nextSeq := seq + 1
      below := by simp [eventAt]
      distinct := by simp }
  objects := []
  shares := []
  rooted := by simp [eventAt, rooted]

theorem streamEvents_logging (started : 0 ≤ afterSeq) (rooted : path.head? = some '/') :
    StreamMessage.event (eventAt (afterSeq.toNat + 1) path) ∈
      OrgFs.streamEvents soleOrg.id afterSeq [logging (afterSeq.toNat + 1) rooted] := by
  have listed : (logging (afterSeq.toNat + 1) rooted).listEvents soleOrg.id afterSeq streamBatchLimit =
      .ok [eventAt (afterSeq.toNat + 1) path] := by
    have resolved : (logging (afterSeq.toNat + 1) rooted).resolveOrg soleOrg.id = .ok soleOrg := rfl
    unfold Content.listEvents
    rw [resolved]
    change (if afterSeq < 0 then _ else _) = _
    rw [if_neg (Int.not_lt.mpr started)]
    simp [EventLog.listEvents, EventLog.visible, logging, Paging.page, eventAt, boundedLimit,
      streamBatchLimit, pure, Except.pure]
  unfold OrgFs.streamEvents
  rw [listed]
  exact mem_append_left _ mem_cons_self

theorem listObjects_storing (selects : opts.selects precedes path = true) :
    (storing path).listObjects precedes soleOrg.id opts = .ok [objectAt path] := by
  have resolved : (storing path).resolveOrg soleOrg.id = .ok soleOrg := rfl
  unfold Content.listObjects
  rw [resolved]
  have kept : [objectAt path].filter (fun object => object.orgId == soleOrg.id &&
      object.deletedAt.isNone && opts.selects precedes object.path) = [objectAt path] :=
    filter_eq_self.mpr fun object member => by
      rw [mem_singleton.mp member]
      simp [objectAt, selects]
  obtain ⟨limit, positive⟩ := Nat.exists_eq_succ_of_ne_zero (Nat.ne_of_gt (Tailing.boundedLimit_pos opts.limit))
  change Except.ok (List.take _ (List.insertionSort _ ([objectAt path].filter _))) = _
  rw [kept, positive, insertionSort_cons, insertionSort_nil, orderedInsert_nil, take_succ_cons, take_nil]

theorem createShare_storing (actorId : Text) (normalized : normalizePath body.path = .ok path) {expiresAt : Option Nat}
    (parsed : parseExpiry 0 body.expiresIn = .ok expiresAt) :
    ∃ row after, (storing path).createShare ⟨0, []⟩ soleOrg.id body actorId = .ok (row, after) ∧ row.path = path := by
  have resolved : (storing path).resolveOrg soleOrg.id = .ok soleOrg := rfl
  have found : (storing path).findByPath soleOrg path = .ok (objectAt path) := by
    simp [Content.findByPath, storing, objectAt]
  refine ⟨_, _, bind_eq_ok.mpr ⟨(), rfl, bind_eq_ok.mpr ⟨soleOrg, resolved, bind_eq_ok.mpr
    ⟨path, normalized, bind_eq_ok.mpr ⟨_, found, bind_eq_ok.mpr ⟨expiresAt, parsed, rfl⟩⟩⟩⟩⟩, rfl⟩

theorem reached (pathless : ¬ request.AsksEachPath) (admits : request.Admits caller)
    (reaches : request.Reaches precedes path) :
    ∃ moment orgIdOrSlug content later reply,
      request.respond precedes caller moment orgIdOrSlug content later = .ok reply ∧ path ∈ reply.paths := by
  obtain ⟨guarded, asserted⟩ := admits
  cases request with
  | listEvents afterSeq limit | getDownloadUrl wanted => exact absurd trivial pathless
  | streamEvents afterSeq =>
    obtain ⟨started, rooted⟩ := reaches
    have sent := streamEvents_logging started rooted
    refine ⟨⟨0, []⟩, soleOrg.id, logging (afterSeq.toNat + 1) rooted, [], .stream _,
      bind_eq_ok.mpr ⟨(), guarded, bind_eq_ok.mpr ⟨(), asserted, rfl⟩⟩, ?_⟩
    refine mem_filterMap.mpr ⟨_, sent, ?_⟩
    simp [StreamMessage.filePath, OrgFsEvent.filePath, eventAt]
  | listObjects opts =>
    exact ⟨⟨0, []⟩, soleOrg.id, storing path, [], .objects [objectAt path],
      bind_eq_ok.mpr ⟨(), guarded, bind_eq_ok.mpr ⟨(), asserted,
        bind_eq_ok.mpr ⟨_, listObjects_storing reaches, rfl⟩⟩⟩, mem_cons_self⟩
  | createShare body =>
    obtain ⟨normalized, expiresAt, parsed⟩ := reaches
    obtain ⟨row, after, created, names⟩ := createShare_storing
      ((caller.user.map (·.userId)).getD "system".toList) normalized parsed
    refine ⟨⟨0, []⟩, soleOrg.id, storing path, [], .share row,
      bind_eq_ok.mpr ⟨(), guarded, bind_eq_ok.mpr ⟨(), asserted, bind_eq_ok.mpr ⟨_, created, rfl⟩⟩⟩, ?_⟩
    rw [← names]
    exact mem_cons_self
  | listShares =>
    exact ⟨⟨0, []⟩, soleOrg.id, storing path, [], .shares [shareOf path],
      bind_eq_ok.mpr ⟨(), guarded, bind_eq_ok.mpr ⟨(), asserted, rfl⟩⟩, mem_cons_self⟩

/-- Reads are confined on the endpoints that ask for each path. On the others they are confined
for a caller that is not let through, and for one that may read whatever the request reaches. -/
theorem reads_confined_iff (precedes : Text → Text → Bool) (caller : Caller) (request : ReadRequest) :
    request.Confined precedes caller ↔ request.AsksEachPath ∨ ¬ request.Admits caller ∨
        ∀ path, request.Reaches precedes path → caller.Reads path := by
  constructor
  · intro confined
    by_cases asks : request.AsksEachPath
    · exact .inl asks
    · right
      by_cases admits : request.Admits caller
      · right
        intro path reaches
        obtain ⟨moment, orgIdOrSlug, content, later, reply, responded, member⟩ := reached asks admits reaches
        exact confined moment orgIdOrSlug content later reply responded path member
      · exact .inl admits
  · intro safe moment orgIdOrSlug content later reply responded path member
    rcases returned responded member with readable | ⟨asks, admits, reaches⟩
    · exact readable
    · rcases safe with asking | refused | reads
      · exact absurd asking asks
      · exact absurd admits refused
      · exact reads path reaches

def docsScope : AccessBindingScope where
  orgfs := some { allowPrefixes := some ["/docs/**".toList] }

def docsCaller : Caller where
  user := some { userId := "user_1".toList }
  effective := [readPermission]
  grantsOf := fun _ =>
    [{ source := "binding".toList
       permissions := [readPermission]
       scopeJson := some (some docsScope) }]

def payroll : Text := "/finance/payroll.csv".toList

def wholeListing : ReadRequest := .listObjects { pathPrefix := none, limit := 100, after := none }

/-- The listing hands the reader of the documents an object that it may not read. -/
theorem payroll_listed : ¬ ∀ (precedes : Text → Text → Bool) (caller : Caller) (request : ReadRequest),
      request.Confined precedes caller := by
  intro confined
  have listed : wholeListing.respond (fun _ _ => true) docsCaller ⟨0, []⟩ soleOrg.id (storing payroll) [] =
      .ok (.objects [objectAt payroll]) := by decide +kernel
  have readable := confined _ docsCaller wholeListing _ _ _ _ _ listed payroll mem_cons_self
  have unreadable : ¬ docsCaller.Reads payroll := by decide +kernel
  exact unreadable readable

end ReadRequest

end EveHorizon.OrgFs
