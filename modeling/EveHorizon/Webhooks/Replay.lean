import EveHorizon.Library.Traces
import EveHorizon.Webhooks.Operations

/-!
# Replays and events that were delivered before

A replay leaves out the events that the subscription has a delivery of, as far as the delivery
is recorded under the event's own id.
-/

namespace EveHorizon.Webhooks

open Interleaving List Call Statement

def WebhookDb.announcements (db : WebhookDb) (subscriptionId : Uuid) (event : Text) : Nat :=
  db.deliveries.countP fun row => row.subscriptionId == subscriptionId && row.announces == event

def WebhookDb.Once (db : WebhookDb) : Prop :=
  ∀ subscriptionId event, db.announcements subscriptionId event ≤ 1

namespace CreateWebhookDeliveryData

def key (data : CreateWebhookDeliveryData) : Uuid × CloudEventId := (data.subscriptionId, data.eventId)

def announcesTo (subscriptionId : Uuid) (event : Text) (data : CreateWebhookDeliveryData) : Bool :=
  data.subscriptionId == subscriptionId && data.announces == event

end CreateWebhookDeliveryData

def created (datas : List CreateWebhookDeliveryData) (db : WebhookDb) : WebhookDb :=
  executed (datas.map WebhookStatement.createDelivery) db

variable {datas : List CreateWebhookDeliveryData}

section

variable {db : WebhookDb} {data other : CreateWebhookDeliveryData} {subscriptionId : Uuid}
  {event : Text}

theorem conflicts_iff : db.conflicts data = true ↔
    ∃ row ∈ db.deliveries, (row.subscriptionId, row.eventId) = data.key := by
  simp [WebhookDb.conflicts, CreateWebhookDeliveryData.key]

theorem newDelivery_free (free : db.conflicts data = false) :
    ∃ row, db.newDelivery data = some row ∧ (row.subscriptionId, row.eventId) = data.key ∧
      row.announces = data.announces := by
  simp only [WebhookDb.newDelivery, free]
  exact ⟨_, rfl, rfl, rfl⟩

theorem deliveries_created (free : db.conflicts data = false) :
    ∃ row, (effect (WebhookStatement.createDelivery data) db).deliveries =
        row :: db.deliveries ∧ (row.subscriptionId, row.eventId) = data.key ∧ row.announces = data.announces := by
  obtain ⟨row, added, keyed, announced⟩ := newDelivery_free free
  refine ⟨row, ?_, keyed, announced⟩
  simp [effect, WebhookStatement.effect, added]

theorem free_created (free : db.conflicts other = false) (vacant : db.conflicts data = false)
    (apart : other.key ≠ data.key) : (effect (WebhookStatement.createDelivery data) db).conflicts other = false := by
  obtain ⟨row, deliveries, keyed, _⟩ := deliveries_created vacant
  rw [Bool.eq_false_iff, Ne, conflicts_iff, deliveries]
  intro taken
  obtain ⟨older, member, same⟩ := taken
  rcases mem_cons.mp member with isNew | present
  · rw [isNew, keyed] at same
    exact apart same.symm
  · exact Bool.eq_false_iff.mp free (conflicts_iff.mpr ⟨older, present, same⟩)

theorem announcements_create (free : db.conflicts data = false) :
    (effect (WebhookStatement.createDelivery data) db).announcements subscriptionId event =
      db.announcements subscriptionId event + if data.announcesTo subscriptionId event then 1 else 0 := by
  obtain ⟨row, deliveries, keyed, announced⟩ := deliveries_created free
  obtain ⟨toSubscription, _⟩ := Prod.mk.inj keyed
  simp only [WebhookDb.announcements, deliveries, countP_cons, toSubscription, announced,
    CreateWebhookDeliveryData.announcesTo]
  rfl

structure Insertable (db : WebhookDb) (datas : List CreateWebhookDeliveryData) : Prop where
  free : ∀ data ∈ datas, db.conflicts data = false
  distinct : (datas.map CreateWebhookDeliveryData.key).Nodup

theorem Insertable.tail {datas : List CreateWebhookDeliveryData} (insertable : Insertable db (data :: datas)) :
    Insertable (effect (WebhookStatement.createDelivery data) db) datas := by
  obtain ⟨apart, distinct⟩ := nodup_cons.mp insertable.distinct
  have vacant := insertable.free data mem_cons_self
  refine ⟨fun other member => ?_, distinct⟩
  have free := insertable.free other (mem_cons_of_mem _ member)
  exact free_created free vacant fun same => apart (same ▸ mem_map_of_mem member)

theorem announcements_created (insertable : Insertable db datas) :
    (created datas db).announcements subscriptionId event =
      db.announcements subscriptionId event + datas.countP (·.announcesTo subscriptionId event) := by
  induction datas generalizing db with
  | nil => simp [created]
  | cons data datas ih =>
    have vacant := insertable.free data mem_cons_self
    have later := ih insertable.tail
    rw [announcements_create vacant] at later
    change (created datas _).announcements subscriptionId event = _
    rw [later, countP_cons]
    omega

end

variable {data : CreateWebhookDeliveryData}

section

variable {db : WebhookDb}

theorem createDelivery_alone (free : db.conflicts data = false) :
    ∃ row, (createDelivery data).alone db = (.ok row, effect (WebhookStatement.createDelivery data) db) := by
  obtain ⟨row, added, _⟩ := newDelivery_free free
  refine ⟨row, ?_⟩
  unfold createDelivery
  rw [alone_perform_bind, added]
  rfl

theorem forEach_creates {α : Type} {items : List α} {data : α → CreateWebhookDeliveryData}
    (insertable : Insertable db (items.map data)) :
    (Call.forEach items fun item => do
        let _ ← createDelivery (data item) : WebhookCall Unit).alone db =
      (.ok (), created (items.map data) db) := by
  induction items generalizing db with
  | nil => rfl
  | cons item items ih =>
    obtain ⟨row, inserts⟩ := createDelivery_alone (insertable.free (data item) mem_cons_self)
    rw [Call.forEach, bind_eq, alone_bind_ok (alone_bind_ok inserts _)]
    exact ih insertable.tail

theorem replayEvents_creates {sub : WebhookSubscription} {orgId : Text} {existing : List Text}
    {events : List Event} (counts : ReplayCounts) (insertable : Insertable db
      ((events.filter fun event => !existing.contains event.id).map (replayDelivery sub orgId))) :
    ∃ counted, (replayEvents sub orgId existing events counts).alone db = (.ok counted, created
        ((events.filter fun event => !existing.contains event.id).map (replayDelivery sub orgId)) db) := by
  induction events generalizing db counts with
  | nil => exact ⟨counts, rfl⟩
  | cons event events ih =>
    by_cases known : existing.contains event.id = true
    · rw [filter_cons_of_neg (by rw [known]; decide)] at insertable ⊢
      obtain ⟨counted, later⟩ := ih _ insertable
      refine ⟨counted, ?_⟩
      rw [replayEvents, alone_bind, replayEvent, if_pos known]
      exact later
    · rw [filter_cons_of_pos (by rw [Bool.eq_false_iff.mpr known]; rfl), map_cons] at insertable ⊢
      obtain ⟨row, inserts⟩ := createDelivery_alone (insertable.free _ mem_cons_self)
      obtain ⟨counted, later⟩ := ih _ insertable.tail
      refine ⟨counted, ?_⟩
      rw [replayEvents, alone_bind, replayEvent, if_neg known, alone_handle, alone_bind, inserts]
      exact later

end

def CreateWebhookDeliveryData.announced (data : CreateWebhookDeliveryData) : Uuid × Text :=
  (data.subscriptionId, data.announces)

open CreateWebhookDeliveryData (announced announcesTo key)

section

variable {db : WebhookDb} {datas : List CreateWebhookDeliveryData} {subscriptionId : Uuid} {event : Text}

theorem countP_announcesTo : datas.countP (·.announcesTo subscriptionId event) =
      (datas.map announced).count (subscriptionId, event) := by
  induction datas with
  | nil => rfl
  | cons data datas ih =>
    rw [countP_cons, map_cons, count_cons, ih]
    simp [announcesTo, announced]

theorem announced_once (insertable : Insertable db datas) (apart : (datas.map announced).Nodup)
    (member : data ∈ datas) :
    (created datas db).announcements data.subscriptionId data.announces =
      db.announcements data.subscriptionId data.announces + 1 := by
  rw [announcements_created insertable, countP_announcesTo]
  have present : data.announced ∈ datas.map announced := mem_map_of_mem member
  rw [show (data.subscriptionId, data.announces) = data.announced from rfl, count_eq_one_of_mem apart present]

theorem once_created_iff (insertable : Insertable db datas) (apart : (datas.map announced).Nodup) (once : db.Once) :
    (created datas db).Once ↔ ∀ data ∈ datas, db.announcements data.subscriptionId data.announces = 0 := by
  constructor
  · intro after data member
    have atMostOne := after data.subscriptionId data.announces
    rw [announced_once insertable apart member] at atMostOne
    omega
  · intro unannounced subscriptionId event
    by_cases present : (subscriptionId, event) ∈ datas.map announced
    · obtain ⟨data, member, same⟩ := mem_map.mp present
      obtain ⟨rfl, rfl⟩ := Prod.mk.inj same
      rw [announced_once insertable apart member, unannounced data member]
    · rw [announcements_created insertable, countP_announcesTo, count_eq_zero_of_not_mem present]
      exact once subscriptionId event

theorem announcements_eq_zero_iff : db.announcements subscriptionId event = 0 ↔
    ∀ row ∈ db.deliveries, row.subscriptionId = subscriptionId → row.announces ≠ event := by
  simp [WebhookDb.announcements, countP_eq_zero]

end

/-- Random ids have been drawn, and a row under a stored event's id announces that event. -/
structure WebhookDb.Recorded (db : WebhookDb) : Prop where
  drawn : ∀ row ∈ db.deliveries, ∀ uuid, row.eventId = .random uuid → uuid < db.nextUuid
  named : ∀ row ∈ db.deliveries, ∀ id, row.eventId = .event id → row.announces = id

/-- What an insertion may record. -/
structure CreateWebhookDeliveryData.Honest (bound : Uuid) (data : CreateWebhookDeliveryData) : Prop where
  drawn : ∀ uuid, data.eventId = .random uuid → uuid < bound
  named : ∀ id, data.eventId = .event id → data.announces = id

variable {db : WebhookDb}

theorem recorded_created (bound : Uuid) (insertable : Insertable db datas) (honest : ∀ data ∈ datas, data.Honest bound)
    (drawn : bound ≤ db.nextUuid) (recorded : db.Recorded) : (created datas db).Recorded := by
  induction datas generalizing db with
  | nil => exact recorded
  | cons data datas ih =>
    have vacant := insertable.free data mem_cons_self
    have own := honest data mem_cons_self
    obtain ⟨row, deliveries, keyed, announced⟩ := deliveries_created vacant
    obtain ⟨_, sameId⟩ := Prod.mk.inj keyed
    apply ih insertable.tail (fun other member => honest other (mem_cons_of_mem _ member))
    · exact Nat.le_succ_of_le drawn
    · constructor
      · intro other member uuid isRandom
        rw [deliveries] at member
        apply Nat.lt_succ_of_lt
        rcases mem_cons.mp member with isNew | present
        · rw [isNew, sameId] at isRandom
          exact Nat.lt_of_lt_of_le (own.drawn uuid isRandom) drawn
        · exact recorded.drawn other present uuid isRandom
      · intro other member id isEvent
        rw [deliveries] at member
        rcases mem_cons.mp member with isNew | present
        · rw [isNew, sameId] at isEvent
          rw [isNew, announced]
          exact own.named id isEvent
        · exact recorded.named other present id isEvent

/-- The rows of deliveries are recorded, and announce nothing twice. -/
structure WebhookDb.Sound (db : WebhookDb) : Prop where
  recorded : db.Recorded
  once : db.Once

inductive EnqueueOperation where
  | enqueueEvent (occurrence : Occurrence)
  | createReplay (orgId : Text) (webhookId : Uuid) (now : Int) (data : WebhookReplayRequest)

def enqueueProgram : EnqueueOperation → WebhookCall Unit
  | .enqueueEvent occurrence => enqueueEvent occurrence
  | .createReplay orgId webhookId now data => do
    let _ ← createReplay orgId webhookId now data

def WebhookDb.Known (db : WebhookDb) (subscriptionId : Uuid) (event : Text) : Prop :=
  ∃ row ∈ db.deliveries, row.subscriptionId = subscriptionId ∧ row.eventId = .event event

structure Replays (orgId : Text) (webhookId : Uuid) (now : Int) (data : WebhookReplayRequest)
    (db : WebhookDb) (sub : WebhookSubscription) (options : WebhookDb.ListForReplay) : Prop where
  accepted : ((replayWindow orgId webhookId now data).alone db).1 = .ok (sub, options)
  notDry : data.dryRun = false

def Replayed : EnqueueOperation → WebhookDb → WebhookDb → Prop
  | .enqueueEvent _, _, _ => True
  | .createReplay orgId webhookId now data, before, after =>
    ∀ sub options, Replays orgId webhookId now data before sub options →
      ∀ event ∈ before.listForReplay options, before.announcements sub.id event.id = 0 →
        after.announcements sub.id event.id = 1

/-- The live path announces what none of its subscriptions has a delivery of. A replay finds the
deliveries of its range under the ids of their events. -/
def Recognized : EnqueueOperation → WebhookDb → Prop
  | .enqueueEvent occurrence, db =>
    ∀ sub ∈ db.findMatchingSubscriptions occurrence.orgId occurrence.projectId occurrence.eventType,
      db.announcements sub.id occurrence.announces = 0
  | .createReplay orgId webhookId now data, db =>
    ∀ sub options, Replays orgId webhookId now data db sub options → ∀ event ∈ db.listForReplay options,
        db.announcements sub.id event.id = 0 ∨ db.Known sub.id event.id

section

variable {db : WebhookDb} (occurrence : Occurrence)

def Occurrence.deliveries (db : WebhookDb) : List CreateWebhookDeliveryData :=
  (db.findMatchingSubscriptions occurrence.orgId occurrence.projectId occurrence.eventType).map
    (occurrence.delivery (.random db.nextUuid))

theorem subscriptions_distinct (orgId projectId eventType : Text) :
    ((db.findMatchingSubscriptions orgId projectId eventType).map (·.id)).Nodup :=
  db.subscriptions.distinct.sublist (filter_sublist.map _)

theorem liveDeliveries_insertable (recorded : db.Recorded) :
    Insertable (effect WebhookStatement.randomUUID db) (occurrence.deliveries db) := by
  constructor
  · intro data member
    obtain ⟨sub, _, rfl⟩ := mem_map.mp member
    rw [Bool.eq_false_iff, Ne, conflicts_iff]
    intro taken
    obtain ⟨row, present, same⟩ := taken
    have isRandom : row.eventId = .random db.nextUuid := (Prod.mk.inj same).2
    exact Nat.lt_irrefl _ (recorded.drawn row present _ isRandom)
  · have keys : (occurrence.deliveries db).map key =
        ((db.findMatchingSubscriptions occurrence.orgId occurrence.projectId
          occurrence.eventType).map (·.id)).map fun id => (id, .random db.nextUuid) := by
      rw [Occurrence.deliveries, map_map, map_map]
      rfl
    rw [keys]
    exact (subscriptions_distinct _ _ _).map fun _ _ same => (Prod.mk.inj same).1

theorem liveDeliveries_apart : ((occurrence.deliveries db).map announced).Nodup := by
  have announced : (occurrence.deliveries db).map announced =
      ((db.findMatchingSubscriptions occurrence.orgId occurrence.projectId
        occurrence.eventType).map (·.id)).map fun id => (id, occurrence.announces) := by
    rw [Occurrence.deliveries, map_map, map_map]
    rfl
  rw [announced]
  exact (subscriptions_distinct _ _ _).map fun _ _ same => (Prod.mk.inj same).1

theorem enqueueEvent_alone (recorded : db.Recorded) : ((enqueueEvent occurrence).alone db).2 =
      created (occurrence.deliveries db) (effect WebhookStatement.randomUUID db) := by
  have inserts := forEach_creates (liveDeliveries_insertable occurrence recorded)
  unfold enqueueEvent query
  rw [alone_perform_bind, alone_perform_bind]
  exact congrArg Prod.snd inserts

theorem enqueueEvent_once_iff (sound : db.Sound) : ((enqueueEvent occurrence).alone db).2.Recorded ∧
      (((enqueueEvent occurrence).alone db).2.Once ↔ Recognized (.enqueueEvent occurrence) db) := by
  have insertable := liveDeliveries_insertable occurrence sound.recorded
  have drawnRecorded : (effect WebhookStatement.randomUUID db).Recorded :=
    { drawn := fun row member uuid isRandom =>
        Nat.lt_succ_of_lt (sound.recorded.drawn row member uuid isRandom)
      named := sound.recorded.named }
  have recorded : (created (occurrence.deliveries db) (effect WebhookStatement.randomUUID db)).Recorded := by
    apply recorded_created (db.nextUuid + 1) insertable _ (Nat.le_refl _) drawnRecorded
    intro data member
    obtain ⟨sub, _, rfl⟩ := mem_map.mp member
    constructor
    · intro uuid isRandom
      cases isRandom
      exact Nat.lt_succ_self _
    · intro id isEvent
      cases isEvent
  have once := once_created_iff insertable (liveDeliveries_apart occurrence) sound.once
  rw [enqueueEvent_alone occurrence sound.recorded]
  refine ⟨recorded, once.trans ?_⟩
  exact forall_mem_map

end

section

variable {db : WebhookDb} {orgId : Text} {sub : WebhookSubscription} {events : List Event}

theorem query_issues {α : Type} (reads : WebhookDb → α) : (query reads).Issues (· = WebhookStatement.select) :=
  issues_perform rfl

theorem replayWindow_issues (webhookId : Uuid) (now : Int) (data : WebhookReplayRequest) :
    (replayWindow orgId webhookId now data).Issues (· = WebhookStatement.select) := by
  have required : (requireSubscription orgId webhookId).Issues (· = WebhookStatement.select) := by
    apply (query_issues _).bind
    intro found
    cases found with
    | none => trivial
    | some sub =>
      dsimp only
      split
      · trivial
      · trivial
  have started : ∀ toTime, (resolveFromTime orgId toTime data).Issues (· = WebhookStatement.select) := by
    intro toTime
    unfold resolveFromTime
    split
    · trivial
    · apply (query_issues _).bind
      intro found
      cases found with
      | none => trivial
      | some event =>
        apply (query_issues _).bind
        intro project
        cases project with
        | none => trivial
        | some project =>
          dsimp only
          split
          · trivial
          · trivial
  apply required.bind
  intro sub
  split
  · trivial
  · apply issues_ofExcept_bind
    intro maxEvents _
    apply issues_ofExcept_bind
    intro toTime _
    apply (started toTime).bind
    intro fromTime
    split
    · trivial
    · apply (query_issues _).bind
      intro active
      split
      · trivial
      · trivial

theorem replayWindow_reads (webhookId : Uuid) (now : Int) (data : WebhookReplayRequest) :
    ((replayWindow orgId webhookId now data).alone db).2 = db := by
  have kept : ∀ stmt : WebhookStatement, stmt = .select → ∀ found, found = db →
      effect stmt found = db := by
    intro stmt isSelect found same
    rw [isSelect, same]
    rfl
  exact (replayWindow_issues webhookId now data).alone_keeps kept rfl

def replayDeliveries (orgId : Text) (sub : WebhookSubscription) (db : WebhookDb) (events : List Event) :
    List CreateWebhookDeliveryData :=
  (events.filter fun event =>
    !(db.listDeliveryEventIds sub.id (events.map (·.id))).contains event.id).map
      (replayDelivery sub orgId)

theorem known_iff {event : Event} (member : event ∈ events) :
    (db.listDeliveryEventIds sub.id (events.map (·.id))).contains event.id = true ↔ db.Known sub.id event.id := by
  rw [contains_iff_mem, WebhookDb.listDeliveryEventIds, mem_filter]
  simp only [mem_map_of_mem member, true_and, any_eq_true, Bool.and_eq_true, beq_iff_eq, WebhookDb.Known]

theorem mem_replayDeliveries : data ∈ replayDeliveries orgId sub db events ↔
      ∃ event ∈ events, ¬ db.Known sub.id event.id ∧ replayDelivery sub orgId event = data := by
  simp only [replayDeliveries, mem_map, mem_filter, and_assoc]
  constructor
  · intro found
    obtain ⟨event, member, unknown, same⟩ := found
    refine ⟨event, member, fun known => ?_, same⟩
    rw [(known_iff member).mpr known] at unknown
    cases unknown
  · intro found
    obtain ⟨event, member, unknown, same⟩ := found
    refine ⟨event, member, ?_, same⟩
    rw [Bool.eq_false_iff.mpr fun listed => unknown ((known_iff member).mp listed)]
    rfl

theorem replayDeliveries_distinct {β : Type} (key : CreateWebhookDeliveryData → β)
    (keyOf : Text → β) (injective : Function.Injective keyOf)
    (keyed : ∀ event, key (replayDelivery sub orgId event) = keyOf event.id) (distinct : (events.map (·.id)).Nodup) :
    ((replayDeliveries orgId sub db events).map key).Nodup := by
  rw [replayDeliveries, map_map]
  have same : (key ∘ replayDelivery sub orgId) = keyOf ∘ fun event : Event => event.id :=
    funext keyed
  rw [same, ← map_map]
  exact (distinct.sublist (filter_sublist.map _)).map injective

theorem replayDeliveries_insertable (distinct : (events.map (·.id)).Nodup) :
    Insertable db (replayDeliveries orgId sub db events) := by
  constructor
  · intro data member
    obtain ⟨event, _, unknown, rfl⟩ := mem_replayDeliveries.mp member
    rw [Bool.eq_false_iff, Ne, conflicts_iff]
    intro taken
    obtain ⟨row, present, same⟩ := taken
    obtain ⟨toSubscription, named⟩ := Prod.mk.inj same
    exact unknown ⟨row, present, toSubscription, named⟩
  · apply replayDeliveries_distinct _ (fun id => (sub.id, .event id)) _ (fun _ => rfl) distinct
    intro first second same
    exact CloudEventId.event.inj (Prod.mk.inj same).2

theorem replayDeliveries_apart (distinct : (events.map (·.id)).Nodup) :
    ((replayDeliveries orgId sub db events).map announced).Nodup := by
  apply replayDeliveries_distinct _ (fun id => (sub.id, id)) _ (fun _ => rfl) distinct
  intro first second same
  exact (Prod.mk.inj same).2

theorem listForReplay_distinct (options : WebhookDb.ListForReplay) :
    ((db.listForReplay options).map (·.id)).Nodup := by
  have sorted := (perm_insertionSort (fun left right : Event => left.createdAt ≤ right.createdAt)
    (db.events.rows.filter (options.selects db))).map (·.id)
  have selected := db.events.distinct.sublist ((filter_sublist (p := options.selects db)).map Event.id)
  exact (sorted.nodup_iff.mpr selected).sublist ((take_sublist _ _).map _)

theorem replayFound_alone (db : WebhookDb) (orgId : Text) (sub : WebhookSubscription)
    (distinct : (events.map (·.id)).Nodup) :
    ∃ requested replayId counts, ((replayFound orgId sub false events).alone db).2 =
      effect (WebhookStatement.updateReplay replayId counts) (created (replayDeliveries orgId sub db events)
          (effect (WebhookStatement.createReplay sub.id requested) db)) := by
  have started : Insertable db (replayDeliveries orgId sub db events) := replayDeliveries_insertable distinct
  let requested : ReplayCounts :=
    { requested := events.length
      deduplicated := (events.map (·.id)).countP
        (db.listDeliveryEventIds sub.id (events.map (·.id))).contains }
  have insertable : Insertable (effect (WebhookStatement.createReplay sub.id requested) db)
      (replayDeliveries orgId sub db events) :=
    ⟨started.free, started.distinct⟩
  obtain ⟨counted, replays⟩ := replayEvents_creates { requested := events.length } insertable
  refine ⟨requested, db.nextUuid, { counted with processed := events.length }, ?_⟩
  unfold replayFound query
  rw [alone_perform_bind]
  dsimp only
  rw [if_neg Bool.false_ne_true, alone_perform_bind]
  exact congrArg Prod.snd (alone_bind_ok replays _)

theorem WebhookDb.Sound.of_deliveries {other : WebhookDb} (sound : db.Sound) (same : other.deliveries = db.deliveries)
    (drawn : db.nextUuid ≤ other.nextUuid) : other.Sound := by
  have counts : ∀ subscriptionId event,
      other.announcements subscriptionId event = db.announcements subscriptionId event := by
    intro subscriptionId event
    rw [WebhookDb.announcements, same]
    rfl
  constructor
  · constructor
    · intro row member uuid isRandom
      rw [same] at member
      exact Nat.lt_of_lt_of_le (sound.recorded.drawn row member uuid isRandom) drawn
    · rw [same]
      exact sound.recorded.named
  · intro subscriptionId event
    rw [counts]
    exact sound.once subscriptionId event

section

variable {webhookId : Uuid} {now : Int} {data : WebhookReplayRequest}

theorem createReplay_alone {options : WebhookDb.ListForReplay}
    (replays : Replays orgId webhookId now data db sub options) :
    ∃ requested replayId counts, ((createReplay orgId webhookId now data).alone db).2 =
      effect (WebhookStatement.updateReplay replayId counts)
        (created (replayDeliveries orgId sub db (db.listForReplay options))
          (effect (WebhookStatement.createReplay sub.id requested) db)) := by
  have window : (replayWindow orgId webhookId now data).alone db = (.ok (sub, options), db) :=
    Prod.ext replays.accepted (replayWindow_reads webhookId now data)
  obtain ⟨requested, replayId, counts, ends⟩ := replayFound_alone db orgId sub (listForReplay_distinct options)
  refine ⟨requested, replayId, counts, ?_⟩
  rw [createReplay, alone_bind_ok window]
  change ((replayFound orgId sub data.dryRun (db.listForReplay options)).alone db).2 = _
  rw [replays.notDry]
  exact ends

theorem createReplay_idle (idle : ∀ sub options, ¬ Replays orgId webhookId now data db sub options) :
    ((createReplay orgId webhookId now data).alone db).2 = db := by
  have reads : ((replayWindow orgId webhookId now data).alone db).2 = db := replayWindow_reads webhookId now data
  rcases ended : (replayWindow orgId webhookId now data).alone db with ⟨outcome, reached⟩
  rw [ended] at reads
  cases outcome with
  | error error =>
    rw [createReplay, alone_bind, ended]
    exact reads
  | ok window =>
    obtain ⟨sub, options⟩ := window
    have dry : data.dryRun = true := by
      by_contra wet
      exact idle sub options ⟨congrArg Prod.fst ended, Bool.eq_false_iff.mpr wet⟩
    rw [createReplay, alone_bind_ok ended]
    change ((replayFound orgId sub data.dryRun (reached.listForReplay options)).alone reached).2 = _
    rw [dry]
    exact reads

end

section

variable {webhookId : Uuid} {now : Int} {data : WebhookReplayRequest}
  {options : WebhookDb.ListForReplay}

variable (orgId sub db options) in
theorem insertable_replay (requested : ReplayCounts) :
    Insertable (effect (WebhookStatement.createReplay sub.id requested) db)
      (replayDeliveries orgId sub db (db.listForReplay options)) := by
  have started : Insertable db (replayDeliveries orgId sub db (db.listForReplay options)) :=
    replayDeliveries_insertable (listForReplay_distinct options)
  exact ⟨started.free, started.distinct⟩

theorem createReplay_recorded (sound : db.Sound) (replays : Replays orgId webhookId now data db sub options) :
    ((createReplay orgId webhookId now data).alone db).2.Recorded := by
  obtain ⟨requested, replayId, counts, ends⟩ := createReplay_alone replays
  have opened : (effect (WebhookStatement.createReplay sub.id requested) db).Sound :=
    sound.of_deliveries rfl (Nat.le_succ _)
  have honest : ∀ data ∈ replayDeliveries orgId sub db (db.listForReplay options), data.Honest 0 := by
    intro data member
    obtain ⟨event, _, _, rfl⟩ := mem_replayDeliveries.mp member
    constructor
    · intro uuid isRandom
      cases isRandom
    · intro id isEvent
      exact CloudEventId.event.inj isEvent
  have insertable := insertable_replay db orgId sub options requested
  have recorded := recorded_created 0 insertable honest (Nat.zero_le _) opened.recorded
  rw [ends]
  exact ⟨recorded.drawn, recorded.named⟩

theorem createReplay_once_iff (sound : db.Sound) (replays : Replays orgId webhookId now data db sub options) :
    ((createReplay orgId webhookId now data).alone db).2.Once ↔ ∀ event ∈ db.listForReplay options,
        db.announcements sub.id event.id = 0 ∨ db.Known sub.id event.id := by
  obtain ⟨requested, replayId, counts, ends⟩ := createReplay_alone replays
  have distinct : ((db.listForReplay options).map (·.id)).Nodup := listForReplay_distinct options
  have insertable := insertable_replay db orgId sub options requested
  have once := once_created_iff insertable (replayDeliveries_apart distinct) sound.once
  rw [ends]
  refine Iff.trans once ?_
  constructor
  · intro unannounced event member
    by_cases known : db.Known sub.id event.id
    · exact .inr known
    · exact .inl (unannounced _ (mem_replayDeliveries.mpr ⟨event, member, known, rfl⟩))
  · intro recognized data member
    obtain ⟨event, present, unknown, rfl⟩ := mem_replayDeliveries.mp member
    rcases recognized event present with unannounced | known
    · exact unannounced
    · exact absurd known unknown

theorem createReplay_delivers (sound : db.Sound)
    (replays : Replays orgId webhookId now data db sub options) {event : Event}
    (member : event ∈ db.listForReplay options) (unannounced : db.announcements sub.id event.id = 0) :
    ((createReplay orgId webhookId now data).alone db).2.announcements sub.id event.id = 1 := by
  obtain ⟨requested, replayId, counts, ends⟩ := createReplay_alone replays
  have distinct : ((db.listForReplay options).map (·.id)).Nodup := listForReplay_distinct options
  have insertable := insertable_replay db orgId sub options requested
  have unknown : ¬ db.Known sub.id event.id := by
    intro known
    obtain ⟨row, present, toSubscription, named⟩ := known
    exact announcements_eq_zero_iff.mp unannounced row present toSubscription (sound.recorded.named row present _ named)
  have delivered := announced_once insertable (replayDeliveries_apart distinct)
    (mem_replayDeliveries.mpr ⟨event, member, unknown, rfl⟩)
  have before : (effect (WebhookStatement.createReplay sub.id requested) db).announcements
      sub.id event.id = 0 := unannounced
  rw [ends, ← Nat.zero_add 1, ← before]
  exact delivered

end

end

theorem enqueueProgram_createReplay (orgId : Text) (webhookId : Uuid) (now : Int)
    (data : WebhookReplayRequest) (db : WebhookDb) :
    ((enqueueProgram (.createReplay orgId webhookId now data)).alone db).2 =
      ((createReplay orgId webhookId now data).alone db).2 :=
  alone_bind_ret _ _ _

theorem replayed_of_sound (sound : db.Sound) (operation : EnqueueOperation) :
    Replayed operation db ((enqueueProgram operation).alone db).2 := by
  cases operation with
  | enqueueEvent occurrence => trivial
  | createReplay orgId webhookId now data =>
    intro sub options replays event member unannounced
    rw [enqueueProgram_createReplay]
    exact createReplay_delivers sound replays member unannounced

theorem operation_once_iff (operation : EnqueueOperation) (sound : db.Sound) :
    ((enqueueProgram operation).alone db).2.Recorded ∧
      (((enqueueProgram operation).alone db).2.Once ↔ Recognized operation db) := by
  cases operation with
  | enqueueEvent occurrence => exact enqueueEvent_once_iff occurrence sound
  | createReplay orgId webhookId now data =>
    rw [enqueueProgram_createReplay]
    by_cases idle : ∀ sub options, ¬ Replays orgId webhookId now data db sub options
    · rw [createReplay_idle idle]
      exact ⟨sound.recorded, fun _ sub options replays => absurd replays (idle sub options), fun _ => sound.once⟩
    · push Not at idle
      obtain ⟨sub, options, replays⟩ := idle
      refine ⟨createReplay_recorded sound replays, (createReplay_once_iff sound replays).trans ?_⟩
      constructor
      · intro recognized other others replaysOther
        have same := Except.ok.inj (replays.accepted.symm.trans replaysOther.accepted)
        cases same
        exact recognized
      · intro recognized
        exact recognized sub options replays

theorem stages_once_iff (operations : List EnqueueOperation) (sound : db.Sound) :
    (∀ stage ∈ stages enqueueProgram operations db,
      stage.after.Once ∧ Replayed stage.operation stage.before stage.after) ↔
    ∀ stage ∈ stages enqueueProgram operations db, Recognized stage.operation stage.before := by
  induction operations generalizing db with
  | nil => simp [stages]
  | cons operation rest ih =>
    obtain ⟨recorded, once⟩ := operation_once_iff operation sound
    simp only [stages, forall_mem_cons]
    constructor
    · intro holds
      obtain ⟨⟨after, _⟩, later⟩ := holds
      exact ⟨once.mp after, (ih ⟨recorded, after⟩).mp later⟩
    · intro recognized
      obtain ⟨first, later⟩ := recognized
      have after := once.mpr first
      exact ⟨⟨after, replayed_of_sound sound operation⟩, (ih ⟨recorded, after⟩).mpr later⟩

variable (projects : List Project) (events : Table.Keyed Event.id)
  (subscriptions : Table.Keyed WebhookSubscription.id)

def undelivered : WebhookDb where
  projects := projects
  events := events
  subscriptions := subscriptions

theorem undelivered_sound : (undelivered projects events subscriptions).Sound where
  recorded :=
    { drawn := by simp [undelivered]
      named := by simp [undelivered] }
  once := by simp [WebhookDb.Once, WebhookDb.announcements, undelivered]

/-- Through a sequence of live enqueues and replays no event is delivered to a subscription twice,
and every replay delivers the rest of its range, exactly when the live path announces nothing
that its subscriptions have been sent, and each replay finds what has been delivered of its range
under the ids of the events. -/
theorem replay_redelivers_nothing_iff (operations : List EnqueueOperation) :
    (∀ stage ∈ stages enqueueProgram operations (undelivered projects events subscriptions),
      stage.after.Once ∧ Replayed stage.operation stage.before stage.after) ↔
    ∀ stage ∈ stages enqueueProgram operations (undelivered projects events subscriptions),
      Recognized stage.operation stage.before :=
  stages_once_iff operations (undelivered_sound projects events subscriptions)

def shop : Project where
  id := "proj_shop".toList
  orgId := "org_1".toList

def orderPlaced : Event where
  id := "evt_1".toList
  projectId := shop.id
  type := "app.order".toList
  createdAt := 0

def orderHook : WebhookSubscription where
  id := 0
  orgId := shop.orgId
  projectId := none
  url := "https://hooks.test".toList
  events := ["app.*".toList]
  secret := []

def orderOccurrence : Occurrence where
  announces := orderPlaced.id
  orgId := shop.orgId
  projectId := shop.id
  eventType := orderPlaced.type
  data := orderPlaced.payload
  time := 0

def liveThenReplayed : List EnqueueOperation :=
  [.enqueueEvent orderOccurrence, .createReplay shop.orgId orderHook.id 1000 {}]

/-- An event that the live path delivered is delivered again by a replay. -/
theorem live_event_replayed : ¬ ∀ (projects : List Project) (events : Table.Keyed Event.id)
        (subscriptions : Table.Keyed WebhookSubscription.id) (operations : List EnqueueOperation),
      ∀ stage ∈ stages enqueueProgram operations (undelivered projects events subscriptions),
        stage.after.Once ∧ Replayed stage.operation stage.before stage.after := by
  intro holds
  have replayed := holds [shop] ⟨[orderPlaced], by simp⟩ ⟨[orderHook], by simp⟩ liveThenReplayed _
    (mem_cons_of_mem _ mem_cons_self)
  have once := replayed.1 orderHook.id orderPlaced.id
  revert once
  decide +kernel

end EveHorizon.Webhooks
