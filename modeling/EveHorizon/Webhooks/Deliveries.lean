import EveHorizon.Library.Contracts
import EveHorizon.Webhooks.Replay

/-!
# Deliveries under concurrent workers

A worker selects what is due, posts it and writes the outcome by id.
-/

namespace EveHorizon.Webhooks

open Interleaving List Call Statement Table

namespace WebhookDb

def lastTerminal (db : WebhookDb) (subscriptionId : Uuid) : List WebhookDelivery :=
  ((db.deliveriesOf subscriptionId).filter (·.status.terminal)).take autoDisableThreshold

/-- As many as the threshold have ended last, and all of these have failed. -/
def AllFailed (db : WebhookDb) (subscriptionId : Uuid) : Prop :=
  (db.lastTerminal subscriptionId).length = autoDisableThreshold ∧
    ∀ row ∈ db.lastTerminal subscriptionId, row.status = .failed

instance (db : WebhookDb) (subscriptionId : Uuid) : Decidable (db.AllFailed subscriptionId) :=
  inferInstanceAs (Decidable (_ ∧ _))

variable (db : WebhookDb)

def postsTo (id : Uuid) : Nat := db.posts.countP (·.deliveryId == id)

def statusOf (id : Uuid) : Option DeliveryStatus :=
  (db.deliveries.find? (·.id == id)).map (·.status)

def postable (row : WebhookDelivery) : Bool :=
  !row.status.terminal && decide (db.postsTo row.id ≤ row.attempts)

end WebhookDb

/-- An update finds the delivery open. A post finds it open, with every earlier post recorded as
an attempt. A count that finds the last ended deliveries all failed finds no open one among them. -/
def WebhookStatement.undisturbed : WebhookStatement → WebhookDb → Bool
  | .updateDelivery id _, db => db.deliveries.all fun row => row.id != id || !row.status.terminal
  | .post request, db => db.deliveries.any fun row => row.id == request.deliveryId && db.postable row
  | .countConsecutiveFailures subscriptionId, db =>
    !decide (db.AllFailed subscriptionId) ||
      ((db.deliveriesOf subscriptionId).take autoDisableThreshold).all (·.status.terminal)
  | _, _ => true

structure WebhookDb.Orderly (db : WebhookDb) : Prop where
  fresh : ∀ row ∈ db.deliveries, row.id < db.nextUuid
  distinct : (db.deliveries.map (·.id)).Nodup
  attempts : ∀ row ∈ db.deliveries, row.status.terminal = false → row.attempts < maxAttempts
  posts : ∀ id, db.postsTo id ≤ maxAttempts

def WebhookStatement.writable : WebhookStatement → Prop
  | .updateDelivery _ data => data.status.terminal = false → data.attempts < maxAttempts
  | _ => True

variable {stmt : WebhookStatement} {data : UpdateWebhookDeliveryData}

section

variable {db : WebhookDb}

theorem newDelivery_open {data : CreateWebhookDeliveryData} {row : WebhookDelivery}
    (added : row ∈ (db.newDelivery data).toList) : row.id = db.nextUuid ∧ row.status = .pending ∧ row.attempts = 0 := by
  unfold WebhookDb.newDelivery at added
  split at added
  · cases added
  · simp only [Option.toList_some, mem_singleton] at added
    rw [added]
    exact ⟨rfl, rfl, rfl⟩

section

variable (orderly : db.Orderly)
include orderly

theorem Orderly.createDelivery (data : CreateWebhookDeliveryData) :
    (effect (WebhookStatement.createDelivery data) db).Orderly := by
  have rows : ∀ row ∈ (db.newDelivery data).toList ++ db.deliveries,
      row.id = db.nextUuid ∧ row.attempts = 0 ∨ row ∈ db.deliveries := by
    intro row member
    rcases mem_append.mp member with added | present
    · obtain ⟨named, _, unattempted⟩ := newDelivery_open added
      exact .inl ⟨named, unattempted⟩
    · exact .inr present
  constructor
  · intro row member
    rcases rows row member with ⟨named, _⟩ | present
    · rw [named]
      exact Nat.lt_succ_self _
    · exact Nat.lt_succ_of_lt (orderly.fresh row present)
  · change (((db.newDelivery data).toList ++ db.deliveries).map (·.id)).Nodup
    cases added : db.newDelivery data with
    | none => exact orderly.distinct
    | some row =>
      have isNew : row ∈ (db.newDelivery data).toList := by simp [added]
      obtain ⟨named, _⟩ := newDelivery_open isNew
      refine nodup_cons.mpr ⟨?_, orderly.distinct⟩
      intro taken
      obtain ⟨older, present, same⟩ := mem_map.mp taken
      have below : older.id < db.nextUuid := orderly.fresh older present
      exact Nat.ne_of_lt below (same.trans named)
  · intro row member isOpen
    rcases rows row member with ⟨_, unattempted⟩ | present
    · rw [unattempted]
      decide
    · exact orderly.attempts row present isOpen
  · exact orderly.posts

theorem Orderly.updateDelivery (id : Uuid) (writable : data.status.terminal = false → data.attempts < maxAttempts) :
    (effect (WebhookStatement.updateDelivery id data) db).Orderly := by
  have ids : (updateWhere (·.id == id) data.apply db.deliveries).map (·.id) = db.deliveries.map (·.id) := by
    rw [updateWhere, map_map]
    apply map_congr_left
    intro row _
    simp only [Function.comp_apply]
    split
    · rfl
    · rfl
  constructor
  · intro row member
    obtain ⟨old, present, ⟨_, rfl⟩ | ⟨_, rfl⟩⟩ := mem_updateWhere member
    · exact orderly.fresh old present
    · exact orderly.fresh _ present
  · change ((updateWhere _ _ _).map _).Nodup
    rw [ids]
    exact orderly.distinct
  · intro row member isOpen
    obtain ⟨old, present, ⟨_, rfl⟩ | ⟨_, rfl⟩⟩ := mem_updateWhere member
    · exact writable isOpen
    · exact orderly.attempts _ present isOpen
  · exact orderly.posts

theorem Orderly.post {request : Post} (undisturbed : (WebhookStatement.post request).undisturbed db = true) :
    (effect (WebhookStatement.post request) db).Orderly := by
  refine { orderly with posts := fun id => ?_ }
  obtain ⟨row, present, holds⟩ := any_eq_true.mp undisturbed
  simp only [WebhookDb.postable, Bool.and_eq_true, beq_iff_eq, Bool.not_eq_true', decide_eq_true_eq] at holds
  obtain ⟨named, isOpen, recorded⟩ := holds
  have attempts := orderly.attempts row present isOpen
  have before := orderly.posts id
  change (request :: db.posts).countP (·.deliveryId == id) ≤ maxAttempts
  rw [countP_cons]
  by_cases own : (request.deliveryId == id) = true
  · rw [if_pos own]
    rw [named, beq_iff_eq.mp own] at recorded
    change db.postsTo id + 1 ≤ maxAttempts
    omega
  · rw [if_neg own]
    exact before

theorem Orderly.effect (undisturbed : stmt.undisturbed db = true) (writable : stmt.writable) :
    (effect stmt db).Orderly := by
  cases stmt with
  | select | countConsecutiveFailures subscriptionId => exact orderly
  | randomUUID =>
    exact { orderly with fresh := fun row member => Nat.lt_succ_of_lt (orderly.fresh row member) }
  | createDelivery data => exact Orderly.createDelivery orderly data
  | updateDelivery id data => exact Orderly.updateDelivery orderly id writable
  | disableSubscription id => exact ⟨orderly.fresh, orderly.distinct, orderly.attempts, orderly.posts⟩
  | createReplay subscriptionId counts =>
    exact ⟨fun row member => Nat.lt_succ_of_lt (orderly.fresh row member), orderly.distinct,
      orderly.attempts, orderly.posts⟩
  | updateReplay id counts => exact ⟨orderly.fresh, orderly.distinct, orderly.attempts, orderly.posts⟩
  | post request => exact Orderly.post orderly undisturbed

theorem statusOf_effect (undisturbed : stmt.undisturbed db = true) {id : Uuid} {status : DeliveryStatus}
    (found : db.statusOf id = some status) (ended : status.terminal = true) :
    (effect stmt db).statusOf id = some status := by
  obtain ⟨row, search, same⟩ := Option.map_eq_some_iff.mp found
  cases stmt with
  | select | countConsecutiveFailures subscriptionId | randomUUID | disableSubscription id => exact found
  | createReplay subscriptionId counts | updateReplay id counts | post request => exact found
  | createDelivery data =>
    have old : row.id < db.nextUuid := orderly.fresh row (mem_of_find?_eq_some search)
    have holds := find?_some search
    have named : (row.id == id) = true := holds
    have others : (db.newDelivery data).toList.find? (·.id == id) = none := by
      rw [find?_eq_none]
      intro added member
      obtain ⟨fresh, _⟩ := newDelivery_open member
      rw [beq_iff_eq, fresh, ← beq_iff_eq.mp named]
      exact Nat.ne_of_gt old
    change (((db.newDelivery data).toList ++ db.deliveries).find? (·.id == id)).map _ = _
    rw [find?_append, others, Option.none_or]
    exact found
  | updateDelivery other data =>
    change ((updateWhere (·.id == other) data.apply db.deliveries).find? (·.id == id)).map _ = _
    rw [find?_updateWhere WebhookDelivery.id (·.id == other) data.apply (fun _ _ => rfl), search,
      Option.map_some, Option.map_some]
    have open' := all_eq_true.mp undisturbed row (mem_of_find?_eq_some search)
    rw [same, ended] at open'
    have apart : (row.id == other) = false := by simpa using open'
    rw [apart, if_neg Bool.false_ne_true, same]

end

end

def WebhookDb.Inactive (db : WebhookDb) (subscriptionId : Uuid) : Prop :=
  ∀ sub, db.findSubscriptionById subscriptionId = some sub → sub.active = false

def WebhookDb.Due (subscriptionId : Uuid) (db : WebhookDb) : Prop :=
  db.AllFailed subscriptionId ∧ ¬ db.Inactive subscriptionId

def WebhookDb.Holds (db : WebhookDb) (delivery : WebhookDelivery) : Prop :=
  ∃ row ∈ db.deliveries, row.id = delivery.id ∧ row.subscriptionId = delivery.subscriptionId

structure Later (before after : WebhookDb) : Prop where
  inactive : ∀ id, before.Inactive id → after.Inactive id
  holds : ∀ delivery, before.Holds delivery → after.Holds delivery

section

variable {db : WebhookDb} {key : Uuid}

theorem find_disabled (id : Uuid) :
    (effect (WebhookStatement.disableSubscription id) db).findSubscriptionById key =
      (db.findSubscriptionById key).map fun sub =>
        if sub.id == id then { sub with active := false } else sub :=
  find?_updateWhere WebhookSubscription.id (·.id == id)
    (fun sub => { sub with active := false }) (fun _ _ => rfl) db.subscriptions.rows key

theorem inactive_disable (id : Uuid) (inactive : db.Inactive key) :
    (effect (WebhookStatement.disableSubscription id) db).Inactive key := by
  intro sub found
  rw [find_disabled, Option.map_eq_some_iff] at found
  obtain ⟨old, search, same⟩ := found
  have already := inactive old search
  rw [← same]
  split
  · rfl
  · exact already

theorem disabled_inactive : (effect (WebhookStatement.disableSubscription key) db).Inactive key := by
  intro sub found
  rw [find_disabled, Option.map_eq_some_iff] at found
  obtain ⟨old, search, same⟩ := found
  have named := find?_some search
  rw [← same, if_pos named]

theorem later_effect (stmt : WebhookStatement) : Later db (effect stmt db) := by
  cases stmt with
  | select | countConsecutiveFailures subscriptionId => exact ⟨fun _ before => before, fun _ before => before⟩
  | randomUUID | createReplay subscriptionId counts => exact ⟨fun _ before => before, fun _ before => before⟩
  | updateReplay id counts | post request => exact ⟨fun _ before => before, fun _ before => before⟩
  | disableSubscription id => exact ⟨fun _ => inactive_disable id, fun _ before => before⟩
  | createDelivery data =>
    refine ⟨fun _ before => before, fun delivery held => ?_⟩
    obtain ⟨row, present, named⟩ := held
    exact ⟨row, mem_append_right _ present, named⟩
  | updateDelivery id data =>
    refine ⟨fun _ before => before, fun delivery held => ?_⟩
    obtain ⟨row, present, named⟩ := held
    refine ⟨_, mem_updateWhere_of_mem present, ?_⟩
    split
    · exact named
    · exact named

theorem deliveriesOf_update (id : Uuid) (data : UpdateWebhookDeliveryData) :
    (effect (WebhookStatement.updateDelivery id data) db).deliveriesOf key =
      updateWhere (·.id == id) data.apply (db.deliveriesOf key) :=
  filter_updateWhere WebhookDelivery.subscriptionId (·.id == id) data.apply (fun _ => rfl)
    db.deliveries key

theorem lastTerminal_update {id : Uuid}
    (opened : ∀ row ∈ db.deliveriesOf key, (row.id == id) = true → row.status.terminal = false)
    (harmless : data.status ≠ .failed ∨ ∀ row ∈ db.deliveriesOf key, row.id ≠ id)
    (after : (effect (WebhookStatement.updateDelivery id data) db).AllFailed key) : db.AllFailed key := by
  have same : (effect (WebhookStatement.updateDelivery id data) db).lastTerminal key = db.lastTerminal key := by
    rw [WebhookDb.lastTerminal, deliveriesOf_update, WebhookDb.lastTerminal]
    rcases harmless with unfailed | absent
    · cases ended : data.status.terminal with
      | false =>
        rw [filter_updateWhere_hidden opened fun _ _ _ => ended]
      | true =>
        apply take_filter_updateWhere (fun row => row.status == .failed) opened
        · intro row _ _
          exact ⟨ended, beq_eq_false_iff_ne.mpr unfailed⟩
        · intro row member
          have failed := after.2 row
          rw [WebhookDb.lastTerminal, deliveriesOf_update] at failed
          exact beq_iff_eq.mpr (failed member)
    · rw [filter_updateWhere_hidden opened fun row member chosen =>
        absurd (beq_iff_eq.mp chosen) (absent row member)]
  rw [WebhookDb.AllFailed, same] at after
  exact after

theorem falls_due (undisturbed : stmt.undisturbed db = true) (before : ¬ db.Due key)
    (after : (effect stmt db).Due key) :
    ∃ id data row, stmt = .updateDelivery id data ∧ data.status = .failed ∧
      row ∈ db.deliveries ∧ row.id = id ∧ row.subscriptionId = key := by
  obtain ⟨allFailed, active⟩ := after
  cases stmt with
  | select | countConsecutiveFailures subscriptionId | randomUUID => exact absurd ⟨allFailed, active⟩ before
  | createReplay subscriptionId counts | updateReplay id counts => exact absurd ⟨allFailed, active⟩ before
  | post request => exact absurd ⟨allFailed, active⟩ before
  | disableSubscription id =>
    exact absurd ⟨allFailed, fun inactive => active (inactive_disable id inactive)⟩ before
  | createDelivery data =>
    have same : (effect (WebhookStatement.createDelivery data) db).lastTerminal key = db.lastTerminal key := by
      have hidden : ((db.newDelivery data).toList.filter (·.subscriptionId == key)).filter
          (·.status.terminal) = [] := by
        rw [filter_eq_nil_iff]
        intro row member
        obtain ⟨_, pending, _⟩ := newDelivery_open (mem_of_mem_filter member)
        rw [pending]
        decide
      change ((((db.newDelivery data).toList ++ db.deliveries).filter _).filter _).take _ = _
      rw [filter_append, filter_append, hidden, nil_append]
      rfl
    rw [WebhookDb.AllFailed, same] at allFailed
    exact absurd ⟨allFailed, active⟩ before
  | updateDelivery id data =>
    have opened : ∀ row ∈ db.deliveriesOf key, (row.id == id) = true → row.status.terminal = false := by
      intro row member chosen
      have holds := all_eq_true.mp undisturbed row (mem_of_mem_filter member)
      simpa [beq_iff_eq.mp chosen] using holds
    by_cases harmless : data.status ≠ .failed ∨ ∀ row ∈ db.deliveriesOf key, row.id ≠ id
    · exact absurd ⟨lastTerminal_update opened harmless allFailed, active⟩ before
    · push Not at harmless
      obtain ⟨failed, row, member, named⟩ := harmless
      obtain ⟨present, own⟩ := mem_filter.mp member
      exact ⟨id, data, row, rfl, failed, present, named, beq_iff_eq.mp own⟩

end

/-- What the calls may rely on and have to keep. What falls due is settled by counting the
failures and disabling the subscription. -/
def deliveryContract : Contract WebhookStatement WebhookDb Uuid where
  inv := WebhookDb.Orderly
  met stmt db := stmt.undisturbed db = true
  allowed stmt _ := stmt.writable
  rely := Later
  rely_refl _ := ⟨fun _ before => before, fun _ before => before⟩
  rely_trans first second :=
    { inactive := fun id before => second.inactive id (first.inactive id before)
      holds := fun delivery before => second.holds delivery (first.holds delivery before) }
  keeps orderly undisturbed writable := Orderly.effect orderly undisturbed writable
  respects _ _ _ := later_effect _
  due := WebhookDb.Due
  settling key stmt := stmt = .countConsecutiveFailures key ∨ stmt = .disableSubscription key

def WebhookStatement.Harmless : WebhookStatement → Prop
  | .updateDelivery _ data => data.status = .delivered
  | _ => True

open WebhookStatement (Harmless createDelivery disableSubscription post updateDelivery)

theorem WebhookStatement.Harmless.writable (harmless : stmt.Harmless) : stmt.writable := by
  cases stmt with
  | updateDelivery id data =>
    intro unended
    rw [Harmless] at harmless
    rw [harmless] at unended
    cases unended
  | _ => trivial

theorem WebhookStatement.Harmless.not_due {db : WebhookDb} {key : Uuid} (harmless : stmt.Harmless)
    (undisturbed : stmt.undisturbed db = true) (after : (effect stmt db).Due key) : db.Due key := by
  by_contra before
  obtain ⟨id, data, row, rfl, failed, _⟩ := falls_due undisturbed before after
  rw [Harmless, failed] at harmless
  cases harmless

section

variable {α : Type} {db : WebhookDb} {post : α → Prop} {next : WebhookDb → WebhookCall α}

theorem follows_harmless (harmless : stmt.Harmless)
    (rest : ∀ found, Later db found → found.Orderly → Later db (effect stmt found) →
      (next found).Follows deliveryContract post (effect stmt found)) :
    (Call.stmt stmt next).Follows deliveryContract post db := by
  intro found later orderly
  refine ⟨harmless.writable, fun undisturbed => ⟨?_, ?_⟩⟩
  · intro key before after
    exact absurd (harmless.not_due undisturbed after) before
  · have reached := deliveryContract.rely_trans later (later_effect stmt)
    exact rest found later orderly reached

theorem follows_perform {β : Type} {reads : WebhookDb → β} {cont : β → WebhookCall α}
    (harmless : stmt.Harmless)
    (rest : ∀ found, Later db found → Later db (effect stmt found) →
      (cont (reads found)).Follows deliveryContract post (effect stmt found)) :
    ((Call.perform stmt reads : WebhookCall β) >>= cont).Follows deliveryContract post db :=
  follows_harmless harmless fun found later _ reached => rest found later reached

theorem follows_of_harmless {call : WebhookCall α} (harmless : call.Issues Harmless) :
    call.Follows deliveryContract (fun _ => True) db :=
  (harmless.issuesWhile fun _ => True).follows (fun _ _ => trivial)
    (fun _ _ isHarmless _ _ => isHarmless.writable)
    (fun _ _ isHarmless _ undisturbed _ => isHarmless.not_due undisturbed)

variable {key : Uuid}

theorem allFailed_counted (allFailed : db.AllFailed key)
    (ended : ((db.deliveriesOf key).take autoDisableThreshold).all (·.status.terminal) = true) :
    autoDisableThreshold ≤ db.countConsecutiveFailures key := by
  obtain ⟨enough, failed⟩ := allFailed
  unfold WebhookDb.lastTerminal at enough failed
  unfold WebhookDb.countConsecutiveFailures
  generalize db.deliveriesOf key = rows at *
  have full : (rows.take autoDisableThreshold).length = autoDisableThreshold := by
    have fewer : (rows.filter (·.status.terminal)).length ≤ rows.length := length_filter_le _ _
    rw [length_take] at enough ⊢
    omega
  have newest : (rows.filter (·.status.terminal)).take autoDisableThreshold = rows.take autoDisableThreshold := by
    conv_lhs => rw [← take_append_drop autoDisableThreshold rows]
    rw [filter_append, filter_eq_self.mpr (all_eq_true.mp ended), take_left' full]
  have front : rows.take 20 = rows.take autoDisableThreshold ++ (rows.drop autoDisableThreshold).take 10 := by
    rw [← take_add]
    rfl
  rw [newest] at failed
  rw [front, takeWhile_append_of_pos fun row member => beq_iff_eq.mpr (failed row member),
    length_append, full]
  exact Nat.le_add_right _ _

theorem counting_settles : (Call.stmt (WebhookStatement.countConsecutiveFailures key) fun found =>
      if autoDisableThreshold ≤ found.countConsecutiveFailures key then
        .stmt (.disableSubscription key) fun _ => .ret ()
      else .ret () : WebhookCall Unit).Settles deliveryContract key := by
  refine ⟨.inl rfl, fun found _ undisturbed isDue => .inr ?_⟩
  have ended : ((found.deliveriesOf key).take autoDisableThreshold).all (·.status.terminal) = true := by
    have holds : (!decide (found.AllFailed key) ||
      ((found.deliveriesOf key).take autoDisableThreshold).all (·.status.terminal)) = true := undisturbed
    rw [decide_eq_true isDue.1] at holds
    exact holds
  dsimp only
  rw [if_pos (allFailed_counted isDue.1 ended)]
  exact ⟨.inr rfl, fun other _ _ _ => .inl fun still => still.2 disabled_inactive⟩

variable {delivery : WebhookDelivery}

theorem subscription_of_row {row : WebhookDelivery} (orderly : db.Orderly)
    (held : db.Holds delivery) (present : row ∈ db.deliveries) (named : row.id = delivery.id) :
    row.subscriptionId = delivery.subscriptionId := by
  obtain ⟨own, isThere, sameId, sameSubscription⟩ := held
  have same : row = own := inj_on_of_nodup_map orderly.distinct present isThere (named.trans sameId.symm)
  rw [same]
  exact sameSubscription

theorem follows_update (held : db.Holds delivery) (writable : (updateDelivery delivery.id data).writable)
    (settles : ∀ found, Later db found → data.status = .failed →
      (effect (updateDelivery delivery.id data) found).Due delivery.subscriptionId →
      (next found).Settles deliveryContract delivery.subscriptionId)
    (rest : ∀ found, Later db (effect (updateDelivery delivery.id data) found) →
      (next found).Follows deliveryContract post (effect (updateDelivery delivery.id data) found)) :
    (Call.stmt (.updateDelivery delivery.id data) next).Follows deliveryContract post db := by
  intro found later orderly
  refine ⟨writable, fun undisturbed => ⟨?_, ?_⟩⟩
  · intro key before after
    obtain ⟨id, other, row, same, failed, present, named, own⟩ := falls_due undisturbed before after
    cases same
    have subscription := subscription_of_row orderly (later.holds delivery held) present named
    rw [own] at subscription
    subst subscription
    exact settles found later failed after
  · exact rest found (deliveryContract.rely_trans later (later_effect _))

theorem handleFailedAttempt_follows {sub : WebhookSubscription} (held : db.Holds delivery)
    (own : sub.id = delivery.subscriptionId) (attempts : Nat) (now : Int) :
    (handleFailedAttempt delivery sub attempts now).Follows deliveryContract (fun _ => True) db := by
  apply follows_update held
  · intro unended
    unfold failedUpdate at unended ⊢
    split at unended
    · cases unended
    · next fewer =>
        rw [if_neg fewer]
        exact Nat.not_le.mp fewer
  · intro found _ _ _
    rw [← own]
    exact counting_settles
  · intro found _
    apply follows_perform
    · trivial
    · intro counted _ _
      split
      · exact follows_of_harmless (issues_perform trivial)
      · trivial

theorem giveUp_follows {value : α} (held : db.Holds delivery) (inactive : db.Inactive delivery.subscriptionId)
    (ended : data.status = .failed) (returned : post value) :
    (Call.stmt (.updateDelivery delivery.id data) fun _ => .ret value : WebhookCall α).Follows
      deliveryContract post db := by
  apply follows_update held
  · intro unended
    rw [ended] at unended
    cases unended
  · intro found later _ isDue
    exact absurd (later.inactive _ inactive) isDue.2
  · exact fun _ _ => returned

variable (surroundings : Surroundings)

theorem processDelivery_follows (held : db.Holds delivery) :
    (processDelivery surroundings delivery).Follows deliveryContract (fun _ => True) db := by
  apply follows_perform
  · trivial
  · intro found _ later
    have heldNow : found.Holds delivery := later.holds delivery held
    cases search : found.findSubscriptionById delivery.subscriptionId with
    | none =>
      apply giveUp_follows heldNow _ rfl trivial
      intro sub isFound
      rw [search] at isFound
      cases isFound
    | some sub =>
      have named := find?_some search
      have own : sub.id = delivery.subscriptionId := beq_iff_eq.mp named
      cases active : sub.active with
      | false =>
        simp only [active, Bool.not_false, if_true]
        apply giveUp_follows heldNow _ rfl trivial
        intro other isFound
        rw [search] at isFound
        cases isFound
        exact active
      | true =>
        simp only [active, Bool.not_true, Bool.false_eq_true, if_false]
        apply follows_perform
        · trivial
        · intro posted _ laterPosted
          have heldPosted := laterPosted.holds delivery heldNow
          split
          · apply follows_perform
            · rfl
            · exact fun _ _ _ => trivial
          · exact (handleFailedAttempt_follows heldPosted own _ _).bind fun _ _ _ _ => trivial

theorem processEach_follows {deliveries : List WebhookDelivery} (held : ∀ delivery ∈ deliveries, db.Holds delivery)
    (counts : ProcessCounts) :
    (processEach surroundings deliveries counts).Follows deliveryContract (fun _ => True) db := by
  induction deliveries generalizing db counts with
  | nil => trivial
  | cons delivery rest ih =>
    have first := processDelivery_follows surroundings (held delivery mem_cons_self)
    apply first.bind
    intro delivered reached _ later
    have onward : ∀ other ∈ rest, reached.Holds other := fun other member =>
      later.holds other (held other (mem_cons_of_mem _ member))
    split
    · exact ih onward _
    · exact ih onward _

theorem processDeliveries_follows (batchSize : Nat) :
    (processDeliveries surroundings batchSize).Follows deliveryContract (fun _ => True) db := by
  apply follows_perform
  · trivial
  · intro found _ _
    apply processEach_follows
    intro delivery member
    have selected := mem_of_mem_filter (mem_of_mem_take member)
    exact ⟨delivery, mem_reverse.mp selected, rfl, rfl⟩

theorem createDelivery_harmless (data : CreateWebhookDeliveryData) : (createDelivery data).Issues Harmless := by
  apply (issues_perform trivial).bind
  intro added
  cases added with
  | none | some row => trivial

theorem query_harmless (reads : WebhookDb → α) : (query reads).Issues Harmless :=
  issues_perform trivial

theorem enqueueEvent_harmless (occurrence : Occurrence) : (enqueueEvent occurrence).Issues Harmless := by
  apply (query_harmless _).bind
  intro subs
  apply (issues_perform trivial).bind
  intro uuid
  apply Issues.forEach
  intro sub _
  exact (createDelivery_harmless _).bind fun _ => trivial

theorem replayEvents_harmless (sub : WebhookSubscription) (orgId : Text) (existing : List Text)
    (events : List Event) (counts : ReplayCounts) :
    (replayEvents sub orgId existing events counts).Issues Harmless := by
  induction events generalizing counts with
  | nil => trivial
  | cons event rest ih =>
    have one : (replayEvent sub orgId existing counts event).Issues Harmless := by
      unfold replayEvent
      split
      · trivial
      · apply Issues.handle
        · exact (createDelivery_harmless _).bind fun _ => trivial
        · intro error
          cases error with
          | deliveryConflict | notFound message | api status code message => trivial
    exact one.bind fun counts => ih counts

theorem createReplay_harmless (orgId : Text) (webhookId : Uuid) (now : Int) (data : WebhookReplayRequest) :
    (createReplay orgId webhookId now data).Issues Harmless := by
  have window : (replayWindow orgId webhookId now data).Issues Harmless := by
    apply (replayWindow_issues webhookId now data).imp
    intro stmt isSelect
    rw [isSelect]
    trivial
  apply window.bind
  intro found
  apply (query_harmless _).bind
  intro events
  apply (query_harmless _).bind
  intro existing
  dsimp only
  split
  · trivial
  · apply (issues_perform trivial).bind
    intro replayId
    apply (replayEvents_harmless _ _ _ _ _).bind
    intro counts
    exact (issues_perform trivial).bind fun _ => trivial

end

inductive WebhookOperation where
  | enqueueEvent (occurrence : Occurrence)
  | createReplay (orgId : Text) (webhookId : Uuid) (now : Int) (data : WebhookReplayRequest)
  | processDeliveries (surroundings : Surroundings) (batchSize : Nat)

def webhookProgram (_session : Nat) : WebhookOperation → WebhookCall Unit
  | .enqueueEvent occurrence => enqueueEvent occurrence
  | .createReplay orgId webhookId now data => do
    let _ ← createReplay orgId webhookId now data
  | .processDeliveries surroundings batchSize => do
    let _ ← processDeliveries surroundings batchSize

abbrev WebhookSystem := System WebhookStatement WebhookDb WebhookError Unit

def runWebhooks (store : WebhookDb) (schedule : List (Choice WebhookOperation)) : WebhookSystem :=
  System.run webhookProgram store schedule

def Settling (subscriptionId : Uuid) (call : WebhookCall Unit) : Prop :=
  ∃ stmt next, call = .stmt stmt next ∧
    (stmt = .countConsecutiveFailures subscriptionId ∨ stmt = .disableSubscription subscriptionId)

/-- No delivery leaves a status in which it has ended, none is posted more often than it may be
attempted, and a subscription whose last deliveries have all failed is disabled, unless a call
still has to count them or to disable it. -/
structure DeliveriesEnd (system : WebhookSystem) : Prop where
  absorbing : ∀ execution ∈ system.trace, ∀ id status,
    execution.before.statusOf id = some status → status.terminal = true → execution.after.statusOf id = some status
  posted : ∀ id, system.store.postsTo id ≤ maxAttempts
  disabled : ∀ sub ∈ system.store.subscriptions.rows, system.store.AllFailed sub.id →
    sub.active = false ∨ ∃ entry ∈ system.running, Settling sub.id entry.2

theorem operation_follows (session : Nat) (operation : WebhookOperation) (db : WebhookDb) :
    (webhookProgram session operation).Follows deliveryContract (fun _ => True) db := by
  cases operation with
  | enqueueEvent occurrence => exact follows_of_harmless (enqueueEvent_harmless occurrence)
  | createReplay orgId webhookId now data =>
    exact follows_of_harmless ((createReplay_harmless orgId webhookId now data).bind fun _ => trivial)
  | processDeliveries surroundings batchSize =>
    exact (processDeliveries_follows surroundings batchSize).bind fun _ _ _ _ => trivial

variable (projects : List Project) (events : Table.Keyed Event.id)
  (subscriptions : Table.Keyed WebhookSubscription.id)

theorem undelivered_orderly : (undelivered projects events subscriptions).Orderly where
  fresh := by simp [undelivered]
  distinct := by simp [undelivered]
  attempts := by simp [undelivered]
  posts := by simp [undelivered, WebhookDb.postsTo]

theorem undelivered_settled (id : Uuid) : ¬ (undelivered projects events subscriptions).Due id := by
  intro isDue
  have enough := isDue.1.1
  simp [WebhookDb.lastTerminal, WebhookDb.deliveriesOf, undelivered, autoDisableThreshold] at enough

/-- Deliveries come to an end, and subscriptions that fail are disabled, in every run whose
updates find their delivery open, whose posts find it open with the earlier ones recorded, and
whose counts find no open delivery among the newest. -/
theorem deliveries_end (schedule : List (Choice WebhookOperation))
    (undisturbed : ∀ execution ∈ (runWebhooks (undelivered projects events subscriptions) schedule).trace,
      execution.statement.undisturbed execution.before = true) :
    DeliveriesEnd (runWebhooks (undelivered projects events subscriptions) schedule) := by
  have follows : (runWebhooks (undelivered projects events subscriptions) schedule).Follows
      deliveryContract := System.run_follows webhookProgram
    (fun session operation found _ _ => operation_follows session operation found)
    (undelivered_orderly projects events subscriptions)
    (undelivered_settled projects events subscriptions) undisturbed
  constructor
  · intro execution member id status found ended
    have executed := (System.run_executes webhookProgram _ schedule execution member).2
    have orderly := (follows.executed execution member).1
    rw [executed]
    exact statusOf_effect orderly (undisturbed execution member) found ended
  · exact follows.inv.posts
  · intro sub member allFailed
    cases active : sub.active with
    | false => exact .inl rfl
    | true =>
      right
      have present : (runWebhooks (undelivered projects events subscriptions)
          schedule).store.findSubscriptionById sub.id = some sub := Table.Keyed.find_of_mem member
      have isDue : (runWebhooks (undelivered projects events subscriptions) schedule).store.Due sub.id := by
        refine ⟨allFailed, fun inactive => ?_⟩
        rw [inactive sub present] at active
        cases active
      obtain ⟨entry, isRunning, settles⟩ := follows.covered sub.id isDue
      refine ⟨entry, isRunning, ?_⟩
      generalize entry.2 = call at settles
      cases call with
      | ret value | raise error => exact settles.elim
      | stmt stmt next => exact ⟨stmt, next, rfl, settles.1⟩

def orderEvents : Table.Keyed Event.id := ⟨[orderPlaced], by simp⟩

def orderHooks : Table.Keyed WebhookSubscription.id := ⟨[orderHook], by simp⟩

def answering (status : Nat) : Surroundings where
  now := 0
  answer := fun _ => .response status
  clock := fun _ => 0

def oneWorker : List (Choice WebhookOperation) :=
  [.start (.enqueueEvent orderOccurrence)] ++ List.replicate 4 (.advance 0) ++
    [.start (.processDeliveries (answering 500) 50)] ++ List.replicate 6 (.advance 0)

theorem lone_worker_deliveries_end :
    DeliveriesEnd (runWebhooks (undelivered [shop] orderEvents orderHooks) oneWorker) :=
  deliveries_end [shop] orderEvents orderHooks oneWorker (by decide +kernel)

/-- An enqueued delivery, then two workers that select it; the second gets a bad answer after the
first has delivered it. -/
def overlappingWorkers : List (Choice WebhookOperation) :=
  [.start (.enqueueEvent orderOccurrence)] ++ List.replicate 4 (.advance 0) ++
    [.start (.processDeliveries (answering 200) 50), .start (.processDeliveries (answering 500) 50),
      .advance 0, .advance 1] ++ List.replicate 3 (.advance 0) ++ List.replicate 3 (.advance 1)

/-- A delivered delivery is sent back to be retried. -/
theorem delivered_retried : ¬ ∀ (projects : List Project) (events : Table.Keyed Event.id)
        (subscriptions : Table.Keyed WebhookSubscription.id) (schedule : List (Choice WebhookOperation)),
      DeliveriesEnd (runWebhooks (undelivered projects events subscriptions) schedule) := by
  intro holds
  have ends := holds [shop] orderEvents orderHooks overlappingWorkers
  have reopened : ∃ execution ∈ (runWebhooks (undelivered [shop] orderEvents orderHooks)
      overlappingWorkers).trace, execution.before.statusOf 1 = some .delivered ∧
        execution.after.statusOf 1 = some .retrying := by decide +kernel
  obtain ⟨execution, member, before, after⟩ := reopened
  rw [ends.absorbing execution member 1 .delivered before rfl] at after
  cases after

end EveHorizon.Webhooks
