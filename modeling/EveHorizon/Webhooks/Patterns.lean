import EveHorizon.Webhooks.Operations

/-!
# What event patterns select

The events that a pattern selects, live and in a replay.
-/

namespace EveHorizon.Webhooks

open Like (Stars)

def starsOf (pattern : Text) : Stars := pattern.map fun char => if char = '*' then none else some char

/-- A pattern selects the events whose type it stands for, when they occur and when they are replayed. -/
structure SelectsByGlob (pattern : Text) : Prop where
  live : ∀ (db : WebhookDb), ∀ sub ∈ db.subscriptions.rows, sub.events = [pattern] → sub.active = true →
    ∀ projectId, (∀ own ∈ sub.projectId, own = projectId) → ∀ eventType,
      sub ∈ db.findMatchingSubscriptions sub.orgId projectId eventType ↔
        Stars.accepts (starsOf pattern) eventType = true
  replayed : ∀ (db : WebhookDb) (options : WebhookDb.ListForReplay) (event : Event),
    { options with eventPatterns := [] }.selects db event = true → options.eventPatterns = [pattern] →
      (options.selects db event = true ↔ Stars.accepts (starsOf pattern) event.type = true)

theorem matchesPattern_eq (eventType pattern : Text) :
    WebhookDb.matchesPattern eventType pattern = Like.like (Stars.render (starsOf pattern)) eventType := by
  have same : (pattern.map fun char => if char = '*' then '%' else char) =
      Stars.render (starsOf pattern) := by
    rw [Stars.render, starsOf, List.map_map]
    refine List.map_congr_left fun char _ => ?_
    by_cases star : char = '*'
    · simp [star]
    · simp [star]
  rw [WebhookDb.matchesPattern, same]

variable {db : WebhookDb}

theorem mem_findMatchingSubscriptions {sub : WebhookSubscription} {projectId eventType : Text}
    (stored : sub ∈ db.subscriptions.rows) :
    sub ∈ db.findMatchingSubscriptions sub.orgId projectId eventType ↔ sub.active = true ∧
      (∀ own ∈ sub.projectId, own = projectId) ∧
        ∃ pattern ∈ sub.events, WebhookDb.matchesPattern eventType pattern = true := by
  simp [WebhookDb.findMatchingSubscriptions, stored, and_assoc, Option.all_eq_true]

theorem selects_iff {options : WebhookDb.ListForReplay} {event : Event} : options.selects db event = true ↔
    { options with eventPatterns := [] }.selects db event = true ∧
      (options.eventPatterns = [] ∨
        ∃ pattern ∈ options.eventPatterns, WebhookDb.matchesPattern event.type pattern = true) := by
  simp [WebhookDb.ListForReplay.selects, and_assoc]

def subscribedTo (pattern : Text) : WebhookSubscription where
  id := 0
  orgId := "org".toList
  projectId := none
  url := "https://example.test".toList
  events := [pattern]
  secret := "0123456789abcdef".toList

theorem selectsByGlob_iff (pattern : Text) : SelectsByGlob pattern ↔ Stars.Plain (starsOf pattern) := by
  rw [← Stars.like_render_iff]
  constructor
  · intro selects eventType
    let db : WebhookDb :=
      { projects := []
        events := ⟨[], List.nodup_nil⟩
        subscriptions := ⟨[subscribedTo pattern], List.nodup_singleton _⟩ }
    have stored : subscribedTo pattern ∈ db.subscriptions.rows := List.mem_singleton_self _
    have live := selects.live db (subscribedTo pattern) stored rfl rfl [] nofun eventType
    rw [mem_findMatchingSubscriptions stored] at live
    rw [Bool.eq_iff_iff, ← live, ← matchesPattern_eq]
    simp [subscribedTo]
  · intro agrees
    constructor
    · intro db sub stored events active projectId own eventType
      rw [mem_findMatchingSubscriptions stored, ← agrees, ← matchesPattern_eq]
      simpa [events, active] using fun _ => own
    · intro db options event within patterns
      rw [selects_iff, ← agrees, ← matchesPattern_eq]
      simp [within, patterns]

/-- A pattern selects the types it stands for exactly when it has no percent sign, underscore or backslash.
Live delivery and a replay whose window has the event select the same subscriptions of its organisation. -/
theorem event_patterns_select_iff (pattern : Text) :
    (SelectsByGlob pattern ↔ ∀ char ∈ pattern, char ∉ ['%', '_', '\\']) ∧
      ∀ (db : WebhookDb), ∀ sub ∈ db.subscriptions.rows, sub.events ≠ [] → sub.projectId ≠ some [] →
        ∀ event : Event, (db.projects.any fun project =>
            project.id == event.projectId && project.orgId == sub.orgId) = true →
          ∀ fromTime toTime maxEvents, fromTime ≤ event.createdAt → event.createdAt ≤ toTime →
            (sub ∈ db.findMatchingSubscriptions sub.orgId event.projectId event.type ↔ sub.active = true ∧
              (replayOptions sub.orgId sub fromTime toTime maxEvents).selects db event = true) := by
  constructor
  · rw [selectsByGlob_iff]
    constructor
    · intro plain char member special
      have other : char ≠ '*' := by
        rintro rfl
        exact absurd special (by decide)
      exact plain char (List.mem_map.mpr ⟨char, member, if_neg other⟩) special
    · intro plain literal member
      obtain ⟨char, present, same⟩ := List.mem_map.mp member
      split at same
      · cases same
      · cases same
        exact plain literal present
  · intro db sub stored listening named event ofOrg fromTime toTime maxEvents late early
    rw [mem_findMatchingSubscriptions stored, selects_iff,
      or_iff_right (show (replayOptions sub.orgId sub fromTime toTime maxEvents).eventPatterns ≠ [] from listening)]
    have within : { replayOptions sub.orgId sub fromTime toTime maxEvents with eventPatterns := [] }.selects db event =
        true ↔ ∀ own ∈ sub.projectId, own = event.projectId := by
      cases project : sub.projectId with
      | none => simp [WebhookDb.ListForReplay.selects, replayOptions, ofOrg, late, early, project]
      | some own =>
        have nonempty : own ≠ [] := fun empty => named (by rw [project, empty])
        simp [WebhookDb.ListForReplay.selects, replayOptions, ofOrg, late, early, project, nonempty]
    rw [within]
    rfl

/-- The pattern "job_failed" selects the type "job-failed". -/
theorem job_failed_selects_job_hyphen_failed : WebhookDb.matchesPattern "job-failed".toList "job_failed".toList = true ∧
      Stars.accepts (starsOf "job_failed".toList) "job-failed".toList = false ∧ ¬ ∀ pattern, SelectsByGlob pattern := by
  refine ⟨by decide, by decide, fun all => ?_⟩
  have plain := (selectsByGlob_iff _).mp (all "job_failed".toList)
  exact plain '_' (by decide) (by decide)

end EveHorizon.Webhooks
