import EveHorizon.Health.Watchdog

/-!
# Soundness of the watchdog

A tick is sound if a failed listing changes and sends nothing, a recovery is sent only for
an environment that was looked at, and no signature is notified of twice in a short time.
-/

namespace EveHorizon.Health

open List

section

variable (settings : Settings) (md5 : Digest) (watch : Watch) (tick : Tick)

def Stores : Prop :=
  tick.fault ≠ some .findByEnvironmentId ∧ tick.fault ≠ some .upsert ∧ ¬((breaks settings tick.env watch.row
      (diagnoseEnvironment (watch.now + tick.elapsed) tick.listing).status = true) ∧ tick.fault = some .findForBreaker)

def tickTime : Int := watch.now + tick.elapsed

def diagnosisOf : DiagnoseResult :=
  diagnoseEnvironment (tickTime watch tick) tick.listing

def signatureOf : Text := issueSignature md5 (diagnosisOf watch tick).issues

def tickActions : List HealthAction :=
  actionsOf settings { watch with now := tickTime watch tick } tick (diagnosisOf watch tick)

def due : Option Notification :=
  dueNotification (tickTime watch tick) tick.env watch.row (signatureOf md5 watch tick)
    (diagnosisOf watch tick) (tickActions settings watch tick)

variable {settings md5} {watch : Watch} {tick : Tick}

@[simp] theorem step_now : (step settings md5 watch tick).now = tickTime watch tick := by
  unfold step processEnvironment handleNotification tickTime
  dsimp only
  repeat' split
  all_goals rfl

variable (md5) in
theorem step_unstored (unstored : ¬Stores settings watch tick) :
    (step settings md5 watch tick).row = watch.row ∧ (step settings md5 watch tick).sent = watch.sent := by
  unfold step processEnvironment
  dsimp only
  split
  · exact ⟨rfl, rfl⟩
  rename_i found
  split
  · exact ⟨rfl, rfl⟩
  rename_i unbroken
  split
  · split
    · exact ⟨rfl, rfl⟩
    · exact ⟨rfl, rfl⟩
  · rename_i upserted
    exact absurd ⟨found, upserted, unbroken⟩ unstored

def written (settings : Settings) (md5 : Digest) (watch : Watch) (tick : Tick) : HealthCheck :=
  upsertCheck watch.row (newCheck (tickTime watch tick) tick.env watch.row
    (signatureOf md5 watch tick) (diagnosisOf watch tick) (tickActions settings watch tick))

variable (md5) in
theorem step_stored (stores : Stores settings watch tick) :
    ∃ acted, acted.now = tickTime watch tick ∧ acted.sent = watch.sent ∧
      acted.row = some (written settings md5 watch tick) ∧ step settings md5 watch tick =
        handleNotification settings tick (due settings md5 watch tick) acted := by
  obtain ⟨found, upserted, unbroken⟩ := stores
  unfold step processEnvironment
  dsimp only
  rw [if_neg found, if_neg unbroken, if_neg upserted]
  refine ⟨_, ?_, ?_, ?_, rfl⟩
  · dsimp only
    split <;> rfl
  · dsimp only
    split <;> rfl
  · rfl

variable {prev : Option HealthCheck} {signature : Text} {newStatus : HealthStatus}

theorem notificationType_recovered_iff :
    notificationType prev newStatus signature = some .recovered ↔
      storedStatus prev ≠ .healthy ∧ newStatus = .healthy := by
  unfold notificationType
  dsimp only
  cases storedStatus prev <;> cases newStatus <;> simp

theorem notificationType_healthy (signature : Text) (healthy : storedStatus prev = .healthy) :
    notificationType prev .healthy signature = none := by
  unfold notificationType
  simp [healthy]

theorem type_of_healthy {type : NotificationType}
    (isType : notificationType prev .healthy signature = some type) : type = .recovered := by
  unfold notificationType at isType
  dsimp only at isType
  cases status : storedStatus prev <;> simp_all

theorem notificationType_changed (unhealthy : newStatus ≠ .healthy)
    (changed : prev.map (·.issueSignature) ≠ some signature) :
    ∃ type, notificationType prev newStatus signature = some type ∧ type ≠ .recovered := by
  cases prev with
  | none =>
    unfold notificationType
    cases newStatus with
    | healthy => exact absurd rfl unhealthy
    | degraded => exact ⟨.degraded, rfl, nofun⟩
    | critical => exact ⟨.critical, rfl, nofun⟩
  | some row =>
    have differs : signatureChanged (some row) signature = true := by
      simpa [signatureChanged] using changed
    unfold notificationType
    dsimp only
    cases newStatus with
    | healthy => exact absurd rfl unhealthy
    | degraded | critical => cases storedStatus (some row) <;> simp [differs]

variable {now : Int} {diagnosis : DiagnoseResult}

theorem dueNotification_eq_some {env : EnvRow} {actions : List HealthAction} {notification : Notification}
    (isDue : dueNotification now env prev signature diagnosis actions = some notification) :
    notificationType prev diagnosis.status signature = some notification.type ∧
      suppressed now prev notification.type signature actions = false ∧
      notification.sentAt = now ∧ notification.issues = diagnosis.issues ∧ notification.actionsTaken = actions := by
  unfold dueNotification at isDue
  cases found : notificationType prev diagnosis.status signature with
  | none => simp [found] at isDue
  | some type =>
    rw [found] at isDue
    dsimp only at isDue
    split at isDue
    · cases isDue
    · rename_i unsuppressed
      cases isDue
      exact ⟨rfl, Bool.eq_false_iff.mpr unsuppressed, rfl, rfl, rfl⟩

theorem dueNotification_of_changed (env : EnvRow) (actions : List HealthAction)
    (unhealthy : diagnosis.status ≠ .healthy) (changed : prev.map (·.issueSignature) ≠ some signature) :
    ∃ notification, dueNotification now env prev signature diagnosis actions =
      some notification ∧ notification.type ≠ .recovered := by
  obtain ⟨type, isType, other⟩ := notificationType_changed unhealthy changed
  have unsuppressed : suppressed now prev type signature actions = false := by
    cases prev with
    | none => simp [suppressed]
    | some row =>
      have differs : row.issueSignature ≠ signature := by simpa using changed
      simp [suppressed, differs]
  unfold dueNotification
  rw [isType]
  dsimp only
  rw [unsuppressed]
  exact ⟨_, rfl, other⟩

section

variable (stores : Stores settings watch tick)
include stores

variable (md5) in
theorem step_row : (step settings md5 watch tick).row = some (written settings md5 watch tick) ∨
      (step settings md5 watch tick).row = some
        { written settings md5 watch tick with notifiedAt := some (tickTime watch tick) } := by
  obtain ⟨acted, isNow, _, isRow, result⟩ := step_stored md5 stores
  rw [result]
  unfold handleNotification
  cases due settings md5 watch tick with
  | none => exact .inl isRow
  | some sent =>
    dsimp only
    split
    · exact .inl isRow
    · right
      split <;> simp [isRow, isNow]

variable (md5) in
theorem step_sent :
    (step settings md5 watch tick).sent = watch.sent ∨ ∃ sent, due settings md5 watch tick = some sent ∧
        (step settings md5 watch tick).sent = watch.sent ++ [sent] ∧ (step settings md5 watch tick).row = some
          { written settings md5 watch tick with notifiedAt := some (tickTime watch tick) } ∧
        tick.fault ≠ some .markNotified ∧ settings.apiConfigured = true := by
  obtain ⟨acted, isNow, isSent, isRow, result⟩ := step_stored md5 stores
  rw [result]
  unfold handleNotification
  cases due settings md5 watch tick with
  | none => exact .inl isSent
  | some sent =>
    dsimp only
    split
    · exact .inl isSent
    rename_i marks
    split
    · rename_i configured
      exact .inr ⟨sent, rfl, by rw [isSent], by simp [isRow, isNow], marks, configured⟩
    · exact .inl isSent

theorem step_sends {sent : Notification} (isDue : due settings md5 watch tick = some sent)
    (marks : tick.fault ≠ some .markNotified) (configured : settings.apiConfigured = true) :
    (step settings md5 watch tick).sent = watch.sent ++ [sent] := by
  obtain ⟨acted, _, isSent, _, result⟩ := step_stored md5 stores
  rw [result, isDue]
  unfold handleNotification
  dsimp only
  rw [if_neg marks, if_pos configured, isSent]

theorem step_sent_of_none (isDue : due settings md5 watch tick = none) :
    (step settings md5 watch tick).sent = watch.sent := by
  cases step_sent md5 stores with
  | inl same => exact same
  | inr sends =>
    obtain ⟨sent, isSome, _⟩ := sends
    rw [isDue] at isSome
    cases isSome

end

structure Coherent (watch : Watch) : Prop where
  /-- A healthy row is as good as none. -/
  healthy : ∀ row, watch.row = some row → row.status = .healthy →
    row.degradedSince = none ∧ row.consecutiveDegradedTicks = 0
  sentBefore : ∀ sent ∈ watch.sent, sent.sentAt ≤ watch.now
  remembered : ∀ sent ∈ watch.sent, ∃ row notifiedAt, watch.row = some row ∧
    row.notifiedAt = some notifiedAt ∧ sent.sentAt ≤ notifiedAt

theorem written_healthy (healthy : (written settings md5 watch tick).status = .healthy) :
    (written settings md5 watch tick).degradedSince = none ∧
      (written settings md5 watch tick).consecutiveDegradedTicks = 0 := by
  unfold written upsertCheck at *
  split at healthy
  all_goals
    simp only [newCheck] at healthy
    simp [newCheck, degradedSince, degradedTicks, healthy]

theorem written_notifiedAt : (written settings md5 watch tick).notifiedAt = watch.row.bind (·.notifiedAt) := by
  unfold written upsertCheck newCheck
  cases watch.row <;> rfl

theorem Coherent.step (coherent : Coherent watch) (tick : Tick) : Coherent (step settings md5 watch tick) := by
  have later : watch.now ≤ tickTime watch tick := by
    unfold tickTime
    omega
  have before (sent : Notification) (member : sent ∈ watch.sent) : sent.sentAt ≤ tickTime watch tick :=
    (coherent.sentBefore sent member).trans later
  by_cases stores : Stores settings watch tick
  · have old (sent : Notification) (member : sent ∈ watch.sent) : ∃ row notifiedAt,
        (Health.step settings md5 watch tick).row = some row ∧ row.notifiedAt = some notifiedAt ∧
          sent.sentAt ≤ notifiedAt := by
      obtain ⟨row, notifiedAt, isRow, isTime, bound⟩ := coherent.remembered sent member
      cases step_row md5 stores with
      | inl unmarked =>
        refine ⟨_, notifiedAt, unmarked, ?_, bound⟩
        rw [written_notifiedAt, isRow]
        exact isTime
      | inr marked => exact ⟨_, tickTime watch tick, marked, rfl, before sent member⟩
    refine ⟨?_, ?_, ?_⟩
    · intro row isNew healthy
      cases step_row md5 stores with
      | inl unmarked =>
        rw [unmarked] at isNew
        cases isNew
        exact written_healthy healthy
      | inr marked =>
        rw [marked] at isNew
        cases isNew
        exact written_healthy healthy
    · intro sent member
      rw [step_now]
      cases step_sent md5 stores with
      | inl same => exact before sent (same ▸ member)
      | inr sends =>
        obtain ⟨new, isDue, appended, _⟩ := sends
        rw [appended] at member
        cases mem_append.mp member with
        | inl earlier => exact before sent earlier
        | inr single =>
          rw [mem_singleton.mp single]
          exact (dueNotification_eq_some isDue).2.2.1.le
    · intro sent member
      cases step_sent md5 stores with
      | inl same => exact old sent (same ▸ member)
      | inr sends =>
        obtain ⟨new, isDue, appended, marked, _⟩ := sends
        rw [appended] at member
        cases mem_append.mp member with
        | inl earlier => exact old sent earlier
        | inr single =>
          rw [mem_singleton.mp single]
          exact ⟨_, _, marked, rfl, (dueNotification_eq_some isDue).2.2.1.le⟩
  · obtain ⟨sameRow, sameSent⟩ := step_unstored md5 stores
    refine ⟨?_, ?_, ?_⟩
    · rw [sameRow]
      exact coherent.healthy
    · intro sent member
      rw [sameSent] at member
      rw [step_now]
      exact before sent member
    · rw [sameRow, sameSent]
      exact coherent.remembered

def storedState (row : Option HealthCheck) : Option (HealthStatus × Option Int × Nat) :=
  row.map fun row => (row.status, row.degradedSince, row.consecutiveDegradedTicks)

variable (settings md5) in
structure Sound (watch : Watch) (tick : Tick) : Prop where
  unlisted : tick.listing = none → storedState (step settings md5 watch tick).row = storedState watch.row ∧
      (step settings md5 watch tick).sent = watch.sent
  recovered : ∀ sent, (step settings md5 watch tick).sent = watch.sent ++ [sent] →
    sent.type = .recovered → storedStatus watch.row ≠ .healthy ∧
      ∃ pods, tick.listing = some pods ∧ pods.flatMap (podIssues (tickTime watch tick)) = []
  notRepeated : ∀ sent, (step settings md5 watch tick).sent = watch.sent ++ [sent] →
    sent.type ≠ .recovered → sent.actionsTaken = [] → ∀ earlier ∈ watch.sent, earlier.type ≠ .recovered →
        issueSignature md5 earlier.issues = issueSignature md5 sent.issues →
          dedupWindowMs ≤ sent.sentAt - earlier.sentAt

variable (settings md5) in
/-- What the row has to remember for a tick: that the environment is healthy when it is not
listed, and the signature that is found again, if it was notified of a short time ago. -/
structure Recalls (watch : Watch) (tick : Tick) : Prop where
  unlisted : tick.listing = none → Stores settings watch tick → watch.row.map (·.status) = some .healthy
  signature : Stores settings watch tick → (diagnosisOf watch tick).issues ≠ [] →
    tick.fault ≠ some .markNotified → settings.apiConfigured = true → tickActions settings watch tick = [] →
        ∀ earlier ∈ watch.sent, earlier.type ≠ .recovered →
          issueSignature md5 earlier.issues = signatureOf md5 watch tick →
            tickTime watch tick - earlier.sentAt < dedupWindowMs →
              watch.row.map (·.issueSignature) = some (signatureOf md5 watch tick)

theorem sends_due {sent : Notification} (sends : (step settings md5 watch tick).sent = watch.sent ++ [sent]) :
    Stores settings watch tick ∧ due settings md5 watch tick = some sent ∧
      tick.fault ≠ some .markNotified ∧ settings.apiConfigured = true := by
  have grows : watch.sent ++ [sent] ≠ watch.sent := by simp
  by_cases stores : Stores settings watch tick
  · cases step_sent md5 stores with
    | inl same => exact absurd (sends.symm.trans same) grows
    | inr other =>
      obtain ⟨new, isDue, appended, _, marks, configured⟩ := other
      have same : [new] = [sent] := append_cancel_left (appended.symm.trans sends)
      cases same
      exact ⟨stores, isDue, marks, configured⟩
  · exact absurd (sends.symm.trans (step_unstored md5 stores).2) grows

theorem storedState_written (row : Option HealthCheck)
    (isRow : row = some (written settings md5 watch tick) ∨ row = some
      { written settings md5 watch tick with notifiedAt := some (tickTime watch tick) })
    (healthy : (diagnosisOf watch tick).status = .healthy) :
    storedState row = some (.healthy, none, 0) := by
  have status : (written settings md5 watch tick).status = .healthy := by
    unfold written upsertCheck newCheck
    cases watch.row <;> exact healthy
  obtain ⟨since, ticks⟩ := written_healthy status
  cases isRow with
  | inl unmarked => simp [unmarked, storedState, status, since, ticks]
  | inr marked => simp [marked, storedState, status, since, ticks]

theorem Coherent.storedState_healthy (coherent : Coherent watch) (healthy : watch.row.map (·.status) = some .healthy) :
    storedState watch.row = some (.healthy, none, 0) := by
  obtain ⟨row, isRow, status⟩ := Option.map_eq_some_iff.mp healthy
  obtain ⟨since, ticks⟩ := coherent.healthy row isRow status
  simp [storedState, isRow, status, since, ticks]

theorem Coherent.suppressed (coherent : Coherent watch) {type : NotificationType}
    (other : type ≠ .recovered) (stored : watch.row.map (·.issueSignature) = some signature)
    {earlier : Notification} (member : earlier ∈ watch.sent) (recent : now - earlier.sentAt < dedupWindowMs) :
    suppressed now watch.row type signature [] = true := by
  obtain ⟨row, notifiedAt, isRow, isTime, bound⟩ := coherent.remembered earlier member
  rw [isRow] at stored
  have sameSignature : row.issueSignature = signature := by simpa using stored
  have within : now - notifiedAt < dedupWindowMs := by omega
  simp [Health.suppressed, other, isRow, sameSignature, isTime, within]

theorem Recalls.sound (recalls : Recalls settings md5 watch tick) (coherent : Coherent watch) :
    Sound settings md5 watch tick := by
  refine ⟨?_, ?_, ?_⟩
  · intro unlisted
    by_cases stores : Stores settings watch tick
    · have healthy := recalls.unlisted unlisted stores
      have status : (diagnosisOf watch tick).status = .healthy := by
        rw [diagnosisOf, unlisted]
        rfl
      have quiet : due settings md5 watch tick = none := by
        have prev : storedStatus watch.row = .healthy := by rw [storedStatus, healthy]; rfl
        rw [due, dueNotification, status, notificationType_healthy _ prev]
      refine ⟨?_, step_sent_of_none stores quiet⟩
      rw [coherent.storedState_healthy healthy]
      exact storedState_written _ (step_row md5 stores) status
    · obtain ⟨sameRow, sameSent⟩ := step_unstored md5 stores
      exact ⟨congrArg storedState sameRow, sameSent⟩
  · intro sent sends recovered
    obtain ⟨stores, isDue, _⟩ := sends_due sends
    have isType := (dueNotification_eq_some isDue).1
    rw [recovered] at isType
    obtain ⟨unhealthy, healthy⟩ := notificationType_recovered_iff.mp isType
    refine ⟨unhealthy, ?_⟩
    cases listing : tick.listing with
    | none =>
      apply absurd _ unhealthy
      rw [storedStatus, recalls.unlisted listing stores]
      rfl
    | some pods =>
      refine ⟨pods, rfl, ?_⟩
      have issues := diagnose_healthy_iff.mp healthy
      rw [listing] at issues
      exact issues
  · intro sent sends other quiet earlier member earlierOther same
    obtain ⟨stores, isDue, marks, configured⟩ := sends_due sends
    obtain ⟨isType, unsuppressed, isTime, isIssues, isActions⟩ := dueNotification_eq_some isDue
    rw [isIssues] at same
    rw [quiet] at isActions
    rw [isTime]
    by_contra recent
    have issues : (diagnosisOf watch tick).issues ≠ [] := by
      intro nothing
      have healthy : (diagnosisOf watch tick).status = .healthy := diagnose_healthy_iff.mpr nothing
      rw [healthy] at isType
      exact other (type_of_healthy isType)
    have stored := recalls.signature stores issues marks configured isActions.symm earlier member
      earlierOther same (by omega)
    rw [← isActions, coherent.suppressed other stored member (by omega)] at unsuppressed
    cases unsuppressed

theorem Sound.recalls (sound : Sound settings md5 watch tick) : Recalls settings md5 watch tick := by
  refine ⟨?_, ?_⟩
  · intro unlisted stores
    have status : (diagnosisOf watch tick).status = .healthy := by
      rw [diagnosisOf, unlisted]
      rfl
    have same := (sound.unlisted unlisted).1
    rw [storedState_written _ (step_row md5 stores) status] at same
    unfold storedState at same
    obtain ⟨row, isRow, fields⟩ := Option.map_eq_some_iff.mp same.symm
    rw [isRow]
    exact congrArg some (Prod.mk.inj fields).1
  · intro stores issues marks configured quiet earlier member other same recent
    by_contra forgotten
    have unhealthy : (diagnosisOf watch tick).status ≠ .healthy := fun healthy =>
      issues (diagnose_healthy_iff.mp healthy)
    obtain ⟨sent, isDue, sentOther⟩ := dueNotification_of_changed tick.env
      (tickActions settings watch tick) unhealthy forgotten
    obtain ⟨_, _, isTime, isIssues, isActions⟩ := dueNotification_eq_some isDue
    have spaced := sound.notRepeated sent (step_sends stores isDue marks configured) sentOther
      (isActions.trans quiet) earlier member other (by rw [isIssues]; exact same)
    rw [isTime] at spaced
    omega

def Watch.fresh (deployStatus : Text) : Watch where
  now := 0
  row := none
  deployStatus := deployStatus
  sent := []

theorem Watch.fresh_coherent (deployStatus : Text) : Coherent (Watch.fresh deployStatus) where
  healthy := fun _ isRow => by cases isRow
  sentBefore := fun _ member => by cases member
  remembered := fun _ member => by cases member

/-- Over every sequence of ticks, each of them is sound exactly if the stored row recalls
what it needs at each of them. -/
theorem watchdog_sound_iff (settings : Settings) (md5 : Digest) (deployStatus : Text) (ticks : List Tick) :
    (∀ visit ∈ visits (step settings md5) (.fresh deployStatus) ticks, Sound settings md5 visit.1 visit.2) ↔
      ∀ visit ∈ visits (step settings md5) (.fresh deployStatus) ticks, Recalls settings md5 visit.1 visit.2 := by
  have agree (watch : Watch) (tick : Tick) (coherent : Coherent watch) (_ : True) :
      Sound settings md5 watch tick ↔ Recalls settings md5 watch tick :=
    ⟨Sound.recalls, fun recalls => recalls.sound coherent⟩
  exact visits_forall_iff (fun _ tick coherent => coherent.step tick) agree
    (Watch.fresh_coherent deployStatus) ticks fun _ _ => trivial

end

def sampleDigest : Digest where
  hex text :=
    if text = "image_pull_backoff:web-1".toList then "b7a0d451127d1087a6ed92a08c1d9833".toList
    else "d41d8cd98f00b204e9800998ecf8427e".toList
  nonempty text := by
    split
    · exact cons_ne_nil _ _
    · exact cons_ne_nil _ _

def samplePod : Pod where
  name := some "web-1".toList
  creationTimestamp := some 0
  ownerReferences := []
  phase := some "Pending".toList
  containerStatuses :=
    [{ name := "web".toList, image := "shop:1".toList, restartCount := some 0
       waitingReason := some "ImagePullBackOff".toList }]
  initContainerStatuses := []

def sampleTick (listing : Option (List Pod)) : Tick where
  elapsed := 120000
  env :=
    { id := "env_1".toList, projectId := "proj_1".toList, name := "prod".toList
      suspended := false, projectSlug := "shop".toList, orgSlug := "acme".toList
      orgId := "org_1".toList }
  listing := listing
  cluster :=
    { pods := none, listsDeployments := false, replicaSets := none, scales := fun _ => false }

def sampleTicks : List Tick := [sampleTick (some [samplePod]), sampleTick none, sampleTick (some [samplePod])]

example : ((visits (step {} sampleDigest) (.fresh []) sampleTicks).map fun visit =>
    (step {} sampleDigest visit.1 visit.2).sent.map (·.type)) =
      [[.critical], [.critical, .recovered], [.critical, .recovered, .critical]] := by
  decide +kernel

theorem outage_reports_recovery : ¬∀ (settings : Settings) (md5 : Digest) (deployStatus : Text) (ticks : List Tick),
      ∀ visit ∈ visits (step settings md5) (.fresh deployStatus) ticks, Sound settings md5 visit.1 visit.2 := by
  intro sound
  let first := step {} sampleDigest (.fresh []) (sampleTick (some [samplePod]))
  have outage := sound {} sampleDigest [] sampleTicks (first, sampleTick none)
    (mem_cons_of_mem _ mem_cons_self)
  have changed : (step {} sampleDigest first (sampleTick none)).sent ≠ first.sent := by decide +kernel
  exact changed (outage.unlisted rfl).2

end EveHorizon.Health
