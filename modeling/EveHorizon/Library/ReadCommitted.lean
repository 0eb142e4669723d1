import EveHorizon.Library.RelyGuarantee
import EveHorizon.Library.Solo

/-!
# Transactions that read what is committed

A database with transactions at the isolation level of a committed read. A statement of a client
sees the committed state with the writes of the client's own transaction, if it has one open; a
write outside a transaction is committed at once. A write waits for the open transactions of
others that hold its row or its key, and is refused when it violates a constraint.
-/

namespace EveHorizon.ReadCommitted

open Interleaving List Call Statement Option

/-- What writes do to a state, which of them it refuses, and which make others wait. -/
class Write (ω : Type) (σ : outParam Type) where
  apply : ω → σ → σ
  rejected : ω → σ → Bool
  blocks : ω → ω → Bool

inductive Action (κ ω : Type) where
  | query (label : κ)
  | begin
  | write (change : ω)
  | commit
  | rollback

structure Request (κ ω : Type) where
  client : Nat
  action : Action κ ω

structure Database (ω σ : Type) where
  committed : σ
  transactions : List (Nat × List ω) := []

variable {κ ω σ : Type}

namespace Database

section

variable (db : Database ω σ) (client : Nat)

def pending : Option (List ω) :=
  (db.transactions.find? (·.1 == client)).map Prod.snd

def close : Database ω σ :=
  { db with transactions := db.transactions.filter (·.1 != client) }

def push (change : ω) : Database ω σ :=
  { db with
    transactions := db.transactions.map fun entry =>
      if entry.1 == client then (entry.1, entry.2 ++ [change]) else entry }

def start : Database ω σ :=
  { db with transactions := db.transactions ++ [(client, [])] }

end

variable {db : Database ω σ} {client other : Nat} {change : ω}

theorem pending_close_self : (db.close client).pending client = none := by
  rw [pending, close, find?_eq_none.mpr]
  · rfl
  · intro entry member
    have kept := (mem_filter.mp member).2
    simpa using kept

theorem pending_close (different : other ≠ client) : (db.close client).pending other = db.pending other := by
  rw [pending, pending, close, find?_filter]
  congr 2
  funext entry
  by_cases own : entry.1 = other
  · simp [own, different]
  · simp [own]

variable {changes : List ω}

theorem pending_eq_some (opened : db.pending client = some changes) : (client, changes) ∈ db.transactions := by
  obtain ⟨entry, search, isWrites⟩ := map_eq_some_iff.mp opened
  have member := mem_of_find?_eq_some search
  have named := find?_some search
  rw [← isWrites, ← beq_iff_eq.mp named]
  exact member

theorem find?_push (db : Database ω σ) (client other : Nat) (change : ω) :
    (db.push client change).transactions.find? (·.1 == other) = (db.transactions.find? (·.1 == other)).map fun entry =>
        if entry.1 == client then (entry.1, entry.2 ++ [change]) else entry := by
  have same : ((·.1 == other) ∘ fun entry : Nat × List ω =>
      if entry.1 == client then (entry.1, entry.2 ++ [change]) else entry) = (·.1 == other) := by
    funext entry
    rw [Function.comp_apply]
    split
    · rfl
    · rfl
  rw [push, find?_map, same]

theorem pending_push_self (opened : db.pending client = some changes) :
    (db.push client change).pending client = some (changes ++ [change]) := by
  obtain ⟨entry, search, isWrites⟩ := map_eq_some_iff.mp opened
  have named := find?_some search
  rw [pending, find?_push, search, map_some, map_some, if_pos named, isWrites]

theorem pending_push (different : other ≠ client) : (db.push client change).pending other = db.pending other := by
  rw [pending, find?_push, pending]
  cases search : db.transactions.find? (·.1 == other) with
  | none => rfl
  | some entry =>
    have named := find?_some search
    have isOther : entry.1 = other := beq_iff_eq.mp named
    rw [map_some, map_some, map_some, if_neg (by simpa [isOther] using different)]

theorem pending_start_self (closed : db.pending client = none) : (db.start client).pending client = some [] := by
  have nothing : db.transactions.find? (·.1 == client) = none := map_eq_none_iff.mp closed
  rw [pending, start, find?_append, nothing]
  simp

theorem pending_start (different : other ≠ client) : (db.start client).pending other = db.pending other := by
  have unnamed : (client == other) = false := by simpa using fun same => different same.symm
  rw [pending, pending, start, find?_append, find?_cons, unnamed, find?_nil, or_none]

theorem pending_of_close (opened : (db.close client).pending other = some changes) :
    other ≠ client ∧ db.pending other = some changes := by
  by_cases own : other = client
  · rw [own, pending_close_self] at opened
    cases opened
  · rw [pending_close own] at opened
    exact ⟨own, opened⟩

theorem pending_of_start (closed : db.pending client = none) (opened : (db.start client).pending other = some changes) :
    other = client ∧ changes = [] ∨ other ≠ client ∧ db.pending other = some changes := by
  by_cases own : other = client
  · rw [own, pending_start_self closed] at opened
    cases opened
    exact .inl ⟨own, rfl⟩
  · rw [pending_start own] at opened
    exact .inr ⟨own, opened⟩

theorem pending_of_push {held : List ω} (isOpen : db.pending client = some held)
    (opened : (db.push client change).pending other = some changes) :
    other = client ∧ changes = held ++ [change] ∨ other ≠ client ∧ db.pending other = some changes := by
  by_cases own : other = client
  · rw [own, pending_push_self isOpen] at opened
    cases opened
    exact .inl ⟨own, rfl⟩
  · rw [pending_push own] at opened
    exact .inr ⟨own, opened⟩

end Database

variable [Write ω σ]

def applyAll (changes : List ω) (state : σ) : σ :=
  changes.foldl (fun reached change => Write.apply change reached) state

theorem applyAll_append (first second : List ω) (state : σ) :
    applyAll (first ++ second) state = applyAll second (applyAll first state) :=
  foldl_append

@[simp] theorem applyAll_nil (state : σ) : applyAll ([] : List ω) state = state := rfl

@[simp] theorem applyAll_cons (change : ω) (rest : List ω) (state : σ) :
    applyAll (change :: rest) state = applyAll rest (Write.apply change state) := rfl

theorem applyAll_keeps (holds : σ → Prop) (keeps : ∀ (change : ω) state, holds state → holds (Write.apply change state))
    (changes : List ω) {state : σ} (before : holds state) : holds (applyAll changes state) := by
  induction changes generalizing state with
  | nil => exact before
  | cons change rest ih => exact ih (keeps change state before)

namespace Database

variable (db : Database ω σ) (client : Nat)

def view : σ := applyAll ((db.pending client).getD []) db.committed

def waits (change : ω) : Bool :=
  db.transactions.any fun entry => entry.1 != client && entry.2.any (Write.blocks · change)

def write (change : ω) : Database ω σ :=
  if Write.rejected change (db.view client) then db
  else
    match db.pending client with
    | some _ => db.push client change
    | none => { db with committed := Write.apply change db.committed }

end Database

instance : Statement (Request κ ω) (Database ω σ) where
  ready request db :=
    match request.action with
    | .write change => !db.waits request.client change
    | _ => true
  effect request db :=
    match request.action with
    | .query _ => db
    | .begin => if (db.pending request.client).isSome then db else db.start request.client
    | .write change => db.write request.client change
    | .commit => { db.close request.client with committed := db.view request.client }
    | .rollback => db.close request.client

section

variable {ε α : Type}

abbrev SqlCall (κ ω σ ε α : Type) := Call (Request κ ω) (Database ω σ) ε α

def query (client : Nat) (label : κ) (report : σ → α) : SqlCall κ ω σ ε α :=
  .perform ⟨client, .query label⟩ fun db => report (db.view client)

def write (client : Nat) (change : ω) (violation : ε) : SqlCall κ ω σ ε Unit := do
  if ← .perform ⟨client, .write change⟩ fun db => Write.rejected change (db.view client) then
    .raise violation

def transaction (client : Nat) (body : SqlCall κ ω σ ε α) : SqlCall κ ω σ ε α := do
  .perform ⟨client, .begin⟩ fun _ => ()
  let result ← body.handle fun error => do
    .perform ⟨client, .rollback⟩ fun _ => ()
    .raise error
  .perform ⟨client, .commit⟩ fun _ => ()
  return result

end

namespace Database

variable {db : Database ω σ} {client other : Nat} {change : ω} {changes : List ω}

theorem unblocked (isReady : db.waits client change = false) (different : other ≠ client)
    (opened : db.pending other = some changes) {held : ω} (member : held ∈ changes) :
    Write.blocks held change = false := by
  have free := any_eq_false.mp isReady (other, changes) (pending_eq_some opened)
  have unheld : ¬ changes.any (Write.blocks · change) = true := by simpa [different] using free
  cases blocked : Write.blocks held change with
  | false => rfl
  | true => exact absurd (any_eq_true.mpr ⟨held, member, blocked⟩) unheld

theorem view_closed (closed : db.pending client = none) : db.view client = db.committed := by
  rw [view, closed]
  rfl

theorem view_open (opened : db.pending client = some changes) : db.view client = applyAll changes db.committed := by
  rw [view, opened]
  rfl

theorem write_refused (refused : Write.rejected change (db.view client) = true) : db.write client change = db := by
  rw [write, if_pos refused]

theorem write_open (opened : db.pending client = some changes)
    (accepted : Write.rejected change (db.view client) = false) : db.write client change = db.push client change := by
  rw [write, accepted, if_neg Bool.false_ne_true, opened]

theorem write_closed (closed : db.pending client = none) (accepted : Write.rejected change (db.view client) = false) :
    db.write client change = { db with committed := Write.apply change db.committed } := by
  rw [write, accepted, if_neg Bool.false_ne_true, closed]

/-- What a request does to the database, for each action. -/
inductive Effect (db : Database ω σ) (client : Nat) : Action κ ω → Database ω σ → Prop
  | same {action : Action κ ω} : Effect db client action db
  | begun (closed : db.pending client = none) : Effect db client .begin (db.start client)
  | held {change : ω} {changes : List ω} (opened : db.pending client = some changes)
      (accepted : Write.rejected change (db.view client) = false) :
      Effect db client (.write change) (db.push client change)
  | written {change : ω} (closed : db.pending client = none) (accepted : Write.rejected change db.committed = false) :
      Effect db client (.write change) { db with committed := Write.apply change db.committed }
  | committed : Effect db client .commit { db.close client with committed := db.view client }
  | undone : Effect db client .rollback (db.close client)

theorem effect_cases (client : Nat) (action : Action κ ω) (db : Database ω σ) :
    ∃ after, effect (⟨client, action⟩ : Request κ ω) db = after ∧ Effect db client action after := by
  refine ⟨_, rfl, ?_⟩
  cases action with
  | query label => exact .same
  | begin =>
    dsimp only [effect]
    cases opened : db.pending client with
    | none => exact .begun opened
    | some changes => exact .same
  | write change =>
    dsimp only [effect]
    cases refused : Write.rejected change (db.view client) with
    | true =>
      rw [write_refused refused]
      exact .same
    | false =>
      cases opened : db.pending client with
      | none =>
        rw [write_closed opened refused]
        exact .written opened (by rwa [← view_closed opened])
      | some changes =>
        rw [write_open opened refused]
        exact .held opened refused
  | commit => exact .committed
  | rollback => exact .undone

theorem pending_effect (request : Request κ ω) (db : Database ω σ) (different : other ≠ request.client) :
    (effect request db).pending other = db.pending other := by
  obtain ⟨client, action⟩ := request
  obtain ⟨after, isEffect, effects⟩ := effect_cases client action db
  rw [isEffect]
  cases effects with
  | same | written => rfl
  | begun closed => exact pending_start different
  | held opened => exact pending_push different
  | committed | undone => exact pending_close different

theorem committed_effect (request : Request κ ω) (db : Database ω σ) : (effect request db).committed = db.committed ∨
    (∃ change, request.action = .write change ∧ db.pending request.client = none ∧
      Write.rejected change db.committed = false ∧ (effect request db).committed = Write.apply change db.committed) ∨
    (request.action = .commit ∧ (effect request db).committed = db.view request.client) := by
  obtain ⟨client, action⟩ := request
  obtain ⟨after, isEffect, effects⟩ := effect_cases client action db
  rw [isEffect]
  cases effects with
  | same | begun | held | undone => exact .inl rfl
  | written closed accepted => exact .inr (.inl ⟨_, rfl, closed, accepted, rfl⟩)
  | committed => exact .inr (.inr ⟨rfl, rfl⟩)

theorem committed_keeps (holds : σ → Prop) (keeps : ∀ (change : ω) state, holds state →
    holds (Write.apply change state))
    (request : Request κ ω) (before : holds db.committed) : holds (effect request db).committed := by
  rcases committed_effect request db with same | ⟨change, -, -, -, isApplied⟩ | ⟨-, isCommitted⟩
  · exact same ▸ before
  · exact isApplied ▸ keeps change _ before
  · exact isCommitted ▸ applyAll_keeps holds keeps _ before

theorem view_push (opened : db.pending client = some changes) :
    (db.push client change).view client = Write.apply change (db.view client) := by
  rw [view_open (pending_push_self opened), view_open opened, applyAll_append]
  rfl

def Apart (db : Database ω σ) : Prop :=
  ∀ first second, first ≠ second → ∀ left right, db.pending first = some left →
    db.pending second = some right → ∀ held ∈ left, ∀ other ∈ right, Write.blocks held other = false

theorem Apart.of_pending {after : Database ω σ} (apart : db.Apart)
    (kept : ∀ session changes, after.pending session = some changes →
      ∀ held ∈ changes, ∃ before, db.pending session = some before ∧ held ∈ before) : after.Apart := by
  intro first second different left right isFirst isSecond held isHeld other isOther
  obtain ⟨older, before, wasHeld⟩ := kept first left isFirst held isHeld
  obtain ⟨olderToo, beforeToo, wasOther⟩ := kept second right isSecond other isOther
  exact apart first second different older olderToo before beforeToo held wasHeld other wasOther

theorem Apart.close (apart : db.Apart) : (db.close client).Apart := by
  refine apart.of_pending fun session changes opened held member => ?_
  exact ⟨changes, (pending_of_close opened).2, member⟩

theorem Apart.start (apart : db.Apart) (closed : db.pending client = none) : (db.start client).Apart := by
  refine apart.of_pending fun session changes opened held member => ?_
  rcases pending_of_start closed opened with ⟨-, rfl⟩ | ⟨-, wasOpen⟩
  · cases member
  · exact ⟨changes, wasOpen, member⟩

theorem Apart.push (apart : db.Apart) (symmetric : ∀ held other : ω, Write.blocks held other = Write.blocks other held)
    (isReady : db.waits client change = false) (opened : db.pending client = some changes) :
    (db.push client change).Apart := by
  have added : ∀ {session : Nat} {left : List ω}, session ≠ client →
      db.pending session = some left → ∀ held ∈ left, ∀ other ∈ changes ++ [change],
        Write.blocks held other = false := by
    intro session left different isLeft held isHeld other isOther
    rcases mem_append.mp isOther with old | new
    · exact apart session client different left changes isLeft opened held isHeld other old
    · rw [mem_singleton.mp new]
      exact unblocked isReady different isLeft isHeld
  intro first second different left right isFirst isSecond held isHeld other isOther
  by_cases ownFirst : first = client
  · have ownSecond : second ≠ client := fun same => different (ownFirst.trans same.symm)
    rw [pending_push ownSecond] at isSecond
    rw [ownFirst, pending_push_self opened] at isFirst
    cases isFirst
    rw [symmetric]
    exact added ownSecond isSecond other isOther held isHeld
  · rw [pending_push ownFirst] at isFirst
    by_cases ownSecond : second = client
    · rw [ownSecond, pending_push_self opened] at isSecond
      cases isSecond
      exact added ownFirst isFirst held isHeld other isOther
    · rw [pending_push ownSecond] at isSecond
      exact apart first second different left right isFirst isSecond held isHeld other isOther

theorem apart_effect (symmetric : ∀ held other : ω, Write.blocks held other = Write.blocks other held)
    {request : Request κ ω} (isReady : ready request db = true) (apart : db.Apart) : (effect request db).Apart := by
  obtain ⟨client, action⟩ := request
  obtain ⟨after, isEffect, effects⟩ := effect_cases client action db
  rw [isEffect]
  cases effects with
  | same | written => exact apart
  | begun closed => exact apart.start closed
  | held opened => exact apart.push symmetric (by simpa [ready] using isReady) opened
  | committed | undone => exact apart.close

end Database

theorem transaction_safe {ε α : Type} {discipline : Discipline (Request κ ω) (Database ω σ)}
    {promised : Request κ ω → Database ω σ → Prop} {session : Nat} {body : SqlCall κ ω σ ε α}
    (middle : Except ε α → Database ω σ → Prop) {post : Except ε α → Database ω σ → Prop} {store : Database ω σ}
    (begins : ∀ found, discipline.rely session store found → discipline.inv found →
      discipline.allowed session ⟨session, .begin⟩ found ∧ body.SafeWhile discipline promised session middle
          (effect (⟨session, .begin⟩ : Request κ ω) found))
    (commits : ∀ result reached, middle (.ok result) reached → ∀ found,
      discipline.rely session reached found → discipline.inv found →
        discipline.allowed session ⟨session, .commit⟩ found ∧
          post (.ok result) (effect (⟨session, .commit⟩ : Request κ ω) found))
    (rollsBack : ∀ found, discipline.allowed session ⟨session, .rollback⟩ found)
    (fails : ∀ error reached, post (.error error) reached) :
    (transaction session body).SafeWhile discipline promised session post store := by
  intro found relied holds _ _
  obtain ⟨mayBegin, safe⟩ := begins found relied holds
  refine ⟨mayBegin, ?_⟩
  have handled : (body.handle fun error => do
      .perform ⟨session, .rollback⟩ fun _ => ()
      .raise error).SafeWhile discipline promised session
        (fun result reached => ∀ value, result = .ok value → middle result reached)
        (effect (⟨session, .begin⟩ : Request κ ω) found) := by
    refine safe.handle (fun _ _ reached _ _ => reached) ?_
    intro error reached _ later _ _ _ _
    exact ⟨rollsBack later, fun value raised => by cases raised⟩
  refine handled.bind ?_ fun error reached _ => fails error reached
  intro result reached done later since holdsLater _ _
  exact commits result reached (done result rfl) later since holdsLater

section

variable {ε α β : Type} {issued : Request κ ω → Prop} {client : Nat} {report : σ → α} {label : κ}

theorem query_issues (allowed : issued ⟨client, .query label⟩) :
    (query client label report : SqlCall κ ω σ ε α).Issues issued :=
  issues_perform allowed

variable {violation : ε} {change : ω}

theorem write_issues (allowed : issued ⟨client, .write change⟩) :
    (write client change violation : SqlCall κ ω σ ε Unit).Issues issued := by
  refine Issues.bind (issues_perform allowed) fun refused => ?_
  cases refused with
  | true | false => trivial

variable {body : SqlCall κ ω σ ε α}

omit [Write ω σ] in
theorem transaction_issues (begins : issued ⟨client, .begin⟩) (commits : issued ⟨client, .commit⟩)
    (rollsBack : issued ⟨client, .rollback⟩) (issues : body.Issues issued) :
    (transaction client body).Issues issued := by
  refine Issues.bind (issues_perform begins) fun _ => ?_
  refine Issues.bind (issues.handle fun error => ?_) fun result => ?_
  · exact Issues.bind (issues_perform rollsBack) fun _ => trivial
  · exact Issues.bind (issues_perform commits) fun _ => trivial

/-- What a client may issue between the ends of its transaction. -/
def Inside (client : Nat) (request : Request κ ω) : Prop :=
  request.client = client ∧
    match request.action with
    | .query _ | .write _ => True
    | .begin | .commit | .rollback => False

/-- A call that leaves what is committed as it was, if it fails. -/
def UndoneOnError (call : SqlCall κ ω σ ε α) (db : Database ω σ) : Prop :=
  call.Ends (fun result after => ∀ error, result = .error error → after.committed = db.committed) db

theorem transaction_undone (issues : body.Issues (Inside client)) {db : Database ω σ}
    (closed : db.pending client = none) : UndoneOnError (transaction client body) db := by
  have kept : ∀ request : Request κ ω, Inside client request → ∀ found : Database ω σ,
      (found.pending client).isSome = true ∧ found.committed = db.committed →
        ((effect request found).pending client).isSome = true ∧ (effect request found).committed = db.committed := by
    rintro ⟨_, action⟩ ⟨rfl, inside⟩ found ⟨opened, same⟩
    obtain ⟨after, isEffect, effects⟩ := Database.effect_cases _ action found
    rw [isEffect]
    cases effects with
    | same => exact ⟨opened, same⟩
    | written outside =>
      rw [outside] at opened
      cases opened
    | held isOpen =>
      rw [Database.pending_push_self isOpen]
      exact ⟨rfl, same⟩
    | begun | committed | undone => cases inside
  have begun : effect (⟨client, .begin⟩ : Request κ ω) db = db.start client := by
    dsimp only [effect]
    rw [closed]
    rfl
  have held : ((db.start client).pending client).isSome = true ∧ (db.start client).committed = db.committed :=
    ⟨by rw [Database.pending_start_self closed]; rfl, rfl⟩
  have done := issues.alone_keeps kept held
  rw [UndoneOnError, Ends, transaction, alone_perform_bind, begun, alone_bind, alone_handle]
  rcases ended : body.alone (db.start client) with ⟨result, reached⟩
  rw [ended] at done
  cases result with
  | ok value =>
    intro error impossible
    cases impossible
  | error error => exact fun _ _ => done.2

variable {discipline : Discipline (Request κ ω) (Database ω σ)}
  {promised : Request κ ω → Database ω σ → Prop} {session : Nat} {store : Database ω σ}

theorem query_safe {post : Except ε α → Database ω σ → Prop}
    (rest : ∀ found, discipline.rely session store found → discipline.inv found →
      promised ⟨session, .query label⟩ found → discipline.allowed session ⟨session, .query label⟩ found ∧
      post (.ok (report (found.view session))) found) :
    (query session label report).SafeWhile discipline promised session post store :=
  fun found relied holds _ kept => rest found relied holds kept

theorem write_safe {post : Except ε Unit → Database ω σ → Prop}
    (allowed : ∀ found, discipline.rely session store found → discipline.inv found →
      promised ⟨session, .write change⟩ found → discipline.allowed session ⟨session, .write change⟩ found)
    (writes : ∀ found, discipline.rely session store found → discipline.inv found →
      Write.rejected change (found.view session) = false → post (.ok ()) (found.write session change))
    (fails : ∀ found, discipline.rely session store found → post (.error violation) found) :
    (write session change violation).SafeWhile discipline promised session post store := by
  intro found relied holds _ kept
  refine ⟨allowed found relied holds kept, ?_⟩
  change Call.SafeWhile _ _ session post
    (if Write.rejected change (found.view session) = true then .raise violation else .ret ())
    (found.write session change)
  cases refused : Write.rejected change (found.view session) with
  | true =>
    rw [Database.write_refused refused]
    exact fails found relied
  | false => exact writes found relied holds refused

end

def Wrote (execution : Execution (Request κ ω) (Database ω σ)) (change : ω) : Prop :=
  execution.statement.action = .write change ∧
    Write.rejected change (execution.before.view execution.statement.client) = false

/-- Writes of the history have made the committed state, and are what transactions hold. -/
structure Written (start : σ) (history : List (Execution (Request κ ω) (Database ω σ)))
    (db : Database ω σ) : Prop where
  committed : ∃ changes, db.committed = applyAll changes start ∧
    ∀ change ∈ changes, ∃ execution ∈ history, Wrote execution change
  pending : ∀ client changes, db.pending client = some changes →
    ∀ change ∈ changes, ∃ execution ∈ history, Wrote execution change

section

variable {ε α : Type} {start : σ} {history : List (Execution (Request κ ω) (Database ω σ))}
  {db : Database ω σ}

section

variable (written : Written start history db)
include written

theorem Written.later (execution : Execution (Request κ ω) (Database ω σ)) :
    Written start (history ++ [execution]) db := by
  have earlier : ∀ {change : ω}, (∃ other ∈ history, Wrote other change) →
      ∃ other ∈ history ++ [execution], Wrote other change := by
    intro change found
    obtain ⟨other, member, wrote⟩ := found
    exact ⟨other, mem_append_left _ member, wrote⟩
  constructor
  · obtain ⟨changes, isCommitted, wrote⟩ := written.committed
    exact ⟨changes, isCommitted, fun change member => earlier (wrote change member)⟩
  · intro client changes opened change member
    exact earlier (written.pending client changes opened change member)

theorem Written.of_pending {after : Database ω σ} (same : after.committed = db.committed)
    (kept : ∀ client changes, after.pending client = some changes →
      ∀ change ∈ changes, ∃ before, db.pending client = some before ∧ change ∈ before) :
    Written start history after := by
  constructor
  · rw [same]
    exact written.committed
  · intro client changes opened change member
    obtain ⟨before, wasOpen, held⟩ := kept client changes opened change member
    exact written.pending client before wasOpen change held

theorem Written.close (client : Nat) : Written start history (db.close client) := by
  refine written.of_pending rfl fun other changes opened change member => ?_
  exact ⟨changes, (Database.pending_of_close opened).2, member⟩

variable {execution : Execution (Request κ ω) (Database ω σ)}

theorem Written.effect (member : execution ∈ history) (found : execution.before = db) :
    Written start history (effect execution.statement db) := by
  obtain ⟨session, ⟨client, action⟩, before, after⟩ := execution
  cases found
  have added : ∀ {change : ω}, action = .write change → Write.rejected change (before.view client) = false →
      ∀ {earlier : List ω}, (∀ other ∈ earlier, ∃ execution ∈ history, Wrote execution other) →
        ∀ other ∈ earlier ++ [change], ∃ execution ∈ history, Wrote execution other := by
    intro change isWrite accepted earlier wrote other isOther
    cases mem_append.mp isOther with
    | inl old => exact wrote other old
    | inr new =>
      rw [mem_singleton.mp new]
      exact ⟨_, member, isWrite, accepted⟩
  obtain ⟨reached, isEffect, effects⟩ := Database.effect_cases client action before
  rw [isEffect]
  cases effects with
  | same => exact written
  | begun closed =>
    refine written.of_pending rfl fun other changes isOpen change held => ?_
    rcases Database.pending_of_start closed isOpen with ⟨-, rfl⟩ | ⟨-, wasOpen⟩
    · cases held
    · exact ⟨changes, wasOpen, held⟩
  | written closed accepted =>
    obtain ⟨changes, isCommitted, earlier⟩ := written.committed
    refine ⟨⟨changes ++ [_], ?_, added rfl (by rwa [Database.view_closed closed]) earlier⟩, written.pending⟩
    rw [applyAll_append, ← isCommitted]
    rfl
  | held opened accepted =>
    refine ⟨written.committed, fun client changes isOpen => ?_⟩
    rcases Database.pending_of_push opened isOpen with ⟨-, rfl⟩ | ⟨-, wasOpen⟩
    · exact added rfl accepted (written.pending _ _ opened)
    · exact written.pending client changes wasOpen
  | committed =>
    refine ⟨?_, (written.close client).pending⟩
    obtain ⟨changes, isCommitted, earlier⟩ := written.committed
    cases opened : before.pending client with
    | none =>
      refine ⟨changes, ?_, earlier⟩
      exact (Database.view_closed opened).trans isCommitted
    | some held =>
      refine ⟨changes ++ held, ?_, fun change isChange => ?_⟩
      · rw [applyAll_append, ← isCommitted]
        exact Database.view_open opened
      · cases mem_append.mp isChange with
        | inl old => exact earlier change old
        | inr new => exact written.pending client held opened change new
  | undone => exact written.close client

end

theorem run_written {operation : Type}
    (program : Nat → operation → SqlCall κ ω σ ε α) (start : σ)
    (schedule : List (Choice operation)) :
    Written start (System.run program { committed := start } schedule).trace
      (System.run program { committed := start } schedule).store := by
  refine System.run_history program (fun history db => Written start history db) ?_ ?_ schedule
  · exact ⟨⟨[], rfl, nofun⟩, nofun⟩
  · intro history session stmt before written _
    exact (written.later _).effect (mem_append_right _ (mem_singleton_self _)) rfl

end

end EveHorizon.ReadCommitted
