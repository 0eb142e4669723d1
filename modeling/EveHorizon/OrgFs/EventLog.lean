import EveHorizon.Library.Histories
import EveHorizon.Library.Paging

/-!
# The event log of an organization's file system

Events get their number from a sequence when they are inserted and can be read when their
transaction has committed.
-/

namespace EveHorizon.OrgFs

open Interleaving List

inductive SourceSide where
  | localSide | remoteSide | system
  deriving DecidableEq

structure OrgFsEvent where
  seq : Nat
  id : String
  orgId : String
  linkId : Option String
  deviceId : Option String
  eventType : String
  path : String
  contentHash : Option String
  sizeBytes : Option Nat
  sourceSide : SourceSide
  storageKey : Option String
  deriving DecidableEq

structure CreateOrgFsEventData where
  id : String
  orgId : String
  linkId : Option String := none
  deviceId : Option String := none
  eventType : String
  path : String
  contentHash : Option String := none
  sizeBytes : Option Nat := none
  sourceSide : SourceSide
  storageKey : Option String := none

def CreateOrgFsEventData.row (data : CreateOrgFsEventData) (seq : Nat) : OrgFsEvent where
  seq := seq
  id := data.id
  orgId := data.orgId
  linkId := data.linkId
  deviceId := data.deviceId
  eventType := data.eventType
  path := data.path
  contentHash := data.contentHash
  sizeBytes := data.sizeBytes
  sourceSide := data.sourceSide
  storageKey := data.storageKey

/-- The rows of `org_fs_events`, those that transactions in flight have inserted, and the
sequence of their numbers. -/
structure EventLog where
  events : List OrgFsEvent
  uncommitted : List OrgFsEvent
  nextSeq : Nat
  below : ∀ event ∈ events ++ uncommitted, event.seq < nextSeq
  distinct : ((events ++ uncommitted).map (·.seq)).Nodup

namespace EventLog

def empty : EventLog where
  events := []
  uncommitted := []
  nextSeq := 1
  below := by simp
  distinct := nodup_nil

variable (log : EventLog)

def accepts (data : CreateOrgFsEventData) : Bool :=
  log.events.all (·.id != data.id) && data.path.startsWith "/"

def insert (data : CreateOrgFsEventData) : EventLog where
  events := log.events
  uncommitted :=
    if log.accepts data then log.uncommitted ++ [data.row log.nextSeq] else log.uncommitted
  nextSeq := log.nextSeq + 1
  below := by
    intro event member
    have older : event ∈ log.events ++ log.uncommitted → event.seq < log.nextSeq + 1 :=
      fun present => Nat.lt_succ_of_lt (log.below event present)
    split at member
    · rw [← append_assoc] at member
      rcases mem_append.mp member with old | new
      · exact older old
      · rw [mem_singleton.mp new]
        exact Nat.lt_succ_self _
    · exact older member
  distinct := by
    split
    · rw [← append_assoc, map_append, nodup_append]
      refine ⟨log.distinct, nodup_singleton _, ?_⟩
      intro older member newer single
      obtain ⟨event, present, rfl⟩ := mem_map.mp member
      rw [mem_singleton.mp single]
      exact Nat.ne_of_lt (log.below event present)
    · exact log.distinct

theorem commit_perm {log : EventLog} {event : OrgFsEvent} (present : event ∈ log.uncommitted) :
    ((log.events ++ [event]) ++ log.uncommitted.erase event).Perm (log.events ++ log.uncommitted) := by
  rw [append_assoc]
  exact (perm_cons_erase present).symm.append_left log.events

def commit (id : String) : EventLog :=
  match found : log.uncommitted.find? (·.id == id) with
  | none => log
  | some event =>
    { events := log.events ++ [event]
      uncommitted := log.uncommitted.erase event
      nextSeq := log.nextSeq
      below := fun other member => log.below other
        ((commit_perm (mem_of_find?_eq_some found)).mem_iff.mp member)
      distinct := ((commit_perm (mem_of_find?_eq_some found)).map _).nodup_iff.mpr log.distinct }

def visible (orgId : String) : List OrgFsEvent := log.events.filter (·.orgId == orgId)

def listEvents (orgId : String) (afterSeq limit : Nat) : List OrgFsEvent :=
  Paging.page OrgFsEvent.seq (log.visible orgId) afterSeq limit

end EventLog

/-- The log, and what a client that tails the organization's events has been given so far. -/
structure Tailing where
  log : EventLog
  orgId : String
  start : Nat := 0
  given : List OrgFsEvent := []

def Tailing.afterSeq (store : Tailing) : Nat := Paging.cursor OrgFsEvent.seq store.start store.given

def boundedLimit (limit : Int) : Nat := (max 1 (min limit 500)).toNat

inductive EventStatement where
  | insert (data : CreateOrgFsEventData)
  | commit (id : String)
  /-- The client's `SELECT` after the largest number it has been given. -/
  | poll (limit : Int)

def EventStatement.effect : EventStatement → Tailing → Tailing
  | .insert data, store => { store with log := store.log.insert data }
  | .commit id, store => { store with log := store.log.commit id }
  | .poll limit, store =>
    { store with
      given := store.given ++
        store.log.listEvents store.orgId store.afterSeq (boundedLimit limit) }

/-- An insertion waits while a transaction in flight has inserted its id. -/
instance : Statement EventStatement Tailing where
  ready
    | .insert data, store => store.log.uncommitted.all (·.id != data.id)
    | _, _ => true
  effect := EventStatement.effect

inductive EventError where
  | constraintViolation

abbrev EventCall := Call EventStatement Tailing EventError

def createEvent (data : CreateOrgFsEventData) : EventCall OrgFsEvent := do
  let row ← .perform (.insert data) fun store =>
    if store.log.accepts data then some (data.row store.log.nextSeq) else none
  match row with
  | none => .raise .constraintViolation
  | some row =>
    .perform (.commit row.id) fun _ => ()
    return row

def listEvents (limit : Int) : EventCall (List OrgFsEvent) :=
  .perform (.poll limit) fun store =>
    store.log.listEvents store.orgId store.afterSeq (boundedLimit limit)

def streamBatchLimit : Int := 200

def streamTick : EventCall (List OrgFsEvent) := listEvents streamBatchLimit

inductive EventOperation where
  | createEvent (data : CreateOrgFsEventData)
  | listEvents (limit : Int)
  | streamTick

def eventProgram (_session : Nat) : EventOperation → EventCall (List OrgFsEvent)
  | .createEvent data => do return [← createEvent data]
  | .listEvents limit => listEvents limit
  | .streamTick => streamTick

abbrev EventSystem := System EventStatement Tailing EventError (List OrgFsEvent)

def runEvents (store : Tailing) (schedule : List (Choice EventOperation)) : EventSystem :=
  System.run eventProgram store schedule

end EveHorizon.OrgFs
