import EveHorizon.Batches.Creation
import EveHorizon.Library.Faults
import EveHorizon.Workflows.Expansion

/-!
# The trees of a batch

The ids of the jobs that a batch creates: every root job starts a tree of its own, and the
children of a job are numbered in the order of their creation.
-/

namespace EveHorizon.Batches

open Interleaving List
open Jobs (JobId Job JobsDb)
open Workflows (RootIds childId castInt lastSegment hierarchyDepth Numbered)

def rootPart (id : JobId) : List Char := id.toList.takeWhile (· ≠ '.')

variable (parentId : JobId) (sequence : Nat)

theorem toList_childId : (childId parentId sequence).toList = parentId.toList ++ '.' :: (toString sequence).toList := by
  simp [childId]

theorem rootPart_childId : rootPart (childId parentId sequence) = rootPart parentId := by
  unfold rootPart
  rw [toList_childId]
  induction parentId.toList with
  | nil => rfl
  | cons first rest ih =>
    rw [cons_append, takeWhile_cons, takeWhile_cons, ih]

variable {id : JobId}

theorem rootPart_of_dotless (dotless : '.' ∉ id.toList) : rootPart id = id.toList := by
  apply takeWhile_eq_self_iff.mpr
  intro char member
  rw [decide_eq_true_eq]
  rintro rfl
  exact dotless member

theorem childId_injective {first second : JobId} {number other : Nat}
    (same : childId first number = childId second other) : first = second ∧ number = other := by
  have numbers := congrArg (fun id => castInt (lastSegment id)) same
  rw [Workflows.castInt_lastSegment, Workflows.castInt_lastSegment] at numbers
  cases numbers
  have texts := congrArg String.toList same
  rw [toList_childId, toList_childId, append_left_inj] at texts
  exact ⟨String.toList_injective texts, rfl⟩

theorem dot_mem_childId : '.' ∈ (childId parentId sequence).toList := by
  simp [toList_childId]

theorem hierarchyDepth_childId : hierarchyDepth (childId parentId sequence) = hierarchyDepth parentId + 1 := by
  have plain : (toString sequence).toList.count '.' = 0 := by
    rw [count_eq_zero]
    intro member
    rw [Nat.toString_eq_repr, Nat.toList_repr] at member
    exact absurd (Nat.isDigit_of_mem_toDigits (by decide) (by decide) member) (by decide)
  rw [hierarchyDepth, hierarchyDepth, toList_childId, count_append, count_cons_self, plain]

theorem hierarchyDepth_of_dotless (dotless : '.' ∉ id.toList) : hierarchyDepth id = 1 := by
  rw [hierarchyDepth, count_eq_zero.mpr dotless]

def Apart (rows : List Job) (root : List Char) : Prop :=
  ∀ row ∈ rows, rootPart row.id ≠ root ∧ ∀ parentId ∈ row.parentId, rootPart parentId ≠ root

/-- How ids of root jobs are drawn: slugs and hashes have no dots, and the id of a job that is
not at the root starts with the id of its root. -/
structure TreeIds where
  draw : String → JobsDb → JobId
  dotless : ∀ slug db, '.' ∉ (draw slug db).toList
  apart : ∀ slug db, Apart db.jobs (draw slug db).toList

def TreeIds.rootIds (ids : TreeIds) : RootIds where
  draw := ids.draw
  unfiled slug db := by
    have root := rootPart_of_dotless (ids.dotless slug db)
    constructor
    · intro row member same
      exact (ids.apart slug db row member).1 (same ▸ root)
    · intro row member filed
      exact (ids.apart slug db row member).2 _ filed root
    · intro row member sequence same
      apply (ids.apart slug db row member).1
      rw [same, rootPart_childId, root]
    · rw [hierarchyDepth_of_dotless (ids.dotless slug db)]
      decide

structure Grove (old rows : List Job) : Prop where
  distinct : (rows.map (·.id)).Nodup
  apart : ∀ row ∈ rows, Apart old (rootPart row.id)
  roots : ∀ row ∈ rows, row.parentId = none → '.' ∉ row.id.toList
  filed : ∀ row ∈ rows, ∀ parentId ∈ row.parentId,
    parentId ∈ rows.map (·.id) ∧ ∃ sequence, row.id = childId parentId sequence
  numbered : ∀ id ∈ rows.map (·.id), Numbered id (rows.filter (·.parentId == some id))

theorem Grove.empty (old : List Job) : Grove old [] := by
  constructor <;> simp

section

variable {old rows : List Job} {db : JobsDb}

theorem Grove.children (grove : Grove old rows) (jobs : db.jobs = old ++ rows) (member : id ∈ rows.map (·.id)) :
    Workflows.JobsDb.children db id = rows.filter (·.parentId == some id) := by
  have others : old.filter (·.parentId == some id) = [] := by
    rw [filter_eq_nil_iff]
    intro row listed
    rw [beq_iff_eq]
    intro filed
    obtain ⟨parent, isParent, same⟩ := mem_map.mp member
    exact (grove.apart parent isParent row listed).2 id filed (congrArg rootPart same.symm)
  rw [Workflows.JobsDb.children, jobs, filter_append, others, nil_append]

theorem Grove.vacant_child (grove : Grove old rows) {parentId : JobId} (member : parentId ∈ rows.map (·.id)) :
    childId parentId ((rows.filter (·.parentId == some parentId)).length + 1) ∉ rows.map (·.id) := by
  intro taken
  obtain ⟨row, listed, same⟩ := mem_map.mp taken
  cases filed : row.parentId with
  | none =>
    have dotless := grove.roots row listed filed
    rw [same] at dotless
    exact dotless (dot_mem_childId ..)
  | some other =>
    obtain ⟨_, sequence, named⟩ := grove.filed row listed other filed
    obtain ⟨isParent, _⟩ := childId_injective (named.symm.trans same)
    subst isParent
    have sibling : row ∈ rows.filter (·.parentId == some other) :=
      mem_filter.mpr ⟨listed, by rw [filed, beq_self_eq_true]⟩
    have numbers := mem_map_of_mem (f := (·.id)) sibling
    rw [(grove.numbered other member).ids, same] at numbers
    obtain ⟨index, inRange, equal⟩ := mem_map.mp numbers
    have number := (childId_injective equal).2
    have bound := mem_range.mp inRange
    omega

theorem vacant_root (dotless : '.' ∉ id.toList) (apart : Apart rows id.toList) : id ∉ rows.map (·.id) := by
  intro taken
  obtain ⟨row, listed, rfl⟩ := mem_map.mp taken
  exact (apart row listed).1 (rootPart_of_dotless dotless)

theorem findJob_vacant (jobs : db.jobs = old ++ rows) (apart : Apart old (rootPart id))
    (vacant : id ∉ rows.map (·.id)) :
    db.findJob id = none := by
  rw [JobsDb.findJob, find?_eq_none, jobs]
  intro row member same
  rw [beq_iff_eq] at same
  rcases mem_append.mp member with older | newer
  · exact (apart row older).1 (congrArg rootPart same)
  · exact vacant (same ▸ mem_map_of_mem newer)

/-- Where a further row is filed: at a root of its own, or as the next child. -/
def Grows (rows : List Job) (row : Job) : Prop :=
  match row.parentId with
  | none => '.' ∉ row.id.toList
  | some parentId => parentId ∈ rows.map (·.id) ∧
      row.id = childId parentId ((rows.filter (·.parentId == some parentId)).length + 1)

theorem Grove.append (grove : Grove old rows) {row : Job} (vacant : row.id ∉ rows.map (·.id))
    (apart : Apart old (rootPart row.id)) (grows : Grows rows row) : Grove old (rows ++ [row]) := by
  have parented : ∀ parentId ∈ row.parentId, parentId ∈ rows.map (·.id) ∧
      row.id = childId parentId ((rows.filter (·.parentId == some parentId)).length + 1) := by
    intro parentId filed
    rw [Grows, Option.mem_def.mp filed] at grows
    exact grows
  constructor
  · rw [map_append, map_singleton]
    apply grove.distinct.append (nodup_singleton _)
    intro id listed same
    exact vacant (mem_singleton.mp same ▸ listed)
  · intro other member
    rcases mem_append.mp member with earlier | last
    · exact grove.apart other earlier
    · exact mem_singleton.mp last ▸ apart
  · intro other member top
    rcases mem_append.mp member with earlier | last
    · exact grove.roots other earlier top
    · rw [mem_singleton.mp last] at top ⊢
      rw [Grows, top] at grows
      exact grows
  · intro other member parentId filed
    rw [map_append]
    rcases mem_append.mp member with earlier | last
    · obtain ⟨listed, named⟩ := grove.filed other earlier parentId filed
      exact ⟨mem_append_left _ listed, named⟩
    · rw [mem_singleton.mp last] at filed ⊢
      obtain ⟨listed, named⟩ := parented parentId filed
      exact ⟨mem_append_left _ listed, _, named⟩
  · intro id member
    rw [map_append, map_singleton] at member
    rw [filter_append, filter_singleton]
    rcases mem_append.mp member with earlier | last
    · have numbered := grove.numbered id earlier
      by_cases filed : row.parentId = some id
      · rw [filed, beq_self_eq_true]
        exact numbered.append filed (parented id filed).2
      · rw [beq_eq_false_iff_ne.mpr filed]
        simpa using numbered
    · rw [mem_singleton.mp last]
      have childless : rows.filter (·.parentId == some row.id) = [] := by
        rw [filter_eq_nil_iff]
        intro other listed
        rw [beq_iff_eq]
        intro filed
        exact vacant (grove.filed other listed _ filed).1
      have unfiled : row.parentId ≠ some row.id := by
        intro filed
        exact vacant (parented _ filed).1
      rw [childless, beq_eq_false_iff_ne.mpr unfiled]
      exact Numbered.empty

end

end EveHorizon.Batches
