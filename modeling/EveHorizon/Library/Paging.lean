import Mathlib.Data.List.Sort

/-!
# Paging through numbered rows

A page holds the rows with the smallest numbers above a cursor.
-/

namespace EveHorizon.Paging

open List

variable {ρ : Type} (number : ρ → Nat)

def page (rows : List ρ) (cursor limit : Nat) : List ρ :=
  ((rows.filter fun row => decide (cursor < number row)).insertionSort
    fun left right => number left ≤ number right).take limit

variable (start : Nat) (given : List ρ)

def cursor : Nat := given.foldr (fun row best => max (number row) best) start

theorem start_le_cursor : start ≤ cursor number start given := by
  induction given with
  | nil => exact Nat.le_refl _
  | cons row rest ih => exact Nat.le_trans ih (Nat.le_max_right _ _)

variable {row : ρ}

theorem le_cursor {given : List ρ} (member : row ∈ given) : number row ≤ cursor number start given := by
  induction given with
  | nil => cases member
  | cons first rest ih =>
    rcases mem_cons.mp member with rfl | later
    · exact Nat.le_max_left _ _
    · exact Nat.le_trans (ih later) (Nat.le_max_right _ _)

theorem cursor_le {start bound : Nat} {given : List ρ} (starts : start ≤ bound)
    (each : ∀ row ∈ given, number row ≤ bound) : cursor number start given ≤ bound := by
  induction given with
  | nil => exact starts
  | cons row rest ih =>
    have first := each row mem_cons_self
    have later := ih fun other member => each other (mem_cons_of_mem _ member)
    exact Nat.max_le.mpr ⟨first, later⟩

theorem cursor_attained :
    cursor number start given = start ∨ ∃ row ∈ given, number row = cursor number start given := by
  induction given with
  | nil => exact .inl rfl
  | cons row rest ih =>
    have step : cursor number start (row :: rest) = max (number row) (cursor number start rest) := rfl
    rcases Nat.le_total (number row) (cursor number start rest) with below | above
    · rw [step, Nat.max_eq_right below]
      rcases ih with same | ⟨other, member, same⟩
      · exact .inl same
      · exact .inr ⟨other, mem_cons_of_mem _ member, same⟩
    · rw [step, Nat.max_eq_left above]
      exact .inr ⟨row, mem_cons_self, rfl⟩

variable {number} {rows : List ρ} {position limit : Nat}

theorem mem_page (member : row ∈ page number rows position limit) : row ∈ rows ∧ position < number row := by
  have sorted := mem_of_mem_take member
  rw [mem_insertionSort] at sorted
  simpa using mem_filter.mp sorted

theorem page_distinct (distinct : (rows.map number).Nodup) (limit : Nat) :
    ((page number rows position limit).map number).Nodup := by
  have kept : ((rows.filter fun row => decide (position < number row)).map number).Nodup :=
    distinct.sublist (filter_sublist.map number)
  have sorted := ((perm_insertionSort (fun left right => number left ≤ number right)
    (rows.filter fun row => decide (position < number row))).map number).nodup_iff.mpr kept
  exact sorted.sublist ((take_sublist _ _).map number)

theorem page_covers (limit : Nat) (present : row ∈ rows) (above : position < number row) :
    row ∈ page number rows position limit ∨ ((page number rows position limit).length = limit ∧
        ∀ other ∈ page number rows position limit, number other ≤ number row) := by
  let sorted := (rows.filter fun other => decide (position < number other)).insertionSort
    fun left right => number left ≤ number right
  have ordered : sorted.Pairwise fun left right => number left ≤ number right :=
    pairwise_insertionSort _ _
  have inSorted : row ∈ sorted := by
    rw [mem_insertionSort]
    exact mem_filter.mpr ⟨present, by simpa using above⟩
  rw [← take_append_drop limit sorted] at inSorted ordered
  rcases mem_append.mp inSorted with onPage | beyond
  · exact .inl onPage
  · refine .inr ⟨?_, ?_⟩
    · have room : 0 < (sorted.drop limit).length := length_pos_of_mem beyond
      rw [length_drop] at room
      have enough : limit ≤ sorted.length := by omega
      exact length_take_of_le enough
    · intro other onPage
      exact (pairwise_append.mp ordered).2.2 other onPage row beyond

theorem page_nonempty (present : row ∈ rows) (above : position < number row) (some : 0 < limit) :
    ∃ other, other ∈ page number rows position limit := by
  rcases page_covers limit present above with onPage | ⟨full, _⟩
  · exact ⟨row, onPage⟩
  · exact exists_mem_of_length_pos (by omega)

variable (number)

def read (rows given : List ρ) (limit : Nat) : List ρ :=
  given ++ page number rows (cursor number start given) limit

def readAll (rows : List ρ) (limits : List Nat) (given : List ρ) : List ρ :=
  limits.foldl (read number start rows) given

structure Sound (start : Nat) (rows given : List ρ) : Prop where
  rows : ∀ row ∈ given, row ∈ rows ∧ start < number row
  once : (given.map number).Nodup

def NothingMissed (start : Nat) (rows given : List ρ) : Prop :=
  ∀ row ∈ rows, start < number row → number row ≤ cursor number start given → row ∈ given

def ahead (start : Nat) (rows given : List ρ) : Nat :=
  rows.countP fun row => decide (cursor number start given < number row)

variable {number} {start : Nat} {given : List ρ}

theorem cursor_le_read (limit : Nat) :
    cursor number start given ≤ cursor number start (read number start rows given limit) :=
  cursor_le number (start_le_cursor number _ _) fun _ member =>
    le_cursor number start (mem_append_left _ member)

theorem Sound.read (sound : Sound number start rows given) (distinct : (rows.map number).Nodup)
    (limit : Nat) : Sound number start rows (read number start rows given limit) := by
  constructor
  · intro row member
    rcases mem_append.mp member with old | new
    · exact sound.rows row old
    · obtain ⟨present, above⟩ := mem_page new
      exact ⟨present, Nat.lt_of_le_of_lt (start_le_cursor number start given) above⟩
  · rw [Paging.read, map_append, nodup_append]
    refine ⟨sound.once, page_distinct distinct limit, ?_⟩
    intro old isOld new isNew same
    obtain ⟨oldRow, wasGiven, rfl⟩ := mem_map.mp isOld
    obtain ⟨newRow, onPage, rfl⟩ := mem_map.mp isNew
    have below := le_cursor number start wasGiven
    have above := (mem_page onPage).2
    omega

theorem NothingMissed.read (nothing : NothingMissed number start rows given)
    (distinct : (rows.map number).Nodup) (limit : Nat) :
    NothingMissed number start rows (read number start rows given limit) := by
  intro row present starts reached
  by_cases passed : number row ≤ cursor number start given
  · exact mem_append_left _ (nothing row present starts passed)
  · have above := Nat.lt_of_not_le passed
    rcases page_covers limit present above with onPage | ⟨_, before⟩
    · exact mem_append_right _ onPage
    · rcases cursor_attained number start (Paging.read number start rows given limit) with
        same | ⟨last, member, same⟩
      · omega
      · rcases mem_append.mp member with old | new
        · have below := le_cursor number start old
          omega
        · have equal : number last = number row := Nat.le_antisymm (before last new) (by omega)
          rw [← inj_on_of_nodup_map distinct (mem_page new).1 present equal]
          exact member

theorem ahead_read (limit : Nat) (some : 0 < limit) :
    ahead number start rows (read number start rows given limit) ≤ ahead number start rows given - 1 := by
  have moved : cursor number start given ≤
      cursor number start (Paging.read number start rows given limit) := cursor_le_read limit
  have fewer : ∀ row : ρ, decide (cursor number start (Paging.read number start rows given limit) < number row) = true →
        decide (cursor number start given < number row) = true := by
    intro row later
    have above := of_decide_eq_true later
    exact decide_eq_true (by omega)
  by_cases done : ahead number start rows given = 0
  · have still := countP_mono_left (l := rows) fun row _ => fewer row
    rw [ahead] at done ⊢
    omega
  · obtain ⟨row, present, isAhead⟩ := countP_pos_iff.mp (Nat.pos_of_ne_zero done)
    obtain ⟨first, onPage⟩ := page_nonempty present (of_decide_eq_true isAhead) some
    obtain ⟨isRow, above⟩ := mem_page onPage
    have isGiven : first ∈ Paging.read number start rows given limit := mem_append_right given onPage
    have reached := le_cursor number start isGiven
    obtain ⟨earlier, later, rfl⟩ := append_of_mem isRow
    have before := countP_mono_left fun row (_ : row ∈ earlier) => fewer row
    have after := countP_mono_left fun row (_ : row ∈ later) => fewer row
    have counted : decide (cursor number start given < number first) = true := decide_eq_true above
    have passed : decide (cursor number start (Paging.read number start (earlier ++ first :: later) given
        limit) < number first) = false := decide_eq_false (by omega)
    simp only [ahead, countP_append, countP_cons, counted, passed, ↓reduceIte, Bool.false_eq_true] at before after ⊢
    omega

/-- A reader that has missed nothing has been given every row from its start on, each once, after
as many pages as rows were still to come. -/
theorem readAll_complete (distinct : (rows.map number).Nodup) (limits : List Nat)
    (positive : ∀ limit ∈ limits, 0 < limit) (sound : Sound number start rows given)
    (nothing : NothingMissed number start rows given) (enough : ahead number start rows given ≤ limits.length) :
    Sound number start rows (readAll number start rows limits given) ∧
      ∀ row ∈ rows, start < number row → row ∈ readAll number start rows limits given := by
  induction limits generalizing given with
  | nil =>
    refine ⟨sound, fun row present starts => nothing row present starts ?_⟩
    have none := countP_eq_zero.mp (Nat.le_zero.mp enough) row present
    simpa using none
  | cons limit rest ih =>
    have progress : ahead number start rows (Paging.read number start rows given limit) ≤
        ahead number start rows given - 1 := ahead_read limit (positive limit mem_cons_self)
    rw [length_cons] at enough
    exact ih (fun other member => positive other (mem_cons_of_mem _ member))
      (sound.read distinct limit) (nothing.read distinct limit) (by omega)

theorem readAll_missed {row : ρ} (limits : List Nat) (passed : number row ≤ cursor number start given)
    (missing : row ∉ given) : row ∉ readAll number start rows limits given := by
  induction limits generalizing given with
  | nil => exact missing
  | cons limit rest ih =>
    refine ih (Nat.le_trans passed (cursor_le_read limit)) fun member => ?_
    rcases mem_append.mp member with old | new
    · exact missing old
    · have above := (mem_page new).2
      omega

section

variable {ρ : Type} {rows : List ρ} {second first : ρ}

theorem pair_sublist_or (apart : first ≠ second) (isFirst : first ∈ rows) (isSecond : second ∈ rows) :
    [first, second].Sublist rows ∨ [second, first].Sublist rows := by
  induction rows with
  | nil => cases isFirst
  | cons row rest ih =>
    cases mem_cons.mp isFirst with
    | inl same =>
      subst same
      have later := (mem_cons.mp isSecond).resolve_left apart.symm
      exact .inl ((singleton_sublist.mpr later).cons_cons first)
    | inr isFirst =>
      cases mem_cons.mp isSecond with
      | inl same =>
        rw [same]
        exact .inr ((singleton_sublist.mpr isFirst).cons_cons row)
      | inr isSecond =>
        cases ih isFirst isSecond with
        | inl before => exact .inl (before.cons row)
        | inr after => exact .inr (after.cons row)

variable {count : Nat}

theorem mem_take_of_pair_sublist (distinct : rows.Nodup) (ordered : [first, second].Sublist rows)
    (onPage : second ∈ rows.take count) : first ∈ rows.take count := by
  rw [← take_append_drop count rows, nodup_append] at distinct
  rw [← take_append_drop count rows, sublist_append_iff] at ordered
  obtain ⟨left, right, parts, inTake, inDrop⟩ := ordered
  cases left with
  | nil =>
    rw [nil_append] at parts
    subst parts
    have dropped : second ∈ rows.drop count := inDrop.subset (by simp)
    exact absurd rfl (distinct.2.2 second onPage second dropped)
  | cons head tail =>
    rw [cons_append, List.cons.injEq] at parts
    exact inTake.subset (parts.1 ▸ mem_cons_self)

variable (before : ρ → ρ → Prop) [DecidableRel before] [Std.Total before] [IsTrans ρ before]

theorem not_mem_page_of_forward {move : ρ → ρ} {row : ρ} (distinct : (rows.map move).Nodup) (member : row ∈ rows)
    (still : move row = row) (forward : ∀ other ∈ (rows.insertionSort before).take count, before (move other) other)
    (off : row ∉ (rows.insertionSort before).take count) : row ∉ ((rows.map move).insertionSort before).take count := by
  intro on
  have injective := inj_on_of_nodup_map distinct
  have once : (rows.insertionSort before).Nodup :=
    (perm_insertionSort before rows).nodup_iff.mpr (List.Nodup.of_map move distinct)
  have onceMoved : ((rows.map move).insertionSort before).Nodup := (perm_insertionSort before _).nodup_iff.mpr distinct
  have inRows : ∀ {other}, other ∈ (rows.insertionSort before).take count → other ∈ rows :=
    fun taken => (mem_insertionSort before).mp (mem_of_mem_take taken)
  have dropped : row ∈ (rows.insertionSort before).drop count := by
    have present := (mem_insertionSort before).mpr member
    rw [← take_append_drop count (rows.insertionSort before), mem_append] at present
    exact present.resolve_left off
  obtain ⟨other, onPage, leaves⟩ : ∃ other ∈ (rows.insertionSort before).take count,
      move other ∉ ((rows.map move).insertionSort before).take count := by
    by_contra stays
    push Not at stays
    have moved : row :: ((rows.insertionSort before).take count).map move ⊆
        ((rows.map move).insertionSort before).take count := by
      intro found isFound
      cases mem_cons.mp isFound with
      | inl same => exact same ▸ on
      | inr isMoved =>
        obtain ⟨other, onPage, rfl⟩ := mem_map.mp isMoved
        exact stays other onPage
    have apart : (row :: ((rows.insertionSort before).take count).map move).Nodup := by
      rw [nodup_cons]
      constructor
      · intro isMoved
        obtain ⟨other, onPage, same⟩ := mem_map.mp isMoved
        have equal := injective (inRows onPage) member (same.trans still.symm)
        exact off (equal ▸ onPage)
      · apply List.Nodup.map_on _ (once.sublist (take_sublist _ _))
        intro first isFirst second isSecond same
        exact injective (inRows isFirst) (inRows isSecond) same
    have longer := (subperm_of_subset apart moved).length_le
    have positive : 0 < ((rows.insertionSort before).drop count).length := length_pos_of_mem dropped
    simp only [length_cons, length_map, length_take, length_drop, length_insertionSort] at longer positive
    omega
  have sorted : ∀ {list : List ρ}, ∀ first ∈ (list.insertionSort before).take count,
      ∀ second ∈ (list.insertionSort before).drop count, before first second := by
    intro list
    have ordered := pairwise_insertionSort before list
    rw [← take_append_drop count (list.insertionSort before), pairwise_append] at ordered
    exact ordered.2.2
  have droppedMoved : move other ∈ ((rows.map move).insertionSort before).drop count := by
    have present := (mem_insertionSort before).mpr (mem_map_of_mem (inRows onPage) : move other ∈ rows.map move)
    rw [← take_append_drop count ((rows.map move).insertionSort before), mem_append] at present
    exact present.resolve_left leaves
  have first : before other row := sorted other onPage row dropped
  have second : before row (move other) := sorted row on _ droppedMoved
  have ahead := forward other onPage
  have apart : other ≠ row := by
    rintro rfl
    exact off onPage
  cases pair_sublist_or apart (inRows onPage) member with
  | inl ordered =>
    have movedPair := ordered.map move
    rw [map_cons, map_cons, map_nil, still] at movedPair
    have stable := pair_sublist_insertionSort (IsTrans.trans _ _ _ ahead first) movedPair
    exact leaves (mem_take_of_pair_sublist onceMoved stable on)
  | inr ordered =>
    have stable := pair_sublist_insertionSort (IsTrans.trans _ _ _ second ahead) ordered
    exact off (mem_take_of_pair_sublist once stable onPage)

end

end EveHorizon.Paging
