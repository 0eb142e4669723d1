import EveHorizon.Library.Traces
import EveHorizon.MagicLinks.Wraps

/-!
# Magic links are single use

In every interleaving of the wrap operations, and whatever their clocks read, a link is
returned by the one update that finds its wrap pending and unexpired.
-/

namespace EveHorizon.MagicLinks

open Interleaving List Call Statement Table

/-- The execution is the `UPDATE` of a consumption of the id, and returned a row. -/
def Redeems (id : String) (execution : Execution WrapStatement WrapTable) : Prop :=
  ∃ now, execution.statement = .setConsumed id now ∧ (redeemedRow id now execution.before).isSome = true

def Creates (id : String) (execution : Execution WrapStatement WrapTable) : Prop :=
  ∃ params now, execution.statement = .insert params now ∧ params.id = id ∧ accepts execution.before params = true

def Spent (id : String) (table : WrapTable) : Prop :=
  ∀ wrap ∈ table.rows, wrap.id = id → wrap.consumedAt.isSome = true

variable {id : String} {execution : Execution WrapStatement WrapTable}

theorem Redeems.spent (redeems : Redeems id execution) : Spent id (effect execution.statement execution.before) := by
  obtain ⟨now, isUpdate, returns⟩ := redeems
  obtain ⟨row, redeemed⟩ := Option.isSome_iff_exists.mp returns
  obtain ⟨wrap, present, selected, _⟩ := redeemedRow_eq_some redeemed
  have named := (redeemable_iff.mp selected).1
  rw [isUpdate]
  intro new member sameId
  obtain ⟨old, before, ⟨_, rfl⟩ | ⟨unselected, rfl⟩⟩ := mem_updateWhere member
  · rfl
  · have same := Table.Keyed.eq_of_key before present (sameId.trans named.symm)
    rw [same, selected] at unselected
    cases unselected

theorem Spent.not_redeems (spent : Spent id execution.before) : ¬ Redeems id execution := by
  intro redeems
  obtain ⟨now, _, returns⟩ := redeems
  obtain ⟨row, redeemed⟩ := Option.isSome_iff_exists.mp returns
  obtain ⟨wrap, present, selected, _⟩ := redeemedRow_eq_some redeemed
  obtain ⟨named, pending, _⟩ := redeemable_iff.mp selected
  have consumed := spent wrap present named
  rw [pending] at consumed
  cases consumed

theorem Spent.keeps (spent : Spent id execution.before) (creates : ¬ Creates id execution) :
    Spent id (effect execution.statement execution.before) := by
  intro wrap member named
  obtain ⟨old, present, becomes⟩ | ⟨params, now, isInsert, accepted, rfl⟩ := mem_effect member
  · exact becomes.consumed (spent old present (becomes.id.symm.trans named))
  · exact absurd ⟨params, now, isInsert, named, accepted⟩ creates

theorem creates_between (table : WrapTable) (schedule : List (Choice WrapOperation))
    {earlier middle later : List (Execution WrapStatement WrapTable)} {first second : Execution WrapStatement WrapTable}
    (split : (runWraps table schedule).trace = earlier ++ first :: middle ++ second :: later)
    (firstRedeems : Redeems id first) (secondRedeems : Redeems id second) :
    ∃ execution ∈ middle, Creates id execution := by
  by_contra none
  have spent : Spent id second.before := System.run_stretch wrapProgram table schedule split firstRedeems.spent
      fun execution member holds => holds.keeps fun creates => none ⟨execution, member, creates⟩
  exact spent.not_redeems secondRedeems

variable {steps : List (WrapStatement × WrapTable)} {link : RedeemedLink} {now : Timestamp}

theorem consume_path {later : Timestamp} (path : (consume id now later).Path steps (.ok (.ok link))) :
    ∃ table row, (.setConsumed id now, table) ∈ steps ∧ redeemedRow id now table = some row ∧ link = row.redeemed := by
  rcases Call.Path.of_bind path with ⟨first, rest, updated, rfl, found, onward⟩ | ⟨_, _, failed⟩
  · obtain ⟨table, rfl, same⟩ := path_perform.mp found
    cases same
    cases redeemed : redeemedRow id now table with
    | some row =>
      rw [redeemed] at onward
      obtain ⟨_, same⟩ := path_ret.mp onward
      cases same
      exact ⟨table, row, mem_append_left _ (mem_singleton_self _), redeemed, rfl⟩
    | none =>
      rw [redeemed] at onward
      rcases Call.Path.of_bind onward with ⟨_, _, probe, _, _, told⟩ | ⟨_, _, failed⟩
      · cases probe with
        | none => cases (path_ret.mp told).2
        | some wrap =>
          dsimp only at told
          split at told
          · cases (path_ret.mp told).2
          · split at told
            · cases (path_ret.mp told).2
            · cases (path_ret.mp told).2
      · cases failed
  · cases failed

theorem program_path {session : Nat} {operation : WrapOperation}
    (path : (wrapProgram session operation).Path steps (.ok (.consumed (.ok link)))) :
    ∃ id now later, operation = .consume id now later ∧ (consume id now later).Path steps (.ok (.ok link)) := by
  cases operation with
  | consume id now later =>
    refine ⟨id, now, later, rfl, ?_⟩
    rcases Call.Path.of_bind path with ⟨first, rest, result, rfl, ends, returned⟩ | ⟨_, _, failed⟩
    · obtain ⟨rfl, same⟩ := path_ret.mp returned
      cases same
      rw [append_nil]
      exact ends
    · cases failed
  | create params now | inspect id now dateNow | pruneExpired cutoff | findById id =>
    rcases Call.Path.of_bind path with ⟨_, _, _, _, _, returned⟩ | ⟨_, _, failed⟩
    · cases (path_ret.mp returned).2
    · cases failed

def MagicLinkWrap.unseen (wrap : MagicLinkWrap) : MagicLinkWrap :=
  { wrap with getCount := 0, lastGetAt := none }

def SameUnseen (left right : WrapTable) : Prop := left.rows.map (·.unseen) = right.rows.map (·.unseen)

def WrapStatement.inspects : WrapStatement → Bool
  | .countGet _ _ => true
  | _ => false

theorem map_updateWhere {selected : MagicLinkWrap → Bool} {change : MagicLinkWrap → MagicLinkWrap}
    (sees : ∀ wrap, selected wrap.unseen = selected wrap)
    (commutes : ∀ wrap, (change wrap).unseen = change wrap.unseen) (rows : List MagicLinkWrap) :
    (updateWhere selected change rows).map (·.unseen) =
      updateWhere selected change (rows.map (·.unseen)) := by
  simp only [updateWhere, map_map]
  refine map_congr_left fun wrap _ => ?_
  simp only [Function.comp_apply, sees wrap]
  split
  · exact commutes wrap
  · rfl

theorem redeemedRow_unseen (id : String) (now : Timestamp) (table : WrapTable) :
    (redeemedRow id now table).map (·.unseen) = returning (redeemable id now) (MagicLinkWrap.consumed now)
        (table.rows.map (·.unseen)) := by
  have sees : (redeemable id now ∘ fun wrap : MagicLinkWrap => wrap.unseen) = redeemable id now := rfl
  rw [returning, find?_map, sees, redeemedRow, returning, Option.map_map, Option.map_map]
  rfl

variable {left right : WrapTable}

theorem SameUnseen.redeemedRow (same : SameUnseen left right) (id : String) (now : Timestamp) :
    (redeemedRow id now left).map (·.unseen) = (MagicLinks.redeemedRow id now right).map (·.unseen) := by
  rw [redeemedRow_unseen, redeemedRow_unseen, same]

theorem SameUnseen.free (same : SameUnseen left right) (id : String) : left.free id = right.free id := by
  have sees : ∀ table : WrapTable, table.free id = (table.rows.map (·.unseen)).all (·.id != id) := by
    intro table
    rw [all_map]
    rfl
  rw [sees, sees, same]

variable {stmt : WrapStatement}

theorem SameUnseen.effect (same : SameUnseen left right) (shown : stmt.inspects = false) :
    SameUnseen (effect stmt left) (effect stmt right) := by
  cases stmt with
  | insert params now =>
    simp only [SameUnseen, effect, WrapStatement.effect]
    split
    · rw [Table.Keyed.rows_insert, Table.Keyed.rows_insert, same.free]
      split
      · rw [map_append, map_append, same]
      · exact same
    · exact same
  | countGet id now => cases shown
  | setConsumed id now =>
    have sees : ∀ wrap : MagicLinkWrap, redeemable id now wrap.unseen = redeemable id now wrap := fun _ => rfl
    have commutes : ∀ wrap : MagicLinkWrap, (wrap.consumed now).unseen = wrap.unseen.consumed now := fun _ => rfl
    have updated : ∀ table : WrapTable,
        (table.update (redeemable id now) (MagicLinkWrap.consumed now) fun _ => rfl).rows.map (·.unseen) =
          updateWhere (redeemable id now) (MagicLinkWrap.consumed now)
            (table.rows.map (·.unseen)) :=
      fun table => map_updateWhere sees commutes table.rows
    exact (updated left).trans ((congrArg _ same).trans (updated right).symm)
  | classify id now | selectById id => exact same
  | deleteExpired cutoff =>
    have sees : ((fun wrap => !prunable cutoff wrap) ∘ fun wrap : MagicLinkWrap => wrap.unseen) =
        fun wrap => !prunable cutoff wrap := rfl
    have kept : ∀ table : WrapTable, (table.delete (prunable cutoff)).rows.map (·.unseen) =
        (table.rows.map (·.unseen)).filter fun wrap => !prunable cutoff wrap := by
      intro table
      rw [filter_map, sees]
      rfl
    exact (kept left).trans ((congrArg _ same).trans (kept right).symm)

theorem SameUnseen.inspected (same : SameUnseen left right) (hidden : stmt.inspects = true) :
    SameUnseen left (Statement.effect stmt right) := by
  cases stmt with
  | countGet id now =>
    have unchanged : (Statement.effect (WrapStatement.countGet id now) right).rows.map (·.unseen) =
        right.rows.map (·.unseen) := by
      simp only [Statement.effect, WrapStatement.effect, Table.Keyed.update, updateWhere, map_map]
      refine map_congr_left fun wrap _ => ?_
      simp only [Function.comp_apply]
      split
      · rfl
      · rfl
    exact same.trans unchanged.symm
  | insert params now | setConsumed id now | classify id now | deleteExpired cutoff => cases hidden
  | selectById id => cases hidden

def WrapStatement.purges : WrapStatement → Bool
  | .deleteExpired _ => true
  | _ => false

/-- The id is taken by a wrap no consumption can return whose clock reads the cutoff or more. -/
structure Dead (id : String) (cutoff : Timestamp) (table : WrapTable) : Prop where
  taken : ∃ wrap ∈ table.rows, wrap.id = id
  dead : ∀ wrap ∈ table.rows, wrap.id = id → wrap.expiresAt < cutoff ∨ wrap.consumedAt.isSome = true

variable {table : WrapTable} {cutoff : Timestamp}

theorem Dead.of_prunable {wrap : MagicLinkWrap} (present : wrap ∈ table.rows)
    (prunes : prunable cutoff wrap = true) : Dead wrap.id cutoff table := by
  refine ⟨⟨wrap, present, rfl⟩, ?_⟩
  intro other member sameId
  rw [Table.Keyed.eq_of_key member present sameId]
  rcases prunable_iff.mp prunes with expired | ⟨consumedAt, consumed, _⟩
  · exact .inl expired
  · exact .inr (by rw [consumed]; rfl)

theorem taken_effect (keeps : stmt.purges = false) (taken : ∃ wrap ∈ table.rows, wrap.id = id)
    : ∃ wrap ∈ (effect stmt table).rows, wrap.id = id := by
  obtain ⟨wrap, present, named⟩ := taken
  cases stmt with
  | insert params now =>
    simp only [effect, WrapStatement.effect]
    split
    · exact ⟨wrap, Table.Keyed.mem_insert_of_mem present, named⟩
    · exact ⟨wrap, present, named⟩
  | countGet other now | setConsumed other now =>
    refine ⟨_, mem_updateWhere_of_mem present, ?_⟩
    split
    · exact named
    · exact named
  | classify other now | selectById other => exact ⟨wrap, present, named⟩
  | deleteExpired cutoff => cases keeps

theorem Dead.effect (dead : Dead id cutoff table) (keeps : stmt.purges = false) :
    Dead id cutoff (effect stmt table) := by
  refine ⟨taken_effect keeps dead.taken, ?_⟩
  intro wrap member named
  obtain ⟨old, present, becomes⟩ | ⟨params, now, _, accepted, rfl⟩ := mem_effect member
  · rcases dead.dead old present (becomes.id.symm.trans named) with expired | consumed
    · exact .inl (by rw [becomes.expiresAt]; exact expired)
    · exact .inr (becomes.consumed consumed)
  · obtain ⟨taken, present, sameId⟩ := dead.taken
    have free := Table.Keyed.free_iff.mp (Bool.and_eq_true_iff.mp accepted).2 taken present
    exact absurd (sameId.trans named.symm) free

theorem Dead.redeemedRow (dead : Dead id cutoff table) (reads : cutoff ≤ now) : redeemedRow id now table = none := by
  refine redeemedRow_eq_none.mpr fun wrap present => ?_
  rw [← Bool.not_eq_true, redeemable_iff]
  intro selected
  obtain ⟨named, pending, unexpired⟩ := selected
  rcases dead.dead wrap present named with expired | consumed
  · exact Int.lt_irrefl now (Int.lt_of_lt_of_le (Int.lt_trans unexpired expired) reads)
  · rw [pending] at consumed
    cases consumed

/-- What a run of the wrap operations keeps to. `covered` says for which cutoff of a purge and
which later reading of a consumption's clock the purge must have removed nothing. -/
structure SingleUse (covered : Timestamp → Timestamp → Prop) (table : WrapTable)
    (schedule : List (Choice WrapOperation)) : Prop where
  /-- A call returns the link its own `UPDATE` found pending and unexpired. -/
  returned : ∀ ending ∈ (runWraps table schedule).ended, ∀ link, ending.result = .ok (.consumed (.ok link)) →
      ∃ id now later, (operations schedule)[ending.session]? = some (.consume id now later) ∧
        ∃ execution ∈ (runWraps table schedule).trace, execution.session = ending.session ∧
          execution.statement = .setConsumed id now ∧ Redeems id execution ∧
          ∃ wrap ∈ execution.before.rows, wrap.id = id ∧ wrap.consumedAt = none ∧
            now < wrap.expiresAt ∧ link = wrap.redeemed
  /-- No second `UPDATE` returns the wrap: a new one has to be created under the id first. -/
  once : ∀ earlier first middle second later,
    (runWraps table schedule).trace = earlier ++ first :: middle ++ second :: later →
      ∀ id, Redeems id first → Redeems id second → ∃ execution ∈ middle, Creates id execution
  /-- An `UPDATE` of a consumption returns what it had returned without the inspections before. -/
  inspected : ∀ earlier execution later, (runWraps table schedule).trace = earlier ++ execution :: later →
      ∀ id now, execution.statement = .setConsumed id now →
        (redeemedRow id now (executed ((earlier.map (·.statement)).filter (!·.inspects)) table)).map
            (·.unseen) =
          (redeemedRow id now execution.before).map (·.unseen)
  /-- Had purges left a removed wrap in the table, no later consumption had returned it. -/
  purged : ∀ earlier purge middle redemption later,
    (runWraps table schedule).trace = earlier ++ purge :: middle ++ redemption :: later →
      ∀ cutoff id now, purge.statement = .deleteExpired cutoff →
        redemption.statement = .setConsumed id now → covered cutoff now →
        ∀ wrap ∈ purge.before.rows, prunable cutoff wrap = true → wrap.id = id → redeemedRow id now
            (executed ((middle.map (·.statement)).filter (!·.purges)) purge.before) = none

/-- Links are single use in every run. A purge is covered from where the clocks of consumptions
do not read less than its cutoff. -/
theorem links_single_use (table : WrapTable) (schedule : List (Choice WrapOperation)) :
    SingleUse (fun cutoff now => cutoff ≤ now) table schedule := by
  constructor
  · intro ending member link ended
    have traced := System.run_traced wrapProgram table schedule
    obtain ⟨_, _, operation, started, path⟩ := traced.finished ending member
    rw [ended] at path
    obtain ⟨id, now, later, rfl, through⟩ := program_path path
    obtain ⟨found, row, step, redeemed, rfl⟩ := consume_path through
    obtain ⟨execution, own, same⟩ := mem_map.mp step
    obtain ⟨inTrace, ofSession⟩ := mem_filter.mp own
    obtain ⟨wrap, present, selected, rfl⟩ := redeemedRow_eq_some redeemed
    obtain ⟨named, pending, unexpired⟩ := redeemable_iff.mp selected
    have isUpdate : execution.statement = .setConsumed id now := congrArg Prod.fst same
    have finds : execution.before = found := congrArg Prod.snd same
    rw [← finds] at redeemed present
    refine ⟨id, now, later, started, execution, inTrace, by simpa using ofSession, isUpdate, ?_, ?_⟩
    · exact ⟨now, isUpdate, by rw [redeemed]; rfl⟩
    · exact ⟨wrap, present, named, pending, unexpired, rfl⟩
  · intro earlier first middle second later split id firstRedeems secondRedeems
    exact creates_between table schedule split firstRedeems secondRedeems
  · intro earlier execution later split id now _
    have same : SameUnseen (executed ((earlier.map (·.statement)).filter (!·.inspects)) table)
        (executed (earlier.map (·.statement)) table) := by
      refine executed_filter (fun stmt : WrapStatement => !stmt.inspects) ?_ ?_ _ rfl
      · intro stmt shown left right related
        exact related.effect (by simpa using shown)
      · intro stmt hidden left right related
        exact related.inspected (by simpa using hidden)
    rw [System.run_before wrapProgram table schedule split]
    exact same.redeemedRow id now
  · intro earlier purge middle redemption later _ cutoff id now _ _ reads wrap present prunes named
    have dead : Dead id cutoff (executed ((middle.map (·.statement)).filter (!·.purges)) purge.before) := by
      refine executed_keeps ?_ (named ▸ Dead.of_prunable present prunes)
      intro stmt member found dead
      have keeps := (mem_filter.mp member).2
      exact dead.effect (by simpa using keeps)
    exact dead.redeemedRow reads

def invitation : NewWrap where
  id := "mlw_1"
  gotrueActionLink := "https://auth/verify"
  emailHash := "hash"
  kind := .invite
  expiresAt := 3600000

/-- The clock of the purge reads the third day, that of the consumption a second after creation. -/
def setBack : List (Choice WrapOperation) :=
  [.start (.create invitation 0), .advance 0, .start (.pruneExpired (purgeCutoff 200000000)), .advance 1,
    .start (.consume "mlw_1" 1000 1000), .advance 2]

/-- A purge removes a wrap that a consumption had returned whose clock reads less than the cutoff. -/
theorem purge_ahead_of_clock :
    ¬ ∀ (table : WrapTable) (schedule : List (Choice WrapOperation)), SingleUse (fun _ _ => True) table schedule := by
  intro everywhere
  let created := (Table.Keyed.empty : WrapTable).insert (invitation.row 0)
  let pruned := created.delete (prunable (purgeCutoff 200000000))
  have split : (runWraps .empty setBack).trace = [⟨0, .insert invitation 0, .empty, created⟩] ++
        ⟨1, .deleteExpired (purgeCutoff 200000000), created, pruned⟩ :: [] ++ ⟨2, .setConsumed "mlw_1" 1000, pruned,
          effect (.setConsumed "mlw_1" 1000 : WrapStatement) pruned⟩ :: [] := rfl
  have nothing := (everywhere .empty setBack).purged _ _ _ _ _ split _ "mlw_1" 1000 rfl rfl trivial
    (invitation.row 0) (by decide +kernel) (by decide +kernel) rfl
  have returns : (redeemedRow "mlw_1" 1000 created).isSome = true := by decide +kernel
  rw [map_nil, filter_nil, executed_nil] at nothing
  rw [nothing] at returns
  cases returns

end EveHorizon.MagicLinks
