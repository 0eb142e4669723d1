import EveHorizon.Library.Issues
import Mathlib.Data.Nat.Find

/-!
# Histories and credit of a call

Two ways to speak about a whole call inside a run.
-/

namespace EveHorizon.Interleaving

open List

variable {ι σ ε α β ω : Type} {handler : ε → Call ι σ ε α} {next : σ → Call ι σ ε α} {issued : ι → Prop} {query : σ → α}

namespace Call

def After : Call ι σ ε α → List (ι × σ) → Call ι σ ε α → Prop
  | call, [], rest => call = rest
  | .stmt statement next, step :: steps, rest =>
    step.1 = statement ∧ (next step.2).After steps rest
  | .ret _, _ :: _, _ => False
  | .raise _, _ :: _, _ => False

def Path (call : Call ι σ ε α) (steps : List (ι × σ)) (result : Except ε α) : Prop :=
  call.After steps (ofExcept result)

variable {call : Call ι σ ε α}

@[simp] theorem after_nil {rest : Call ι σ ε α} : call.After [] rest ↔ call = rest := by
  cases call <;> rfl

variable {steps : List (ι × σ)} {statement : ι}

theorem After.extend (reached : call.After steps (.stmt statement next)) (store : σ) :
    call.After (steps ++ [(statement, store)]) (next store) := by
  induction steps generalizing call with
  | nil =>
    cases call with
    | ret value | raise error => cases reached
    | stmt first rest =>
      cases reached
      exact ⟨rfl, after_nil.mpr rfl⟩
  | cons step steps ih =>
    cases call with
    | ret value | raise error => cases reached
    | stmt first rest => exact ⟨reached.1, ih reached.2⟩

variable {result : Except ε α}

@[simp] theorem path_ret {value : α} :
    (Call.ret value : Call ι σ ε α).Path steps result ↔ steps = [] ∧ result = .ok value := by
  cases steps with
  | nil => cases result <;> simp [Path, After, ofExcept, eq_comm]
  | cons step steps => simp [Path, After]

variable {error : ε}

@[simp] theorem path_raise :
    (Call.raise error : Call ι σ ε α).Path steps result ↔ steps = [] ∧ result = .error error := by
  cases steps with
  | nil => cases result <;> simp [Path, After, ofExcept, eq_comm]
  | cons step steps => simp [Path, After]

theorem path_stmt : (Call.stmt statement next).Path steps result ↔
      ∃ store rest, steps = (statement, store) :: rest ∧ (next store).Path rest result := by
  cases steps with
  | nil => cases result <;> simp [Path, After, ofExcept]
  | cons step steps =>
    obtain ⟨first, found⟩ := step
    constructor
    · rintro ⟨rfl, later⟩
      exact ⟨found, steps, rfl, later⟩
    · rintro ⟨store, rest, same, later⟩
      cases same
      exact ⟨rfl, later⟩

theorem path_perform : (Call.perform statement query : Call ι σ ε α).Path steps result ↔
      ∃ store, steps = [(statement, store)] ∧ result = .ok (query store) := by
  simp [perform, path_stmt]

theorem Issues.of_path (issues : call.Issues issued) (path : call.Path steps result) :
    ∀ step ∈ steps, issued step.1 := by
  induction call generalizing steps with
  | ret value =>
    rw [(path_ret.mp path).1]
    simp
  | raise error =>
    rw [(path_raise.mp path).1]
    simp
  | stmt statement next ih =>
    obtain ⟨store, rest, rfl, onward⟩ := path_stmt.mp path
    intro step member
    rcases mem_cons.mp member with rfl | later
    · exact issues.1
    · exact ih store (issues.2 store) onward step later

variable {cont : β → Call ι σ ε α} {outcome : Except ε β}

theorem issues_ofExcept_bind (rest : ∀ value, outcome = .ok value → (cont value).Issues issued) :
    (ofExcept outcome >>= cont).Issues issued := by
  cases outcome with
  | error error => trivial
  | ok value => exact rest value rfl

/-- A path through a sequence: through the first call and on from its value, or through
the first call to its error. -/
theorem Path.of_bind {call : Call ι σ ε β} (path : (call >>= cont).Path steps result) :
    (∃ first rest value, steps = first ++ rest ∧ call.Path first (.ok value) ∧ (cont value).Path rest result) ∨
    ∃ error, call.Path steps (.error error) ∧ result = .error error := by
  induction call generalizing steps with
  | ret value => exact .inl ⟨[], steps, value, rfl, by simp, path⟩
  | raise error =>
    rw [raise_bind, path_raise] at path
    exact .inr ⟨error, by simp [path.1], path.2⟩
  | stmt statement next ih =>
    obtain ⟨store, later, rfl, onward⟩ := path_stmt.mp path
    rcases ih store onward with ⟨first, rest, value, rfl, started, finished⟩ | ⟨error, failed, same⟩
    · exact .inl ⟨(statement, store) :: first, rest, value, rfl, path_stmt.mpr ⟨store, first, rfl, started⟩, finished⟩
    · exact .inr ⟨error, path_stmt.mpr ⟨store, later, rfl, failed⟩, same⟩

theorem Path.of_ofExcept_bind (path : (ofExcept outcome >>= cont).Path steps result) :
    (∃ value, outcome = .ok value ∧ (cont value).Path steps result) ∨
      ∃ error, outcome = .error error ∧ steps = [] ∧ result = .error error := by
  cases outcome with
  | ok value => exact .inl ⟨value, rfl, path⟩
  | error error =>
    obtain ⟨nothing, same⟩ := path_raise.mp path
    exact .inr ⟨error, rfl, nothing, same⟩

theorem Path.of_handle (path : (call.handle handler).Path steps result) :
    (∃ value, call.Path steps (.ok value) ∧ result = .ok value) ∨
    ∃ first rest error, steps = first ++ rest ∧ call.Path first (.error error) ∧ (handler error).Path rest result := by
  induction call generalizing steps with
  | ret value =>
    obtain ⟨rfl, same⟩ := path_ret.mp path
    exact .inl ⟨value, by simp, same⟩
  | raise error => exact .inr ⟨[], steps, error, rfl, by simp, path⟩
  | stmt statement next ih =>
    obtain ⟨store, later, rfl, onward⟩ := path_stmt.mp path
    rcases ih store onward with ⟨value, finished, same⟩ | ⟨first, rest, error, rfl, failed, caught⟩
    · exact .inl ⟨value, path_stmt.mpr ⟨store, later, rfl, finished⟩, same⟩
    · exact .inr ⟨(statement, store) :: first, rest, error, rfl, path_stmt.mpr ⟨store, first, rfl, failed⟩, caught⟩

variable {items : List β} {body : β → Call ι σ ε Unit}

theorem Path.forEach_ok (path : (Call.forEach items body).Path steps (.ok ())) {item : β}
    (member : item ∈ items) : ∃ part, part ⊆ steps ∧ (body item).Path part (.ok ()) := by
  induction items generalizing steps with
  | nil => cases member
  | cons head tail ih =>
    rcases Path.of_bind path with ⟨first, rest, value, rfl, started, finished⟩ | ⟨_, _, same⟩
    · rcases mem_cons.mp member with rfl | later
      · exact ⟨first, subset_append_left _ _, started⟩
      · obtain ⟨part, inside, through⟩ := ih finished later
        exact ⟨part, List.Subset.trans inside (subset_append_right _ _), through⟩
    · cases same

theorem Path.forEach_error (path : (Call.forEach items body).Path steps (.error error)) :
    ∃ item ∈ items, ∃ part, part ⊆ steps ∧ (body item).Path part (.error error) := by
  induction items generalizing steps with
  | nil => cases (path_ret.mp path).2
  | cons head tail ih =>
    rcases Path.of_bind path with ⟨first, rest, value, rfl, _, failed⟩ | ⟨_, failed, same⟩
    · obtain ⟨item, member, part, inside, through⟩ := ih failed
      exact ⟨item, mem_cons_of_mem head member, part, List.Subset.trans inside (subset_append_right _ _), through⟩
    · cases same
      exact ⟨head, mem_cons_self, steps, List.Subset.refl _, failed⟩

/-- The call does not end with an error as long as its statements find stores as assumed. -/
def NoRaise (assumed : ι → σ → Prop) : Call ι σ ε α → Prop
  | .ret _ => True
  | .raise _ => False
  | .stmt statement next => ∀ store, assumed statement store → (next store).NoRaise assumed

variable {assumed : ι → σ → Prop}

theorem NoRaise.not_path (safe : call.NoRaise assumed)
    (holds : ∀ step ∈ steps, assumed step.1 step.2) : ¬ call.Path steps (.error error) := by
  intro path
  induction call generalizing steps with
  | ret value => cases (path_ret.mp path).2
  | raise raised => exact safe
  | stmt statement next ih =>
    obtain ⟨store, rest, rfl, onward⟩ := path_stmt.mp path
    have first : assumed statement store := holds (statement, store) mem_cons_self
    exact ih store (safe store first) (fun step member => holds step (mem_cons_of_mem _ member)) onward

theorem NoRaise.bind {call : Call ι σ ε β} (first : call.NoRaise assumed)
    (rest : ∀ value, (cont value).NoRaise assumed) : (call >>= cont).NoRaise assumed := by
  induction call with
  | ret value => exact rest value
  | raise error => exact first
  | stmt statement next ih => exact fun store holds => ih store (first store holds)

theorem NoRaise.handle (rest : ∀ error, (handler error).NoRaise assumed) : (call.handle handler).NoRaise assumed := by
  induction call with
  | ret value => trivial
  | raise error => exact rest error
  | stmt statement next ih => exact fun store _ => ih store

theorem NoRaise.forEach (each : ∀ item ∈ items, (body item).NoRaise assumed) :
    (Call.forEach items body).NoRaise assumed := by
  induction items with
  | nil => trivial
  | cons item rest ih =>
    exact (each item mem_cons_self).bind fun _ =>
      ih fun other member => each other (mem_cons_of_mem item member)

theorem NoRaise.lift {κ τ : Type} {embed : κ → ι} {view : σ → τ} {call : Call κ τ ε α}
    (safe : call.NoRaise fun _ _ => True) : (call.lift embed view).NoRaise assumed := by
  induction call with
  | ret value => trivial
  | raise error => exact safe
  | stmt statement next ih => exact fun store _ => ih (view store) (safe (view store) trivial)

theorem noRaise_perform :
    (Call.perform statement query : Call ι σ ε α).NoRaise assumed := fun _ _ => trivial

end Call

def System.stepsOf (system : System ι σ ε α) (session : Nat) : List (ι × σ) :=
  (system.trace.filter (·.session == session)).map fun execution =>
    (execution.statement, execution.before)

variable {system : System ι σ ε α}

theorem System.forall_steps {session : Nat} (property : ι → σ → Prop)
    (holds : ∀ execution ∈ system.trace, execution.session = session → property execution.statement execution.before) :
    ∀ step ∈ system.stepsOf session, property step.1 step.2 := by
  intro step member
  obtain ⟨execution, kept, rfl⟩ := mem_map.mp member
  obtain ⟨present, same⟩ := mem_filter.mp kept
  exact holds execution present (by simpa using same)

theorem System.step_of_mem_trace {execution : Execution ι σ} (member : execution ∈ system.trace) :
    (execution.statement, execution.before) ∈ system.stepsOf execution.session :=
  mem_map.mpr ⟨execution, mem_filter.mpr ⟨member, by simp⟩, rfl⟩

variable [Statement ι σ] (program : Nat → ω → Call ι σ ε α)

def operations (schedule : List (Choice ω)) : List ω :=
  schedule.filterMap fun choice =>
    match choice with
    | .start operation => some operation
    | .advance _ => none

structure System.Traced (operations : List ω) (system : System ι σ ε α) : Prop where
  counted : operations.length = system.started
  distinct : (system.running.map Prod.fst).Nodup
  numbered : ∀ entry ∈ system.running, entry.1 < system.started
  unused : ∀ session, system.started ≤ session → system.stepsOf session = []
  reached : ∀ entry ∈ system.running, ∃ operation, operations[entry.1]? = some operation ∧
    (program entry.1 operation).After (system.stepsOf entry.1) entry.2
  finished : ∀ ending ∈ system.ended, ending.session < system.started ∧ ending.session ∉ system.running.map Prod.fst ∧
    ∃ operation, operations[ending.session]? = some operation ∧
      (program ending.session operation).Path (system.stepsOf ending.session) ending.result

namespace System.Traced

variable {program} {operations : List ω} {system : System ι σ ε α}

section

variable (traced : system.Traced program operations)
include traced

omit [Statement ι σ] in
theorem start (operation : ω) : (system.begin (program system.started operation)).Traced program
      (operations ++ [operation]) where
  counted := by simp [begin, traced.counted]
  distinct := distinct_begin traced.distinct traced.numbered _
  numbered := numbered_begin traced.numbered _
  unused := fun session above => traced.unused session (Nat.le_of_succ_le above)
  reached := by
    intro entry member
    rcases mem_append.mp member with running | added
    · obtain ⟨older, named, reached⟩ := traced.reached entry running
      have below := traced.numbered entry running
      rw [← traced.counted] at below
      exact ⟨older, by rw [getElem?_append_left below, named], reached⟩
    · rw [mem_singleton.mp added]
      refine ⟨operation, by simp [← traced.counted], ?_⟩
      have nothing : (system.begin (program system.started operation)).stepsOf system.started = [] :=
        traced.unused system.started (Nat.le_refl _)
      rw [nothing]
      exact Call.after_nil.mpr rfl
  finished := by
    intro ending member
    obtain ⟨below, absent, older, named, path⟩ := traced.finished ending member
    have inside := below
    rw [← traced.counted] at inside
    refine ⟨Nat.lt_succ_of_lt below, ?_, older, by rw [getElem?_append_left inside, named], path⟩
    rw [begin, map_append, mem_append]
    rintro (running | added)
    · exact absent running
    · have equal : ending.session = system.started := by simpa using added
      omega

variable {position session : Nat}

omit [Statement ι σ] in
theorem finish (result : Except ε α) (selected : system.running[position]? = some (session, .ofExcept result)) :
    (system.finish position session result).Traced program operations where
  counted := traced.counted
  distinct := traced.distinct.sublist ((eraseIdx_sublist _ _).map _)
  numbered := fun entry member => traced.numbered entry (mem_of_mem_eraseIdx member)
  unused := traced.unused
  reached := fun entry member => traced.reached entry (mem_of_mem_eraseIdx member)
  finished := by
    have running := mem_of_getElem? selected
    intro ending member
    rcases mem_append.mp member with old | new
    · obtain ⟨below, absent, path⟩ := traced.finished ending old
      refine ⟨below, fun present => absent ?_, path⟩
      exact ((eraseIdx_sublist _ _).map Prod.fst).subset present
    · rw [mem_singleton.mp new]
      refine ⟨traced.numbered _ running, ?_, traced.reached _ running⟩
      obtain ⟨inRange, current⟩ := List.getElem?_eq_some_iff.mp selected
      have split := (getElem_cons_eraseIdx_perm inRange).map Prod.fst
      have distinct := split.nodup_iff.mpr traced.distinct
      rw [map_cons, current, nodup_cons] at distinct
      exact distinct.1

theorem execute {statement : ι} (selected : system.running[position]? = some (session, .stmt statement next)) :
    (system.execute position session statement next).Traced program operations := by
  have running := mem_of_getElem? selected
  have below := traced.numbered _ running
  have own (other : Nat) : (system.execute position session statement next).stepsOf other =
      system.stepsOf other ++ if session = other then [(statement, system.store)] else [] := by
    by_cases same : session = other <;> simp [System.execute, stepsOf, filter_append, same]
  refine ⟨traced.counted, ?_, ?_, ?_, ?_, ?_⟩
  · rw [System.execute, map_fst_set selected]
    exact traced.distinct
  · intro entry member
    rcases entry_of_mem_set traced.distinct selected member with rfl | ⟨old, _⟩
    · exact below
    · exact traced.numbered entry old
  · intro other above
    have different : session ≠ other := Nat.ne_of_lt (Nat.lt_of_lt_of_le below above)
    rw [own, if_neg different, traced.unused other above]
    rfl
  · intro entry member
    rw [own]
    rcases entry_of_mem_set traced.distinct selected member with rfl | ⟨old, different⟩
    · obtain ⟨operation, named, reached⟩ := traced.reached _ running
      rw [if_pos rfl]
      exact ⟨operation, named, reached.extend system.store⟩
    · rw [if_neg different, append_nil]
      exact traced.reached entry old
  · intro ending member
    obtain ⟨started, absent, path⟩ := traced.finished ending member
    have different : session ≠ ending.session := by
      rintro rfl
      exact absent (mem_map.mpr ⟨_, running, rfl⟩)
    rw [own, if_neg different, append_nil, System.execute, map_fst_set selected]
    exact ⟨started, absent, path⟩

end

end System.Traced

theorem System.Traced.move {program : Nat → ω → Call ι σ ε α} {older : List ω}
    (traced : system.Traced program older) (choice : Choice ω) :
    (system.move program choice).Traced program (older ++ operations [choice]) := by
  cases choice with
  | start operation => exact traced.start operation
  | advance position =>
    simp only [operations, filterMap_cons, filterMap_nil, append_nil]
    refine move_induction program (System.Traced program older) traced (.advance position) nofun ?_ ?_
    · intro position session result selected
      exact traced.finish result selected
    · intro position session statement next selected _
      exact traced.execute selected

theorem System.run_traced (store : σ) (schedule : List (Choice ω)) :
    (run program store schedule).Traced program (operations schedule) := by
  have onward : ∀ (older : List ω) (system : System ι σ ε α), system.Traced program older →
      (system.play program schedule).Traced program (older ++ operations schedule) := by
    induction schedule with
    | nil =>
      intro older system traced
      rw [operations, filterMap_nil, append_nil]
      exact traced
    | cons choice rest ih =>
      intro older system traced
      have later := ih _ _ (traced.move choice)
      rw [append_assoc, operations, operations, ← filterMap_append] at later
      exact later
  have start : (initial store : System ι σ ε α).Traced program [] := {
    counted := rfl
    distinct := nodup_nil
    numbered := by simp [initial]
    unused := by simp [stepsOf, initial]
    reached := by simp [initial]
    finished := by simp [initial] }
  exact onward [] (initial store) start

theorem System.steps_pairwise {relation : σ → σ → Prop} (refl : ∀ store, relation store store)
    (trans : ∀ {first second third}, relation first second → relation second third → relation first third)
    (keeps : ∀ (statement : ι) store, relation store (Statement.effect statement store))
    (store : σ) (schedule : List (Choice ω)) (session : Nat) : ((run program store schedule).stepsOf session).Pairwise
      fun earlier later => relation (Statement.effect earlier.1 earlier.2) later.2 := by
  let left := fun execution : Execution ι σ =>
    Statement.effect execution.statement execution.before
  have nothing : (∀ execution ∈ ([] : List (Execution ι σ)), relation (left execution) store) ∧
      ([] : List (Execution ι σ)).Pairwise fun earlier later =>
        relation (left earlier) later.before := by simp
  have history := run_history program (fun history final => (∀ execution ∈ history, relation (left execution) final) ∧
      history.Pairwise fun earlier later => relation (left earlier) later.before)
    nothing ?_ schedule
  · exact pairwise_map.mpr (history.2.sublist filter_sublist)
  · rintro history session statement before ⟨reached, ordered⟩ _
    refine ⟨?_, ?_⟩
    · intro execution member
      rcases mem_append.mp member with old | new
      · exact trans (reached execution old) (keeps statement before)
      · rw [mem_singleton.mp new]
        exact refl _
    · refine pairwise_append.mpr ⟨ordered, pairwise_singleton _ _, ?_⟩
      intro execution member last singleton
      rw [mem_singleton.mp singleton]
      exact reached execution member

variable {γ : Type}

theorem sum_of_getElem? (amount : γ → Nat) {entries : List γ} {position : Nat} {entry : γ}
    (selected : entries[position]? = some entry) :
    (entries.map amount).sum = ((entries.eraseIdx position).map amount).sum + amount entry := by
  obtain ⟨inRange, rfl⟩ := List.getElem?_eq_some_iff.mp selected
  rw [← ((getElem_cons_eraseIdx_perm inRange).map amount).sum_nat, map_cons, sum_cons, Nat.add_comm]

theorem sum_set_of_getElem? (amount : γ → Nat) {entries : List γ} {position : Nat} {entry : γ}
    (selected : entries[position]? = some entry) (new : γ) :
    ((entries.set position new).map amount).sum = ((entries.eraseIdx position).map amount).sum + amount new := by
  obtain ⟨inRange, _⟩ := List.getElem?_eq_some_iff.mp selected
  rw [((set_perm_cons_eraseIdx inRange new).map amount).sum_nat, map_cons, sum_cons, Nat.add_comm]

theorem sum_indicator (test : γ → Prop) [DecidablePred test] (items : List γ) :
    (items.map fun item => if test item then 1 else 0).sum = items.countP (test ·) := by
  induction items with
  | nil => rfl
  | cons item rest ih =>
    rw [map_cons, sum_cons, ih, countP_cons, Nat.add_comm]
    simp

namespace Call

omit [Statement ι σ]

/-- With the credit and what its statements earn on the way, the call can pay for every
statement it comes to, whatever the stores. -/
def Within (gain spend : ι → σ → Nat) : Nat → Call ι σ ε α → Prop
  | _, .ret _ => True
  | _, .raise _ => True
  | credit, .stmt statement next => ∀ store, spend statement store ≤ credit + gain statement store ∧
        (next store).Within gain spend (credit + gain statement store - spend statement store)

variable {gain spend : ι → σ → Nat} {call : Call ι σ ε α} {credit : Nat}

theorem Within.mono {more : Nat} (within : call.Within gain spend credit) (le : credit ≤ more) :
    call.Within gain spend more := by
  induction call generalizing credit more with
  | ret value | raise error => trivial
  | stmt statement next ih =>
    intro store
    obtain ⟨affordable, later⟩ := within store
    exact ⟨by omega, ih store later (by omega)⟩

variable {reserve : Nat}

theorem Within.bind {call : Call ι σ ε β} {cont : β → Call ι σ ε α} (first : call.Within gain spend credit)
    (rest : ∀ value, (cont value).Within gain spend reserve) :
    (call >>= cont).Within gain spend (credit + reserve) := by
  induction call generalizing credit with
  | ret value => exact (rest value).mono (Nat.le_add_left _ _)
  | raise error => trivial
  | stmt statement next ih =>
    intro store
    obtain ⟨affordable, later⟩ := first store
    refine ⟨by omega, (ih store later).mono (by omega)⟩

theorem Within.handle (first : call.Within gain spend credit)
    (rest : ∀ error, (handler error).Within gain spend reserve) :
    (call.handle handler).Within gain spend (credit + reserve) := by
  induction call generalizing credit with
  | ret value => trivial
  | raise error => exact (rest error).mono (Nat.le_add_left _ _)
  | stmt statement next ih =>
    intro store
    obtain ⟨affordable, later⟩ := first store
    refine ⟨by omega, (ih store later).mono (by omega)⟩

theorem Within.forEach {items : List β} {body : β → Call ι σ ε Unit} {credit : β → Nat}
    (each : ∀ item ∈ items, (body item).Within gain spend (credit item)) :
    (Call.forEach items body).Within gain spend (items.map credit).sum := by
  induction items with
  | nil => trivial
  | cons item rest ih =>
    rw [map_cons, sum_cons]
    exact (each item mem_cons_self).bind fun _ =>
      ih fun other member => each other (mem_cons_of_mem item member)

theorem within_perform {statement : ι} (free : ∀ store, spend statement store = 0) :
    (Call.perform statement query : Call ι σ ε α).Within gain spend 0 := by
  intro store
  exact ⟨by rw [free]; exact Nat.zero_le _, trivial⟩

open Classical in
noncomputable def allowance (gain spend : ι → σ → Nat) (call : Call ι σ ε α) : Nat :=
  if enough : ∃ credit, call.Within gain spend credit then Nat.find enough else 0

theorem Within.allowance_le (within : call.Within gain spend credit) : call.allowance gain spend ≤ credit := by
  classical
  rw [allowance, dif_pos ⟨credit, within⟩]
  exact Nat.find_min' _ within

theorem within_allowance (enough : ∃ credit, call.Within gain spend credit) :
    call.Within gain spend (call.allowance gain spend) := by
  classical
  rw [allowance, dif_pos enough]
  exact Nat.find_spec enough

end Call

def total (amount : ι → σ → Nat) (trace : List (Execution ι σ)) : Nat :=
  (trace.map fun execution => amount execution.statement execution.before).sum

omit [Statement ι σ] in
theorem total_le_countP {amount : ι → σ → Nat} {test : Execution ι σ → Bool} {trace : List (Execution ι σ)}
    (bound : ∀ execution ∈ trace, amount execution.statement execution.before ≤ if test execution then 1 else 0) :
    total amount trace ≤ trace.countP test := by
  induction trace with
  | nil => exact Nat.zero_le _
  | cons execution rest ih =>
    have first := bound execution mem_cons_self
    have later := ih fun other member => bound other (mem_cons_of_mem execution member)
    rw [total, map_cons, sum_cons, countP_cons]
    rw [total] at later
    omega

/-- Calls that start without credit spend, all together, at most what they earn. -/
theorem System.spent_le_gained (gain spend : ι → σ → Nat)
    (paid : ∀ session operation, (program session operation).Within gain spend 0)
    (store : σ) (schedule : List (Choice ω)) :
    total spend (run program store schedule).trace ≤ total gain (run program store schedule).trace := by
  let due := fun entry : Nat × Call ι σ ε α => entry.2.allowance gain spend
  have potential := run_induction program (fun system : System ι σ ε α =>
      (∀ entry ∈ system.running, ∃ credit, entry.2.Within gain spend credit) ∧
      total spend system.trace + (system.running.map due).sum ≤ total gain system.trace)
    store (by simp [initial, total]) ?_ ?_ ?_ schedule
  · exact Nat.le_trans (Nat.le_add_right _ _) potential.2
  · rintro system operation ⟨payable, bound⟩
    have fresh := paid system.started operation
    refine ⟨?_, ?_⟩
    · intro entry member
      rcases mem_append.mp member with running | added
      · exact payable entry running
      · rw [mem_singleton.mp added]
        exact ⟨0, fresh⟩
    · have nothing : due (system.started, program system.started operation) = 0 := Nat.le_zero.mp fresh.allowance_le
      simpa [begin, nothing] using bound
  · rintro system position session result ⟨payable, bound⟩ selected
    refine ⟨fun entry member => payable entry (mem_of_mem_eraseIdx member), ?_⟩
    have counted := sum_of_getElem? due selected
    show total spend system.trace + ((system.running.eraseIdx position).map due).sum ≤ total gain system.trace
    omega
  · rintro system position session statement next ⟨payable, bound⟩ selected _
    have counted := sum_of_getElem? due selected
    have replaced := sum_set_of_getElem? due selected (session, next system.store)
    have within := Call.within_allowance (payable _ (mem_of_getElem? selected))
    obtain ⟨affordable, later⟩ := within system.store
    have covered : spend statement system.store ≤
      due (session, .stmt statement next) + gain statement system.store := affordable
    have rest : due (session, next system.store) ≤ due (session, .stmt statement next) +
      gain statement system.store - spend statement system.store := later.allowance_le
    refine ⟨?_, ?_⟩
    · intro entry member
      rcases mem_or_eq_of_mem_set member with running | rfl
      · exact payable entry running
      · exact ⟨_, later⟩
    · simp only [execute, total, map_append, sum_append, map_cons, map_nil, sum_cons, sum_nil, replaced] at bound ⊢
      omega

end EveHorizon.Interleaving
