import EveHorizon.Library.Assumptions

/-!
# Contracts

Statements that keep an invariant, and what every call may rely on from one of its statements to
the next, in runs whose executions are of a given kind.
-/

namespace EveHorizon.Interleaving

open List Statement

variable {ι σ ε α β κ ω : Type} [Statement ι σ]

structure Contract (ι σ κ : Type) [Statement ι σ] where
  inv : σ → Prop
  -- What is known of the executions of the run.
  met : ι → σ → Prop
  allowed : ι → σ → Prop
  rely : σ → σ → Prop
  rely_refl : ∀ store, rely store store
  rely_trans : ∀ {first second third}, rely first second → rely second third → rely first third
  keeps : ∀ {statement store}, inv store → met statement store → allowed statement store →
    inv (effect statement store)
  respects : ∀ {statement store}, inv store → met statement store → allowed statement store →
    rely store (effect statement store)
  -- What may fall due in a store, and the statements of a call that settles it.
  due : κ → σ → Prop
  settling : κ → ι → Prop

variable (contract : Contract ι σ κ)

def Call.Settles (key : κ) : Call ι σ ε α → Prop
  | .ret _ => False
  | .raise _ => False
  | .stmt statement next =>
    contract.settling key statement ∧
      ∀ found, contract.inv found → contract.met statement found → contract.due key found →
        ¬ contract.due key (effect statement found) ∨ (next found).Settles key

/-- From the store, the call issues allowed statements only, settles what falls due by them, and
returns what the postcondition says. -/
def Call.Follows (post : α → Prop) : Call ι σ ε α → σ → Prop
  | .ret value, _ => post value
  | .raise _, _ => True
  | .stmt statement next, store =>
    ∀ found, contract.rely store found → contract.inv found → contract.allowed statement found ∧
        (contract.met statement found →
          (∀ key, ¬ contract.due key found → contract.due key (effect statement found) →
            (next found).Settles contract key) ∧ (next found).Follows post (effect statement found))

variable {contract} {call : Call ι σ ε β}

theorem Call.Settles.bind {key : κ} (settles : call.Settles contract key) (cont : β → Call ι σ ε α) :
    (call >>= cont).Settles contract key := by
  induction call with
  | ret value | raise error => exact settles.elim
  | stmt statement next ih =>
    refine ⟨settles.1, fun found holds meets isDue => ?_⟩
    rcases settles.2 found holds meets isDue with done | onward
    · exact .inl done
    · exact .inr (ih found onward)

variable {store : σ}

theorem Call.Follows.bind {cont : β → Call ι σ ε α} {middle : β → Prop} {post : α → Prop}
    (first : call.Follows contract middle store)
    (rest : ∀ value reached, middle value → contract.rely store reached → (cont value).Follows contract post reached) :
    (call >>= cont).Follows contract post store := by
  induction call generalizing store with
  | ret value => exact rest value store first (contract.rely_refl store)
  | raise error => trivial
  | stmt statement next ih =>
    intro found relied holds
    obtain ⟨isAllowed, follows⟩ := first found relied holds
    refine ⟨isAllowed, fun meets => ?_⟩
    obtain ⟨settles, onward⟩ := follows meets
    refine ⟨fun key before after => (settles key before after).bind cont, ih found onward ?_⟩
    intro value reached returned later
    have own := contract.respects holds meets isAllowed
    exact rest value reached returned (contract.rely_trans relied (contract.rely_trans own later))

variable {call : Call ι σ ε α}

theorem Call.IssuesWhile.follows {assumed : σ → Prop} {issued : ι → Prop} (issues : call.IssuesWhile assumed issued)
    (assumes : ∀ store, contract.inv store → assumed store)
    (allows : ∀ statement found, issued statement → contract.rely store found → contract.inv found →
      contract.allowed statement found)
    (harmless : ∀ statement found, issued statement → contract.inv found → contract.met statement found →
      ∀ key, contract.due key (effect statement found) → contract.due key found) :
    call.Follows contract (fun _ => True) store := by
  induction call generalizing store with
  | ret value | raise error => trivial
  | stmt statement next ih =>
    intro found relied holds
    have isAllowed := allows statement found issues.1 relied holds
    refine ⟨isAllowed, fun meets => ⟨?_, ?_⟩⟩
    · intro key before after
      exact absurd (harmless statement found issues.1 holds meets key after) before
    · apply ih found (issues.2 found (assumes found holds))
      intro other later isIssued since
      have own := contract.respects holds meets isAllowed
      exact allows other later isIssued (contract.rely_trans relied (contract.rely_trans own since))

structure System.Follows (contract : Contract ι σ κ) (system : System ι σ ε α) : Prop where
  inv : contract.inv system.store
  running : ∀ entry ∈ system.running, ∃ reached, contract.rely reached system.store ∧
    entry.2.Follows contract (fun _ => True) reached
  executed : ∀ execution ∈ system.trace, contract.inv execution.before ∧
    contract.allowed execution.statement execution.before
  covered : ∀ key, contract.due key system.store → ∃ entry ∈ system.running, entry.2.Settles contract key

namespace System.Follows

variable {system : System ι σ ε α}

theorem start (follows : system.Follows contract) (starts : call.Follows contract (fun _ => True) system.store) :
    (system.begin call).Follows contract := by
  refine { follows with running := ?_, covered := ?_ }
  · intro entry member
    rcases mem_append.mp member with old | new
    · exact follows.running entry old
    · rw [mem_singleton.mp new]
      exact ⟨system.store, contract.rely_refl _, starts⟩
  · intro key isDue
    obtain ⟨entry, member, settles⟩ := follows.covered key isDue
    exact ⟨entry, mem_append_left _ member, settles⟩

variable {position session : Nat}

theorem finish (follows : system.Follows contract) (selected : system.running[position]? = some (session, call))
    (settled : ∀ key, ¬ call.Settles contract key) (result : Except ε α) :
    (system.finish position session result).Follows contract := by
  refine { follows with running := ?_, covered := ?_ }
  · intro entry member
    exact follows.running entry (mem_of_mem_eraseIdx member)
  · intro key isDue
    obtain ⟨entry, member, settles⟩ := follows.covered key isDue
    obtain ⟨index, named⟩ := mem_iff_getElem?.mp member
    refine ⟨entry, mem_eraseIdx_iff_getElem?.mpr ⟨index, ?_, named⟩, settles⟩
    intro same
    rw [same, selected] at named
    cases named
    exact settled key settles

theorem execute (follows : system.Follows contract) {statement : ι} {next : σ → Call ι σ ε α}
    (selected : system.running[position]? = some (session, .stmt statement next))
    (meets : contract.met statement system.store) :
    (system.execute position session statement next).Follows contract := by
  obtain ⟨reached, relied, issues⟩ := follows.running _ (mem_of_getElem? selected)
  obtain ⟨isAllowed, later⟩ := issues system.store relied follows.inv
  obtain ⟨settles, onward⟩ := later meets
  have own := contract.respects follows.inv meets isAllowed
  have inside : position < system.running.length := (List.getElem?_eq_some_iff.mp selected).1
  have placed : (session, next system.store) ∈
      system.running.set position (session, next system.store) := mem_set inside _
  constructor
  · exact contract.keeps follows.inv meets isAllowed
  · intro entry member
    rcases mem_or_eq_of_mem_set member with old | new
    · obtain ⟨since, before, calls⟩ := follows.running entry old
      exact ⟨since, contract.rely_trans before own, calls⟩
    · rw [new]
      exact ⟨_, contract.rely_refl _, onward⟩
  · intro execution member
    rcases mem_append.mp member with old | new
    · exact follows.executed execution old
    · rw [mem_singleton.mp new]
      exact ⟨follows.inv, isAllowed⟩
  · intro key isDue
    by_cases before : contract.due key system.store
    · obtain ⟨entry, member, covers⟩ := follows.covered key before
      obtain ⟨index, named⟩ := mem_iff_getElem?.mp member
      by_cases same : index = position
      · rw [same, selected] at named
        cases named
        rcases covers.2 system.store follows.inv meets before with done | carries
        · exact absurd isDue done
        · exact ⟨_, placed, carries⟩
      · refine ⟨entry, mem_iff_getElem?.mpr ⟨index, ?_⟩, covers⟩
        rw [System.execute, getElem?_set_ne (Ne.symm same), named]
    · exact ⟨_, placed, settles key before isDue⟩

end System.Follows

theorem System.play_induction_mem (program : Nat → ω → Call ι σ ε α)
    (property : System ι σ ε α → Prop) (schedule : List (Choice ω))
    (kept : ∀ choice ∈ schedule, ∀ system, property system → property (system.move program choice))
    (system : System ι σ ε α) (start : property system) : property (system.play program schedule) := by
  induction schedule generalizing system with
  | nil => exact start
  | cons choice rest ih =>
    have moved := kept choice mem_cons_self system start
    exact ih (fun other member => kept other (mem_cons_of_mem _ member)) _ moved

theorem System.run_follows (program : Nat → ω → Call ι σ ε α) {store : σ} {schedule : List (Choice ω)}
    (calls : ∀ session operation found, .start operation ∈ schedule → contract.inv found →
      (program session operation).Follows contract (fun _ => True) found)
    (start : contract.inv store) (nothingDue : ∀ key, ¬ contract.due key store)
    (meets : ∀ execution ∈ (run program store schedule).trace, contract.met execution.statement execution.before) :
    (run program store schedule).Follows contract := by
  have throughout := play_induction_mem program (fun system => (∀ execution ∈ system.trace,
      contract.met execution.statement execution.before) → system.Follows contract)
    schedule ?_ (initial store) fun _ =>
      ⟨start, by simp [initial], by simp [initial], fun key isDue => absurd isDue (nothingDue key)⟩
  · exact throughout meets
  · intro choice chosen system soFar
    refine move_induction program (fun system => (∀ execution ∈ system.trace,
      contract.met execution.statement execution.before) → system.Follows contract)
      soFar choice ?_ ?_ ?_
    · rintro operation rfl meets
      have follows := soFar meets
      exact follows.start (calls system.started operation _ chosen follows.inv)
    · intro position session result selected meets
      refine (soFar meets).finish selected (fun key => ?_) result
      cases result <;> exact id
    · intro position session statement next selected _ meets
      have follows := soFar fun execution member => meets execution (mem_append_left _ member)
      have last := meets _ (mem_append_right _ (mem_singleton_self _))
      exact follows.execute selected last

end EveHorizon.Interleaving
