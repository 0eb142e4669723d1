import EveHorizon.Library.Interleaving

/-!
# What calls issue

The statements that a call may issue, whatever stores they find.
-/

namespace EveHorizon.Interleaving

open List

variable {ι σ ε α β ω : Type}

def Call.Issues (issued : ι → Prop) : Call ι σ ε α → Prop
  | .ret _ => True
  | .raise _ => True
  | .stmt statement next => issued statement ∧ ∀ store, (next store).Issues issued

theorem Call.issues_true (call : Call ι σ ε α) : call.Issues fun _ => True := by
  induction call with
  | ret value | raise error => trivial
  | stmt statement next ih => exact ⟨trivial, ih⟩

variable {call : Call ι σ ε α} {cont : β → Call ι σ ε α} {handler : ε → Call ι σ ε α} {issued : ι → Prop}

theorem Call.Issues.imp {weaker : ι → Prop} (issues : call.Issues issued)
    (implies : ∀ statement, issued statement → weaker statement) : call.Issues weaker := by
  induction call with
  | ret value | raise error => trivial
  | stmt statement next ih =>
    exact ⟨implies statement issues.1, fun store => ih store (issues.2 store)⟩

theorem Call.Issues.bind {call : Call ι σ ε β} (first : call.Issues issued)
    (rest : ∀ value, (cont value).Issues issued) : (call >>= cont).Issues issued := by
  induction call with
  | ret value => exact rest value
  | raise error => trivial
  | stmt statement next ih => exact ⟨first.1, fun store => ih store (first.2 store)⟩

theorem Call.Issues.handle (first : call.Issues issued) (rest : ∀ error, (handler error).Issues issued) :
    (call.handle handler).Issues issued := by
  induction call with
  | ret value => trivial
  | raise error => exact rest error
  | stmt statement next ih => exact ⟨first.1, fun store => ih store (first.2 store)⟩

theorem Call.Issues.forEach {items : List β} {body : β → Call ι σ ε Unit}
    (each : ∀ item ∈ items, (body item).Issues issued) : (Call.forEach items body).Issues issued := by
  induction items with
  | nil => trivial
  | cons item rest ih =>
    exact (each item mem_cons_self).bind fun _ =>
      ih fun other member => each other (mem_cons_of_mem item member)

theorem Call.Issues.lift {κ τ : Type} {issued : ι → Prop} {embed : κ → ι} {view : σ → τ}
    {call : Call κ τ ε α} (issues : call.Issues fun statement => issued (embed statement)) :
    (call.lift embed view).Issues issued := by
  induction call with
  | ret value | raise error => trivial
  | stmt statement next ih =>
    exact ⟨issues.1, fun store => ih (view store) (issues.2 (view store))⟩

variable {statement : ι}

theorem Call.issues_perform {query : σ → α} (holds : issued statement) :
    (Call.perform statement query : Call ι σ ε α).Issues issued := ⟨holds, fun _ => trivial⟩

variable {γ : Type}

theorem Call.Issues.found {β : Type} {query : σ → Option γ} {cont : Option γ → Call ι σ ε β} (holds : issued statement)
    (missing : (cont none).Issues issued) (found : ∀ row, (cont (some row)).Issues issued) :
    (Call.perform statement query >>= cont).Issues issued := by
  refine ⟨holds, fun store => ?_⟩
  change (cont (query store)).Issues issued
  cases query store with
  | none => exact missing
  | some row => exact found row

variable {position session : Nat} {entries : List (Nat × γ)} {value : γ}

theorem map_fst_set (selected : entries[position]? = some (session, value)) (new : γ) :
    (entries.set position (session, new)).map Prod.fst = entries.map Prod.fst := by
  obtain ⟨inRange, current⟩ := List.getElem?_eq_some_iff.mp selected
  rw [map_set]
  apply ext_getElem?
  intro index
  by_cases at_position : position = index
  · subst at_position
    simp [inRange, current]
  · rw [getElem?_set_ne at_position]

theorem entry_of_mem_set {new : γ} (distinct : (entries.map Prod.fst).Nodup)
    (selected : entries[position]? = some (session, value)) {entry : Nat × γ}
    (member : entry ∈ entries.set position (session, new)) :
    entry = (session, new) ∨ entry ∈ entries ∧ session ≠ entry.1 := by
  obtain ⟨index, found⟩ := mem_iff_getElem?.mp member
  by_cases same : position = index
  · subst same
    left
    rw [getElem?_set_self' , selected] at found
    simpa using found.symm
  · right
    rw [getElem?_set_ne same] at found
    refine ⟨mem_of_getElem? found, fun equal => same ?_⟩
    have inRange : position < (entries.map Prod.fst).length := by
      rw [length_map]
      exact (List.getElem?_eq_some_iff.mp selected).1
    apply (getElem?_inj inRange distinct).mp
    rw [getElem?_map, getElem?_map, selected, found]
    exact congrArg some equal

variable {system : System ι σ ε α}

theorem System.distinct_begin (distinct : (system.running.map Prod.fst).Nodup)
    (numbered : ∀ entry ∈ system.running, entry.1 < system.started) (call : Call ι σ ε α) :
    ((system.begin call).running.map Prod.fst).Nodup := by
  rw [begin, map_append, nodup_append]
  refine ⟨distinct, by simp, ?_⟩
  intro older member newer singleton same
  obtain ⟨entry, running, rfl⟩ := mem_map.mp member
  have below := numbered entry running
  have equal : newer = system.started := by simpa using singleton
  omega

theorem System.numbered_begin (numbered : ∀ entry ∈ system.running, entry.1 < system.started) (call : Call ι σ ε α) :
    ∀ entry ∈ (system.begin call).running, entry.1 < (system.begin call).started := by
  intro entry member
  rcases mem_append.mp member with running | added
  · exact Nat.lt_succ_of_lt (numbered entry running)
  · rw [mem_singleton.mp added]
    exact Nat.lt_succ_self _

end EveHorizon.Interleaving
