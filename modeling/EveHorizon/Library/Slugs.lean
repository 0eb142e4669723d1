import EveHorizon.Library.Text

/-!
# Slugs

Names made of texts: characters outside an alphabet become separators, separators at the ends
are cut off and runs of them become one.
-/

namespace EveHorizon.Text

open List

def replaceRuns (outside : Char → Bool) (mark : Char) : Text → Text
  | [] => []
  | head :: rest =>
    if outside head then
      if rest.head?.any outside then replaceRuns outside mark rest
      else mark :: replaceRuns outside mark rest
    else head :: replaceRuns outside mark rest

theorem mem_replaceRuns {outside : Char → Bool} {mark found : Char} (separate : outside mark = false) {text : Text}
    (member : found ∈ replaceRuns outside mark text) : outside found = false := by
  fun_induction replaceRuns outside mark text with
  | case1 => cases member
  | case2 head rest foreign run ih => exact ih member
  | case3 head rest foreign last ih =>
    rcases mem_cons.mp member with rfl | later
    · exact separate
    · exact ih later
  | case4 head rest inside ih =>
    rcases mem_cons.mp member with rfl | later
    · exact Bool.eq_false_of_not_eq_true inside
    · exact ih later

def stripEnd (mark : Char) (text : Text) : Text := text.rdropWhile (· == mark)

def stripStart (mark : Char) (text : Text) : Text := text.dropWhile (· == mark)

section

variable {mark : Char} {text : Text}

theorem stripEnd_eq_self (ending : text.getLast? ≠ some mark) : stripEnd mark text = text := by
  unfold stripEnd
  rw [rdropWhile_eq_self_iff]
  intro nonempty last
  rw [beq_iff_eq] at last
  exact ending (by rw [getLast?_eq_getLast_of_ne_nil nonempty, last])

theorem stripStart_eq_self (start : text.head? ≠ some mark) : stripStart mark text = text := by
  cases text with
  | nil => rfl
  | cons head rest =>
    have other : head ≠ mark := by simpa using start
    simp [stripStart, other]

theorem getLast?_stripEnd (text : Text) : (stripEnd mark text).getLast? ≠ some mark := by
  intro last
  have kept := getLast?_rdropWhile last
  simp at kept

theorem head?_stripStart (text : Text) : (stripStart mark text).head? ≠ some mark := by
  intro start
  have nonempty : stripStart mark text ≠ [] := by
    intro empty
    simp [empty] at start
  have first := head_dropWhile_not (· == mark) (l := text) nonempty
  rw [head?_eq_some_head nonempty, Option.some.injEq] at start
  simp [stripStart] at start
  simp [start] at first

theorem stripEnd_begins (text : Text) : stripEnd mark text <+: text := rdropWhile_prefix _ _

theorem stripEnd_append {leading : Text} (ending : leading.getLast? ≠ some mark) (rest : Text) :
    stripEnd mark (leading ++ rest) = leading ++ stripEnd mark rest := by
  induction rest using List.reverseRecOn with
  | nil => simpa [stripEnd] using stripEnd_eq_self ending
  | append_singleton rest last ih =>
    unfold stripEnd at ih ⊢
    rw [← append_assoc]
    by_cases same : last = mark
    · rw [rdropWhile_concat_pos _ _ _ (by simp [same]), ih, rdropWhile_concat_pos _ _ _ (by simp [same])]
    · rw [rdropWhile_concat_neg _ _ _ (by simp [same]), rdropWhile_concat_neg _ _ _ (by simp [same]), append_assoc]

theorem head?_stripEnd (start : text.head? ≠ some mark) : (stripEnd mark text).head? = text.head? := by
  cases text with
  | nil => rfl
  | cons head rest =>
    have other : ([head] : Text).getLast? ≠ some mark := by simpa using start
    have kept := stripEnd_append other rest
    rw [singleton_append] at kept
    rw [kept]
    rfl

end

section

variable {mark : Char}

theorem squeeze_replaceRuns (outside : Char → Bool) (text : Text) : squeeze mark (replaceRuns outside mark text) =
      squeeze mark (text.map fun found => if outside found then mark else found) := by
  induction text with
  | nil => rfl
  | cons head rest ih =>
    rw [map_cons, replaceRuns]
    by_cases foreign : outside head
    · rw [if_pos foreign, if_pos foreign]
      cases rest with
      | nil => rfl
      | cons next rest =>
        by_cases run : outside next
        · rw [if_pos (by simpa using run), ih, squeeze_cons mark, head?_squeeze]
          rw [if_pos ⟨rfl, by simp [run]⟩]
        · rw [if_neg (by simpa using run), squeeze_cons, squeeze_cons, ih]
    · rw [if_neg foreign, if_neg foreign, squeeze_cons, squeeze_cons, ih]

theorem squeeze_mark_cons (text : Text) :
    squeeze mark (mark :: text) = mark :: stripStart mark (squeeze mark text) := by
  rw [squeeze_cons]
  cases found : squeeze mark text with
  | nil => simp [stripStart]
  | cons head rest =>
    by_cases same : head = mark
    · subst same
      have twice := @squeeze_squeeze head text
      rw [found, squeeze_cons] at twice
      have single : rest.head? ≠ some head := by
        intro run
        rw [if_pos ⟨rfl, by rw [head?_squeeze, run]⟩] at twice
        have shorter := (@squeeze_sublist head rest).length_le
        rw [twice] at shorter
        simp only [length_cons] at shorter
        omega
      have kept := stripStart_eq_self single
      unfold stripStart at kept
      simp [stripStart, kept]
    · simp [stripStart, same]

theorem squeeze_stripStart (text : Text) :
    squeeze mark (stripStart mark text) = stripStart mark (squeeze mark text) := by
  induction text with
  | nil => rfl
  | cons head rest ih =>
    by_cases same : head = mark
    · subst same
      have again : stripStart head (stripStart head (squeeze head rest)) = stripStart head (squeeze head rest) :=
        dropWhile_idempotent (p := (· == head)) _
      have left : stripStart head (head :: rest) = stripStart head rest := by simp [stripStart]
      have right : ∀ text, stripStart head (head :: text) = stripStart head text := by simp [stripStart]
      rw [left, ih, squeeze_mark_cons, right, again]
    · have plain : (head :: rest).head? ≠ some mark := by simpa using same
      rw [stripStart_eq_self plain, stripStart_eq_self (by rw [head?_squeeze]; exact plain)]

variable {text : Text}

theorem squeeze_marks (marks : ∀ found ∈ text, found = mark) : squeeze mark text = [] ∨ squeeze mark text = [mark] := by
  induction text with
  | nil => exact .inl rfl
  | cons head rest ih =>
    rw [marks head mem_cons_self, squeeze_mark_cons]
    rcases ih fun found member => marks found (mem_cons_of_mem _ member) with none | one
    · exact .inr (by rw [none]; rfl)
    · exact .inr (by rw [one]; simp [stripStart])

theorem squeeze_stripEnd (text : Text) : squeeze mark (stripEnd mark text) = stripEnd mark (squeeze mark text) := by
  obtain ⟨marks, whole, only⟩ : ∃ marks, text = stripEnd mark text ++ marks ∧ ∀ found ∈ marks, found = mark :=
    ⟨text.rtakeWhile (· == mark), by rw [stripEnd, rdropWhile_append_rtakeWhile],
      fun found member => by simpa using mem_rtakeWhile_imp member⟩
  have ending := @getLast?_stripEnd mark text
  have kept : (squeeze mark (stripEnd mark text)).getLast? ≠ some mark := by
    rw [getLast?_squeeze]
    exact ending
  calc squeeze mark (stripEnd mark text) = squeeze mark (stripEnd mark text) ++ stripEnd mark (squeeze mark marks) := by
        rcases squeeze_marks only with none | one
        · simp [none, stripEnd]
        · simp [one, stripEnd, List.rdropWhile]
    _ = stripEnd mark (squeeze mark (stripEnd mark text) ++ squeeze mark marks) :=
        (stripEnd_append kept _).symm
    _ = stripEnd mark (squeeze mark text) := by
        rw [← squeeze_append ending, ← whole]

theorem squeeze_beginning {leading : Text} (single : squeeze mark text = text)
    (begins : leading <+: text) : squeeze mark leading = leading := by
  induction leading generalizing text with
  | nil => rfl
  | cons head leading ih =>
    obtain ⟨rest, rfl⟩ := begins
    rw [cons_append, squeeze_cons] at single
    split at single
    · have shorter := (@squeeze_sublist mark (leading ++ rest)).length_le
      rw [single] at shorter
      simp only [length_cons] at shorter
      omega
    · next apart =>
        have kept := ih (cons_inj_right _ |>.mp single) (prefix_append _ _)
        rw [squeeze_cons, kept, if_neg]
        intro run
        refine apart ⟨run.1, ?_⟩
        rw [head?_squeeze, head?_append, run.2]
        rfl

theorem squeeze_free (free : mark ∉ text) : squeeze mark text = text := by
  induction text with
  | nil => rfl
  | cons head rest ih =>
    rw [squeeze_cons, ih fun member => free (mem_cons_of_mem _ member), if_neg]
    intro run
    exact free (run.1 ▸ mem_cons_self)

theorem squeeze_join {left right : Text} (single : squeeze mark left = left)
    (ending : left.getLast? ≠ some mark) (single' : squeeze mark right = right) (start : right.head? ≠ some mark) :
    squeeze mark (left ++ mark :: right) = left ++ mark :: right := by
  rw [squeeze_append ending, single, squeeze_mark_cons, single', stripStart_eq_self start]

end

def attach (mark : Char) (left right : Text) : Text :=
  if right = [] then left else left ++ mark :: right

variable {mark : Char}

theorem append_stripEnd {name text : Text} (start : text.head? ≠ some mark) :
    name ++ stripEnd mark (mark :: text) = attach mark name (stripEnd mark text) := by
  unfold attach
  cases text with
  | nil => simp [stripEnd, List.rdropWhile]
  | cons head tail =>
    have plain : ([mark, head] : Text).getLast? ≠ some mark := by simpa using start
    have alone : ([head] : Text).getLast? ≠ some mark := by simpa using start
    have left := stripEnd_append plain tail
    have right := stripEnd_append alone tail
    simp only [cons_append, nil_append] at left right
    rw [left, right, if_neg (cons_ne_nil _ _)]

def slug (outside : Char → Bool) (mark : Char) (text : Text) : Text :=
  squeeze mark (stripEnd mark (stripStart mark (replaceRuns outside mark text)))

section

variable {outside : Char → Bool} {mark : Char}

theorem slug_eq (text : Text) : slug outside mark text = stripEnd mark (stripStart mark
        (squeeze mark (text.map fun found => if outside found then mark else found))) := by
  unfold slug
  rw [squeeze_stripEnd, squeeze_stripStart, squeeze_replaceRuns]

theorem head?_slug (text : Text) : (slug outside mark text).head? ≠ some mark := by
  rw [slug_eq, head?_stripEnd (head?_stripStart _)]
  exact head?_stripStart _

theorem getLast?_slug (text : Text) : (slug outside mark text).getLast? ≠ some mark := by
  rw [slug_eq]
  exact getLast?_stripEnd _

theorem squeeze_slug (text : Text) : squeeze mark (slug outside mark text) = slug outside mark text :=
  squeeze_squeeze _

theorem mem_slug {text : Text} {found : Char} (member : found ∈ slug outside mark text) :
    found = mark ∨ (found ∈ text ∧ outside found = false) := by
  rw [slug_eq] at member
  have earlier := (squeeze_sublist _).subset ((dropWhile_sublist _).subset ((stripEnd_begins _).subset member))
  obtain ⟨original, within, same⟩ := mem_map.mp earlier
  split at same
  · exact .inl same.symm
  · next inside => exact .inr ⟨same ▸ within, by simpa [same] using inside⟩

theorem slug_join {name : Text} (alphabet : ∀ found ∈ name, outside found = false)
    (separate : outside mark = false) (single : squeeze mark name = name) (nonempty : name ≠ [])
    (start : name.head? ≠ some mark) (ending : name.getLast? ≠ some mark) (text : Text) :
    slug outside mark (name ++ mark :: text) = attach mark name (slug outside mark text) := by
  let inner := stripStart mark
    (squeeze mark (text.map fun found => if outside found then mark else found))
  have unchanged : name.map (fun found => if outside found then mark else found) = name := by
    have same : ∀ found ∈ name, (if outside found then mark else found) = id found :=
      fun found member => by simp [alphabet found member]
    rw [map_congr_left same, map_id]
  have joined : slug outside mark (name ++ mark :: text) = name ++ stripEnd mark (mark :: inner) := by
    rw [slug_eq, map_append, map_cons, if_neg (by simp [separate]), unchanged,
      squeeze_append ending, single, squeeze_mark_cons]
    have first : (name ++ mark :: inner).head? ≠ some mark := by
      rwa [head?_append_of_ne_nil _ nonempty]
    rw [stripStart_eq_self first, stripEnd_append ending]
  have rest : slug outside mark text = stripEnd mark inner := slug_eq text
  rw [joined, rest]
  exact append_stripEnd (head?_stripStart _)

end

def Moved (mark : Char) (names moved : Text × Text) : Prop :=
  ∃ part, moved.1 = names.1 ++ mark :: part ∧ names.2 = part ++ mark :: moved.2

variable {left right left' right' : Text}

theorem join_eq_join_iff : left ++ mark :: right = left' ++ mark :: right' ↔
      (left = left' ∧ right = right') ∨ Moved mark (left, right) (left', right') ∨
        Moved mark (left', right') (left, right) := by
  constructor
  · intro same
    rcases append_eq_append_iff.mp same with ⟨part, first, second⟩ | ⟨part, first, second⟩
    · cases part with
      | nil => exact .inl ⟨by simpa using first.symm, by simpa using second⟩
      | cons head part =>
        obtain ⟨rfl, rest⟩ := cons_eq_cons.mp second
        exact .inr (.inl ⟨part, first, rest⟩)
    · cases part with
      | nil => exact .inl ⟨by simpa using first, by simpa using second.symm⟩
      | cons head part =>
        obtain ⟨rfl, rest⟩ := cons_eq_cons.mp second
        exact .inr (.inr ⟨part, first, rest⟩)
  · rintro (⟨rfl, rfl⟩ | ⟨part, first, second⟩ | ⟨part, first, second⟩)
    · rfl
    · dsimp only at first second
      rw [first, second, append_assoc, cons_append]
    · dsimp only at first second
      rw [first, second, append_assoc, cons_append]

theorem join_injective (free : mark ∉ left) (free' : mark ∉ left') :
    left ++ mark :: right = left' ++ mark :: right' ↔ left = left' ∧ right = right' := by
  constructor
  · intro same
    rcases join_eq_join_iff.mp same with equal | ⟨part, first, -⟩ | ⟨part, first, -⟩
    · exact equal
    · dsimp only at first
      exact absurd (by simp [first]) free'
    · dsimp only at first
      exact absurd (by simp [first]) free
  · rintro ⟨rfl, rfl⟩
    rfl

theorem attach_injective (free : mark ∉ left) (free' : mark ∉ left') :
    attach mark left right = attach mark left' right' ↔ left = left' ∧ right = right' := by
  unfold attach
  by_cases none : right = []
  · by_cases none' : right' = []
    · simp [none, none']
    · rw [if_pos none, if_neg none', none]
      constructor
      · intro same
        exact absurd (by simp [same]) free
      · intro same
        exact absurd same.2.symm none'
  · by_cases none' : right' = []
    · rw [if_neg none, if_pos none', none']
      constructor
      · intro same
        exact absurd (by simp [← same]) free'
      · intro same
        exact absurd same.2 none
    · rw [if_neg none, if_neg none']
      exact join_injective free free'

end EveHorizon.Text
