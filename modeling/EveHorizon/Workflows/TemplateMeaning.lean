import EveHorizon.Templates.Grammar
import EveHorizon.Workflows.TemplateValidation

/-!
# What templates stand for

The meaning of a template against what interpolation makes of it.
-/

namespace EveHorizon.Workflows

open Json (Member)
open Templates List Checks

def templateReferences (text : Text) : List TemplateReference :=
  match parseTemplate text with
  | .ok parts => references parts
  | .error _ => []

def unescape : Text → Text
  | '\\' :: '$' :: rest => '$' :: unescape rest
  | char :: rest => char :: unescape rest
  | [] => []

variable (lookup : TemplateReference → Option Text)

def denote (parts : List Part) : Text :=
  parts.flatMap fun
    | .literal value => value
    | .ref reference => (lookup reference).getD []

theorem denote_literalPart (buffer : Text) : denote lookup (literalPart buffer) = buffer := by
  unfold literalPart denote
  split
  · next empty => simp [empty]
  · simp

theorem references_literalPart (buffer : Text) (parts : List Part) :
    references (literalPart buffer ++ parts) = references parts := by
  unfold literalPart
  split <;> rfl

variable {text : Text} {parts : List Part} {reading : Reading}

theorem readParts_plain (read : readParts reading text = .ok parts) (plain : references parts = []) :
    ∃ buffer, reading = .literal buffer ∧ denote lookup parts = buffer ++ unescape text := by
  fun_induction readParts reading text generalizing parts with
  | case1 held =>
    cases read
    exact ⟨held, rfl, by rw [denote_literalPart, unescape, append_nil]⟩
  | case2 held rest ih =>
    obtain ⟨_, ⟨⟩, denoted⟩ := ih read plain
    exact ⟨held, rfl, by rw [denoted, unescape, append_assoc, singleton_append]⟩
  | case3 held rest ih =>
    obtain ⟨parts, inside, ⟨⟩⟩ := bind_eq_ok.mp read
    rw [references_literalPart] at plain
    obtain ⟨_, ⟨⟩, _⟩ := ih inside plain
  | case4 held char rest notEscape notOpen ih =>
    obtain ⟨_, ⟨⟩, denoted⟩ := ih read plain
    refine ⟨held, rfl, ?_⟩
    rw [denoted, unescape, append_assoc, singleton_append]
    exact notEscape
  | case5 => cases read
  | case6 body rest ih =>
    obtain ⟨reference, _, read⟩ := bind_eq_ok.mp read
    obtain ⟨parts, _, ⟨⟩⟩ := bind_eq_ok.mp read
    cases plain
  | case7 body char rest unclosed ih =>
    obtain ⟨_, ⟨⟩, _⟩ := ih read plain

theorem looksTemplated_tail {char : Char} {rest : Text} (plain : looksTemplated (char :: rest) = false) :
    looksTemplated rest = false := by
  unfold looksTemplated at plain
  split at plain
  · next empty => cases empty
  · cases plain
  · next same =>
      cases same
      exact plain

theorem readParts_untemplated {buffer : Text} (read : readParts reading text = .ok parts)
    (outside : reading = .literal buffer) (plain : looksTemplated text = false) : references parts = [] := by
  fun_induction readParts reading text generalizing parts buffer with
  | case1 held =>
    cases read
    unfold literalPart
    split <;> rfl
  | case2 held rest ih => exact ih read rfl (looksTemplated_tail (looksTemplated_tail plain))
  | case3 => cases plain
  | case4 held char rest notEscape notOpen ih => exact ih read rfl (looksTemplated_tail plain)
  | case5 => cases outside
  | case6 => cases outside
  | case7 => cases outside

/-! ## What the walk reports -/

variable {reference : TemplateReference}

section

variable (scope : EvaluateScope)

def isMissing (reference : TemplateReference) : Bool := (resolveRef reference scope).missing

def scalarOf (reference : TemplateReference) : Option Text := (resolveRef reference scope).scalar?

theorem scalarOf_missing (missing : isMissing scope reference = true) : scalarOf scope reference = none := by
  unfold isMissing at missing
  unfold scalarOf
  generalize resolveRef reference scope = resolved at missing ⊢
  cases resolved with
  | undefined => rfl
  | json value => cases value <;> first | rfl | cases missing
  | function name => cases missing
  | objectPrototype | arrayPrototype => rfl

theorem foldl_evaluatePart (parts : List Part) (start : Text × EvaluateResult) :
    let result := parts.foldl (evaluatePart scope) start
    result.1 = start.1 ++ denote (scalarOf scope) parts ∧
      result.2.missing = start.2.missing ++ (references parts).filter (isMissing scope) ∧
      result.2.nonScalar = start.2.nonScalar ++ (references parts).filter fun reference =>
        !isMissing scope reference && (scalarOf scope reference).isNone := by
  induction parts generalizing start with
  | nil => simp [references, denote]
  | cons part parts ih =>
    obtain ⟨out, missing, nonScalar⟩ := ih (evaluatePart scope start part)
    simp only [foldl_cons, out, missing, nonScalar]
    cases part with
    | literal value => exact ⟨append_assoc .., rfl, rfl⟩
    | ref reference =>
      simp only [evaluatePart, references, denote, filterMap_cons, filter_cons, flatMap_cons]
      cases missing : isMissing scope reference with
      | true =>
        have none := scalarOf_missing scope missing
        simp only [isMissing, scalarOf] at missing none
        simp [missing, none, isMissing, scalarOf]
      | false =>
        simp only [isMissing] at missing
        cases scalar : (resolveRef reference scope).scalar? <;> simp [missing, scalar, isMissing, scalarOf]

/-- A walk over these leaves went through and reported these references. -/
structure Walk (leaves : List Text) (missing nonScalar : List (Text × TemplateReference)) : Prop where
  parse : ∀ leaf ∈ leaves, Parses leaf
  missing : missing.map Prod.snd = (leaves.flatMap templateReferences).filter (isMissing scope)
  nonScalar : nonScalar.map Prod.snd = (leaves.flatMap templateReferences).filter fun reference =>
    !isMissing scope reference && (scalarOf scope reference).isNone

variable {scope}

theorem Walk.nil : Walk scope [] [] [] where
  parse := by simp
  missing := rfl
  nonScalar := rfl

theorem Walk.append {first later : List Text} {missing nonScalar missing' nonScalar' : List (Text × TemplateReference)}
    (walked : Walk scope first missing nonScalar) (walks : Walk scope later missing' nonScalar') :
    Walk scope (first ++ later) (missing ++ missing') (nonScalar ++ nonScalar') where
  parse := forall_mem_append.mpr ⟨walked.parse, walks.parse⟩
  missing := by rw [map_append, walked.missing, walks.missing, flatMap_append, filter_append]
  nonScalar := by rw [map_append, walked.nonScalar, walks.nonScalar, flatMap_append, filter_append]

theorem templateReferences_untemplated (plain : looksTemplated text = false) : templateReferences text = [] := by
  unfold templateReferences
  split
  · next parts read => exact readParts_untemplated read rfl plain
  · rfl

theorem evaluateTemplate_ok {result : EvaluateResult} (evaluated : evaluateTemplate text scope = .ok result) :
    ∃ parts, parseTemplate text = .ok parts ∧ result.missing = (references parts).filter (isMissing scope) ∧
      result.nonScalar = ((references parts).filter fun reference =>
        !isMissing scope reference && (scalarOf scope reference).isNone) ∧
      (references parts = [] → result.value = some text) ∧
      (references parts ≠ [] → (∀ reference ∈ references parts, scalarOf scope reference ≠ none) →
        result.value = some (denote (scalarOf scope) parts)) := by
  obtain ⟨parts, parsed, evaluated⟩ := bind_eq_ok.mp evaluated
  obtain ⟨out, missing, nonScalar⟩ :=
    foldl_evaluatePart scope parts ([], { value := none, missing := [], nonScalar := [] })
  refine ⟨parts, parsed, ?_⟩
  split at evaluated
  · next none =>
      cases evaluated
      simp [none]
  · next some =>
      split at evaluated
      next text' found folded =>
      rw [folded] at out missing nonScalar
      split at evaluated
      · next failed =>
          cases evaluated
          refine ⟨missing, nonScalar, fun none => absurd none some, fun _ scalars => absurd failed ?_⟩
          rw [missing, nonScalar]
          have present : ∀ reference ∈ references parts, isMissing scope reference = false := fun reference member =>
            Bool.eq_false_iff.mpr fun missing => scalars reference member (scalarOf_missing scope missing)
          simpa [filter_eq_nil_iff, Option.isNone_iff_eq_none] using
            ⟨present, fun reference member _ => scalars reference member⟩
      · cases evaluated
        exact ⟨missing, nonScalar, fun none => absurd none some, fun _ _ => congrArg Option.some out⟩

theorem interpolateText_walk {path : Text} {result : Interpolated Text}
    (walked : interpolateText scope path text = .ok result) : Walk scope [text] result.missing result.nonScalar := by
  unfold interpolateText at walked
  split at walked
  · obtain ⟨evaluated, ran, ⟨⟩⟩ := bind_eq_ok.mp walked
    obtain ⟨parts, parsed, missing, nonScalar, -⟩ := evaluateTemplate_ok ran
    have found : templateReferences text = references parts := by rw [templateReferences, parsed]
    exact {
      parse := fun leaf member _ => ⟨parts, mem_singleton.mp member ▸ parsed⟩
      missing := by simp [missing, found]
      nonScalar := by simp [nonScalar, found] }
  · next plain =>
      cases walked
      have none := templateReferences_untemplated (Bool.eq_false_iff.mpr plain)
      exact {
        parse := fun leaf member templated => absurd (mem_singleton.mp member ▸ templated) plain
        missing := by simp [none]
        nonScalar := by simp [none] }

mutual

theorem interpolateValue_walk {path : Text} {value : Json} {result : Interpolated Json}
    (read : interpolateValue scope path value = .ok result) :
    Walk scope (leaves value) result.missing result.nonScalar := by
  cases value with
  | null | bool | number =>
    rw [interpolateValue] at read
    cases read
    exact .nil
  | string text =>
    rw [interpolateValue, bind_eq_ok] at read
    obtain ⟨_, read, ⟨⟩⟩ := read
    rw [leaves]
    exact interpolateText_walk read
  | array items =>
    rw [interpolateValue, bind_eq_ok] at read
    obtain ⟨_, read, ⟨⟩⟩ := read
    rw [leaves]
    exact interpolateItems_walk read
  | object members =>
    rw [interpolateValue, bind_eq_ok] at read
    obtain ⟨_, read, ⟨⟩⟩ := read
    rw [leaves]
    exact interpolateMembers_walk read

theorem interpolateItems_walk {path : Text} {index : Nat} {items : List Json} {result : Interpolated (List Json)}
    (read : interpolateItems scope path index items = .ok result) :
    Walk scope (itemLeaves items) result.missing result.nonScalar := by
  cases items with
  | nil =>
    rw [interpolateItems] at read
    cases read
    exact .nil
  | cons item rest =>
    rw [interpolateItems, bind_eq_ok] at read
    obtain ⟨_, first, read⟩ := read
    obtain ⟨_, later, ⟨⟩⟩ := bind_eq_ok.mp read
    rw [itemLeaves]
    exact (interpolateValue_walk first).append (interpolateItems_walk later)

theorem interpolateMembers_walk {path : Text} {members : List (Text × Json)}
    {result : Interpolated (List (Text × Json))} (read : interpolateMembers scope path members = .ok result) :
    Walk scope (memberLeaves members) result.missing result.nonScalar := by
  cases members with
  | nil =>
    rw [interpolateMembers] at read
    cases read
    exact .nil
  | cons field rest =>
    rw [interpolateMembers, bind_eq_ok] at read
    obtain ⟨_, first, read⟩ := read
    obtain ⟨_, later, ⟨⟩⟩ := bind_eq_ok.mp read
    rw [memberLeaves]
    exact (interpolateValue_walk first).append (interpolateMembers_walk later)

end

end

/-! ## The meaning of a value -/

/-- Inputs and a payload given as JSON. -/
structure JsonScope where
  inputs : List (Text × Json) := []
  payload : Option Json := none

variable (scope : JsonScope)

def JsonScope.toScope : EvaluateScope where
  inputs := scope.inputs.map fun entry => (entry.1, .json entry.2)
  eventPayload := (scope.payload.map Member.json).getD .undefined

def own (name : Text) : Json → Option Json
  | .object members => members.lookup name
  | .array items =>
    if name = "length".toList then some (.number (toString items.length).toList)
    else (Json.index? name).bind fun index => items[index]?
  | _ => none

def ownValue (reference : TemplateReference) : Option Json :=
  match reference.head with
  | .inputs => reference.path.head?.bind fun name => scope.inputs.lookup name
  | .eventPayload => reference.path.foldl (fun held name => held.bind (own name)) scope.payload

def ownScalar (reference : TemplateReference) : Option Text :=
  (ownValue scope reference).bind fun value => (Member.json value).scalar?

section

variable (scope : JsonScope)

def TextMeans (text out : Text) : Prop :=
  ∀ parts, parseTemplate text = .ok parts → (∀ reference ∈ references parts, ownScalar scope reference ≠ none) →
    out = denote (ownScalar scope) parts

mutual

def Means : Json → Json → Prop
  | .string text, out => ∃ replaced, out = .string replaced ∧ TextMeans scope text replaced
  | .array items, out => ∃ outs, out = .array outs ∧ ItemsMean items outs
  | .object members, out => ∃ outs, out = .object outs ∧ MembersMean members outs
  | .null, out => out = .null
  | .bool value, out => out = .bool value
  | .number numeral, out => out = .number numeral

def ItemsMean : List Json → List Json → Prop
  | [], outs => outs = []
  | item :: rest, outs => ∃ first later, outs = first :: later ∧ Means item first ∧ ItemsMean rest later

def MembersMean : List (Text × Json) → List (Text × Json) → Prop
  | [], outs => outs = []
  | (name, value) :: rest, outs =>
    ∃ first later, outs = (name, first) :: later ∧ Means value first ∧ MembersMean rest later

end

/-- The value returned means what the template means, and what has no value of its own is reported. -/
def OneMeaning (value : Json) : Prop :=
  ∃ result, interpolateValue scope.toScope [] value = .ok result ∧ Means scope value result.value ∧
    ∀ leaf ∈ leaves value, ∀ reference ∈ templateReferences leaf, ownScalar scope reference = none →
      reference ∈ (result.missing ++ result.nonScalar).map Prod.snd

/-- A text without references has no escapes. -/
def Unescaped (text : Text) : Prop :=
  ∀ parts, parseTemplate text = .ok parts → references parts = [] → unescape text = text

/-- Nothing is found for the reference on the prototype chain alone. -/
def Owned (reference : TemplateReference) : Prop :=
  ownScalar scope reference = none → scalarOf scope.toScope reference = none

def proto : Text := "__proto__".toList

mutual

def memberNames : Json → List Text
  | .array items => itemNames items
  | .object members => members.map Prod.fst ++ nestedNames members
  | _ => []

def itemNames : List Json → List Text
  | [] => []
  | item :: rest => memberNames item ++ itemNames rest

def nestedNames : List (Text × Json) → List Text
  | [] => []
  | (_, value) :: rest => memberNames value ++ nestedNames rest

end

variable {scope} {value : Json} {name : Text}

theorem get_own {held : Json} (found : own name value = some held) : (Member.json value).get name = .json held := by
  cases value with
  | object members =>
    rw [own] at found
    simp only [Member.get, found]
  | array items =>
    rw [own] at found
    rw [Member.get]
    split at found
    · next length =>
        cases found
        rw [if_pos length]
    · next other =>
        rw [if_neg other]
        cases indexed : Json.index? name with
        | none => simp [indexed] at found
        | some index =>
          rw [indexed, Option.bind_some] at found
          simp [found]
  | _ => cases found

theorem lookupPath_own {path : List Text} {start : Option Json} {member : Member}
    (same : ∀ value, start = some value → member = .json value)
    (found : path.foldl (fun held name => held.bind (own name)) start = some value) :
    lookupPath member path = .json value := by
  induction path generalizing start member with
  | nil => exact same value found
  | cons name path ih =>
    refine ih (fun held (reached : start.bind (own name) = some held) => ?_) found
    obtain ⟨before, started, reached⟩ := Option.bind_eq_some_iff.mp reached
    rw [same before started]
    exact get_own reached

theorem lookup_toScope (found : scope.inputs.lookup name = some value) :
    scope.toScope.inputs.lookup name = some (.json value) := by
  rw [JsonScope.toScope]
  generalize scope.inputs = inputs at found
  induction inputs with
  | nil => cases found
  | cons entry inputs ih =>
    rw [lookup_cons] at found
    rw [map_cons, lookup_cons]
    split at found
    · cases found
      rfl
    · exact ih found

theorem scalarOf_own (found : ownScalar scope reference = some text) :
    scalarOf scope.toScope reference = some text := by
  obtain ⟨value, found, scalar⟩ := Option.bind_eq_some_iff.mp found
  obtain ⟨head, path, raw⟩ := reference
  have resolved : resolveRef ⟨head, path, raw⟩ scope.toScope = .json value := by
    cases head with
    | inputs =>
      obtain ⟨name, first, found⟩ := Option.bind_eq_some_iff.mp found
      simp only at first
      simp only [resolveRef, first, Option.map_some, Option.getD_some, EvaluateScope.input]
      rw [lookup_toScope found]
    | eventPayload =>
      refine lookupPath_own (fun value given => ?_) found
      rw [JsonScope.toScope, given]
      rfl
  rw [scalarOf, resolved, scalar]

theorem scalarOf_owned (owned : Owned scope reference) :
    scalarOf scope.toScope reference = ownScalar scope reference := by
  cases found : ownScalar scope reference with
  | none => exact owned found
  | some text => exact scalarOf_own found

theorem denote_congr {lookup other : TemplateReference → Option Text}
    (same : ∀ reference ∈ references parts, lookup reference = other reference) :
    denote lookup parts = denote other parts := by
  induction parts with
  | nil => rfl
  | cons part parts ih =>
    cases part with
    | literal value => exact congrArg (value ++ ·) (ih same)
    | ref reference =>
      obtain ⟨first, later⟩ := forall_mem_cons.mp same
      simp only [denote, flatMap_cons, first]
      exact congrArg _ (ih later)

theorem textMeans_self (plain : templateReferences text = []) : TextMeans scope text text ↔ Unescaped text := by
  have denoted : ∀ parts, parseTemplate text = .ok parts →
      references parts = [] ∧ denote (ownScalar scope) parts = unescape text := by
    intro parts parsed
    have none : references parts = [] := by rwa [templateReferences, parsed] at plain
    obtain ⟨buffer, ⟨⟩, denoted⟩ := readParts_plain (ownScalar scope) parsed none
    exact ⟨none, denoted⟩
  constructor
  · intro means parts parsed none
    rw [← (denoted parts parsed).2]
    exact (means parts parsed (by simp [none])).symm
  · intro unescaped parts parsed _
    obtain ⟨none, denoted⟩ := denoted parts parsed
    rw [denoted, unescaped parts parsed none]

theorem interpolateText_means {path : Text} {result : Interpolated Text}
    (walked : interpolateText scope.toScope path text = .ok result)
    (owned : ∀ reference ∈ templateReferences text, Owned scope reference) :
    TextMeans scope text result.value ↔ Unescaped text := by
  unfold interpolateText at walked
  split at walked
  · obtain ⟨evaluated, ran, ⟨⟩⟩ := bind_eq_ok.mp walked
    obtain ⟨parts, parsed, -, -, plain, replaced⟩ := evaluateTemplate_ok ran
    have found : templateReferences text = references parts := by rw [templateReferences, parsed]
    rw [found] at owned
    by_cases none : references parts = []
    · rw [plain none]
      exact textMeans_self (found.trans none)
    · refine iff_of_true (fun others same scalars => ?_) (fun others same plain => ?_)
      · cases parsed.symm.trans same
        have resolved := fun reference member => scalarOf_owned (owned reference member)
        rw [replaced none fun reference member => resolved reference member ▸ scalars reference member]
        exact denote_congr resolved
      · cases parsed.symm.trans same
        exact absurd plain none
  · next plain =>
      cases walked
      exact textMeans_self (templateReferences_untemplated (Bool.eq_false_iff.mpr plain))

variable {members : List (Text × Json)}

theorem membersMean_names {outs : List (Text × Json)} (means : MembersMean scope members outs) :
    outs.map Prod.fst = members.map Prod.fst := by
  induction members generalizing outs with
  | nil =>
    rw [MembersMean] at means
    rw [means]
  | cons field rest ih =>
    obtain ⟨first, later, rfl, -, means⟩ := means
    rw [map_cons, map_cons, ih means]

theorem interpolateMembers_names {evaluated : EvaluateScope} {path : Text} {result : Interpolated (List (Text × Json))}
    (walked : interpolateMembers evaluated path members = .ok result) :
    result.value.map Prod.fst = members.map Prod.fst := by
  induction members generalizing result with
  | nil =>
    rw [interpolateMembers] at walked
    cases walked
    rfl
  | cons field rest ih =>
    rw [interpolateMembers, bind_eq_ok] at walked
    obtain ⟨_, -, walked⟩ := walked
    obtain ⟨_, walks, ⟨⟩⟩ := bind_eq_ok.mp walked
    rw [map_cons, map_cons, ih walks]

mutual

theorem interpolateValue_means {path : Text} {value : Json} {result : Interpolated Json}
    (walked : interpolateValue scope.toScope path value = .ok result)
    (owned : ∀ leaf ∈ leaves value, ∀ reference ∈ templateReferences leaf, Owned scope reference) :
    Means scope value result.value ↔ (∀ leaf ∈ leaves value, Unescaped leaf) ∧ proto ∉ memberNames value := by
  cases value with
  | null | bool | number =>
    rw [interpolateValue] at walked
    cases walked
    simp [Means, leaves, memberNames]
  | string text =>
    rw [interpolateValue, bind_eq_ok] at walked
    obtain ⟨result, walked, ⟨⟩⟩ := walked
    have means := interpolateText_means walked (by simpa [leaves] using owned)
    simp [Means, leaves, memberNames, means]
  | array items =>
    rw [interpolateValue, bind_eq_ok] at walked
    obtain ⟨result, walked, ⟨⟩⟩ := walked
    rw [leaves] at owned ⊢
    have means := interpolateItems_means walked owned
    simpa [Means, memberNames] using means
  | object members =>
    rw [interpolateValue, bind_eq_ok] at walked
    obtain ⟨result, walked, ⟨⟩⟩ := walked
    rw [leaves] at owned ⊢
    have means := interpolateMembers_means walked owned
    have names := interpolateMembers_names walked
    rw [Means]
    rw [memberNames, mem_append, not_or]
    change (∃ outs, Json.object (result.value.filter fun entry => entry.1 ≠ proto) = .object outs ∧ _) ↔ _
    simp only [Json.object.injEq, exists_eq_left']
    by_cases held : proto ∈ members.map Prod.fst
    · refine iff_of_false (fun means => ?_) (fun free => free.2.1 held)
      rw [← membersMean_names means, mem_map] at held
      obtain ⟨entry, member, same⟩ := held
      exact absurd same (by simpa using (mem_filter.mp member).2)
    · have kept : result.value.filter (fun entry => entry.1 ≠ proto) = result.value := by
        rw [filter_eq_self]
        intro entry member
        have listed := names ▸ mem_map_of_mem (f := Prod.fst) member
        exact decide_eq_true fun same => held (same ▸ listed)
      rw [kept, means]
      simp [held]

theorem interpolateItems_means {path : Text} {index : Nat} {items : List Json} {result : Interpolated (List Json)}
    (walked : interpolateItems scope.toScope path index items = .ok result)
    (owned : ∀ leaf ∈ itemLeaves items, ∀ reference ∈ templateReferences leaf, Owned scope reference) :
    ItemsMean scope items result.value ↔ (∀ leaf ∈ itemLeaves items, Unescaped leaf) ∧ proto ∉ itemNames items := by
  cases items with
  | nil =>
    rw [interpolateItems] at walked
    cases walked
    simp [ItemsMean, itemLeaves, itemNames]
  | cons item rest =>
    rw [interpolateItems, bind_eq_ok] at walked
    obtain ⟨_, first, walked⟩ := walked
    obtain ⟨_, later, ⟨⟩⟩ := bind_eq_ok.mp walked
    rw [itemLeaves, forall_mem_append] at owned
    have means := interpolateValue_means first owned.1
    have others := interpolateItems_means later owned.2
    rw [ItemsMean, itemLeaves, itemNames, forall_mem_append, mem_append, not_or, and_and_and_comm, ← means, ← others]
    exact ⟨fun ⟨_, _, same, both⟩ => by cases same; exact both, fun both => ⟨_, _, rfl, both⟩⟩

theorem interpolateMembers_means {path : Text} {members : List (Text × Json)}
    {result : Interpolated (List (Text × Json))} (walked : interpolateMembers scope.toScope path members = .ok result)
    (owned : ∀ leaf ∈ memberLeaves members, ∀ reference ∈ templateReferences leaf, Owned scope reference) :
    MembersMean scope members result.value ↔
      (∀ leaf ∈ memberLeaves members, Unescaped leaf) ∧ proto ∉ nestedNames members := by
  cases members with
  | nil =>
    rw [interpolateMembers] at walked
    cases walked
    simp [MembersMean, memberLeaves, nestedNames]
  | cons field rest =>
    rw [interpolateMembers, bind_eq_ok] at walked
    obtain ⟨_, first, walked⟩ := walked
    obtain ⟨_, later, ⟨⟩⟩ := bind_eq_ok.mp walked
    rw [memberLeaves, forall_mem_append] at owned
    have means := interpolateValue_means first owned.1
    have others := interpolateMembers_means later owned.2
    obtain ⟨name, value⟩ := field
    rw [MembersMean, memberLeaves, nestedNames, forall_mem_append, mem_append, not_or, and_and_and_comm,
      ← means, ← others]
    exact ⟨fun ⟨_, _, same, both⟩ => by cases same; exact both, fun both => ⟨_, _, rfl, both⟩⟩

end

theorem reported_iff {value : Json} {result : Interpolated Json} {evaluated : EvaluateScope}
    (walked : interpolateValue evaluated [] value = .ok result) :
    reference ∈ (result.missing ++ result.nonScalar).map Prod.snd ↔
      reference ∈ (leaves value).flatMap templateReferences ∧ scalarOf evaluated reference = none := by
  obtain ⟨-, missing, nonScalar⟩ := interpolateValue_walk walked
  rw [map_append, missing, nonScalar, mem_append, mem_filter, mem_filter, ← and_or_left]
  refine and_congr_right fun _ => ?_
  cases found : isMissing evaluated reference with
  | true => simp [scalarOf_missing evaluated found]
  | false => simp

/-- No reference in the value is inherited, no escape stands alone, and all that is templated parses. -/
structure Readable (scope : JsonScope) (value : Json) : Prop where
  parse : ∀ leaf ∈ leaves value, Parses leaf
  owned : ∀ leaf ∈ leaves value, ∀ reference ∈ templateReferences leaf, Owned scope reference
  unescaped : ∀ leaf ∈ leaves value, Unescaped leaf
  names : proto ∉ memberNames value

theorem oneMeaning_iff (scope : JsonScope) (value : Json) : OneMeaning scope value ↔ Readable scope value := by
  constructor
  · rintro ⟨result, walked, means, reported⟩
    have owned : ∀ leaf ∈ leaves value, ∀ reference ∈ templateReferences leaf, Owned scope reference :=
      fun leaf member reference listed none =>
        ((reported_iff walked).mp (reported leaf member reference listed none)).2
    obtain ⟨unescaped, names⟩ := (interpolateValue_means walked owned).mp means
    exact { parse := (interpolateValue_walk walked).parse, owned, unescaped, names }
  · rintro ⟨parse, owned, unescaped, names⟩
    obtain ⟨result, walked⟩ := interpolateValue_parses scope.toScope [] parse
    refine ⟨result, walked, (interpolateValue_means walked owned).mpr ⟨unescaped, names⟩, ?_⟩
    intro leaf member reference listed none
    exact (reported_iff walked).mpr ⟨mem_flatMap.mpr ⟨leaf, member, listed⟩, owned leaf member reference listed none⟩

/-- An escape in a text without references is left as it is. -/
theorem escape_stays : ¬OneMeaning {} (.string ['\\', '$', '5']) := by
  rintro ⟨result, walked, means, -⟩
  cases walked
  obtain ⟨out, ⟨⟩, means⟩ := means
  cases means [.literal ['$', '5']] rfl (by simp [references])

end

end EveHorizon.Workflows
