import EveHorizon.Library.Json
import EveHorizon.Library.Decimal
import EveHorizon.Library.Table

/-!
# Allocations of cost

The allocations in a response of the cost source.
-/

namespace EveHorizon.Costs

def member (name : String) : Json → Option Json
  | .object members => members.lookup name.toList
  | _ => none

mutual

def printed : Json → Text
  | .null => "null".toList
  | .bool value => (toString value).toList
  | .number numeral => numeral
  | .string text => text
  | .array items => printedItems items
  | .object _ => "[object Object]".toList

def printedItem : Json → Text
  | .null => []
  | .bool value => (toString value).toList
  | .number numeral => numeral
  | .string text => text
  | .array items => printedItems items
  | .object _ => "[object Object]".toList

def printedItems : List Json → Text
  | [] => []
  | [item] => printedItem item
  | item :: rest => printedItem item ++ ',' :: printedItems rest

end

def readString : Option Json → Option Text
  | some (.string text) => if text.length > 0 then some text else none
  | _ => none

def numberOf (text : Text) : Option ℚ := Decimal.literal (Text.trim text)

def readNumber : Option Json → Option ℚ
  | some (.number numeral) => Decimal.signed numeral
  | some (.string text) => if (Text.trim text).length > 0 then numberOf text else none
  | _ => none

def asRecord : Option Json → Option (List (Text × Json))
  | some (.object members) => some members
  | _ => none

def isObject : Json → Bool
  | .object _ => true
  | _ => false

def isArray : Option Json → Bool
  | some (.array _) => true
  | _ => false

def entries : Json → List (Text × Json)
  | .object members => members
  | .array items => items.zipIdx.map fun (item, index) => ((toString index).toList, item)
  | _ => []

structure AllocationObject where
  key : Text
  path : List Text
  value : Json

def costFields : List Text :=
  ["totalCost", "totalCostUsd", "total_cost", "cost", "amount_usd", "amount", "sharedCost",
    "shared_cost", "sharedAmountUsd"].map String.toList

def looksLikeAllocation : Json → Bool
  | .object members => costFields.any fun field => members.any (·.1 == field)
  | _ => false

variable (path : List Text)

def nestedAllocations (value : Json) : List AllocationObject :=
  ((entries value).filter fun entry => looksLikeAllocation entry.2).map fun entry =>
    { key := entry.1, path := path ++ [entry.1], value := entry.2 }

variable (out : List AllocationObject)

def appendAllocationOrMap (fallbackKey : Text) (path : List Text) (value : Json) : List AllocationObject :=
  if looksLikeAllocation value then
    out ++ [{ key := (readString (member "name" value)).getD fallbackKey, path, value }]
  else out ++ nestedAllocations path value

def index (number : Nat) : Text := (toString number).toList

def appendItem (item : Json × Nat) : List AllocationObject :=
  match item.1 with
  | .object _ | .array _ =>
    let fallbackKey :=
      match member "name" item.1 with
      | none | some .null => index out.length
      | some name => printed name
    appendAllocationOrMap out fallbackKey (path ++ [index item.2]) item.1
  | _ => out

def appendCandidate (candidate : List Text × Option Json) : List AllocationObject :=
  match candidate.2 with
  | some (.array items) => items.zipIdx.foldl (appendItem candidate.1) out
  | some (.object members) =>
    appendAllocationOrMap out (index out.length) candidate.1 (.object members)
  | _ => out

def setCandidates (sets : Option Json) : List (List Text × Option Json) :=
  match sets with
  | some (.array items) =>
    (items.zipIdx.filter fun item => isObject item.1).map fun (set, number) =>
      (path ++ [index number, "allocations".toList], member "allocations" set)
  | _ => []

variable (payload : Json)

def listedSets : List (List Text × Option Json) :=
  if isArray (member "sets" payload) then
    setCandidates ["sets".toList] (member "sets" payload)
  else
    setCandidates ["data".toList, "sets".toList] ((member "data" payload).bind (member "sets"))

def candidates : List (List Text × Option Json) :=
  [(["data".toList], member "data" payload),
    (["allocations".toList], member "allocations" payload), ([], some payload)] ++
  listedSets payload

def dedupeAllocationObjects : List (List Text) → List AllocationObject → List AllocationObject
  | _, [] => []
  | seen, item :: rest =>
    if item.path ∈ seen then dedupeAllocationObjects seen rest
    else item :: dedupeAllocationObjects (item.path :: seen) rest

def extractAllocationObjects : List AllocationObject :=
  match payload with
  | .object _ | .array _ =>
    dedupeAllocationObjects [] ((candidates payload).foldl appendCandidate [])
  | _ => []

structure RawAllocation where
  key : Text
  namespaceName : Option Text
  envId : Option Text
  amountUsd : ℚ
  sharedAmountUsd : Option ℚ
  raw : Json

def isSpecialAllocationName (name : Text) : Bool :=
  (["__idle__", "__unallocated__", "idle", "unallocated"].map String.toList).contains name

def readLabel (labels : List (Text × Json)) (key : String) : Option Text :=
  readString (labels.lookup key.toList) <|> readString (labels.lookup ("label:" ++ key).toList)

def firstNumber (fields : List String) (value : Json) : Option ℚ :=
  fields.findSome? fun field => readNumber (member field value)

variable (value : Json)

def amountOf : ℚ :=
  (firstNumber ["totalCost", "totalCostUsd", "total_cost", "cost", "amount_usd", "amount"] value).getD 0

def sharedAmountOf : Option ℚ :=
  firstNumber ["sharedCost", "shared_cost", "sharedAmountUsd"] value

def costsNothing : Bool :=
  decide (amountOf value ≤ 0) && decide ((sharedAmountOf value).getD 0 ≤ 0)

def normalizeAllocation (found : AllocationObject) : Option RawAllocation :=
  let properties := asRecord (member "properties" found.value)
  -- Labels of the properties come first: they override the others.
  let labels := ((properties.bind fun members => asRecord (members.lookup "labels".toList)).getD
    []) ++ (asRecord (member "labels" found.value)).getD []
  if costsNothing found.value then none
  else
    some
      { key := found.key
        namespaceName := readString (member "namespace" found.value) <|>
          readString (properties.bind fun members => members.lookup "namespace".toList) <|>
          if isSpecialAllocationName found.key then none else some found.key
        envId := readLabel labels "eve.env_id" <|> readLabel labels "eve_env_id"
        amountUsd := amountOf found.value
        sharedAmountUsd := sharedAmountOf found.value
        raw := found.value }

def normalizeOpenCostAllocations : List RawAllocation :=
  (extractAllocationObjects payload).filterMap normalizeAllocation

structure NamespaceMap where
  members : List (Text × Json)
  distinct : (members.map Prod.fst).Nodup
  allocations : ∀ entry ∈ members, looksLikeAllocation entry.2 = true

/-- The responses that hold a map: the map itself, or the list of maps that the source
answers with. -/
inductive Carries (map : NamespaceMap) : Json → Prop where
  | bare (unlisted : ∀ data, map.members.lookup "data".toList = some data → isArray (member "sets" data) = false) :
      Carries map (.object map.members)
  | response (envelope : List (Text × Json))
      (listed : envelope.lookup "data".toList = some (.array [.object map.members]))
      (plain : ∀ entry ∈ envelope, entry = ("data".toList, .array [.object map.members]) ∨
        entry.1 ∉ costFields ∧ isObject entry.2 = false ∧ isArray (some entry.2) = false) :
      Carries map (.object envelope)

def NamespaceMap.spent (map : NamespaceMap) : ℚ := (map.members.map fun entry => max 0 (amountOf entry.2)).sum

/-- What a map needs to have for nothing of it to get lost: names that are not taken for
fields, no negative amounts beside shared ones, and amounts in whole millionths. -/
structure NamespaceMap.Lossless (map : NamespaceMap) : Prop where
  unshadowed : ∀ entry ∈ map.members, entry.1 ∉ costFields
  nonneg : ∀ entry ∈ map.members, costsNothing entry.2 = false → 0 ≤ amountOf entry.2
  exact : ∀ entry ∈ map.members, ∃ millionths : ℤ, amountOf entry.2 * 10 ^ 6 = millionths

variable {items : List AllocationObject} {seen : List (List Text)} {item : AllocationObject}

theorem mem_dedupe (kept : item ∈ dedupeAllocationObjects seen items) : item ∈ items ∧ item.path ∉ seen := by
  induction items generalizing seen with
  | nil => cases kept
  | cons first rest ih =>
    unfold dedupeAllocationObjects at kept
    split at kept
    · exact ⟨List.mem_cons_of_mem _ (ih kept).1, (ih kept).2⟩
    · rename_i unseen
      cases List.mem_cons.mp kept with
      | inl same =>
        subst same
        exact ⟨List.mem_cons_self, unseen⟩
      | inr later =>
        obtain ⟨inside, fresh⟩ := ih later
        exact ⟨List.mem_cons_of_mem _ inside, fun old => fresh (List.mem_cons_of_mem _ old)⟩

theorem exists_dedupe (present : item ∈ items) (unseen : item.path ∉ seen) :
    ∃ kept ∈ dedupeAllocationObjects seen items, kept.path = item.path := by
  induction items generalizing seen with
  | nil => cases present
  | cons first rest ih =>
    unfold dedupeAllocationObjects
    by_cases same : item.path = first.path
    · rw [if_neg (same ▸ unseen)]
      exact ⟨first, List.mem_cons_self, same.symm⟩
    · have later : item ∈ rest := by
        cases List.mem_cons.mp present with
        | inl isFirst => exact absurd (congrArg AllocationObject.path isFirst) same
        | inr later => exact later
      split
      · exact ih later unseen
      · have fresh : item.path ∉ first.path :: seen := by
          intro old
          exact (List.mem_cons.mp old).elim same unseen
        obtain ⟨kept, member, isItem⟩ := ih later fresh
        exact ⟨kept, List.mem_cons_of_mem _ member, isItem⟩

theorem dedupe_nodup (seen : List (List Text)) (items : List AllocationObject) :
    ((dedupeAllocationObjects seen items).map (·.path)).Nodup := by
  induction items generalizing seen with
  | nil => exact List.nodup_nil
  | cons first rest ih =>
    unfold dedupeAllocationObjects
    split
    · exact ih seen
    · rw [List.map_cons]
      refine List.nodup_cons.mpr ⟨?_, ih (first.path :: seen)⟩
      intro again
      obtain ⟨item, kept, same⟩ := List.mem_map.mp again
      exact (mem_dedupe kept).2 (same ▸ List.mem_cons_self)

variable {map : NamespaceMap}

theorem dedupe_perm (root : List Text) (inside : ∀ item ∈ items, ∃ entry ∈ map.members,
      item.path = root ++ [entry.1] ∧ item.value = entry.2)
    (covered : ∀ entry ∈ map.members, ∃ item ∈ items, item.path = root ++ [entry.1]) :
    ((dedupeAllocationObjects [] items).map (·.value)).Perm (map.members.map Prod.snd) := by
  have same_entry {left right : Text × Json} (isLeft : left ∈ map.members)
      (isRight : right ∈ map.members) (path : root ++ [left.1] = root ++ [right.1]) :
      left = right :=
    List.inj_on_of_nodup_map map.distinct isLeft isRight
      (List.cons.inj (List.append_cancel_left path)).1
  have pairs : ((dedupeAllocationObjects [] items).map fun item => (item.path, item.value)).Perm
      (map.members.map fun entry => (root ++ [entry.1], entry.2)) := by
    apply (List.perm_ext_iff_of_nodup ?_ ?_).mpr
    · intro ⟨path, value⟩
      constructor
      · intro found
        obtain ⟨item, kept, same⟩ := List.mem_map.mp found
        obtain ⟨entry, isEntry, isPath, isValue⟩ := inside item (mem_dedupe kept).1
        cases same
        exact List.mem_map.mpr ⟨entry, isEntry, by rw [isPath, isValue]⟩
      · intro listed
        obtain ⟨entry, isEntry, same⟩ := List.mem_map.mp listed
        cases same
        obtain ⟨item, present, isPath⟩ := covered entry isEntry
        obtain ⟨kept, isKept, keptPath⟩ := exists_dedupe present List.not_mem_nil
        obtain ⟨other, isOther, otherPath, otherValue⟩ := inside kept (mem_dedupe isKept).1
        have isSame := same_entry isEntry isOther (isPath.symm.trans (keptPath.symm.trans otherPath))
        subst isSame
        exact List.mem_map.mpr ⟨kept, isKept, by rw [otherPath, otherValue]⟩
    · apply List.Nodup.of_map Prod.fst
      rw [List.map_map]
      exact dedupe_nodup [] items
    · apply List.Nodup.of_map Prod.fst
      rw [List.map_map]
      have distinct := map.distinct.map (f := fun name => root ++ [name]) fun left right same =>
        (List.cons.inj (List.append_cancel_left same)).1
      rw [List.map_map] at distinct
      exact distinct
  have values := pairs.map Prod.snd
  rw [List.map_map, List.map_map] at values
  exact values

theorem looksLikeAllocation_eq_false {members : List (Text × Json)}
    (unshadowed : ∀ entry ∈ members, entry.1 ∉ costFields) : looksLikeAllocation (.object members) = false := by
  apply List.any_eq_false.mpr
  intro field isField named
  obtain ⟨entry, member, same⟩ := List.any_eq_true.mp named
  exact unshadowed entry member (beq_iff_eq.mp same ▸ isField)

theorem exists_members {value : Json} (isAllocation : looksLikeAllocation value = true) :
    ∃ members, value = .object members := by
  cases value with
  | object members => exact ⟨members, rfl⟩
  | null | bool _ | number _ | string _ | array _ => cases isAllocation

theorem nestedAllocations_map (map : NamespaceMap) (path : List Text) :
    nestedAllocations path (.object map.members) = map.members.map fun entry =>
        { key := entry.1, path := path ++ [entry.1], value := entry.2 } := by
  rw [nestedAllocations, entries, List.filter_eq_self.mpr map.allocations]

theorem setCandidates_eq_nil {sets : Option Json} (noList : isArray sets = false) : setCandidates path sets = [] := by
  unfold setCandidates
  split
  · cases noList
  · rfl

theorem appendCandidate_lookup (map : NamespaceMap) (name : Text) (path : List Text) (out : List AllocationObject) :
    ∃ found : List AllocationObject, appendCandidate out (path, map.members.lookup name) = out ++ found ∧
      ∀ item ∈ found, item.path = path ∧ (name, item.value) ∈ map.members := by
  cases search : map.members.lookup name with
  | none => exact ⟨[], (List.append_nil out).symm, nofun⟩
  | some value =>
    have isEntry : (name, value) ∈ map.members := Table.mem_of_lookup search
    have isAllocation := map.allocations _ isEntry
    obtain ⟨members, rfl⟩ := exists_members isAllocation
    refine ⟨_, if_pos isAllocation, ?_⟩
    intro item single
    rw [List.mem_singleton.mp single]
    exact ⟨rfl, isEntry⟩

theorem extract_bare (unshadowed : ∀ entry ∈ map.members, entry.1 ∉ costFields)
    (unlisted : ∀ data, map.members.lookup "data".toList = some data → isArray (member "sets" data) = false) :
    ((extractAllocationObjects (.object map.members)).map (·.value)).Perm (map.members.map Prod.snd) := by
  have noSets : ¬ isArray (member "sets" (.object map.members)) = true := by
    change ¬ isArray (map.members.lookup "sets".toList) = true
    cases search : map.members.lookup "sets".toList with
    | none => exact nofun
    | some sets =>
      have isAllocation := map.allocations _ (Table.mem_of_lookup search)
      obtain ⟨members, rfl⟩ := exists_members isAllocation
      exact nofun
  have noSetsInData : isArray ((member "data" (.object map.members)).bind (member "sets")) = false := by
    change isArray ((map.members.lookup "data".toList).bind (member "sets")) = false
    cases search : map.members.lookup "data".toList with
    | none => rfl
    | some data => exact unlisted data search
  obtain ⟨first, firstEq, isFirst⟩ := appendCandidate_lookup map "data".toList ["data".toList] []
  obtain ⟨second, secondEq, isSecond⟩ :=
    appendCandidate_lookup map "allocations".toList ["allocations".toList] ([] ++ first)
  have whole : (candidates (.object map.members)).foldl appendCandidate [] =
      [] ++ first ++ second ++ nestedAllocations [] (.object map.members) := by
    rw [candidates, listedSets, if_neg noSets, setCandidates_eq_nil _ noSetsInData,
      List.append_nil, List.foldl_cons, List.foldl_cons, List.foldl_cons, List.foldl_nil]
    change appendCandidate (appendCandidate (appendCandidate [] (["data".toList],
      map.members.lookup "data".toList)) (["allocations".toList],
      map.members.lookup "allocations".toList)) ([], some (.object map.members)) = _
    rw [firstEq, secondEq]
    exact if_neg (Bool.eq_false_iff.mp (looksLikeAllocation_eq_false unshadowed))
  rw [extractAllocationObjects, whole, nestedAllocations_map]
  apply dedupe_perm []
  · intro item member
    rcases List.mem_append.mp member with early | nested
    · rcases List.mem_append.mp early with isData | isAllocations
      · obtain ⟨path, isEntry⟩ := isFirst item isData
        exact ⟨_, isEntry, path, rfl⟩
      · obtain ⟨path, isEntry⟩ := isSecond item isAllocations
        exact ⟨_, isEntry, path, rfl⟩
    · obtain ⟨entry, isEntry, rfl⟩ := List.mem_map.mp nested
      exact ⟨entry, isEntry, rfl, rfl⟩
  · intro entry isEntry
    exact ⟨_, List.mem_append_right _ (List.mem_map.mpr ⟨entry, isEntry, rfl⟩), rfl⟩

theorem extract_response (unshadowed : ∀ entry ∈ map.members, entry.1 ∉ costFields) {envelope : List (Text × Json)}
    (listed : envelope.lookup "data".toList = some (.array [.object map.members]))
    (plain : ∀ entry ∈ envelope, entry = ("data".toList, .array [.object map.members]) ∨
      entry.1 ∉ costFields ∧ isObject entry.2 = false ∧ isArray (some entry.2) = false) :
    ((extractAllocationObjects (.object envelope)).map (·.value)).Perm (map.members.map Prod.snd) := by
  have scalar (name : Text) (path : List Text) (out : List AllocationObject) (other : name ≠ "data".toList) :
      isArray (envelope.lookup name) = false ∧ appendCandidate out (path, envelope.lookup name) = out := by
    cases search : envelope.lookup name with
    | none => exact ⟨rfl, rfl⟩
    | some value =>
      have isPlain := (plain _ (Table.mem_of_lookup search)).resolve_left fun same => other (congrArg Prod.fst same)
      obtain ⟨_, noObject, noArray⟩ := isPlain
      refine ⟨noArray, ?_⟩
      cases value with
      | array items => cases noArray
      | object members => cases noObject
      | null | bool _ | number _ | string _ => rfl
  have noSets : ¬ isArray (member "sets" (.object envelope)) = true := by
    change ¬ isArray (envelope.lookup "sets".toList) = true
    rw [(scalar "sets".toList [] [] (by decide)).1]
    exact nofun
  have noMap : looksLikeAllocation (.object map.members) = false := looksLikeAllocation_eq_false unshadowed
  have noRoot : looksLikeAllocation (.object envelope) = false := by
    apply looksLikeAllocation_eq_false
    intro entry isEntry
    rcases plain entry isEntry with rfl | isPlain
    · show "data".toList ∉ costFields
      decide
    · exact isPlain.1
  have nothing : nestedAllocations [] (.object envelope) = [] := by
    rw [nestedAllocations, entries, List.filter_eq_nil_iff.mpr, List.map_nil]
    intro entry isEntry
    rcases plain entry isEntry with rfl | ⟨_, noObject, _⟩
    · exact nofun
    · intro isAllocation
      obtain ⟨members, isMembers⟩ := exists_members isAllocation
      rw [isMembers] at noObject
      cases noObject
  have fromList : appendCandidate [] (["data".toList], some (.array [.object map.members])) =
      nestedAllocations ["data".toList, index 0] (.object map.members) := by
    change appendAllocationOrMap [] _ _ _ = _
    rw [appendAllocationOrMap, noMap, if_neg nofun]
    rfl
  have noSetsInData : isArray ((member "data" (.object envelope)).bind (member "sets")) = false := by
    change isArray ((envelope.lookup "data".toList).bind (member "sets")) = false
    rw [listed]
    rfl
  have whole : (candidates (.object envelope)).foldl appendCandidate [] =
      nestedAllocations ["data".toList, index 0] (.object map.members) := by
    rw [candidates, listedSets, if_neg noSets, setCandidates_eq_nil _ noSetsInData, List.append_nil,
      List.foldl_cons, List.foldl_cons, List.foldl_cons, List.foldl_nil]
    change appendCandidate (appendCandidate (appendCandidate [] (["data".toList],
      envelope.lookup "data".toList)) (["allocations".toList],
      envelope.lookup "allocations".toList)) ([], some (.object _)) = _
    rw [listed, fromList, (scalar _ _ _ (by decide)).2]
    change appendAllocationOrMap _ _ _ _ = _
    rw [appendAllocationOrMap, noRoot, if_neg nofun, nothing, List.append_nil]
  rw [extractAllocationObjects, whole, nestedAllocations_map]
  apply dedupe_perm ["data".toList, index 0]
  · intro item member
    obtain ⟨entry, isEntry, rfl⟩ := List.mem_map.mp member
    exact ⟨entry, isEntry, rfl, rfl⟩
  · intro entry isEntry
    exact ⟨_, List.mem_map.mpr ⟨entry, isEntry, rfl⟩, rfl⟩

variable {payload : Json}

theorem extract_perm (carries : Carries map payload) (lossless : map.Lossless) :
    ((extractAllocationObjects payload).map (·.value)).Perm (map.members.map Prod.snd) := by
  cases carries with
  | bare unlisted => exact extract_bare lossless.unshadowed unlisted
  | response envelope listed plain => exact extract_response lossless.unshadowed listed plain

def bookedAmount : ℚ :=
  if costsNothing value then 0 else amountOf value

theorem sum_normalize (found : List AllocationObject) :
    ((found.filterMap normalizeAllocation).map (·.amountUsd)).sum = ((found.map (·.value)).map bookedAmount).sum := by
  induction found with
  | nil => rfl
  | cons first rest ih =>
    rw [List.map_cons, List.map_cons, List.sum_cons, ← ih]
    cases free : costsNothing first.value with
    | true =>
      have dropped : normalizeAllocation first = none := by
        rw [normalizeAllocation, free]
        rfl
      rw [List.filterMap_cons_none dropped, bookedAmount, free, if_pos rfl, zero_add]
    | false =>
      obtain ⟨allocation, kept, amount⟩ : ∃ allocation, normalizeAllocation first = some allocation ∧
            allocation.amountUsd = amountOf first.value := by
        rw [normalizeAllocation, free]
        exact ⟨_, rfl, rfl⟩
      rw [List.filterMap_cons_some kept, List.map_cons, List.sum_cons, amount, bookedAmount, free, if_neg nofun]

theorem NamespaceMap.Lossless.bookedAmount_eq (lossless : map.Lossless) {entry : Text × Json}
    (isEntry : entry ∈ map.members) : bookedAmount entry.2 = max 0 (amountOf entry.2) := by
  unfold bookedAmount
  cases free : costsNothing entry.2 with
  | true =>
    have noAmount := of_decide_eq_true (Bool.and_eq_true_iff.mp free).1
    rw [if_pos rfl, max_eq_left noAmount]
  | false => rw [if_neg nofun, max_eq_right (lossless.nonneg entry isEntry free)]

theorem sum_normalizeOpenCostAllocations (carries : Carries map payload) (lossless : map.Lossless) :
    ((normalizeOpenCostAllocations payload).map (·.amountUsd)).sum = map.spent := by
  rw [normalizeOpenCostAllocations, sum_normalize,
    ((extract_perm carries lossless).map bookedAmount).sum_eq, NamespaceMap.spent, List.map_map]
  apply congrArg List.sum
  apply List.map_congr_left
  intro entry isEntry
  exact lossless.bookedAmount_eq isEntry

theorem exists_entry (carries : Carries map payload) (lossless : map.Lossless)
    {allocation : RawAllocation} (booked : allocation ∈ normalizeOpenCostAllocations payload) :
    ∃ entry ∈ map.members, allocation.amountUsd = amountOf entry.2 ∧ costsNothing entry.2 = false := by
  obtain ⟨found, isFound, kept⟩ := List.mem_filterMap.mp booked
  have isValue := (extract_perm carries lossless).mem_iff.mp (List.mem_map_of_mem isFound)
  obtain ⟨entry, isEntry, same⟩ := List.mem_map.mp isValue
  refine ⟨entry, isEntry, ?_⟩
  rw [same]
  unfold normalizeAllocation at kept
  dsimp only at kept
  split at kept
  · cases kept
  · rename_i costs
    cases kept
    exact ⟨rfl, Bool.eq_false_iff.mpr costs⟩

end EveHorizon.Costs
