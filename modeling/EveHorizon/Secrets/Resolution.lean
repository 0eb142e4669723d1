import EveHorizon.Secrets.Storing

/-!
# Which value a project sees

A scope hides the values of those below it.
-/

namespace EveHorizon.Secrets

open Table List
open Utf8 (CodePoints)

def highest (scopes : List (SecretScopeType × Text)) (stored : Stored) (key : Text) : Option CodePoints :=
  scopes.reverse.findSome? fun scope => stored (scope.1, scope.2, key)

def listedKeys (table : SecretTable) (scope : SecretScopeType × Text) : List Text :=
  (listByScope table scope.1 scope.2 500 0).map Secret.key

def readable (table : SecretTable) (stored : Stored) : Stored := fun place =>
  if place.2.2 ∈ listedKeys table (place.1, place.2.1) then (stored place).filter (· ≠ []) else none

section

variable {table : SecretTable} {scopeType : SecretScopeType} {scopeId : Text} {limit offset : Nat}

theorem listByScope_perm (table : SecretTable) (scopeType : SecretScopeType) (scopeId : Text) (limit offset : Nat) :
    ∃ sorted, sorted.Perm (table.rows.filter fun row => row.scopeType == scopeType && row.scopeId == scopeId) ∧
      (listByScope table scopeType scopeId limit offset).Sublist sorted :=
  ⟨_, perm_insertionSort _ _, (take_sublist _ _).trans (drop_sublist _ _)⟩

theorem mem_listByScope {row : Secret} (member : row ∈ listByScope table scopeType scopeId limit offset) :
    row ∈ table.rows ∧ row.place = (scopeType, scopeId, row.key) := by
  obtain ⟨sorted, isPerm, isSublist⟩ := listByScope_perm table scopeType scopeId limit offset
  have chosen := isPerm.mem_iff.mp (isSublist.subset member)
  rw [mem_filter, Bool.and_eq_true, beq_iff_eq, beq_iff_eq] at chosen
  obtain ⟨present, isType, isId⟩ := chosen
  exact ⟨present, by rw [Secret.place, isType, isId]⟩

theorem listByScope_keys_nodup (table : SecretTable) (scopeType : SecretScopeType) (scopeId : Text)
    (limit offset : Nat) : ((listByScope table scopeType scopeId limit offset).map Secret.key).Nodup := by
  obtain ⟨sorted, isPerm, isSublist⟩ := listByScope_perm table scopeType scopeId limit offset
  have places : ((listByScope table scopeType scopeId limit offset).map Secret.place).Nodup := by
    refine List.Nodup.sublist (isSublist.map _) ?_
    refine (isPerm.map _).nodup_iff.mpr ?_
    exact table.distinct.sublist (filter_sublist.map _)
  refine List.Nodup.of_map (fun key => (scopeType, scopeId, key)) ?_
  rw [map_map]
  have same : (listByScope table scopeType scopeId limit offset).map
      ((fun key => (scopeType, scopeId, key)) ∘ Secret.key) =
        (listByScope table scopeType scopeId limit offset).map Secret.place :=
    map_congr_left fun row member => (mem_listByScope member).2.symm
  rw [same]
  exact places

end

section

variable {cipher : Cipher} {masterKey : Option Bytes} {scopeType : SecretScopeType} {scopeId key : Text}

def opened (cipher : Cipher) (masterKey : Option Bytes) (scopeType : SecretScopeType) (scopeId : Text)
    (row : Secret) : Option ResolvedSecret :=
  match decrypt cipher masterKey row.valueEncrypted with
  | .ok value => some ⟨row.key, value, row.type, scopeType, scopeId⟩
  | .error _ => none

theorem find_decryptSecret (secret : Secret) (resolved : Resolved) :
    (decryptSecrets cipher masterKey [secret] scopeType scopeId resolved).find key =
      (if secret.key = key then opened cipher masterKey scopeType scopeId secret else none).or (resolved.find key) := by
  rw [decryptSecrets, foldl_cons, foldl_nil, opened]
  cases decrypt cipher masterKey secret.valueEncrypted with
  | ok value =>
    refine (Keyed.find_upsert resolved _ key).trans ?_
    by_cases same : secret.key = key
    · rw [if_pos same, if_pos same]
      rfl
    · rw [if_neg same, if_neg same]
      rfl
  | error error =>
    rw [ite_self]
    rfl

theorem find_decryptSecrets {secrets : List Secret} (distinct : (secrets.map Secret.key).Nodup) (resolved : Resolved) :
    (decryptSecrets cipher masterKey secrets scopeType scopeId resolved).find key =
      ((secrets.find? (·.key == key)).bind (opened cipher masterKey scopeType scopeId)).or (resolved.find key) := by
  induction secrets generalizing resolved with
  | nil => rfl
  | cons secret rest ih =>
    rw [map_cons, nodup_cons] at distinct
    obtain ⟨fresh, later⟩ := distinct
    change (decryptSecrets cipher masterKey rest scopeType scopeId
      (decryptSecrets cipher masterKey [secret] scopeType scopeId resolved)).find key = _
    rw [ih later, find_decryptSecret, find?_cons]
    by_cases same : secret.key = key
    · have absent : rest.find? (·.key == key) = none := by
        refine find?_eq_none.mpr fun other member isKey => fresh ?_
        rw [same, ← beq_iff_eq.mp isKey]
        exact mem_map_of_mem member
      rw [absent, if_pos same, beq_iff_eq.mpr same]
      rfl
    · rw [if_neg same, beq_eq_false_iff_ne.mpr same]
      rfl

theorem find_layers (table : SecretTable) (scopes : List (SecretScopeType × Text)) (resolved : Resolved) :
    (scopes.foldl (fun found scope => decryptSecrets cipher masterKey
          (listByScope table scope.1 scope.2 500 0) scope.1 scope.2 found) resolved).find key =
      (scopes.reverse.findSome? fun scope =>
        ((listByScope table scope.1 scope.2 500 0).find? (·.key == key)).bind
          (opened cipher masterKey scope.1 scope.2)).or (resolved.find key) := by
  induction scopes generalizing resolved with
  | nil => rfl
  | cons scope rest ih =>
    rw [foldl_cons, ih, find_decryptSecrets (listByScope_keys_nodup _ _ _ _ _),
      reverse_cons, findSome?_append, Option.or_assoc, findSome?_singleton]

theorem find_resolveScopes (table : SecretTable) (scopes : List (SecretScopeType × Text)) (key : Text) :
    (resolveScopes cipher masterKey table scopes).find key = scopes.reverse.findSome? fun scope =>
        ((listByScope table scope.1 scope.2 500 0).find? (·.key == key)).bind
          (opened cipher masterKey scope.1 scope.2) :=
  (find_layers table scopes Keyed.empty).trans (Option.or_none)

end

variable {scopes : List (SecretScopeType × Text)}

section

variable {cipher : Cipher} {masterKey : Bytes} {table : SecretTable} {stored : Stored} {catalog : Catalog}
  {projectId orgId : Text} {userId : Option Text} {key : Text} {scope : SecretScopeType × Text}

theorem mem_listedKeys : key ∈ listedKeys table scope ↔
      ∃ row, (listByScope table scope.1 scope.2 500 0).find? (·.key == key) = some row := by
  rw [← Option.isSome_iff_exists, find?_isSome, listedKeys, mem_map]
  simp only [beq_iff_eq]

theorem opened_value (lawful : cipher.Lawful) (holds : Holds cipher masterKey table stored)
    (scope : SecretScopeType × Text) (key : Text) :
    (((listByScope table scope.1 scope.2 500 0).find? (·.key == key)).bind
        (opened cipher (some masterKey) scope.1 scope.2)).map ResolvedSecret.value =
      (readable table stored (scope.1, scope.2, key)).map Utf8.toWellFormed := by
  rw [readable]
  cases found : (listByScope table scope.1 scope.2 500 0).find? (·.key == key) with
  | none =>
    have absent : key ∉ listedKeys table scope := by
      rw [mem_listedKeys, found]
      exact fun there => nomatch there
    rw [if_neg absent]
    rfl
  | some row =>
    have there : key ∈ listedKeys table scope := mem_listedKeys.mpr ⟨row, found⟩
    obtain ⟨member, isPlace⟩ := mem_listByScope (mem_of_find?_eq_some found)
    have isKey : row.key = key := by simpa using find?_some found
    obtain ⟨value, isStored, encrypts⟩ := holds.rows row member
    rw [isPlace, isKey] at isStored
    rw [if_pos there, isStored, Option.bind_some, opened, decrypt_encrypted lawful encrypts]
    by_cases empty : value = []
    · rw [if_pos empty, empty]
      rfl
    · rw [if_neg empty, Option.filter_some, if_pos (decide_eq_true empty)]
      rfl

def valueOf (items : List ResolvedSecret) (key : Text) : Option CodePoints :=
  (items.find? fun item => item.key = key).map ResolvedSecret.value

theorem resolve_values (lawful : cipher.Lawful) (holds : Holds cipher masterKey table stored)
    (inOrg : catalog.projectOrg projectId = some orgId) (userId : Option Text) :
    ∃ items, resolveForProject cipher (some masterKey) catalog projectId userId table = .ok items ∧
      (items.map ResolvedSecret.key).Nodup ∧ ∀ key, valueOf items key =
        (highest (relevantScopes projectId orgId userId) (readable table stored) key).map Utf8.toWellFormed := by
  let resolved := resolveScopes cipher (some masterKey) table (relevantScopes projectId orgId userId)
  refine ⟨resolved.rows, ?_, resolved.distinct, fun key => ?_⟩
  · rw [resolveForProject, ensureConfigured_some]
    dsimp only
    rw [inOrg]
  · change (resolved.find key).map _ = _
    rw [find_resolveScopes, highest, map_findSome?, map_findSome?]
    congr 1
    funext scope
    exact opened_value lawful holds scope key

theorem validate_missing (toUpperCase : Text → Text)
    (inOrg : catalog.projectOrg projectId = some orgId) (userId : Option Text)
    (requiredKeys : List Text) (table : SecretTable) :
    ∃ missing, validateRequiredSecrets toUpperCase catalog projectId requiredKeys userId table = .ok missing ∧
      ∀ key, key ∈ missing.map MissingSecret.key ↔ key ∈ requiredKeys ∧ key ≠ [] ∧
        ∀ scope ∈ relevantScopes projectId orgId userId, key ∉ listedKeys table scope := by
  let available := listAvailableSecretKeys table projectId orgId userId
  let required := (requiredKeys.filter (· ≠ [])).eraseDups
  refine ⟨(required.filter fun key => !available.contains key).map
    (missingSecret toUpperCase projectId orgId available), ?_, fun key => ?_⟩
  · rw [validateRequiredSecrets, inOrg]
    change (if required.length = 0 then _ else _) = _
    split
    · next nothing => rw [length_eq_zero_iff.mp nothing]; rfl
    · rfl
  · rw [map_map]
    change key ∈ (required.filter _).map id ↔ _
    rw [map_id, mem_filter, mem_eraseDups, mem_filter, Bool.not_eq_true',
      ← Bool.not_eq_true, contains_iff_mem, decide_eq_true_eq, and_assoc]
    change _ ∧ _ ∧ ¬ key ∈ (List.flatMap _ _).eraseDups ↔ _
    rw [mem_eraseDups, mem_flatMap]
    simp only [listedKeys, not_exists, not_and]

theorem mem_keys_iff {items : List ResolvedSecret} :
    key ∈ items.map ResolvedSecret.key ↔ ∃ value, valueOf items key = some value := by
  rw [← Option.isSome_iff_exists, valueOf, Option.isSome_map, find?_isSome, mem_map]
  simp only [decide_eq_true_eq]

variable {value : CodePoints}

theorem highest_eq_some (found : highest scopes stored key = some value) :
    ∃ scope ∈ scopes, stored (scope.1, scope.2, key) = some value := by
  obtain ⟨scope, member, isStored⟩ := exists_of_findSome?_eq_some found
  exact ⟨scope, mem_reverse.mp member, isStored⟩

theorem highest_isSome (member : scope ∈ scopes) (isStored : stored (scope.1, scope.2, key) = some value) :
    ∃ other, highest scopes stored key = some other := by
  rw [← Option.isSome_iff_exists, highest, findSome?_isSome_iff]
  exact ⟨scope, mem_reverse.mpr member, by rw [isStored]; rfl⟩

theorem readable_eq_some (isReadable : readable table stored (scope.1, scope.2, key) = some value) :
    key ∈ listedKeys table scope ∧ stored (scope.1, scope.2, key) = some value ∧ value ≠ [] := by
  rw [readable] at isReadable
  split at isReadable
  · next listed =>
      obtain ⟨isStored, there⟩ := Option.filter_eq_some_iff.mp isReadable
      exact ⟨listed, isStored, of_decide_eq_true there⟩
  · cases isReadable

theorem stored_of_listed (holds : Holds cipher masterKey table stored) (listed : key ∈ listedKeys table scope) :
    ∃ value, stored (scope.1, scope.2, key) = some value := by
  obtain ⟨row, member, isKey⟩ := mem_map.mp listed
  obtain ⟨present, isPlace⟩ := mem_listByScope member
  obtain ⟨value, isStored, -⟩ := holds.rows row present
  exact ⟨value, by rw [← isKey, ← isPlace, isStored]⟩

end

/-- Resolution returns, for each key, the value stored in the highest scope that has it, and the
required keys that validation reports are those that it does not return. -/
def ResolutionExact (cipher : Cipher) (masterKey : Bytes) (history : History)
    (toUpperCase : Text → Text) (catalog : Catalog) (projectId orgId : Text) (userId : Option Text)
    (requiredKeys : List Text) : Prop :=
  let table := tableAfter cipher masterKey history
  ∃ items missing, resolveForProject cipher (some masterKey) catalog projectId userId table = .ok items ∧
    validateRequiredSecrets toUpperCase catalog projectId requiredKeys userId table = .ok missing ∧
    (items.map ResolvedSecret.key).Nodup ∧ (∀ key, valueOf items key =
      highest (relevantScopes projectId orgId userId) (storedAfter history) key) ∧
    ∀ key, key ∈ missing.map MissingSecret.key ↔ key ∈ requiredKeys ∧ key ∉ items.map ResolvedSecret.key

/-- The highest value of a key is the highest of those that can be read, with its unpaired
surrogates replaced. -/
def HighestReadable (table : SecretTable) (stored : Stored) (scopes : List (SecretScopeType × Text)) : Prop :=
  ∀ key value, highest scopes stored key = some value →
    (highest scopes (readable table stored) key).map Utf8.toWellFormed = some value

theorem findSome?_congr {α β : Type} {items : List α} {left right : α → Option β}
    (same : ∀ item ∈ items, left item = right item) : items.findSome? left = items.findSome? right := by
  induction items with
  | nil => rfl
  | cons item rest ih =>
    rw [findSome?_cons, findSome?_cons, same item mem_cons_self,
      ih fun other member => same other (mem_cons_of_mem _ member)]

variable {table : SecretTable} {masterKey : Bytes} {cipher : Cipher} {stored : Stored}

theorem listed_of_few (holds : Holds cipher masterKey table stored) {scope : SecretScopeType × Text} {key : Text}
    {value : CodePoints}
    (few : (table.rows.filter fun row => row.scopeType == scope.1 && row.scopeId == scope.2).length ≤ 500)
    (isStored : stored (scope.1, scope.2, key) = some value) : key ∈ listedKeys table scope := by
  obtain ⟨row, member, isPlace⟩ := holds.places _ value isStored
  have parts : row.scopeType = scope.1 ∧ row.scopeId = scope.2 ∧ row.key = key := by
    simpa [Secret.place] using isPlace
  obtain ⟨isType, isId, isKey⟩ := parts
  have whole : listByScope table scope.1 scope.2 500 0 =
      (table.rows.filter fun row => row.scopeType == scope.1 && row.scopeId == scope.2).insertionSort
        fun left right => right.createdAt ≤ left.createdAt := by
    rw [listByScope, drop_zero, take_of_length_le]
    rw [length_insertionSort]
    exact few
  rw [listedKeys, whole, ← isKey]
  refine mem_map_of_mem ((mem_insertionSort _).mpr (mem_filter.mpr ⟨member, ?_⟩))
  rw [isType, isId, BEq.rfl, BEq.rfl]
  rfl

theorem highestReadable_of_plain (holds : Holds cipher masterKey table stored)
    (few : ∀ scope ∈ scopes, (table.rows.filter fun row => row.scopeType == scope.1 && row.scopeId == scope.2).length ≤
      500)
    (plain : ∀ scope ∈ scopes, ∀ key value, stored (scope.1, scope.2, key) = some value →
      value ≠ [] ∧ Utf8.toWellFormed value = value) :
    HighestReadable table stored scopes := by
  intro key value isHighest
  have same : highest scopes (readable table stored) key = highest scopes stored key := by
    refine findSome?_congr fun scope member => ?_
    have inScopes := mem_reverse.mp member
    cases isStored : stored (scope.1, scope.2, key) with
    | none => rw [readable, isStored, Option.filter_none, ite_self]
    | some value =>
      have there := (plain scope inScopes key value isStored).1
      rw [readable, if_pos (listed_of_few holds (few scope inScopes) isStored), isStored,
        Option.filter_some, if_pos (decide_eq_true there)]
  obtain ⟨scope, member, isStored⟩ := highest_eq_some isHighest
  rw [same, isHighest, Option.map_some, (plain scope member key value isStored).2]

theorem resolution_exact_iff {cipher : Cipher} (lawful : cipher.Lawful) (masterKey : Bytes)
    (history : History) (toUpperCase : Text → Text) {catalog : Catalog} {projectId orgId : Text}
    (inOrg : catalog.projectOrg projectId = some orgId) (userId : Option Text) (requiredKeys : List Text) :
    ResolutionExact cipher masterKey history toUpperCase catalog projectId orgId userId requiredKeys ↔
      HighestReadable (tableAfter cipher masterKey history) (storedAfter history)
          (relevantScopes projectId orgId userId) ∧ [] ∉ requiredKeys := by
  have holds := tableAfter_holds cipher masterKey history
  obtain ⟨items, isItems, distinct, values⟩ := resolve_values lawful holds inOrg userId
  obtain ⟨missing, isMissing, reported⟩ := validate_missing toUpperCase inOrg userId requiredKeys
    (tableAfter cipher masterKey history)
  constructor
  · intro exact
    obtain ⟨otherItems, otherMissing, isItems', isMissing', -, highestValues, agrees⟩ := exact
    rw [isItems] at isItems'
    rw [isMissing] at isMissing'
    cases isItems'
    cases isMissing'
    refine ⟨fun key value isHighest => ?_, fun required => ?_⟩
    · rw [← values, highestValues, isHighest]
    · have returned : [] ∈ items.map ResolvedSecret.key := by
        by_contra notReturned
        exact ((reported []).mp ((agrees []).mpr ⟨required, notReturned⟩)).2.1 rfl
      obtain ⟨value, isValue⟩ := mem_keys_iff.mp returned
      rw [highestValues] at isValue
      obtain ⟨scope, -, isStored⟩ := highest_eq_some isValue
      exact holds.keyed _ value isStored rfl
  · intro condition
    obtain ⟨isReadable, noEmpty⟩ := condition
    have highestValues : ∀ key, valueOf items key =
        highest (relevantScopes projectId orgId userId) (storedAfter history) key := by
      intro key
      rw [values]
      cases isHighest : highest (relevantScopes projectId orgId userId) (storedAfter history) key with
      | some value => exact isReadable key value isHighest
      | none =>
        cases found : highest (relevantScopes projectId orgId userId)
            (readable (tableAfter cipher masterKey history) (storedAfter history)) key with
        | none => rfl
        | some value =>
          obtain ⟨scope, member, there⟩ := highest_eq_some found
          obtain ⟨other, isOther⟩ := highest_isSome member (readable_eq_some there).2.1
          rw [isHighest] at isOther
          cases isOther
    refine ⟨items, missing, isItems, isMissing, distinct, highestValues, fun key => ?_⟩
    rw [reported, mem_keys_iff, highestValues]
    constructor
    · intro isReported
      obtain ⟨required, -, unlisted⟩ := isReported
      refine ⟨required, fun returned => ?_⟩
      obtain ⟨value, isHighest⟩ := returned
      obtain ⟨read, isRead, -⟩ := Option.map_eq_some_iff.mp (isReadable key value isHighest)
      obtain ⟨scope, member, there⟩ := highest_eq_some isRead
      exact unlisted scope member (readable_eq_some there).1
    · intro notReturned
      obtain ⟨required, absent⟩ := notReturned
      refine ⟨required, fun empty => noEmpty (empty ▸ required), fun scope member listed => ?_⟩
      obtain ⟨value, isStored⟩ := stored_of_listed holds listed
      exact absent (highest_isSome member isStored)

section

def zeroKey : Bytes := List.replicate 32 0

def answers : List (Bytes × Sealed) :=
  [([], ⟨[83, 15, 138, 251, 199, 69, 54, 185, 169, 99, 180, 241, 196, 203, 115, 139], []⟩), ([111, 108, 100],
      ⟨[4, 85, 79, 23, 1, 74, 146, 197, 107, 42, 93, 76, 23, 117, 208, 131], [161, 203, 36]⟩), ([110, 101, 119],
      ⟨[253, 249, 87, 5, 208, 49, 163, 41, 113, 116, 168, 105, 131, 212, 11, 55], [160, 194, 55]⟩)]

/-- Answers as `aes-256-gcm` does to the texts of the histories, under the zero key and the zero
vector. -/
def answering : Cipher where
  encipher _ _ plaintext :=
    ((answers.find? fun answer => answer.1 = plaintext).map Prod.snd).getD
      ⟨List.replicate 16 0, plaintext⟩
  decipher _ _ result :=
    some (((answers.find? fun answer => answer.2 = result).map Prod.fst).getD result.data)

theorem answering_cases (plaintext : Bytes) :
    (∃ answer ∈ answers, answer.1 = plaintext ∧ ∀ key iv, answering.encipher key iv plaintext = answer.2) ∨
      ∀ key iv, answering.encipher key iv plaintext = ⟨List.replicate 16 0, plaintext⟩ := by
  cases found : answers.find? fun answer => answer.1 = plaintext with
  | some answer =>
    refine .inl ⟨answer, mem_of_find?_eq_some found, ?_, fun key iv => ?_⟩
    · simpa using find?_some found
    · change ((answers.find? _).map _).getD _ = _
      rw [found]
      rfl
  | none =>
    refine .inr fun key iv => ?_
    change ((answers.find? _).map _).getD _ = _
    rw [found]
    rfl

theorem answering_lawful : answering.Lawful where
  deciphers key iv plaintext := by
    have known : ∀ answer ∈ answers, answering.decipher [] [] answer.2 = some answer.1 := by decide
    rcases answering_cases plaintext with ⟨answer, member, rfl, enciphered⟩ | enciphered
    · rw [enciphered]
      exact known answer member
    · have unknown : (answers.find? fun answer =>
          answer.2 = ⟨List.replicate 16 0, plaintext⟩) = none := by
        simp [answers, List.replicate]
      rw [enciphered]
      change some (((answers.find? _).map _).getD _) = _
      rw [unknown]
      rfl
  tagged key iv plaintext := by
    have known : ∀ answer ∈ answers, answer.2.tag.length = 16 := by decide
    rcases answering_cases plaintext with ⟨answer, member, rfl, enciphered⟩ | enciphered
    · rw [enciphered, known answer member]
    · rw [enciphered, length_replicate]
  sized key iv plaintext := by
    have known : ∀ answer ∈ answers, answer.2.data.length = answer.1.length := by decide
    rcases answering_cases plaintext with ⟨answer, member, rfl, enciphered⟩ | enciphered
    · rw [enciphered, known answer member]
    · rw [enciphered]

def project : Text := "proj_shop".toList

def shopOrg : Text := "org_acme".toList

def shops : Catalog where
  hasOrg orgId := orgId = shopOrg
  projectOrg projectId := if projectId = project then some shopOrg else none

def apiKey : Text := "API_KEY".toList

def reading (now : Nat) : Fresh where
  iv := List.replicate 12 0
  sized := rfl
  id := (Nat.repr now).toList
  now := now

def overridden : History :=
  [(shops, .create .org shopOrg
      { key := apiKey, value := Utf8.ofText "old".toList, keyed := by decide, valued := by decide }
      (reading 1)),
    (shops, .create .project project
      { key := apiKey, value := Utf8.ofText "new".toList, keyed := by decide, valued := by decide }
      (reading 2))]

theorem overridden_exact :
    ResolutionExact answering zeroKey overridden (·.map Char.toUpper) shops project shopOrg none [apiKey] := by
  refine (resolution_exact_iff answering_lawful zeroKey overridden (·.map Char.toUpper) rfl none
    [apiKey]).mpr ⟨?_, by decide⟩
  refine highestReadable_of_plain (tableAfter_holds answering zeroKey overridden) (by decide +kernel) ?_
  intro scope _ key value isStored
  have puts : storedAfter overridden =
      (Stored.put (fun _ => none) (.org, shopOrg, apiKey) (Utf8.ofText "old".toList)).put
        (.project, project, apiKey) (Utf8.ofText "new".toList) := rfl
  rw [puts] at isStored
  rcases Stored.put_eq_some isStored with rfl | isStored
  · exact ⟨by decide, by decide⟩
  · rcases Stored.put_eq_some isStored with rfl | isStored
    · exact ⟨by decide, by decide⟩
    · cases isStored

def emptied : History := [(shops, .loadSystemSecrets (some "API_KEY=".toList) reading)]

theorem emptied_answers :
    resolveForProject answering (some zeroKey) shops project none (tableAfter answering zeroKey emptied) = .ok [] ∧
      validateRequiredSecrets (·.map Char.toUpper) shops project [apiKey] none
        (tableAfter answering zeroKey emptied) = .ok [] := by
  decide +kernel

theorem emptied_inexact :
    ¬ ResolutionExact answering zeroKey emptied (·.map Char.toUpper) shops project shopOrg none [apiKey] := by
  intro exact
  obtain ⟨items, missing, isItems, isMissing, -, values, agrees⟩ := exact
  rw [emptied_answers.1] at isItems
  rw [emptied_answers.2] at isMissing
  cases isItems
  cases isMissing
  have missing := (agrees apiKey).mpr ⟨mem_singleton_self _, not_mem_nil⟩
  exact not_mem_nil missing

end

end EveHorizon.Secrets
