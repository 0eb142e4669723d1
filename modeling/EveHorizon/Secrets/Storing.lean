import EveHorizon.Secrets.Secrets

/-!
# What is stored

The value that each place holds, whatever it was encrypted with.
-/

namespace EveHorizon.Secrets

open Table List
open Utf8 (CodePoints)
open Base64 (decode_encode encode encode_eq_nil)

structure CreateSecretRequest where
  key : Text
  value : CodePoints
  type : SecretType := .envVar
  keyed : key ≠ []
  valued : value ≠ []

structure UpdateSecretRequest where
  value : Option CodePoints := none
  type : Option SecretType := none
  valued : ∀ text ∈ value, text ≠ []

inductive SecretOperation where
  | create (scopeType : SecretScopeType) (scopeId : Text) (request : CreateSecretRequest)
      (fresh : Fresh)
  | update (scopeType : SecretScopeType) (scopeId key : Text) (request : UpdateSecretRequest)
      (fresh : Fresh)
  | loadSystemSecrets (file : Option Text) (fresh : Nat → Fresh)

section

variable (cipher : Cipher) (masterKey : Bytes)

def SecretOperation.run (catalog : Catalog) : SecretOperation → SecretTable → SecretTable
  | .create scopeType scopeId request fresh, table =>
    (Secrets.create cipher (some masterKey) catalog scopeType scopeId request.key request.value
      (some request.type) fresh table).2
  | .update scopeType scopeId key request fresh, table =>
    (Secrets.update cipher (some masterKey) catalog scopeType scopeId key request.value request.type fresh table).2
  | .loadSystemSecrets file fresh, table =>
    (Secrets.loadSystemSecrets cipher (some masterKey) catalog file fresh table).2

abbrev History := List (Catalog × SecretOperation)

def tableAfter (history : History) : SecretTable :=
  history.foldl (fun table entry => entry.2.run cipher masterKey entry.1 table) Keyed.empty

end

abbrev Stored := SecretScopeType × Text × Text → Option CodePoints

def Stored.put (stored : Stored) (place : SecretScopeType × Text × Text) (value : CodePoints) : Stored :=
  Function.update stored place (some value)

def scopeExists (catalog : Catalog) (scopeType : SecretScopeType) (scopeId : Text) : Prop :=
  ensureScopeExists catalog scopeType scopeId = .ok ()

instance (catalog : Catalog) (scopeType : SecretScopeType) (scopeId : Text) :
    Decidable (scopeExists catalog scopeType scopeId) :=
  match found : ensureScopeExists catalog scopeType scopeId with
  | .ok () => .isTrue found
  | .error _ => .isFalse fun other => nomatch found.symm.trans other

/-- What an operation stores: a creation its value, an update the one it gives, if the key is there,
and a file the values of its lines. -/
def SecretOperation.store (catalog : Catalog) : SecretOperation → Stored → Stored
  | .create scopeType scopeId request _, stored =>
    if scopeExists catalog scopeType scopeId then
      stored.put (scopeType, scopeId, request.key) request.value
    else stored
  | .update scopeType scopeId key request _, stored =>
    match request.value with
    | none => stored
    | some value =>
      if scopeExists catalog scopeType scopeId ∧ (stored (scopeType, scopeId, key)).isSome then
        stored.put (scopeType, scopeId, key) value
      else stored
  | .loadSystemSecrets file _, stored =>
    ((file.map systemSecrets).getD []).foldl
      (fun found line => found.put (.system, systemId, line.1) (Utf8.ofText line.2)) stored

def storedAfter (history : History) : Stored :=
  history.foldl (fun stored entry => entry.2.store entry.1 stored) fun _ => none

/-- What the cipher promises: what was encrypted is decrypted, tags have 16 bytes, and the ciphertext
has the length of the plaintext. -/
structure Cipher.Lawful (cipher : Cipher) : Prop where
  deciphers : ∀ key iv plaintext, cipher.decipher key iv (cipher.encipher key iv plaintext) = some plaintext
  tagged : ∀ key iv plaintext, (cipher.encipher key iv plaintext).tag.length = 16
  sized : ∀ key iv plaintext, (cipher.encipher key iv plaintext).data.length = plaintext.length

def Encrypts (cipher : Cipher) (masterKey : Bytes) (value : CodePoints) (payload : Text) : Prop :=
  ∃ iv : Bytes, iv.length = 12 ∧ encrypt cipher (some masterKey) iv value = .ok payload

section

variable {cipher : Cipher} {masterKey : Bytes} {value : CodePoints} {payload : Text}

theorem splitOn_envelope {parts : List Text} (colonless : ∀ part ∈ parts, ':' ∉ part) (first : Text)
    (clean : ':' ∉ first) : (first ++ parts.flatMap fun part => ':' :: part).splitOn ':' = first :: parts := by
  induction parts generalizing first with
  | nil =>
    rw [flatMap_nil, append_nil]
    exact splitOn_eq_singleton clean
  | cons part rest ih =>
    rw [flatMap_cons, cons_append, splitOn_append_cons_self_of_not_mem clean]
    rw [ih (fun other member => colonless other (mem_cons_of_mem _ member)) part
      (colonless part mem_cons_self)]

theorem decrypt_encrypted (lawful : cipher.Lawful) (encrypts : Encrypts cipher masterKey value payload) :
    decrypt cipher (some masterKey) payload = if value = [] then .error (.badRequest "Invalid secret payload".toList)
      else .ok (Utf8.toWellFormed value) := by
  obtain ⟨iv, sized, isPayload⟩ := encrypts
  cases isPayload
  let result := cipher.encipher masterKey iv (Utf8.encode value)
  have colonless : ∀ part ∈ [encode iv, encode result.tag, encode result.data], ':' ∉ part := by
    intro part member
    simp only [mem_cons, not_mem_nil, or_false] at member
    rcases member with rfl | rfl | rfl
    · exact Base64.colon_not_mem_encode _
    · exact Base64.colon_not_mem_encode _
    · exact Base64.colon_not_mem_encode _
  have parts := splitOn_envelope colonless "v1".toList (by decide)
  have whole : "v1:".toList ++ encode iv ++ ':' :: encode result.tag ++ ':' :: encode result.data = "v1".toList ++
        [encode iv, encode result.tag, encode result.data].flatMap
          fun part => ':' :: part := by
    simp
  have ivThere : encode iv ≠ [] := by
    rw [ne_eq, encode_eq_nil]
    rintro rfl
    cases sized
  have tagThere : encode result.tag ≠ [] := by
    rw [ne_eq, encode_eq_nil]
    intro nothing
    have tagged := lawful.tagged masterKey iv (Utf8.encode value)
    change result.tag.length = 16 at tagged
    rw [nothing] at tagged
    cases tagged
  have dataThere : encode result.data = [] ↔ value = [] := by
    rw [encode_eq_nil, ← length_eq_zero_iff, lawful.sized, length_eq_zero_iff, Utf8.encode_eq_nil]
  change decrypt cipher (some masterKey) ("v1:".toList ++ encode iv ++
    ':' :: encode result.tag ++ ':' :: encode result.data) = _
  rw [decrypt, whole, parts]
  dsimp only
  by_cases empty : value = []
  · rw [if_pos (.inr (.inr (.inr (dataThere.mpr empty)))), if_pos empty]
  · have accepted : ¬ ("v1".toList ≠ "v1".toList ∨ encode iv = [] ∨
        encode result.tag = [] ∨ encode result.data = []) := by
      simp only [ne_eq, not_true_eq_false, ivThere, tagThere, dataThere, empty, or_self, not_false_eq_true]
    rw [if_neg accepted, if_neg empty, decode_encode, decode_encode, decode_encode]
    have deciphered : cipher.decipher masterKey iv ⟨result.tag, result.data⟩ = some (Utf8.encode value) :=
      lawful.deciphers masterKey iv _
    rw [deciphered]
    dsimp only
    rw [Utf8.decode_encode]

end

/-- Each row is an encryption of the value that is stored in its place, and there is a row for each
such place. -/
structure Holds (cipher : Cipher) (masterKey : Bytes) (table : SecretTable) (stored : Stored) : Prop where
  rows : ∀ row ∈ table.rows, ∃ value, stored row.place = some value ∧ Encrypts cipher masterKey value row.valueEncrypted
  places : ∀ place value, stored place = some value → ∃ row ∈ table.rows, row.place = place
  keyed : ∀ place value, stored place = some value → place.2.2 ≠ []

section

variable {cipher : Cipher} {masterKey : Bytes} {table : SecretTable} {stored : Stored} {catalog : Catalog}
  {scopeType : SecretScopeType} {scopeId key : Text} {value : CodePoints} {type : Option SecretType}
  {fresh : Fresh}

theorem holds_empty : Holds cipher masterKey Keyed.empty fun _ => none where
  rows _ member := absurd member not_mem_nil
  places _ _ found := nomatch found
  keyed _ _ found := nomatch found

theorem Stored.put_self (stored : Stored) (place : SecretScopeType × Text × Text)
    (value : CodePoints) : stored.put place value place = some value :=
  Function.update_self _ _ _

variable {place other : SecretScopeType × Text × Text}

theorem Stored.put_of_ne (different : other ≠ place) : stored.put place value other = stored other :=
  Function.update_of_ne different _ _

theorem Stored.put_eq_some {found : CodePoints} (isStored : stored.put place value other = some found) :
    found = value ∨ stored other = some found := by
  by_cases same : other = place
  · rw [same, Stored.put_self] at isStored
    exact .inl (Option.some.inj isStored).symm
  · rw [Stored.put_of_ne same] at isStored
    exact .inr isStored

section

variable (holds : Holds cipher masterKey table stored)
include holds

variable {changed : SecretTable}

theorem Holds.put (keyed : place.2.2 ≠ [])
    (rows : ∀ row ∈ changed.rows, row.place = place ∧ Encrypts cipher masterKey value row.valueEncrypted ∨
      row.place ≠ place ∧ row ∈ table.rows)
    (there : ∃ row ∈ changed.rows, row.place = place)
    (others : ∀ row ∈ table.rows, row.place ≠ place → row ∈ changed.rows) :
    Holds cipher masterKey changed (stored.put place value) := by
  constructor
  · intro row member
    rcases rows row member with ⟨same, encrypts⟩ | ⟨different, old⟩
    · exact ⟨value, by rw [same, Stored.put_self], encrypts⟩
    · rw [Stored.put_of_ne different]
      exact holds.rows row old
  · intro other found isStored
    by_cases same : other = place
    · rw [same]
      exact there
    · rw [Stored.put_of_ne same] at isStored
      obtain ⟨row, member, isPlace⟩ := holds.places other found isStored
      exact ⟨row, others row member (isPlace ▸ same), isPlace⟩
  · intro other found isStored
    by_cases same : other = place
    · rw [same]
      exact keyed
    · rw [Stored.put_of_ne same] at isStored
      exact holds.keyed other found isStored

variable {row : Secret}

theorem Holds.replace {payload : Text} (encrypts : Encrypts cipher masterKey value payload) (member : row ∈ table.rows)
    (isPlace : row.place = (scopeType, scopeId, key)) (now : Nat) :
    Holds cipher masterKey (updateByKey table scopeType scopeId key (some payload) type now).2
      (stored.put (scopeType, scopeId, key) value) := by
  obtain ⟨old, isOld, -⟩ := holds.rows row member
  rw [isPlace] at isOld
  have selected : (row.place == (scopeType, scopeId, key)) = true := beq_iff_eq.mpr isPlace
  refine holds.put (holds.keyed _ old isOld) (fun changed isChanged => ?_) ?_
    fun other isOther different => ?_
  · obtain ⟨found, present, cases⟩ := mem_updateWhere isChanged
    rcases cases with ⟨chosen, rfl⟩ | ⟨unchosen, rfl⟩
    · exact .inl ⟨beq_iff_eq.mp chosen, encrypts⟩
    · exact .inr ⟨fun same => by simp [same] at unchosen, present⟩
  · refine ⟨_, mem_map_of_mem member, ?_⟩
    dsimp only
    rw [if_pos selected]
    exact isPlace
  · refine mem_map.mpr ⟨other, isOther, ?_⟩
    rw [if_neg (by simpa using different)]

theorem Holds.insert (encrypts : Encrypts cipher masterKey value row.valueEncrypted) (keyed : row.key ≠ [])
    (absent : table.find row.place = none) :
    Holds cipher masterKey (table.insert row) (stored.put row.place value) := by
  have isFree : table.free row.place = true := by
    refine Keyed.free_iff.mpr fun old member same => ?_
    have found := Keyed.find_of_mem member
    rw [same, absent] at found
    cases found
  refine holds.put keyed (fun other member => ?_) ⟨row, ?_, rfl⟩ fun other member _ =>
    Keyed.mem_insert_of_mem member
  · rcases Keyed.mem_insert member with old | ⟨-, rfl⟩
    · exact .inr ⟨Keyed.free_iff.mp isFree other old, old⟩
    · exact .inl ⟨rfl, encrypts⟩
  · rw [Keyed.rows_insert, if_pos isFree]
    exact mem_append_right _ (mem_singleton_self row)

omit holds in
theorem exists_encrypt (cipher : Cipher) (masterKey : Bytes) (fresh : Fresh) (value : CodePoints) :
    ∃ payload, encrypt cipher (some masterKey) fresh.iv value = .ok payload ∧ Encrypts cipher masterKey value payload :=
  ⟨_, rfl, fresh.iv, fresh.sized, rfl⟩

omit holds in
theorem scopeExists_cases (catalog : Catalog) (scopeType : SecretScopeType) (scopeId : Text) :
    scopeExists catalog scopeType scopeId ∨ ∃ error, ensureScopeExists catalog scopeType scopeId = .error error := by
  cases found : ensureScopeExists catalog scopeType scopeId with
  | ok value => exact .inl found
  | error error => exact .inr ⟨error, rfl⟩

omit holds in
theorem not_scopeExists {error : SecretError} (missing : ensureScopeExists catalog scopeType scopeId = .error error) :
    ¬ scopeExists catalog scopeType scopeId :=
  fun found => nomatch missing.symm.trans found

omit holds in
theorem respond_snd (key : Text) (result : Option Secret × SecretTable) : (respond key result).2 = result.2 := by
  obtain ⟨_ | updated, changed⟩ := result
  · rfl
  · rfl

variable {α β : Type}

omit holds in
theorem orStop_ok (table : SecretTable) (given : α) (next : α → Except SecretError β × SecretTable) :
    orStop table (.ok given) next = next given := rfl

omit holds in
theorem orStop_error (table : SecretTable) (error : SecretError) (next : α → Except SecretError β × SecretTable) :
    orStop table (.error error) next = (.error error, table) := rfl

omit holds in
theorem ensureConfigured_some (masterKey : Bytes) : ensureConfigured (some masterKey) = .ok () := rfl

theorem create_holds (keyed : key ≠ []) :
    Holds cipher masterKey (create cipher (some masterKey) catalog scopeType scopeId key value type fresh table).2
      (if scopeExists catalog scopeType scopeId then stored.put (scopeType, scopeId, key) value else stored) := by
  rcases scopeExists_cases catalog scopeType scopeId with there | ⟨error, missing⟩
  · obtain ⟨payload, isPayload, encrypts⟩ := exists_encrypt cipher masterKey fresh value
    rw [if_pos there, create, ensureConfigured_some, orStop_ok, there, orStop_ok, isPayload, orStop_ok]
    cases found : findByScopeAndKey table scopeType scopeId key with
    | some existing =>
      obtain ⟨member, isPlace⟩ := Keyed.find_eq_some found
      have replaced : Holds cipher masterKey
          (updateByKey table scopeType scopeId key (some payload) (some (type.getD existing.type))
            fresh.now).2 (stored.put (scopeType, scopeId, key) value) :=
        holds.replace encrypts member isPlace fresh.now
      dsimp only
      rw [respond_snd]
      exact replaced
    | none => exact holds.insert encrypts keyed found
  · rw [if_neg (not_scopeExists missing), create, ensureConfigured_some, orStop_ok, missing, orStop_error]
    exact holds

omit holds in
theorem updateByKey_absent (absent : ∀ row ∈ table.rows, row.place ≠ (scopeType, scopeId, key))
    (valueEncrypted : Option Text) (now : Nat) :
    (updateByKey table scopeType scopeId key valueEncrypted type now).2.rows = table.rows := by
  change table.rows.map _ = _
  refine (map_congr_left fun row member => ?_).trans (map_id table.rows)
  exact if_neg (by simpa using absent row member)

omit holds in
theorem Holds.same (holds : Holds cipher masterKey table stored) (same : changed.rows = table.rows) :
    Holds cipher masterKey changed stored where
  rows row member := holds.rows row (same ▸ member)
  places place value found := same ▸ holds.places place value found
  keyed := holds.keyed

theorem Holds.retype (now : Nat) :
    Holds cipher masterKey (updateByKey table scopeType scopeId key none type now).2 stored where
  rows row member := by
    obtain ⟨old, present, cases⟩ := mem_updateWhere member
    rcases cases with ⟨-, rfl⟩ | ⟨-, rfl⟩
    · exact holds.rows old present
    · exact holds.rows row present
  places place value found := by
    obtain ⟨row, member, isPlace⟩ := holds.places place value found
    refine ⟨_, mem_updateWhere_of_mem member, ?_⟩
    split
    · exact isPlace
    · exact isPlace
  keyed := holds.keyed

theorem Holds.isSome_iff (place : SecretScopeType × Text × Text) :
    (stored place).isSome ↔ ∃ row ∈ table.rows, row.place = place := by
  constructor
  · intro found
    obtain ⟨value, isStored⟩ := Option.isSome_iff_exists.mp found
    exact holds.places place value isStored
  · intro there
    obtain ⟨row, member, isPlace⟩ := there
    obtain ⟨value, isStored, -⟩ := holds.rows row member
    rw [← isPlace, isStored]
    rfl

theorem update_holds (request : UpdateSecretRequest) : Holds cipher masterKey
      (update cipher (some masterKey) catalog scopeType scopeId key request.value request.type fresh table).2
      ((SecretOperation.update scopeType scopeId key request fresh).store catalog stored) := by
  obtain ⟨given, type, valued⟩ := request
  rcases scopeExists_cases catalog scopeType scopeId with there | ⟨error, missing⟩
  · rw [update, ensureConfigured_some, orStop_ok, there, orStop_ok, SecretOperation.store]
    cases given with
    | none =>
      cases type with
      | none => exact holds
      | some type =>
        change Holds cipher masterKey (respond key
          (updateByKey table scopeType scopeId key none (some type) fresh.now)).2 stored
        rw [respond_snd]
        exact holds.retype fresh.now
    | some value =>
      obtain ⟨payload, isPayload, encrypts⟩ := exists_encrypt cipher masterKey fresh value
      have isGiven : (some value).filter (· ≠ []) = some value := by simpa using valued value rfl
      have encrypted : (some value).mapM (encrypt cipher (some masterKey) fresh.iv) = .ok (some payload) := by
        change some <$> encrypt cipher (some masterKey) fresh.iv value = _
        rw [isPayload]
        rfl
      dsimp only
      rw [isGiven, if_neg (by simp), encrypted, orStop_ok, respond_snd]
      by_cases found : (stored (scopeType, scopeId, key)).isSome
      · rw [if_pos ⟨there, found⟩]
        obtain ⟨row, member, isPlace⟩ := (holds.isSome_iff _).mp found
        exact holds.replace encrypts member isPlace fresh.now
      · rw [if_neg fun both => found both.2]
        have absent : ∀ row ∈ table.rows, row.place ≠ (scopeType, scopeId, key) :=
          fun row member isPlace => found ((holds.isSome_iff _).mpr ⟨row, member, isPlace⟩)
        exact holds.same (updateByKey_absent absent _ _)
  · rw [update, ensureConfigured_some, orStop_ok, missing, orStop_error, SecretOperation.store]
    cases given with
    | none => exact holds
    | some value =>
      dsimp only
      rw [if_neg fun both => not_scopeExists missing both.1]
      exact holds

omit holds in
theorem parseLine_keyed {line key value : Text} (parsed : parseLine line = some (key, value)) : key ≠ [] := by
  rw [parseLine] at parsed
  dsimp only at parsed
  split at parsed
  · cases parsed
  · split at parsed
    · cases parsed
    · split at parsed
      · cases parsed
      · next there =>
          cases parsed
          exact there

omit holds in
theorem create_system (cipher : Cipher) (masterKey : Bytes) (catalog : Catalog) (key : Text)
    (value : CodePoints) (type : Option SecretType) (fresh : Fresh) (table : SecretTable) :
    ∃ response, (create cipher (some masterKey) catalog .system systemId key value type fresh table).1 =
      .ok response := by
  obtain ⟨payload, isPayload, -⟩ := exists_encrypt cipher masterKey fresh value
  rw [create, ensureConfigured_some, orStop_ok, ensureScopeExists, orStop_ok, isPayload, orStop_ok]
  cases found : findByScopeAndKey table .system systemId key with
  | some existing =>
    dsimp only [updateByKey]
    rw [show table.find (.system, systemId, key) = some existing from found]
    exact ⟨_, rfl⟩
  | none => exact ⟨_, rfl⟩

variable {reading : Nat → Fresh}

omit holds in
theorem loadLines_holds {lines : List (Text × Text)} (loadedCount : Nat) (holds : Holds cipher masterKey table stored)
    (keyed : ∀ line ∈ lines, line.1 ≠ []) :
    Holds cipher masterKey (loadLines cipher (some masterKey) catalog reading loadedCount lines table).2
      (lines.foldl (fun found line => found.put (.system, systemId, line.1) (Utf8.ofText line.2)) stored) := by
  induction lines generalizing table stored loadedCount with
  | nil => exact holds
  | cons line rest ih =>
    obtain ⟨key, value⟩ := line
    have created : Holds cipher masterKey
        (create cipher (some masterKey) catalog .system systemId key (Utf8.ofText value)
          (some .envVar) (reading loadedCount) table).2
        (stored.put (.system, systemId, key) (Utf8.ofText value)) :=
      create_holds holds (keyed (key, value) mem_cons_self)
    obtain ⟨response, isResponse⟩ := create_system cipher masterKey catalog key (Utf8.ofText value)
      (some .envVar) (reading loadedCount) table
    rw [loadLines]
    cases step : create cipher (some masterKey) catalog .system systemId key (Utf8.ofText value)
        (some .envVar) (reading loadedCount) table with
    | mk answer changed =>
      rw [step] at created isResponse
      cases isResponse
      exact ih (loadedCount + 1) created fun other member => keyed other (mem_cons_of_mem _ member)

theorem load_holds {file : Option Text} :
    Holds cipher masterKey (loadSystemSecrets cipher (some masterKey) catalog file reading table).2
      ((SecretOperation.loadSystemSecrets file reading).store catalog stored) := by
  cases file with
  | none => exact holds
  | some fileContent =>
    refine loadLines_holds 0 holds fun line member => ?_
    obtain ⟨text, -, parsed⟩ := mem_filterMap.mp member
    exact parseLine_keyed parsed

theorem run_holds (operation : SecretOperation) :
    Holds cipher masterKey (operation.run cipher masterKey catalog table) (operation.store catalog stored) := by
  cases operation with
  | create scopeType scopeId request fresh => exact create_holds holds request.keyed
  | update scopeType scopeId key request fresh => exact update_holds holds request
  | loadSystemSecrets file fresh => exact load_holds holds

end

end

theorem tableAfter_holds (cipher : Cipher) (masterKey : Bytes) (history : History) :
    Holds cipher masterKey (tableAfter cipher masterKey history) (storedAfter history) := by
  suffices whole : ∀ table stored, Holds cipher masterKey table stored → Holds cipher masterKey
        (history.foldl (fun table entry => entry.2.run cipher masterKey entry.1 table) table)
        (history.foldl (fun stored entry => entry.2.store entry.1 stored) stored) from
    whole _ _ holds_empty
  induction history with
  | nil => exact fun table stored holds => holds
  | cons entry rest ih => exact fun table stored holds => ih _ _ (run_holds holds entry.2)

end EveHorizon.Secrets
