import EveHorizon.Library.Decimal
import EveHorizon.Library.Json

/-!
# Signed tokens

Tokens in three segments, signed with a key of the ring (RS256) or with a shared secret
(HS256).
-/

namespace EveHorizon.Auth

inductive Failure where
  | unauthorized (message : String)
  | fault (message : String)

/-- What verification takes from its runtime: segments of Base64url and JSON, signatures, and
numbers, which are rounded when they are computed and when they are read. -/
structure Runtime (PublicKey PrivateKey : Type) where
  decode : Text → Option Json
  encode : Json → Text
  verifies : PublicKey → Text → Text → Bool
  sign : PrivateKey → Text → Text
  hmac : Text → Text → Text
  round : ℚ → ℚ
  numeral : ℚ → Text

structure KeyEntry (PublicKey PrivateKey : Type) where
  kid : Text
  publicKey : PublicKey
  privateKey : Option PrivateKey := none

/-- A member of a value that is not null. Of the members that the texts have, one has the name
of a claim. -/
def field (value : Json) (name : String) : Json.Member :=
  match value with
  | .string _ => if name = "sub" then .function "sub".toList else .undefined
  | value => (Json.Member.json value).get name.toList

def string? : Json.Member → Option Text
  | .json (.string text) => some text
  | _ => none

def isNumber : Json.Member → Bool
  | .json (.number _) => true
  | _ => false

def strings? : Json.Member → Option (List Text)
  | .json (.array items) => items.mapM fun item => string? (.json item)
  | _ => none

section

variable {PublicKey PrivateKey : Type} (runtime : Runtime PublicKey PrivateKey)

namespace Runtime

def read (numeral : Text) : Option ℚ := (Decimal.signed numeral).map runtime.round

def truthy : Json.Member → Bool
  | .undefined | .json .null => false
  | .json (.bool value) => value
  | .json (.number numeral) => runtime.read numeral ≠ some 0
  | .json (.string text) => !text.isEmpty
  | _ => true

end Runtime

def segments (token : Text) : Option (Text × Text × Text) :=
  match token.splitOn '.' with
  | [encodedHeader, encodedPayload, encodedSignature] =>
    some (encodedHeader, encodedPayload, encodedSignature)
  | _ => none

def signingInput (encodedHeader encodedPayload : Text) : Text := encodedHeader ++ '.' :: encodedPayload

def createJwtRs256 (payload : Json) (kid : Text) (privateKey : PrivateKey) : Text :=
  let header := Json.object
    [("alg".toList, .string "RS256".toList), ("typ".toList, .string "JWT".toList), ("kid".toList, .string kid)]
  let input := signingInput (runtime.encode header) (runtime.encode payload)
  input ++ '.' :: runtime.sign privateKey input

def decodeJwtPayload (token : Text) : Option Json :=
  (segments token).bind fun (_, encodedPayload, _) => runtime.decode encodedPayload

def decodeJwtSegment (segment : Text) (errorMessage : String) : Except Failure Json :=
  match runtime.decode segment with
  | some value => .ok value
  | none => .error (.unauthorized errorMessage)

def alg (header : Json) : Option Text := string? (field header "alg")

variable (now : Nat)

def expired (payload : Json) : Bool :=
  match field payload "exp" with
  | .json (.number numeral) => (runtime.read numeral).any (· < (now : ℚ))
  | _ => false

def notActive (payload : Json) : Bool :=
  match field payload "nbf" with
  | .json (.number numeral) => (runtime.read numeral).any ((now : ℚ) < ·)
  | _ => false

def isNull : Json → Bool
  | .null => true
  | _ => false

def checkedPayload (encodedPayload : Text) : Except Failure Json :=
  match decodeJwtSegment runtime encodedPayload "Invalid token payload" with
  | .error failure => .error failure
  | .ok payload =>
    if isNull payload then .error (.fault "Cannot read properties of null")
    else if expired runtime now payload then .error (.unauthorized "Token expired")
    else if notActive runtime now payload then .error (.unauthorized "Token not active")
    else .ok payload

def candidates (header : Json) (keys : List (KeyEntry PublicKey PrivateKey)) : List (KeyEntry PublicKey PrivateKey) :=
  if runtime.truthy (field header "kid") then
    keys.filter fun key => string? (field header "kid") == some key.kid
  else keys

def verifyJwtRs256 (token : Text) (keys : List (KeyEntry PublicKey PrivateKey)) : Except Failure Json :=
  match segments token with
  | none => .error (.unauthorized "Invalid token format")
  | some (encodedHeader, encodedPayload, encodedSignature) =>
    match decodeJwtSegment runtime encodedHeader "Invalid token header" with
    | .error failure => .error failure
    | .ok header =>
      if isNull header then .error (.fault "Cannot read properties of null")
      else if alg header ≠ some "RS256".toList then
        .error (.unauthorized "Unsupported token algorithm")
      else if (candidates runtime header keys).isEmpty then
        .error (.unauthorized "No matching key for token")
      else if !(candidates runtime header keys).any (fun candidate =>
          runtime.verifies candidate.publicKey (signingInput encodedHeader encodedPayload) encodedSignature) then
        .error (.unauthorized "Invalid token signature")
      else checkedPayload runtime now encodedPayload

/-- Texts of one length in UTF-16 units are compared byte by byte, which fails for byte lists of
different lengths. -/
def safeEqual (left right : Text) : Except Failure Bool :=
  if Text.unitLength left ≠ Text.unitLength right then .ok false
  else if (String.ofList left).utf8ByteSize ≠ (String.ofList right).utf8ByteSize then
    .error (.fault "Input buffers must have the same byte length")
  else .ok (left == right)

def verifyJwtHs256 (token secret : Text) : Except Failure Json :=
  match segments token with
  | none => .error (.unauthorized "Invalid token format")
  | some (encodedHeader, encodedPayload, encodedSignature) =>
    match decodeJwtSegment runtime encodedHeader "Invalid token header" with
    | .error failure => .error failure
    | .ok header =>
      if isNull header then .error (.fault "Cannot read properties of null")
      else if alg header ≠ some "HS256".toList then
        .error (.unauthorized "Unsupported token algorithm")
      else
        match safeEqual encodedSignature
            (runtime.hmac secret (signingInput encodedHeader encodedPayload)) with
        | .error failure => .error failure
        | .ok false => .error (.unauthorized "Invalid token signature")
        | .ok true => checkedPayload runtime now encodedPayload

/-- The token has this payload under a header with this algorithm, and its first two segments
carry the mark. -/
def Carries (algorithm : String) (Mark : Text → Prop) (token : Text) (payload : Json) : Prop :=
  ∃ encodedHeader encodedPayload encodedSignature header,
    segments token = some (encodedHeader, encodedPayload, encodedSignature) ∧
    runtime.decode encodedHeader = some header ∧ alg header = some algorithm.toList ∧
    runtime.decode encodedPayload = some payload ∧ Mark (signingInput encodedHeader encodedPayload)

variable {runtime}

theorem decodeJwtSegment_eq_ok {segment : Text} {message : String} {value : Json} :
    decodeJwtSegment runtime segment message = .ok value ↔ runtime.decode segment = some value := by
  unfold decodeJwtSegment
  split
  · next found => simp [found]
  · next missing => simp [missing]

variable {now : Nat} {payload : Json}

theorem checkedPayload_eq_ok {encodedPayload : Text} : checkedPayload runtime now encodedPayload = .ok payload ↔
      runtime.decode encodedPayload = some payload ∧ isNull payload = false ∧
        expired runtime now payload = false ∧ notActive runtime now payload = false := by
  unfold checkedPayload decodeJwtSegment
  cases found : runtime.decode encodedPayload with
  | none => simp
  | some decoded =>
    dsimp only
    constructor
    · intro checked
      split at checked
      · cases checked
      · next present =>
          split at checked
          · cases checked
          · next valid =>
              split at checked
              · cases checked
              · next active =>
                  cases checked
                  exact ⟨rfl, by simpa using present, by simpa using valid, by simpa using active⟩
    · rintro ⟨same, present, valid, active⟩
      cases same
      rw [if_neg (by simp [present]), if_neg (by simp [valid]), if_neg (by simp [active])]

variable {token : Text} {keys : List (KeyEntry PublicKey PrivateKey)}

theorem verifyJwtRs256_eq_ok :
    verifyJwtRs256 runtime now token keys = .ok payload ↔ ∃ encodedHeader encodedPayload encodedSignature header,
        segments token = some (encodedHeader, encodedPayload, encodedSignature) ∧
        runtime.decode encodedHeader = some header ∧ isNull header = false ∧ alg header = some "RS256".toList ∧
        (∃ key ∈ candidates runtime header keys, runtime.verifies key.publicKey
          (signingInput encodedHeader encodedPayload) encodedSignature = true) ∧
        checkedPayload runtime now encodedPayload = .ok payload := by
  unfold verifyJwtRs256
  split
  · next malformed => simp [malformed]
  · next encodedHeader encodedPayload encodedSignature parts =>
      rw [parts]
      constructor
      · intro accepted
        split at accepted
        · cases accepted
        · next header read =>
            split at accepted
            · cases accepted
            · next present =>
                split at accepted
                · cases accepted
                · next algorithm =>
                    split at accepted
                    · cases accepted
                    · split at accepted
                      · cases accepted
                      · next signed =>
                          simp only [Bool.not_eq_true', Bool.not_eq_false, List.any_eq_true] at signed
                          exact ⟨_, _, _, header, rfl, decodeJwtSegment_eq_ok.mp read,
                            by simpa using present, by simpa using algorithm, signed, accepted⟩
      · rintro ⟨_, _, _, header, same, read, present, algorithm, signed, accepted⟩
        cases same
        have found : decodeJwtSegment runtime encodedHeader "Invalid token header" = .ok header :=
          decodeJwtSegment_eq_ok.mpr read
        obtain ⟨key, member, verified⟩ := signed
        have some : (candidates runtime header keys).isEmpty = false := by
          rw [List.isEmpty_eq_false_iff]
          exact List.ne_nil_of_mem member
        have any : (candidates runtime header keys).any (fun candidate =>
            runtime.verifies candidate.publicKey (signingInput encodedHeader encodedPayload) encodedSignature) = true :=
          List.any_eq_true.mpr ⟨key, member, verified⟩
        rw [found]
        dsimp only
        rw [if_neg (by simp [present]), if_neg (by simp [algorithm]), if_neg (by simp [some]), if_neg (by simp [any])]
        exact accepted

theorem candidates_subset (header : Json) (keys : List (KeyEntry PublicKey PrivateKey)) :
    candidates runtime header keys ⊆ keys := by
  unfold candidates
  split
  · exact List.filter_subset_self _
  · exact List.Subset.refl _

theorem carries_of_verifyJwtRs256 {Signed : PublicKey → Text → Prop}
    (unforgeable : ∀ key ∈ keys, ∀ input signature, runtime.verifies key.publicKey input signature = true →
      Signed key.publicKey input)
    (verified : verifyJwtRs256 runtime now token keys = .ok payload) :
    Carries runtime "RS256" (fun input => ∃ key ∈ keys, Signed key.publicKey input) token payload := by
  obtain ⟨encodedHeader, encodedPayload, encodedSignature, header, parts, read, -, algorithm,
    ⟨key, member, signed⟩, checked⟩ := verifyJwtRs256_eq_ok.mp verified
  exact ⟨encodedHeader, encodedPayload, encodedSignature, header, parts, read, algorithm,
    (checkedPayload_eq_ok.mp checked).1, key, candidates_subset header keys member,
    unforgeable key (candidates_subset header keys member) _ _ signed⟩

theorem decodeJwtPayload_of_carries {algorithm : String} {Mark : Text → Prop}
    (carries : Carries runtime algorithm Mark token payload) : decodeJwtPayload runtime token = some payload := by
  obtain ⟨_, _, _, _, parts, _, _, read, _⟩ := carries
  simp [decodeJwtPayload, parts, read]

theorem algorithm_unique {first second : String} {Mark Mark' : Text → Prop} {payload' : Json}
    (carries : Carries runtime first Mark token payload)
    (carries' : Carries runtime second Mark' token payload') : first.toList = second.toList := by
  obtain ⟨_, _, _, header, parts, read, algorithm, _⟩ := carries
  obtain ⟨_, _, _, header', parts', read', algorithm', _⟩ := carries'
  cases parts.symm.trans parts'
  cases read.symm.trans read'
  exact Option.some.inj (algorithm.symm.trans algorithm')

end

end EveHorizon.Auth
