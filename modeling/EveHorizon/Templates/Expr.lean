import EveHorizon.Library.Json

/-!
# Template expressions

The templates of workflow steps: literal text with references to the inputs of the
invocation and to the payload of the event that triggered it.
-/

namespace EveHorizon.Templates

open Json (Member)

inductive Head where
  | inputs
  | eventPayload

structure TemplateReference where
  head : Head
  path : List Text
  raw : Text

inductive Part where
  | literal (value : Text)
  | ref (reference : TemplateReference)

def looksTemplated : Text → Bool
  | [] => false
  | '$' :: '\x7b' :: _ => true
  | _ :: rest => looksTemplated rest

variable (char : Char)

def isAsciiLetter : Bool :=
  ('a' ≤ char && char ≤ 'z') || ('A' ≤ char && char ≤ 'Z')

def isIdentStart : Bool := isAsciiLetter char || char == '_'

def isIdentPart : Bool := isIdentStart char || char.isDigit || char == '-'

def isIdent : Text → Bool
  | [] => false
  | first :: rest => isIdentStart first && rest.all isIdentPart

variable (body : Text)

def quoted : Text := '\x60' :: body ++ ['\x60']

def checkSegments (body : Text) : List Text → Except Text Unit
  | [] => .ok ()
  | segment :: rest =>
    if segment = [] then .error ("Empty path segment in ".toList ++ quoted body)
    else if isIdent segment then checkSegments body rest
    else .error ("Invalid path segment ".toList ++ quoted segment ++ " in ".toList ++
      quoted body ++ " (letters, digits, underscores, hyphens only)".toList)

def splitHead : Option (Head × Text) :=
  if body = "inputs".toList ∨ Text.startsWith "inputs.".toList body then
    some (.inputs, body.drop "inputs".length)
  else if body = "event.payload".toList ∨ Text.startsWith "event.payload.".toList body then
    some (.eventPayload, body.drop "event.payload".length)
  else none

def parsePath (rest : Text) : Except Text (List Text) :=
  if rest = [] then .ok []
  else do
    let segments := rest.tail.splitOn '.'
    checkSegments body segments
    return segments

def parseReference : Except Text TemplateReference :=
  if body = [] then .error ("Empty ".toList ++ quoted ['$', '\x7b', '\x7d'] ++ " expression".toList)
  else
    match splitHead body with
    | none => .error ("Unsupported expression head in ".toList ++ quoted body ++
        ". Only ".toList ++ quoted "inputs.<key>".toList ++ " and ".toList ++
        quoted "event.payload.<path>".toList ++ " are allowed.".toList)
    | some (head, rest) => do
      let path ← parsePath body rest
      match head with
      | .inputs =>
        if path.length ≠ 1 then
          .error (quoted "inputs.<key>".toList ++ " expects exactly one key, got ".toList ++ quoted body)
        else return { head := head, path := path, raw := body }
      | .eventPayload =>
        if path.length = 0 then
          .error (quoted "event.payload.<path>".toList ++ " requires at least one path segment".toList)
        else return { head := head, path := path, raw := body }

def literalPart (buffer : Text) : List Part :=
  if buffer = [] then [] else [.literal buffer]

/-- Where the scan is: in literal text, or in a reference that is still open. -/
inductive Reading where
  | literal (buffer : Text)
  | reference (body : Text)

def readParts : Reading → Text → Except Text (List Part)
  | .literal buffer, [] => .ok (literalPart buffer)
  | .literal buffer, '\\' :: '$' :: rest => readParts (.literal (buffer ++ ['$'])) rest
  | .literal buffer, '$' :: '\x7b' :: rest => do
    let parts ← readParts (.reference []) rest
    return literalPart buffer ++ parts
  | .literal buffer, char :: rest => readParts (.literal (buffer ++ [char])) rest
  | .reference _, [] => .error ("Unterminated ".toList ++ quoted ['$', '\x7b'] ++ " in template".toList)
  | .reference body, char :: rest =>
    if char = '\x7d' then do
      let reference ← parseReference (Text.trim body)
      let parts ← readParts (.literal []) rest
      return .ref reference :: parts
    else readParts (.reference (body ++ [char])) rest

/-- Splits a template into literal text and references, or says what is wrong with one. -/
def parseTemplate (input : Text) : Except Text (List Part) := readParts (.literal []) input

def references (parts : List Part) : List TemplateReference :=
  parts.filterMap fun
    | .literal _ => none
    | .ref reference => some reference

structure EvaluateScope where
  inputs : List (Text × Member) := []
  eventPayload : Member := .undefined

structure EvaluateResult where
  value : Option Text
  missing : List TemplateReference
  nonScalar : List TemplateReference

def lookupPath (root : Member) (path : List Text) : Member :=
  path.foldl (fun current segment => current.get segment) root

variable (scope : EvaluateScope)

/-- An input that is not there is looked up among the inherited members. -/
def EvaluateScope.input (name : Text) : Member :=
  match scope.inputs.lookup name with
  | some value => value
  | none => Json.objectInherits name

def resolveRef (reference : TemplateReference) (scope : EvaluateScope) : Member :=
  match reference.head with
  | .inputs => (reference.path.head?.map scope.input).getD .undefined
  | .eventPayload => lookupPath scope.eventPayload reference.path

def evaluatePart (result : Text × EvaluateResult) : Part → Text × EvaluateResult
  | .literal value => (result.1 ++ value, result.2)
  | .ref reference =>
    let resolved := resolveRef reference scope
    if resolved.missing then
      (result.1, { result.2 with missing := result.2.missing ++ [reference] })
    else
      match resolved.scalar? with
      | none => (result.1, { result.2 with nonScalar := result.2.nonScalar ++ [reference] })
      | some text => (result.1 ++ text, result.2)

/-- The text, unless references are missing or no scalars, which are then listed. -/
def evaluateTemplate (template : Text) (scope : EvaluateScope) : Except Text EvaluateResult := do
  let parts ← parseTemplate template
  if references parts = [] then
    return { value := some template, missing := [], nonScalar := [] }
  else
    let (out, found) := parts.foldl (evaluatePart scope)
      ([], { value := none, missing := [], nonScalar := [] })
    if found.missing ≠ [] ∨ found.nonScalar ≠ [] then return { found with value := none }
    else return { found with value := some out }

/-- A value with the references in it that could not be resolved, and where they are. -/
structure Interpolated (α : Type) where
  value : α
  missing : List (Text × TemplateReference) := []
  nonScalar : List (Text × TemplateReference) := []

def interpolateText (path text : Text) : Except Text (Interpolated Text) :=
  if looksTemplated text then do
    let result ← evaluateTemplate text scope
    return { value := result.value.getD text
             missing := result.missing.map fun reference => (path, reference)
             nonScalar := result.nonScalar.map fun reference => (path, reference) }
  else return { value := text }

def memberPath (path name : Text) : Text :=
  if path = [] then name else path ++ ['.'] ++ name

def itemPath (path : Text) (index : Nat) : Text := path ++ ['['] ++ (toString index).toList ++ [']']

mutual

/-- Every text inside a JSON value, each with its path. -/
def interpolateValue (scope : EvaluateScope) (path : Text) : Json → Except Text (Interpolated Json)
  | .string text => do
    let result ← interpolateText scope path text
    return { value := .string result.value, missing := result.missing
             nonScalar := result.nonScalar }
  | .array items => do
    let result ← interpolateItems scope path 0 items
    return { value := .array result.value, missing := result.missing
             nonScalar := result.nonScalar }
  | .object members => do
    let result ← interpolateMembers scope path members
    return { value := .object (result.value.filter fun entry => entry.1 ≠ "__proto__".toList)
             missing := result.missing
             nonScalar := result.nonScalar }
  | .null => .ok { value := .null }
  | .bool value => .ok { value := .bool value }
  | .number numeral => .ok { value := .number numeral }

def interpolateItems (scope : EvaluateScope) (path : Text) (index : Nat) :
    List Json → Except Text (Interpolated (List Json))
  | [] => .ok { value := [] }
  | item :: rest => do
    let first ← interpolateValue scope (itemPath path index) item
    let later ← interpolateItems scope path (index + 1) rest
    return { value := first.value :: later.value
             missing := first.missing ++ later.missing
             nonScalar := first.nonScalar ++ later.nonScalar }

def interpolateMembers (scope : EvaluateScope) (path : Text) :
    List (Text × Json) → Except Text (Interpolated (List (Text × Json)))
  | [] => .ok { value := [] }
  | (name, value) :: rest => do
    let first ← interpolateValue scope (memberPath path name) value
    let later ← interpolateMembers scope path rest
    return { value := (name, first.value) :: later.value
             missing := first.missing ++ later.missing
             nonScalar := first.nonScalar ++ later.nonScalar }

end

structure WorkflowInputDeclaration where
  source : Option Text := none
  default : Option Json := none

def lookupFromPath (source : Text) (eventPayload : Member) : Member :=
  if source = "event.payload".toList then eventPayload
  else if Text.startsWith "event.payload.".toList source then
    lookupPath eventPayload ((source.drop "event.payload.".length).splitOn '.')
  else .undefined

def providedInput (provided : List (Text × Json)) (name : Text) : Member :=
  (Member.json (.object provided)).get name

def inputValue (provided : List (Text × Json)) (eventPayload : Member) (name : Text)
    (declaration : Option WorkflowInputDeclaration) : Member :=
  match providedInput provided name with
  | .undefined =>
    match declaration with
    | none => .undefined
    | some declaration =>
      match (declaration.source.map fun source => lookupFromPath source eventPayload).getD
          .undefined with
      | .undefined => (declaration.default.map Member.json).getD .undefined
      | resolved => resolved
  | value => value

/-- An input is what was provided, else what its source gives, else its default. -/
def buildWorkflowInputsScope (declared : List (Text × WorkflowInputDeclaration))
    (provided : List (Text × Json)) (eventPayload : Member) : List (Text × Member) :=
  ((declared.map Prod.fst ++ provided.map Prod.fst).dedup.map fun name =>
    (name, inputValue provided eventPayload name (declared.lookup name))).filter fun entry =>
      match entry.2 with
      | .undefined => false
      | _ => true

end EveHorizon.Templates
