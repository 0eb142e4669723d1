import EveHorizon.Library.Text

/-!
# JSON values

JSON values and what a program reads from them: members of objects and arrays, those that
every object inherits included, and the text a scalar is printed as. A number is kept as
the text it is printed as.
-/

namespace EveHorizon

inductive Json where
  | null
  | bool (value : Bool)
  | number (numeral : Text)
  | string (text : Text)
  | array (items : List Json)
  | object (members : List (Text × Json))

namespace Json

inductive Member where
  | undefined
  | json (value : Json)
  | function (name : Text)
  | objectPrototype
  | arrayPrototype

def objectFunctions : List Text :=
  ["hasOwnProperty", "isPrototypeOf", "propertyIsEnumerable", "toLocaleString", "toString",
    "valueOf", "__defineGetter__", "__defineSetter__", "__lookupGetter__", "__lookupSetter__"].map String.toList

def arrayFunctions : List Text :=
  ["at", "concat", "copyWithin", "entries", "every", "fill", "filter", "find", "findIndex",
    "findLast", "findLastIndex", "flat", "flatMap", "forEach", "includes", "indexOf", "join",
    "keys", "lastIndexOf", "map", "pop", "push", "reduce", "reduceRight", "reverse", "shift",
    "slice", "some", "sort", "splice", "toLocaleString", "toReversed", "toSorted", "toSpliced",
    "toString", "unshift", "values", "with"].map String.toList

variable (name : Text)

def objectPrototypeMember : Member :=
  if name = "constructor".toList then .function "Object".toList
  else if name = "__proto__".toList then .json .null
  else if objectFunctions.contains name then .function name
  else .undefined

def objectInherits : Member :=
  if name = "__proto__".toList then .objectPrototype else objectPrototypeMember name

def arrayPrototypeMember : Member :=
  if name = "constructor".toList then .function "Array".toList
  else if name = "length".toList then .json (.number ['0'])
  else if arrayFunctions.contains name then .function name
  else objectInherits name

def arrayInherits : Member :=
  if name = "__proto__".toList then .arrayPrototype else arrayPrototypeMember name

def index? (name : Text) : Option Nat :=
  if name.all Char.isDigit ∧ (name = ['0'] ∨ name.head?.any (· ≠ '0')) then
    some (name.foldl (fun value digit => 10 * value + (digit.toNat - '0'.toNat)) 0)
  else none

def Member.get (name : Text) : Member → Member
  | .json (.object members) =>
    match members.lookup name with
    | some value => .json value
    | none => objectInherits name
  | .json (.array items) =>
    if name = "length".toList then .json (.number (toString items.length).toList)
    else
      match index? name with
      | some index => (items[index]?.map Member.json).getD .undefined
      | none => arrayInherits name
  | .objectPrototype => objectPrototypeMember name
  | .arrayPrototype => arrayPrototypeMember name
  | _ => .undefined

def Member.scalar? : Member → Option Text
  | .json (.bool value) => some (toString value).toList
  | .json (.number numeral) => some numeral
  | .json (.string text) => some text
  | .function name => some ("function ".toList ++ name ++ "() \x7b [native code] \x7d".toList)
  | _ => none

def Member.missing : Member → Bool
  | .undefined => true
  | .json .null => true
  | _ => false

def Member.orElse (left right : Member) : Member := if left.missing then right else left

def Member.isTruthy : Member → Bool
  | .undefined | .json .null | .json (.bool false) => false
  | .json (.string text) => text ≠ []
  | .json (.number numeral) => numeral ≠ ['0'] ∧ numeral ≠ "-0".toList ∧ numeral ≠ "NaN".toList
  | _ => true

end Json

end EveHorizon
