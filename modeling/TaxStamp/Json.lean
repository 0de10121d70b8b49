import Mathlib.Data.List.Sort
import TaxStamp.Errors

/-!
# JSON documents and their canonical bytes

Documents are kept with the field order in which they were built. The canonical text
sorts the fields of every object by code point, uses fixed separators, escapes everything
outside ASCII and refuses floats, so it depends on the document's value alone.
-/

namespace TaxStamp

/-- A JSON value as Python holds it. A float keeps only its printed text. -/
inductive Json
  | null
  | bool (value : Bool)
  | int (value : ℤ)
  | float (text : String)
  | str (value : String)
  | arr (items : List Json)
  | obj (fields : List (String × Json))

/-- A JSON object. -/
abbrev JsonObject := List (String × Json)

/-- A byte string. -/
abbrev Bytes := List UInt8

/-- The value stored under a key, `null` when there is none, as `dict.get` returns it. -/
def JsonObject.getD (document : JsonObject) (key : String) : Json :=
  (document.lookup key).getD .null

/-- A required text field. -/
def requireStr (document : JsonObject) (key : String) : Except Fault String :=
  match document.getD key with
  | .str value => .ok value
  | _ => .error (.valueError s!"field {pyRepr key} must be a string")

/-- A required integer field; booleans are not integers here. -/
def requireInt (document : JsonObject) (key : String) : Except Fault ℤ :=
  match document.getD key with
  | .int value => .ok value
  | _ => .error (.valueError s!"field {pyRepr key} must be an integer")

/-- A required boolean field. -/
def requireBool (document : JsonObject) (key : String) : Except Fault Bool :=
  match document.getD key with
  | .bool value => .ok value
  | _ => .error (.valueError s!"field {pyRepr key} must be a boolean")

/-- A text field that may be absent or null. -/
def optionalStr (document : JsonObject) (key : String) : Except Fault (Option String) :=
  match document.getD key with
  | .null => .ok none
  | .str value => .ok (some value)
  | _ => .error (.valueError s!"field {pyRepr key} must be a string when present")

/-- An optional text as a JSON value. -/
def Json.ofOption : Option String → Json
  | none => .null
  | some value => .str value

mutual

/-- Whether some value at any depth satisfies the predicate; a key counts as a text. -/
def Json.occurs (p : Json → Bool) : Json → Bool
  | .arr items => p (.arr items) || Json.occursItem p items
  | .obj fields => p (.obj fields) || Json.occursField p fields
  | value => p value

/-- Whether some value inside an array's items satisfies the predicate. -/
def Json.occursItem (p : Json → Bool) : List Json → Bool
  | [] => false
  | item :: rest => item.occurs p || Json.occursItem p rest

/-- Whether some key or value inside an object's fields satisfies the predicate. -/
def Json.occursField (p : Json → Bool) : List (String × Json) → Bool
  | [] => false
  | (key, item) :: rest => p (.str key) || item.occurs p || Json.occursField p rest

end

/-- A float. -/
def Json.isFloat : Json → Bool
  | .float _ => true
  | _ => false

/-- A text that holds the NUL character, which PostgreSQL stores nowhere. -/
def Json.isNulText : Json → Bool
  | .str value => '\x00' ∈ value.toList
  | _ => false

mutual

/-- How many levels deep a document is, with the levels that a value inside no further one counts for. -/
def Json.depth (leaf : ℕ) : Json → ℕ
  | .arr items => Json.depthItems leaf items + 1
  | .obj fields => Json.depthFields leaf fields + 1
  | _ => leaf

/-- The deepest level among an array's items. -/
def Json.depthItems (leaf : ℕ) : List Json → ℕ
  | [] => 0
  | item :: rest => max (item.depth leaf) (Json.depthItems leaf rest)

/-- The deepest level among an object's values. -/
def Json.depthFields (leaf : ℕ) : List (String × Json) → ℕ
  | [] => 0
  | (_, item) :: rest => max (item.depth leaf) (Json.depthFields leaf rest)

end

mutual

/-- `_reject_floats` with the number of calls the interpreter's recursion limit leaves it. -/
def Json.rejectFloats : ℕ → Json → Except Fault Unit
  | 0, _ => .error .recursionError
  | _ + 1, .float _ => .error (.canonicalisationError "floating point values cannot be canonicalised")
  | limit + 1, .arr items => Json.rejectFloatItems limit items
  | limit + 1, .obj fields => Json.rejectFloatFields limit fields
  | _ + 1, _ => .ok ()

/-- The walk through an array's items. -/
def Json.rejectFloatItems : ℕ → List Json → Except Fault Unit
  | _, [] => .ok ()
  | limit, item :: rest => do
    Json.rejectFloats limit item
    Json.rejectFloatItems limit rest

/-- The walk through an object's values. -/
def Json.rejectFloatFields : ℕ → List (String × Json) → Except Fault Unit
  | _, [] => .ok ()
  | limit, (_, item) :: rest => do
    Json.rejectFloats limit item
    Json.rejectFloatFields limit rest

end

/-- Four hexadecimal digits. -/
def hexFour (n : ℕ) : List Char :=
  [n / 4096 % 16, n / 256 % 16, n / 16 % 16, n % 16].map Nat.digitChar

/-- The escape of one character in an ASCII JSON string; beyond the basic plane, as a
surrogate pair. -/
def escapeChar (c : Char) : List Char :=
  if c = '"' then ['\\', '"']
  else if c = '\\' then ['\\', '\\']
  else if c = '\n' then ['\\', 'n']
  else if c = '\r' then ['\\', 'r']
  else if c = '\t' then ['\\', 't']
  else if c = '\x08' then ['\\', 'b']
  else if c = '\x0c' then ['\\', 'f']
  else if 32 ≤ c.toNat ∧ c.toNat < 127 then [c]
  else if c.toNat < 65536 then ['\\', 'u'] ++ hexFour c.toNat
  else ['\\', 'u'] ++ hexFour (55296 + (c.toNat - 65536) / 1024) ++
    ['\\', 'u'] ++ hexFour (56320 + (c.toNat - 65536) % 1024)

/-- A quoted JSON string. -/
def dumpsStr (text : String) : List Char := '"' :: text.toList.flatMap escapeChar ++ ['"']

/-- Code point order on texts. -/
def codePointsLe : List Char → List Char → Bool
  | [], _ => true
  | _ :: _, [] => false
  | a :: as, b :: bs => a.toNat < b.toNat || a.toNat = b.toNat && codePointsLe as bs

/-- The printed fields of an object in key order. -/
def sortFields (fields : List (String × List Char)) : List (String × List Char) :=
  fields.insertionSort fun a b => codePointsLe a.1.toList b.1.toList

/-- Join printed parts with commas. -/
def joinCommas : List (List Char) → List Char
  | [] => []
  | [part] => part
  | part :: rest => part ++ ',' :: joinCommas rest

mutual

/-- `json.dumps` with sorted keys, tight separators and ASCII output. -/
def Json.dumps : Json → List Char
  | .null => "null".toList
  | .bool true => "true".toList
  | .bool false => "false".toList
  | .int value => (toString value).toList
  | .float text => text.toList
  | .str value => dumpsStr value
  | .arr items => '[' :: joinCommas (Json.dumpsItems items) ++ [']']
  | .obj fields =>
    '{' :: joinCommas ((sortFields (Json.dumpsFields fields)).map fun field =>
      dumpsStr field.1 ++ ':' :: field.2) ++ ['}']

/-- Print every item of an array. -/
def Json.dumpsItems : List Json → List (List Char)
  | [] => []
  | item :: rest => item.dumps :: Json.dumpsItems rest

/-- Print the value of every field of an object. -/
def Json.dumpsFields : List (String × Json) → List (String × List Char)
  | [] => []
  | (key, item) :: rest => (key, item.dumps) :: Json.dumpsFields rest

end

/-- The bytes of an ASCII text. -/
def asciiBytes (text : List Char) : Bytes := text.map fun c => UInt8.ofNat c.toNat

/-- The canonical bytes of a document, refused when it holds a float. -/
def canonicalBytes (document : JsonObject) : Except Fault Bytes :=
  if (Json.obj document).occurs Json.isFloat then
    .error (.canonicalisationError "floating point values cannot be canonicalised")
  else .ok (asciiBytes (Json.obj document).dumps)

/-- The lower-case hexadecimal text of a digest. -/
def hexText (digest : Bytes) : String :=
  String.ofList (digest.flatMap fun byte => [byte.toNat / 16, byte.toNat % 16].map Nat.digitChar)

end TaxStamp
