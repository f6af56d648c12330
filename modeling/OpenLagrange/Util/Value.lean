/-
The values a Planfile and a capability exchange, and their canonical text.

`Value` is what the source types `unknown`: JSON data together with `undefined`,
which template resolution can put into an array or an object.  A number is kept as
the text JavaScript prints for it, which determines the number.  `native` is a
member every object inherits, reached when a name that is looked up happens to be
`constructor`, `toString` and the like.

An object is the list of its properties in enumeration order, each name once.
-/
import Mathlib

namespace OpenLagrange

inductive Value where
  | undefined
  | null
  | bool (b : Bool)
  | num (text : String)
  | str (s : String)
  | arr (items : List Value)
  | obj (fields : List (String × Value))
  | native (name : String)
  deriving Repr, Inhabited

namespace Value

/-- The names every object inherits. -/
def inheritedNames : List String :=
  ["constructor", "__defineGetter__", "__defineSetter__", "hasOwnProperty", "__lookupGetter__",
    "__lookupSetter__", "isPrototypeOf", "propertyIsEnumerable", "toString", "valueOf",
    "__proto__", "toLocaleString"]

/-- What an object without the property `name` of its own answers for it. -/
def inherited (name : String) : Value :=
  if name ∈ inheritedNames then .native name else .undefined

/-- The property `name` of an object with these own properties. -/
def property (fields : List (String × Value)) (name : String) : Value :=
  match fields.find? fun field => field.1 = name with
  | some field => field.2
  | none => inherited name

/-- Whether `typeof value === "object"` holds and the value is not null. -/
def isObject : Value → Bool
  | .arr _ | .obj _ => true
  | .native name => name = "__proto__"
  | _ => false

/-- `value === undefined` or `value === null`. -/
def isNullish : Value → Bool
  | .undefined | .null => true
  | _ => false

end Value

/-! ### Canonical text -/

/-- The UTF-16 code units of a string, the order JavaScript sorts by. -/
def utf16 (s : String) : List Nat :=
  s.toList.flatMap fun c =>
    if c.toNat < 0x10000 then [c.toNat]
    else [0xD800 + (c.toNat - 0x10000) / 0x400, 0xDC00 + (c.toNat - 0x10000) % 0x400]

/-- Lexicographic order on code units, a prefix first. -/
def unitsLe : List Nat → List Nat → Bool
  | [], _ => true
  | _ :: _, [] => false
  | a :: as, b :: bs => if a < b then true else if b < a then false else unitsLe as bs

/-- One character inside a JSON string. -/
def jsonChar (c : Char) : String :=
  if c = '"' then "\\\""
  else if c = '\\' then "\\\\"
  else if c.toNat = 8 then "\\b"
  else if c.toNat = 9 then "\\t"
  else if c.toNat = 10 then "\\n"
  else if c.toNat = 12 then "\\f"
  else if c.toNat = 13 then "\\r"
  else if c.toNat < 0x20 then
    "\\u00" ++ (if c.toNat < 0x10 then "0" else "") ++ String.ofList (Nat.toDigits 16 c.toNat)
  else c.toString

/-- `JSON.stringify` of a string. -/
def jsonString (s : String) : String :=
  "\"" ++ String.join (s.toList.map jsonChar) ++ "\""

/-- `JSON.stringify` of a number given by its text. -/
def jsonNumber (text : String) : String :=
  if text = "NaN" ∨ text = "Infinity" ∨ text = "-Infinity" then "null" else text

mutual

/-- Canonical JSON text with sorted keys; `none` where JavaScript answers `undefined`. -/
def stableStringify : Value → Option String
  | .undefined => none
  | .null => some "null"
  | .bool b => some (if b then "true" else "false")
  | .num text => some (jsonNumber text)
  | .str s => some (jsonString s)
  | .arr items => some ("[" ++ ",".intercalate (stableItems items) ++ "]")
  | .obj fields =>
      some ("\x7b" ++ ",".intercalate (((stableFields fields).insertionSort
        fun a b => unitsLe (utf16 a.1) (utf16 b.1)).map fun f => jsonString f.1 ++ ":" ++ f.2) ++ "\x7d")
  | .native name => if name = "__proto__" then some "\x7b\x7d" else none

/-- `Array.prototype.join` prints an undefined item as the empty text. -/
def stableItems : List Value → List String
  | [] => []
  | item :: rest => (stableStringify item).getD "" :: stableItems rest

/-- A template literal prints an undefined property as the word. -/
def stableFields : List (String × Value) → List (String × String)
  | [] => []
  | (key, value) :: rest => (key, (stableStringify value).getD "undefined") :: stableFields rest

end

/-- The hash of the canonical text; every caller hashes an object or an array. -/
def stableHash (sha256 : String → String) (value : Value) : String :=
  sha256 ((stableStringify value).getD "")

example : stableStringify (.obj [("b", .arr [.null, .undefined]), ("a", .num "1")])
    = some "\x7b\"a\":1,\"b\":[null,]\x7d" := by decide

/-- `text.slice(0, n)`. -/
def firstChars (n : Nat) (text : String) : String := String.ofList (text.toList.take n)

/-- The items of a `Set` filled in this order. -/
def distinct (items : List String) : List String :=
  items.foldl (fun seen item => if item ∈ seen then seen else seen ++ [item]) []

/-! ### Building objects -/

/-- An object of the given properties, the undefined ones left out. -/
def stripUndefined (fields : List (String × Option Value)) : Value :=
  .obj (fields.filterMap fun f => f.2.map fun v => (f.1, v))

/-- An array of strings. -/
def strings (items : List String) : Value := .arr (items.map .str)

end OpenLagrange
