/-
References from a node's input to the outputs of earlier nodes.

A text that is exactly `$nodes.<id>.output` or `$nodes.<id>.output.<path>` becomes
the value referred to; every `{{nodes.<id>.output.<path>}}` inside a longer text is
replaced by that value's text.  The three regular expressions of the source are
written out on characters: a group of "not a dot" always ends at the first dot, and
a group of "not a closing brace" at the first such brace, so neither backtracks.

The outputs form a plain JavaScript object, which answers an inherited member for a
name it does not hold.  Nothing but the names in `templateRefs` is ever looked up.
-/
import OpenLagrange.Planning.Validator
import OpenLagrange.Util.Text

namespace OpenLagrange

/-- The outputs of the nodes run so far, by node id. -/
abbrev Outputs := String → Value

/-- The outputs before any node has run, the object without own properties. -/
def Outputs.empty : Outputs := Value.inherited

/-! ### Recognizing a reference -/

/-- What follows `start` in `text`. -/
def after : List Char → List Char → Option (List Char)
  | [], text => some text
  | _ :: _, [] => none
  | c :: start, d :: text => if c = d then after start text else none

/-- The text before the first `stop`, and what follows it. -/
def upTo (stop : Char) : List Char → Option (List Char × List Char)
  | [] => none
  | c :: rest => if c = stop then some ([], rest) else
      (upTo stop rest).map fun found => (c :: found.1, found.2)

/-- The id after `opening`, and what follows the dot it ends at. -/
def nodeReference (opening text : List Char) : Option (String × List Char) :=
  match (after opening text).bind (upTo '.') with
  | some (c :: id, rest) => some (String.ofList (c :: id), rest)
  | _ => none

/-- `/^\$nodes\.([^.]+)\.output$/`. -/
def wholeOutput (text : List Char) : Option String :=
  match nodeReference "$nodes.".toList text with
  | some (id, rest) => if rest = "output".toList then some id else none
  | none => none

/-- `/^\$nodes\.([^.]+)\.output\.(.+)$/`. -/
def exactOutput (text : List Char) : Option (String × List Char) :=
  match nodeReference "$nodes.".toList text with
  | some (id, rest) =>
      match after "output.".toList rest with
      | some (c :: path) => if (c :: path).any lineTerminator then none else some (id, c :: path)
      | _ => none
  | none => none

/-- The reference in double braces that `text` begins with, and its length. -/
def bracedOutput (text : List Char) : Option ((String × List Char) × Nat) :=
  match nodeReference "\x7b\x7bnodes.".toList text with
  | some (id, rest) =>
      match (after "output.".toList rest).bind (upTo '\x7d') with
      | some (c :: path, '\x7d' :: rest') => some ((id, c :: path), text.length - rest'.length)
      | _ => none
  | none => none

/-- A piece of a text: a character that stays, or a reference that is replaced. -/
inductive TemplatePiece where
  | char (c : Char)
  | output (id : String) (path : List Char)

/-- The pieces from left to right; `skip` characters still belong to the last reference. -/
def templatePieces : Nat → List Char → List TemplatePiece
  | _, [] => []
  | skip + 1, _ :: rest => templatePieces skip rest
  | 0, c :: rest =>
      match bracedOutput (c :: rest) with
      | some ((id, path), length) => .output id path :: templatePieces (length - 1) rest
      | none => .char c :: templatePieces 0 rest

/-! ### Looking a path up -/

/-- `text.split(stop)`. -/
def splitAtChar (stop : Char) : List Char → List (List Char)
  | [] => [[]]
  | c :: rest =>
      if c = stop then [] :: splitAtChar stop rest
      else
        match splitAtChar stop rest with
        | first :: others => (c :: first) :: others
        | [] => [[c]]

/-- The number a part consisting of digits denotes. -/
def partIndex (part : List Char) : Option Nat :=
  if part ≠ [] ∧ part.all (·.isDigit) then
    some (part.foldl (fun n c => 10 * n + (c.toNat - '0'.toNat)) 0)
  else none

/-- The property of an object that a capability put into its output. -/
def Value.lookup (source : Value) (name : String) : Value :=
  match source with
  | .obj fields => Value.property fields name
  | .native _ => if name = "__proto__" then .null else Value.inherited name
  | _ => .undefined

mutual

/-- One part of a path, followed by `next`; a name distributes over an array. -/
def stepInto (part : List Char) (next : Value → Value) : Value → Value
  | .arr items =>
      match partIndex part with
      | some n => next (items.getD n .undefined)
      | none => .arr ((stepItems part next items).filter fun item =>
          match item with
          | .undefined => false
          | _ => true)
  | .obj fields => next (Value.property fields (String.ofList part))
  | .native name =>
      if name = "__proto__" then next (Value.lookup (.native name) (String.ofList part))
      else .undefined
  | .undefined | .null | .bool _ | .num _ | .str _ => .undefined

def stepItems (part : List Char) (next : Value → Value) : List Value → List Value
  | [] => []
  | item :: rest => stepInto part next item :: stepItems part next rest

end

def pathPartsValue : List (List Char) → Value → Value
  | [], source => source
  | part :: rest, source => stepInto part (pathPartsValue rest) source

def pathValue (source : Value) (path : List Char) : Value :=
  pathPartsValue (splitAtChar '.' path) source

/-! ### Resolving -/

mutual

/-- `String(value)`. -/
def jsText : Value → String
  | .undefined => "undefined"
  | .null => "null"
  | .bool b => if b then "true" else "false"
  | .num text => text
  | .str s => s
  | .arr items => ",".intercalate (jsTexts items)
  | .obj _ => "[object Object]"
  | .native name =>
      if name = "__proto__" then "[object Object]"
      else "function " ++ (if name = "constructor" then "Object" else name) ++
        "() \x7b [native code] \x7d"

/-- The texts that joining an array puts commas between. -/
def jsTexts : List Value → List String
  | [] => []
  | item :: rest =>
      (match item with
        | .undefined | .null => ""
        | _ => jsText item) :: jsTexts rest

end

def pieceText (outputs : Outputs) : TemplatePiece → String
  | .char c => c.toString
  | .output id path =>
      match pathValue (outputs id) path with
      | .undefined => ""
      | resolved => jsText resolved

def resolveTemplateString (value : String) (outputs : Outputs) : Value :=
  match wholeOutput value.toList with
  | some id => outputs id
  | none =>
      match exactOutput value.toList with
      | some (id, path) => pathValue (outputs id) path
      | none => .str (String.join ((templatePieces 0 value.toList).map (pieceText outputs)))

mutual

def resolveTemplates (outputs : Outputs) : Value → Value
  | .str s => resolveTemplateString s outputs
  | .arr items => .arr (resolveItems outputs items)
  | .obj fields => .obj (resolveFields outputs fields)
  | .native name => if name = "__proto__" then .obj [] else .native name
  | .undefined => .undefined
  | .null => .null
  | .bool b => .bool b
  | .num text => .num text

def resolveItems (outputs : Outputs) : List Value → List Value
  | [] => []
  | item :: rest => resolveTemplates outputs item :: resolveItems outputs rest

def resolveFields (outputs : Outputs) : List (String × Value) → List (String × Value)
  | [] => []
  | (key, item) :: rest => (key, resolveTemplates outputs item) :: resolveFields outputs rest

end

/-- The configured input of a node.  A list of nodes holds nothing under a node id, and
a list as the node's entry has no input. -/
def nodeInput (plan : Planfile) (nodeId : String) : Value :=
  match plan.contextField "nodes" with
  | .obj nodes =>
      match Value.property nodes nodeId with
      | .obj config =>
          let input := Value.property config "input"
          if input.isNullish then .obj [] else input
      | _ => .obj []
  | _ => .obj []

/-! ### The outputs a value refers to -/

def TemplatePiece.refs : TemplatePiece → List String
  | .char _ => []
  | .output id _ => [id]

/-- The nodes a text refers to. -/
def stringRefs (value : String) : List String :=
  match wholeOutput value.toList with
  | some id => [id]
  | none =>
      match exactOutput value.toList with
      | some (id, _) => [id]
      | none => (templatePieces 0 value.toList).flatMap (·.refs)

mutual

/-- The nodes a value refers to. -/
def templateRefs : Value → List String
  | .str s => stringRefs s
  | .arr items => itemRefs items
  | .obj fields => fieldRefs fields
  | _ => []

def itemRefs : List Value → List String
  | [] => []
  | item :: rest => templateRefs item ++ itemRefs rest

def fieldRefs : List (String × Value) → List String
  | [] => []
  | (_, item) :: rest => templateRefs item ++ fieldRefs rest

end

example : stringRefs "found \x7b\x7bnodes.search.output.hits\x7d\x7d of \x7b\x7bnodes.a\x7d\x7d" = ["search"] := by
  decide

end OpenLagrange
