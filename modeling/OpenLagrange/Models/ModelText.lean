/-
The JSON value in what a model answers.

A model that was asked for JSON may put a fence around it, or words before and after it.  The
fence is taken off, and what is not JSON as a whole is scanned for the first object or array.

Where the scan starts is counted in characters, and from there on it goes by code units: the two
agree only where every character before it is one unit.
-/
import OpenLagrange.Util.JsonParse

namespace OpenLagrange.ModelText

/-! ### The fence -/

def fence : List Char := ['`', '`', '`']

/-- A text without what it starts with, in whatever case that is written. -/
def dropMark (mark text : List Char) : List Char :=
  if mark.isPrefixOf (text.map Char.toLower) then text.drop mark.length else text

/-- Without a fence at the start. -/
def dropFence (text : List Char) : List Char :=
  if fence.isPrefixOf text then
    (dropMark ['j', 's', 'o', 'n'] (text.drop fence.length)).dropWhile jsSpace
  else text

/-- Without a fence at the end, and the space before it. -/
def dropEndFence (text : List Char) : List Char :=
  if fence.isPrefixOf text.reverse then
    ((text.reverse.drop fence.length).dropWhile jsSpace).reverse
  else text

/-- What is left of an answer when blanks and fences are taken off. -/
def stripped (text : List Char) : List Char :=
  trimChars (dropEndFence (dropFence (trimChars text)))

/-! ### The scan -/

def opensValue (c : Char) : Bool := c = '\x7b' || c = '['

structure Scan where
  depth : Int
  inString : Bool
  escaped : Bool

/-- The code units up to the one that brings the depth to zero. -/
def scan (opener closer : Nat) : Scan → List Nat → Option (List Nat)
  | _, [] => none
  | s, unit :: rest =>
      if s.escaped then
        (scan opener closer { s with escaped := false } rest).map (unit :: ·)
      else if unit = 92 then
        (scan opener closer { s with escaped := s.inString } rest).map (unit :: ·)
      else if unit = 34 then
        (scan opener closer { s with inString := !s.inString } rest).map (unit :: ·)
      else if s.inString then
        (scan opener closer s rest).map (unit :: ·)
      else
        let opened := if unit = opener then s.depth + 1 else s.depth
        let depth := if unit = closer then opened - 1 else opened
        if depth = 0 then some [unit]
        else (scan opener closer { s with depth } rest).map (unit :: ·)

def closerOf (opener : Nat) : Nat := if opener = 123 then 125 else 93

def extractFirstJsonValue (text : List Char) : Option (List Nat) := do
  let start ← text.findIdx? opensValue
  let units := (text.flatMap charUnits).drop start
  let opener ← units.head?
  scan opener (closerOf opener) ⟨0, false, false⟩ units

/-! ### The value -/

section Parse

variable (readNumber : List Char → String)

/-- `JSON.parse` of code units. -/
def parseUnits (units : List Nat) : Option Value := (decodeUnits units).bind (parseJson readNumber)

/-- The value in an answer; `none` where nothing is found, or what is found cannot be read. -/
def parseJsonFromModelText (text : List Char) : Option Value :=
  match parseJson readNumber (stripped text) with
  | some v => some v
  | none => (extractFirstJsonValue (stripped text)).bind (parseUnits readNumber)

end Parse

end OpenLagrange.ModelText
