/-
Rendering a template Planfile with parameters.

For each parameter in turn, the text so far has every `${key}` and then every `{{key}}` replaced by
the parameter's value.  The value goes to `replaceAll` as a replacement text, in which `$$`, `$&`,
a `$` before a backtick and a `$` before an apostrophe stand for a dollar sign, for what was
matched, for what is before it and for what is after it.
-/
import OpenLagrange.Lib.Substitution
import Mathlib.Data.List.Sort

namespace OpenLagrange.PlanTemplates

/-- A key and its value. -/
abbrev Param := List Char × List Char

/-! ### `Object.entries` -/

/-- The index that a key is, if it is one: the entries of indices come first. -/
def arrayIndex? (key : List Char) : Option Nat :=
  let index := key.foldl (fun n c => 10 * n + (c.toNat - '0'.toNat)) 0
  if key ≠ [] ∧ key.all Char.isDigit ∧ (key.head? = some '0' → key = ['0']) ∧ index < 4294967295
  then some index else none

/-- The entries of an object into which the parameters were put in this order. -/
def objectEntries (params : List Param) : List Param :=
  (params.filter fun p => (arrayIndex? p.1).isSome).insertionSort
      (fun p q => (arrayIndex? p.1).getD 0 ≤ (arrayIndex? q.1).getD 0) ++
    params.filter fun p => (arrayIndex? p.1).isNone

/-! ### `replaceAll` -/

/-- What a replacement text stands for. -/
def getSubstitution (matched before after : List Char) : List Char → List Char
  | '$' :: '$' :: rest => '$' :: getSubstitution matched before after rest
  | '$' :: '&' :: rest => matched ++ getSubstitution matched before after rest
  | '$' :: '\x60' :: rest => before ++ getSubstitution matched before after rest
  | '$' :: '\x27' :: rest => after ++ getSubstitution matched before after rest
  | c :: rest => c :: getSubstitution matched before after rest
  | [] => []

/-- Replaces the occurrences in a text that follows `before`; `skip` characters of it belong to the
occurrence before. -/
def replaceFrom (search replacement : List Char) (before : List Char) : Nat → List Char → List Char
  | _, [] => []
  | skip + 1, c :: rest => replaceFrom search replacement (before ++ [c]) skip rest
  | 0, c :: rest =>
      if search.isPrefixOf (c :: rest) then
        getSubstitution search before ((c :: rest).drop search.length) replacement ++
          replaceFrom search replacement (before ++ [c]) (search.length - 1) rest
      else c :: replaceFrom search replacement (before ++ [c]) 0 rest

def replaceAll (search replacement text : List Char) : List Char :=
  replaceFrom search replacement [] 0 text

/-! ### `renderTemplate` -/

def dollarForm (key : List Char) : List Char := '$' :: '\x7b' :: (key ++ ['\x7d'])

def bracesForm (key : List Char) : List Char := '\x7b' :: '\x7b' :: (key ++ ['\x7d', '\x7d'])

def renderTemplate (content : List Char) (params : List Param) : List Char :=
  (objectEntries params).foldl
    (fun next p => replaceAll (bracesForm p.1) p.2 (replaceAll (dollarForm p.1) p.2 next)) content

/-! ### `instantiatePlanTemplate` -/

/-- The texts of the files there are, by path. -/
abbrev Files := String → Option (List Char)

structure InstantiateInput where
  templatePath : String
  params : Option (List Param) := none
  writePath : Option String := none

structure InstantiateResult where
  path : Option String
  content : List Char

/-- Fails where the template cannot be read. -/
def instantiatePlanTemplate (files : Files) (input : InstantiateInput) :
    Option (Files × InstantiateResult) := do
  let template ← files input.templatePath
  let content := renderTemplate template (input.params.getD [])
  match input.writePath with
  | some path =>
      if path ≠ "" then some (Function.update files path (some content), ⟨some path, content⟩)
      else some (files, ⟨none, content⟩)
  | none => some (files, ⟨none, content⟩)

end OpenLagrange.PlanTemplates
