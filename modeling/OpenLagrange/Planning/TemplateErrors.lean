/-
What resolving templates throws.

An output that is put into a longer text is put there as `String(output)`.  An object with a
property of its own named `toString` has no such text: in JSON data the property is not a function,
the other way to a text answers the object itself, and JavaScript throws.  An array is joined from
the texts of its items.  Nothing else in resolving templates throws.
-/
import OpenLagrange.Planning.Templates

namespace OpenLagrange

mutual

/-- Whether `String(value)` throws. -/
def textThrows : Value → Bool
  | .arr items => itemsThrow items
  | .obj fields => fields.any fun field => field.1 = "toString"
  | _ => false

def itemsThrow : List Value → Bool
  | [] => false
  | item :: rest => textThrows item || itemsThrow rest

end

def pieceThrows (outputs : Outputs) : TemplatePiece → Bool
  | .char _ => false
  | .output id path => textThrows (pathValue (outputs id) path)

/-- A text that is one reference is replaced by the value itself. -/
def stringThrows (outputs : Outputs) (value : String) : Bool :=
  (wholeOutput value.toList).isNone && (exactOutput value.toList).isNone &&
    (templatePieces 0 value.toList).any (pieceThrows outputs)

mutual

def templatesThrow (outputs : Outputs) : Value → Bool
  | .str s => stringThrows outputs s
  | .arr items => itemTemplatesThrow outputs items
  | .obj fields => fieldTemplatesThrow outputs fields
  | _ => false

def itemTemplatesThrow (outputs : Outputs) : List Value → Bool
  | [] => false
  | item :: rest => templatesThrow outputs item || itemTemplatesThrow outputs rest

def fieldTemplatesThrow (outputs : Outputs) : List (String × Value) → Bool
  | [] => false
  | (_, item) :: rest => templatesThrow outputs item || fieldTemplatesThrow outputs rest

end

/-- `resolveTemplates`, with what it throws. -/
def tryResolveTemplates (outputs : Outputs) (value : Value) : Except String Value :=
  if templatesThrow outputs value then .error "Cannot convert object to primitive value"
  else .ok (resolveTemplates outputs value)

end OpenLagrange
