/-
What an execution intent is checked against before the gate sees it.

An intent was written by a model against a snapshot of the registry.  The check finds
the capability it names in the snapshot, compares what the intent says of it, and reads
the arguments against the capability's input schema.
-/
import OpenLagrange.Reconciliation.Records

namespace OpenLagrange

/-! ### Arguments -/

/-- `key in value`: the name is a property of the object or one that every object inherits. -/
def hasProperty (fields : List (String × Value)) (key : String) : Bool :=
  fields.any (·.1 = key) || key ∈ Value.inheritedNames

/-- `Boolean(value) && typeof value === "object" && !Array.isArray(value)`. -/
def isRecord : Value → Bool
  | .arr _ => false
  | value => value.isObject

/-- `Number.isInteger`: a number without a fraction is printed without a point, or, from
1e21 on, with a positive exponent. -/
def isInteger : Value → Bool
  | .num text =>
      text ∉ ["NaN", "Infinity", "-Infinity"] &&
        (if 'e' ∈ text.toList then '+' ∈ text.toList else '.' ∉ text.toList)
  | _ => false

def isText : Value → Bool
  | .str _ => true
  | _ => false

def isBoolean : Value → Bool
  | .bool _ => true
  | _ => false

/-- The first property whose value is not of the type the schema gives it. -/
def mistyped (value : List (String × Value)) : List (String × Value) → Option String
  | [] => none
  | (key, propSchema) :: rest =>
      if ¬ hasProperty value key ∨ ¬ isRecord propSchema then mistyped value rest
      else
        let type := textOf (recordField propSchema "type")
        if type = some "string" ∧ ¬ isText (Value.property value key) then
          some (key ++ " must be string")
        else if type = some "integer" ∧ ¬ isInteger (Value.property value key) then
          some (key ++ " must be integer")
        else if type = some "boolean" ∧ ¬ isBoolean (Value.property value key) then
          some (key ++ " must be boolean")
        else mistyped value rest

/-- The message the arguments are refused with, if they are. -/
def validateJsonLikeArguments (schema : Value) (value : List (String × Value)) : Option String :=
  if textOf (recordField schema "type") ≠ some "object" then none
  else
    let required := match recordField schema "required" with
      | .arr items => items.filterMap textOf
      | _ => []
    match required.find? fun key => ¬ hasProperty value key with
    | some key => some ("Missing required field: " ++ key)
    | none =>
        let properties := match recordField schema "properties" with
          | .obj fields => fields
          | _ => []
        let extra := (value.map (·.1)).filter fun key => ¬ hasProperty properties key
        match recordField schema "additionalProperties" with
        | .bool false =>
            if extra ≠ [] then some ("Unexpected fields: " ++ ", ".intercalate extra)
            else mistyped value properties
        | _ => mistyped value properties

/-! ### The intent -/

/-- The capability an intent names, or what is wrong with the intent. -/
def validateIntentForSnapshot (intent : ExecutionIntent) (snapshot : CapabilitySnapshot)
    (taskId now : String) : Except StructuredError SnapshotCapability :=
  let refuse (code message : String) : Except StructuredError SnapshotCapability :=
    .error (structuredError code message now (some intent.intentId) (some taskId))
  if intent.snapshotId ≠ snapshot.snapshotId then
    refuse "SNAPSHOT_MISMATCH" "Intent references a different snapshot"
  else if ¬ snapshot.capabilities.any (·.endpointId = intent.endpointId) then
    refuse "UNKNOWN_MCP_SERVER" "Requested endpoint is not in snapshot"
  else
    match snapshot.capabilities.find? fun entry =>
        entry.endpointId = intent.endpointId ∧ entry.capabilityName = intent.capabilityName with
    | none => refuse "UNKNOWN_CAPABILITY" "Requested capability is not in snapshot"
    | some capability =>
        if capability.capabilityDigest ≠ intent.capabilityDigest then
          refuse "CAPABILITY_DIGEST_MISMATCH" "Capability digest does not match snapshot"
        else if capability.riskLevel ≠ intent.riskLevel ∨
            capability.requiresApproval ≠ intent.requiresApproval then
          refuse "SCHEMA_VALIDATION_FAILED" "Intent risk metadata does not match snapshot"
        else
          match validateJsonLikeArguments capability.inputSchema intent.arguments with
          | some message => refuse "SCHEMA_VALIDATION_FAILED" message
          | none => .ok capability

/-! ### What an accepted intent is -/

variable {intent : ExecutionIntent} {snapshot : CapabilitySnapshot} {taskId now : String}
  {capability : SnapshotCapability}

end OpenLagrange
