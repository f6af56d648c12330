/-
The registry of capability packs.

A pack comes with its manifest and the definitions of its capabilities.  Registering it parses
both, and only then are the pack and its capabilities written down: the packs under their pack
id, the capabilities under their capability id.  A capability is found again by its id, or by the
id of its pack and its name, and it is the definition written under its id that runs.

`Code` is what a definition executes, and `run` what becomes of executing it.
-/
import OpenLagrange.Lib.Table
import OpenLagrange.Runtime.CapabilityStep

namespace OpenLagrange.CapabilitySdk

/-! ### Packs -/

inductive TrustLevel where
  | trustedCore | trustedLocal | reviewRequired | experimental
  deriving DecidableEq, Repr

/-- What a pack says of a capability, before it is hashed. -/
structure DescriptorInput where
  capabilityId : String
  packId : String
  name : String
  description : String
  inputSchema : Value
  outputSchema : Value
  riskLevel : RiskLevel
  sideEffectKind : SideEffectKind
  requiresApproval : Bool
  idempotencyMode : IdempotencyMode
  timeoutMs : ℚ
  maxAttempts : ℚ
  scopes : List String
  tags : List String
  examples : List Value

structure CapabilityDescriptor extends DescriptorInput where
  capabilityDigest : String

structure PackManifest where
  packId : String
  name : String
  version : String
  publisher : String
  license : String
  trustLevel : TrustLevel

structure CapabilityDefinition (Code : Type) where
  descriptor : DescriptorInput
  execute : Code

structure CapabilityPack (Code : Type) where
  manifest : PackManifest
  capabilities : List (CapabilityDefinition Code)

/-- An error with its code, or a refusal of a schema with the fields it names. -/
inductive RegistryError where
  | sdk (message code : String)
  | schema (fields : List String)
  deriving DecidableEq, Repr

/-! ### Descriptors -/

def IdempotencyMode.text : IdempotencyMode → String
  | .required => "required"
  | .recommended => "recommended"
  | .notApplicable => "not_applicable"

/-- The fields that are hashed; the platform prints the numbers. -/
def DescriptorInput.fields (printNumber : ℚ → String) (input : DescriptorInput) :
    List (String × Value) :=
  [("capability_id", .str input.capabilityId), ("pack_id", .str input.packId),
    ("name", .str input.name), ("description", .str input.description),
    ("input_schema", input.inputSchema), ("output_schema", input.outputSchema),
    ("risk_level", .str input.riskLevel.text),
    ("side_effect_kind", .str input.sideEffectKind.text),
    ("requires_approval", .bool input.requiresApproval),
    ("idempotency_mode", .str (IdempotencyMode.text input.idempotencyMode)),
    ("timeout_ms", .num (printNumber input.timeoutMs)),
    ("max_attempts", .num (printNumber input.maxAttempts)),
    ("scopes", .arr (input.scopes.map .str)), ("tags", .arr (input.tags.map .str)),
    ("examples", .arr input.examples)]

def capabilityDigest (sha256 : String → String) (printNumber : ℚ → String)
    (input : DescriptorInput) : String :=
  stableHash sha256 (.obj (input.fields printNumber))

/-- `z.number().int().min(1)`. -/
def positiveInt (n : ℚ) : Bool := n.den = 1 && 1 ≤ n && n ≤ 9007199254740991

def isRecord : Value → Bool
  | .obj _ => true
  | _ => false

/-- The fields of a strict object that fail their checks. -/
def failing (checks : List (String × Bool)) : List String :=
  (checks.filter fun check => !check.2).map (·.1)

def CapabilityDescriptor.parse (d : CapabilityDescriptor) :
    Except RegistryError CapabilityDescriptor :=
  match failing [("capability_id", nonempty d.capabilityId), ("pack_id", nonempty d.packId),
      ("name", nonempty d.name), ("input_schema", isRecord d.inputSchema),
      ("output_schema", isRecord d.outputSchema), ("timeout_ms", positiveInt d.timeoutMs),
      ("max_attempts", positiveInt d.maxAttempts),
      ("capability_digest", isSha256Hex d.capabilityDigest)] with
  | [] => .ok d
  | fields => .error (.schema fields)

def PackManifest.parse (m : PackManifest) : Except RegistryError PackManifest :=
  match failing [("pack_id", nonempty m.packId), ("name", nonempty m.name),
      ("version", nonempty m.version), ("publisher", nonempty m.publisher),
      ("license", nonempty m.license)] with
  | [] => .ok m
  | fields => .error (.schema fields)

/-! ### The registry -/

structure Entry (Code : Type) where
  pack : CapabilityPack Code
  definition : CapabilityDefinition Code
  descriptor : CapabilityDescriptor

def packKey {Code : Type} (pack : CapabilityPack Code) : String := pack.manifest.packId

def entryKey {Code : Type} (entry : Entry Code) : String := entry.descriptor.capabilityId

structure PackRegistry (Code : Type) where
  packs : Table.Keyed (@packKey Code)
  capabilities : Table.Keyed (@entryKey Code)

structure CapabilityRef where
  capabilityId : Option String
  packId : Option String
  name : Option String

structure CapabilityFilter where
  allowedScopes : Option (List String)
  deniedScopes : Option (List String)
  allowedCapabilities : Option (List String)
  maxRiskLevel : Option RiskLevel
  trustLevels : Option (List TrustLevel)

structure CapabilitySnapshotLike where
  snapshotId : String
  createdAt : String
  capabilitiesHash : String
  capabilities : List CapabilityDescriptor

/-- What the registry takes from its platform, and what executing a definition comes to. -/
structure SdkPlatform (Code : Type) where
  sha256 : String → String
  printNumber : ℚ → String
  localeCompare : String → String → Ordering
  Result : Type
  executeDefinition : CapabilityDefinition Code → PackExecutionContext → Value → Result

variable {Code : Type} (P : SdkPlatform Code)

def finalizeDescriptor (definition : CapabilityDefinition Code) :
    Except RegistryError CapabilityDescriptor :=
  CapabilityDescriptor.parse
    ⟨definition.descriptor, capabilityDigest P.sha256 P.printNumber definition.descriptor⟩

namespace PackRegistry

def empty : PackRegistry Code := ⟨.empty, .empty⟩

def getPack (registry : PackRegistry Code) (packId : String) : Option (CapabilityPack Code) :=
  registry.packs.get packId

/-- A definition of the pack being registered, checked against the registry as it stands. -/
def nextCapability (registry : PackRegistry Code) (manifest : PackManifest)
    (pack : CapabilityPack Code) (definition : CapabilityDefinition Code) :
    Except RegistryError (Entry Code) := do
  let descriptor ← finalizeDescriptor P definition
  if descriptor.packId ≠ manifest.packId then
    .error (.sdk "Capability pack ID does not match manifest" "INVALID_DESCRIPTOR")
  else if (registry.capabilities.get descriptor.capabilityId).isSome then
    .error (.sdk ("Duplicate capability ID: " ++ descriptor.capabilityId)
      "DUPLICATE_CAPABILITY_ID")
  else .ok ⟨pack, definition, descriptor⟩

/-- Everything is checked before anything is set. -/
def registerPack (registry : PackRegistry Code) (pack : CapabilityPack Code) :
    PackRegistry Code × Except RegistryError Unit :=
  match pack.manifest.parse with
  | .error error => (registry, .error error)
  | .ok manifest =>
      if (registry.packs.get manifest.packId).isSome then
        (registry, .error (.sdk ("Duplicate pack ID: " ++ manifest.packId) "DUPLICATE_PACK_ID"))
      else
        match pack.capabilities.mapM (nextCapability P registry manifest pack) with
        | .error error => (registry, .error error)
        | .ok next =>
            ({ packs := registry.packs.upsert pack
               capabilities := next.foldl .upsert registry.capabilities }, .ok ())

def matchesFilter (descriptor : CapabilityDescriptor) (pack : Option (CapabilityPack Code))
    (filter : CapabilityFilter) : Bool :=
  (match filter.trustLevels, pack with
    | some levels, some pack => pack.manifest.trustLevel ∈ levels
    | _, _ => true) &&
  (match filter.maxRiskLevel with
    | some level => descriptor.riskLevel.order ≤ level.order
    | none => true) &&
  (match filter.allowedCapabilities with
    | some allowed => allowed.isEmpty ||
        [descriptor.capabilityId, descriptor.name, descriptor.packId ++ "." ++ descriptor.name].any
          allowed.contains
    | none => true) &&
  (match filter.allowedScopes with
    | some allowed => allowed.isEmpty || descriptor.scopes.any allowed.contains
    | none => true) &&
  (match filter.deniedScopes with
    | some denied => !descriptor.scopes.any denied.contains
    | none => true)

def listCapabilities (registry : PackRegistry Code) (filter : CapabilityFilter) :
    List CapabilityDescriptor :=
  sortByLocale P.localeCompare (·.capabilityId)
    ((registry.capabilities.rows.map (·.descriptor)).filter fun descriptor =>
      matchesFilter descriptor (registry.packs.get descriptor.packId) filter)

/-- The entry a reference names: an empty id counts as none. -/
def resolveEntry (registry : PackRegistry Code) (ref : CapabilityRef) : Option (Entry Code) :=
  match ref.capabilityId with
  | some id => if id = "" then byName else registry.capabilities.get id
  | none => byName
where
  byName : Option (Entry Code) := registry.capabilities.rows.find? fun entry =>
    some entry.descriptor.packId = ref.packId ∧ some entry.descriptor.name = ref.name

def resolveCapability (registry : PackRegistry Code) (ref : CapabilityRef) :
    Option CapabilityDescriptor :=
  (resolveEntry registry ref).map (·.descriptor)

def descriptorValue (d : CapabilityDescriptor) : Value :=
  .obj (d.fields P.printNumber ++ [("capability_digest", .str d.capabilityDigest)])

def createCapabilitySnapshot (registry : PackRegistry Code) (filter : CapabilityFilter)
    (now : String) : CapabilitySnapshotLike :=
  let capabilities := listCapabilities P registry filter
  let capabilitiesHash := stableHash P.sha256 (.arr (capabilities.map (descriptorValue P)))
  { snapshotId := "caps_" ++ firstChars 24 (stableHash P.sha256
      (.obj [("capabilities_hash", .str capabilitiesHash), ("now", .str now)]))
    createdAt := now
    capabilitiesHash
    capabilities }

def verifyCapabilityDigest (registry : PackRegistry Code) (ref : CapabilityRef) (digest : String) :
    Bool :=
  (resolveCapability registry ref).map (·.capabilityDigest) = some digest

def executeCapability (registry : PackRegistry Code) (ref : CapabilityRef) (input : Value)
    (context : PackExecutionContext) : Except RegistryError P.Result :=
  match resolveCapability registry ref with
  | none => .error (.sdk "Unknown capability" "UNKNOWN_CAPABILITY")
  | some descriptor =>
      match registry.capabilities.get descriptor.capabilityId with
      | none => .error (.sdk "Capability definition missing" "UNKNOWN_CAPABILITY")
      | some entry =>
          if descriptor.idempotencyMode = .required ∧ isBlank context.idempotencyKey then
            .error (.sdk "Missing idempotency key" "MISSING_IDEMPOTENCY_KEY")
          else .ok (P.executeDefinition entry.definition context input)

/-- The registry after a number of calls, some of which may throw. -/
def registerAll (calls : List (CapabilityPack Code)) : PackRegistry Code :=
  calls.foldl (fun registry pack => (registerPack P registry pack).1) empty

end PackRegistry

end OpenLagrange.CapabilitySdk
