/-
The capability registry, and the snapshot of it that a run is bound to.

The registry holds the descriptors that packs registered.  A run asks it two
things: which capabilities a task may use, frozen into a snapshot, and which
descriptor a reference of a node resolves to.  The order `localeCompare` sorts by
belongs to the platform and is a parameter.
-/
import OpenLagrange.Planning.Planfile

namespace OpenLagrange

structure CapabilityDescriptor where
  capabilityId : String
  packId : String
  name : String
  description : String
  inputSchema : Value
  outputSchema : Value
  riskLevel : RiskLevel
  requiresApproval : Bool
  scopes : List String
  capabilityDigest : String

structure PackRegistry where
  capabilities : List CapabilityDescriptor

structure CapabilityFilter where
  allowedScopes : List String
  allowedCapabilities : List String
  maxRiskLevel : RiskLevel

def RiskLevel.order : RiskLevel → Nat
  | .read => 0
  | .write => 1
  | .externalSideEffect => 2
  | .destructive => 3

def matchesFilter (filter : CapabilityFilter) (descriptor : CapabilityDescriptor) : Bool :=
  descriptor.riskLevel.order ≤ filter.maxRiskLevel.order &&
    (filter.allowedCapabilities.isEmpty ||
      [descriptor.capabilityId, descriptor.name, descriptor.packId ++ "." ++ descriptor.name].any
        filter.allowedCapabilities.contains) &&
    (filter.allowedScopes.isEmpty || descriptor.scopes.any filter.allowedScopes.contains)

/-- Sort by a text, the way `localeCompare` orders it; equal texts keep their order. -/
def sortByLocale {α : Type} (localeCompare : String → String → Ordering) (key : α → String)
    (items : List α) : List α :=
  items.insertionSort fun a b => localeCompare (key a) (key b) ≠ .gt

def PackRegistry.listCapabilities (registry : PackRegistry)
    (localeCompare : String → String → Ordering) (filter : CapabilityDescriptor → Bool) :
    List CapabilityDescriptor :=
  sortByLocale localeCompare (·.capabilityId) (registry.capabilities.filter filter)

/-- The descriptor of the given id; the empty id names none. -/
def PackRegistry.resolveCapability (registry : PackRegistry) (capabilityId : String) :
    Option CapabilityDescriptor :=
  if capabilityId = "" then none
  else registry.capabilities.find? fun descriptor => descriptor.capabilityId = capabilityId

def resolveCapabilityForStep (registry : PackRegistry)
    (localeCompare : String → String → Ordering) (capabilityRef : String) :
    Option CapabilityDescriptor :=
  (registry.resolveCapability capabilityRef).or
    ((registry.listCapabilities localeCompare fun _ => true).find? fun candidate =>
      candidate.name = capabilityRef ∨ candidate.packId ++ "." ++ candidate.name = capabilityRef ∨
        candidate.capabilityId = capabilityRef)

theorem mem_sortByLocale {α : Type} {localeCompare : String → String → Ordering}
    {key : α → String} {items : List α} {item : α} :
    item ∈ sortByLocale localeCompare key items ↔ item ∈ items :=
  List.mem_insertionSort _

/-- What a reference resolves to is registered. -/
theorem resolveCapabilityForStep_mem {registry : PackRegistry}
    {localeCompare : String → String → Ordering} {capabilityRef : String}
    {descriptor : CapabilityDescriptor}
    (h : resolveCapabilityForStep registry localeCompare capabilityRef = some descriptor) :
    descriptor ∈ registry.capabilities := by
  rcases Option.or_eq_some_iff.mp h with hid | ⟨-, hlisted⟩
  · unfold PackRegistry.resolveCapability at hid
    split at hid
    · cases hid
    · exact List.mem_of_find?_eq_some hid
  · have hmem := List.mem_of_find?_eq_some hlisted
    exact (List.mem_filter.mp (mem_sortByLocale.mp hmem)).1

/-- A registered capability with an id is found under it. -/
theorem resolveCapability_isSome {registry : PackRegistry} {descriptor : CapabilityDescriptor}
    (hmem : descriptor ∈ registry.capabilities) (hid : descriptor.capabilityId ≠ "") :
    (registry.resolveCapability descriptor.capabilityId).isSome := by
  unfold PackRegistry.resolveCapability
  rw [if_neg hid, List.find?_isSome]
  exact ⟨descriptor, hmem, by simp⟩

/-! ### Snapshots -/

/-- A capability as a snapshot lists it. -/
structure SnapshotCapability where
  endpointId : String
  capabilityName : String
  description : String
  inputSchema : Value
  outputSchema : Value
  riskLevel : RiskLevel
  requiresApproval : Bool
  capabilityDigest : String

structure CapabilitySnapshot where
  snapshotId : String
  createdAt : String
  capabilitiesHash : String
  capabilities : List SnapshotCapability

def capabilityDigest (sha256 : String → String) (d : CapabilityDescriptor) : String :=
  stableHash sha256 (.obj [("endpoint_id", .str d.packId), ("capability_name", .str d.name),
    ("input_schema", d.inputSchema), ("output_schema", d.outputSchema),
    ("risk_level", .str d.riskLevel.text), ("requires_approval", .bool d.requiresApproval)])

def SnapshotCapability.toValue (c : SnapshotCapability) : Value :=
  .obj [("endpoint_id", .str c.endpointId), ("capability_name", .str c.capabilityName),
    ("description", .str c.description), ("input_schema", c.inputSchema),
    ("output_schema", c.outputSchema), ("risk_level", .str c.riskLevel.text),
    ("requires_approval", .bool c.requiresApproval),
    ("capability_digest", .str c.capabilityDigest)]

def buildCapabilitySnapshot (sha256 : String → String)
    (localeCompare : String → String → Ordering) (inputs : List CapabilityDescriptor)
    (now : String) : CapabilitySnapshot :=
  let capabilities := sortByLocale localeCompare
    (fun c : SnapshotCapability => c.endpointId ++ "." ++ c.capabilityName)
    (inputs.map fun d => ⟨d.packId, d.name, d.description, d.inputSchema, d.outputSchema,
      d.riskLevel, d.requiresApproval, capabilityDigest sha256 d⟩)
  let capabilitiesHash := stableHash sha256 (.arr (capabilities.map (·.toValue)))
  { snapshotId := "caps_" ++ firstChars 16 (stableHash sha256 (.obj [("capabilities_hash",
      .str capabilitiesHash), ("now", .str now)]))
    createdAt := now
    capabilitiesHash
    capabilities }

def createCapabilitySnapshotForTask (sha256 : String → String)
    (localeCompare : String → String → Ordering) (registry : PackRegistry)
    (filter : CapabilityFilter) (now : String) : CapabilitySnapshot :=
  buildCapabilitySnapshot sha256 localeCompare
    (registry.listCapabilities localeCompare (matchesFilter filter)) now

/-- Every spelling under which a plan may refer to a capability of the snapshot. -/
def capabilityReferenceSet (snapshot : CapabilitySnapshot) : List String :=
  snapshot.capabilities.flatMap fun c =>
    [c.capabilityName, c.endpointId ++ "." ++ c.capabilityName,
      c.endpointId ++ "." ++ c.capabilityName ++ "@" ++ c.capabilityDigest]

end OpenLagrange
