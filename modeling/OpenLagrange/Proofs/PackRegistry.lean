/-
What the registry of packs keeps, whatever is registered and in whatever order.

Registering checks everything before it sets anything, so a call that throws changes nothing.
What is checked is that no pack and no capability of the registry already has the ids; the
capabilities of one pack are not compared with one another.  The entry under an id thus belongs
to the one pack that brought the id, and it is the entry of a definition if no other definition
of that pack shares its id.
-/
import OpenLagrange.Capability.PackRegistry
import OpenLagrange.Lib.Fallible

namespace OpenLagrange.CapabilitySdk

open CapabilitySdk.PackRegistry

variable {Code : Type} {P : SdkPlatform Code}

/-! ### Registering -/

theorem PackManifest.parse_ok {m manifest : PackManifest} (h : m.parse = .ok manifest) :
    manifest = m := by
  unfold PackManifest.parse at h
  split at h
  · cases h
    rfl
  · cases h

theorem CapabilityDescriptor.parse_ok {d descriptor : CapabilityDescriptor}
    (h : d.parse = .ok descriptor) : descriptor = d ∧ d.capabilityId ≠ "" := by
  unfold CapabilityDescriptor.parse at h
  split at h
  · rename_i hnone
    cases h
    refine ⟨rfl, ?_⟩
    intro hempty
    simp [failing, hempty, nonempty] at hnone
  · cases h

/-- A descriptor says what its definition says. -/
theorem finalizeDescriptor_ok {definition : CapabilityDefinition Code}
    {descriptor : CapabilityDescriptor} (h : finalizeDescriptor P definition = .ok descriptor) :
    descriptor.toDescriptorInput = definition.descriptor ∧
      definition.descriptor.capabilityId ≠ "" := by
  obtain ⟨hsame, hid⟩ := CapabilityDescriptor.parse_ok h
  rw [hsame]
  exact ⟨rfl, hid⟩

/-- The entry is one of the definition, under the pack's id, and its own id is new. -/
structure Admitted (P : SdkPlatform Code) (registry : PackRegistry Code)
    (pack : CapabilityPack Code) (definition : CapabilityDefinition Code) (entry : Entry Code) :
    Prop where
  ofPack : entry.pack = pack
  ofDefinition : entry.definition = definition
  finalized : finalizeDescriptor P definition = .ok entry.descriptor
  packId : entry.descriptor.packId = pack.manifest.packId
  new : registry.capabilities.get entry.descriptor.capabilityId = none

theorem nextCapability_ok {registry : PackRegistry Code} {pack : CapabilityPack Code}
    {definition : CapabilityDefinition Code} {entry : Entry Code}
    (h : nextCapability P registry pack.manifest pack definition = .ok entry) :
    Admitted P registry pack definition entry := by
  unfold nextCapability at h
  cases hfinal : finalizeDescriptor P definition with
  | error error =>
      rw [hfinal] at h
      cases h
  | ok descriptor =>
      rw [hfinal] at h
      change (if descriptor.packId ≠ pack.manifest.packId then _ else _) = _ at h
      split at h
      · cases h
      · rename_i hpack
        split at h
        · cases h
        · rename_i hnew
          cases h
          exact ⟨rfl, rfl, hfinal, not_not.mp hpack, Option.not_isSome_iff_eq_none.mp hnew⟩

/-- **What a call does**: it throws and leaves the registry as it is, or it adds the pack and an
entry for each of its definitions, the later ones over the earlier. -/
theorem registerPack_cases (P : SdkPlatform Code) (registry : PackRegistry Code)
    (pack : CapabilityPack Code) :
    (∃ error, registerPack P registry pack = (registry, .error error)) ∨
      ∃ next, registry.packs.get pack.manifest.packId = none ∧
        List.Forall₂ (Admitted P registry pack) pack.capabilities next ∧
        registerPack P registry pack =
          ({ packs := registry.packs.upsert pack
             capabilities := next.foldl .upsert registry.capabilities }, .ok ()) := by
  unfold registerPack
  cases hparse : pack.manifest.parse with
  | error error => exact Or.inl ⟨error, rfl⟩
  | ok manifest =>
      obtain rfl := PackManifest.parse_ok hparse
      simp only
      split
      · exact Or.inl ⟨_, rfl⟩
      · rename_i hnew
        cases hnext : pack.capabilities.mapM (nextCapability P registry pack.manifest pack) with
        | error error => exact Or.inl ⟨error, rfl⟩
        | ok next =>
            refine Or.inr ⟨next, Option.not_isSome_iff_eq_none.mp hnew, ?_, rfl⟩
            exact (Fallible.forall₂_of_mapM hnext).imp fun _ _ => nextCapability_ok

/-! ### What every registry satisfies -/

/-- Every entry is one of a definition of a registered pack, and every definition of a registered
pack has an entry of that pack under its id. -/
structure Consistent (P : SdkPlatform Code) (registry : PackRegistry Code) : Prop where
  entry : ∀ entry ∈ registry.capabilities.rows, entry.pack ∈ registry.packs.rows ∧
    entry.definition ∈ entry.pack.capabilities ∧
    finalizeDescriptor P entry.definition = .ok entry.descriptor ∧
    entry.descriptor.packId = entry.pack.manifest.packId
  written : ∀ pack ∈ registry.packs.rows, ∀ definition ∈ pack.capabilities,
    ∃ entry ∈ registry.capabilities.rows, entry.pack = pack ∧
      entry.descriptor.capabilityId = definition.descriptor.capabilityId

theorem consistent_empty : Consistent P (@empty Code) :=
  ⟨fun _ h => absurd h List.not_mem_nil, fun _ h => absurd h List.not_mem_nil⟩

/-- An entry that was admitted is none of the entries before. -/
theorem Admitted.ne_key {registry : PackRegistry Code} {pack : CapabilityPack Code}
    {definition : CapabilityDefinition Code} {entry old : Entry Code}
    (h : Admitted P registry pack definition entry) (hold : old ∈ registry.capabilities.rows) :
    entryKey entry ≠ entryKey old := by
  intro hkey
  have hnone := List.find?_eq_none.mp h.new old hold
  exact hnone (decide_eq_true hkey.symm)

theorem Consistent.registerPack {registry : PackRegistry Code} (h : Consistent P registry)
    (pack : CapabilityPack Code) : Consistent P (registerPack P registry pack).1 := by
  rcases registerPack_cases P registry pack with ⟨error, heq⟩ | ⟨next, hnew, hnext, heq⟩
  · rw [heq]
    exact h
  rw [heq]
  have hkept : ∀ old ∈ registry.packs.rows, old ∈ (registry.packs.upsert pack).rows := by
    intro old hold
    refine Table.upsert_other hold ?_
    intro hkey
    exact List.find?_eq_none.mp hnew old hold (decide_eq_true hkey)
  have hself : pack ∈ (registry.packs.upsert pack).rows := Table.upsert_self _ _
  refine ⟨?_, ?_⟩
  · intro entry hentry
    rcases Table.Keyed.mem_foldl_upsert hentry with hadded | hold
    · obtain ⟨definition, hmem, hadmitted⟩ := Fallible.exists_left hnext hadded
      rw [hadmitted.ofPack, hadmitted.ofDefinition]
      exact ⟨hself, hmem, hadmitted.finalized, hadmitted.packId⟩
    · obtain ⟨hpack, hrest⟩ := h.entry entry hold
      exact ⟨hkept _ hpack, hrest⟩
  · intro old hold definition hmem
    rcases Table.mem_upsert hold with rfl | ⟨hold, -⟩
    · obtain ⟨entry, hentry, hadmitted⟩ := Fallible.exists_right hnext hmem
      obtain ⟨last, hlast, hkey, hin⟩ :=
        @Table.Keyed.exists_foldl_upsert _ _ _ entryKey next entry registry.capabilities hentry
      obtain ⟨other, -, hother⟩ := Fallible.exists_left hnext hlast
      refine ⟨last, hin, hother.ofPack, hkey.trans ?_⟩
      show entry.descriptor.capabilityId = _
      rw [(finalizeDescriptor_ok hadmitted.finalized).1]
    · obtain ⟨entry, hentry, hpack, hid⟩ := h.written old hold definition hmem
      refine ⟨entry, Table.Keyed.foldl_upsert_other hentry ?_, hpack, hid⟩
      intro added hadded
      obtain ⟨other, -, hother⟩ := Fallible.exists_left hnext hadded
      exact hother.ne_key hentry

/-- **After any calls the registry is consistent.** -/
theorem consistent_registerAll (P : SdkPlatform Code) (calls : List (CapabilityPack Code)) :
    Consistent P (registerAll P calls) := by
  unfold registerAll
  induction calls using List.reverseRecOn with
  | nil => exact consistent_empty
  | append_singleton calls pack ih =>
      rw [List.foldl_append, List.foldl_cons, List.foldl_nil]
      exact ih.registerPack pack

/-! ### Resolving -/

/-- No other definition of the pack has the id or the name of this one. -/
def StandsApart (pack : CapabilityPack Code) (definition : CapabilityDefinition Code) : Prop :=
  ∃ before after, pack.capabilities = before ++ definition :: after ∧
    ∀ other ∈ before ++ after,
      other.descriptor.capabilityId ≠ definition.descriptor.capabilityId ∧
        other.descriptor.name ≠ definition.descriptor.name

theorem StandsApart.eq {pack : CapabilityPack Code} {definition other : CapabilityDefinition Code}
    (h : StandsApart pack definition) (hmem : other ∈ pack.capabilities)
    (hsame : other.descriptor.capabilityId = definition.descriptor.capabilityId ∨
      other.descriptor.name = definition.descriptor.name) : other = definition := by
  obtain ⟨before, after, hsplit, hapart⟩ := h
  rw [hsplit] at hmem
  have hcase : other = definition ∨ other ∈ before ++ after := by
    rcases List.mem_append.mp hmem with hbefore | hrest
    · exact Or.inr (List.mem_append_left _ hbefore)
    · exact (List.mem_cons.mp hrest).imp_right (List.mem_append_right _)
  rcases hcase with heq | hother
  · exact heq
  · obtain ⟨hid, hname⟩ := hapart other hother
    exact absurd hsame (not_or.mpr ⟨hid, hname⟩)

def byId (definition : CapabilityDefinition Code) : CapabilityRef :=
  ⟨some definition.descriptor.capabilityId, none, none⟩

def byName (pack : CapabilityPack Code) (definition : CapabilityDefinition Code) : CapabilityRef :=
  ⟨none, some pack.manifest.packId, some definition.descriptor.name⟩

/-- By its id, and by its pack and name, a definition resolves to its own descriptor, and it is the
one that is executed, unless the idempotency key it requires is missing. -/
def Resolves (P : SdkPlatform Code) (registry : PackRegistry Code) (pack : CapabilityPack Code)
    (definition : CapabilityDefinition Code) : Prop :=
  ∃ descriptor, finalizeDescriptor P definition = .ok descriptor ∧
    ∀ ref ∈ [byId definition, byName pack definition],
      resolveCapability registry ref = some descriptor ∧
        ∀ input context, executeCapability P registry ref input context =
          if descriptor.idempotencyMode = .required ∧ isBlank context.idempotencyKey then
            .error (.sdk "Missing idempotency key" "MISSING_IDEMPOTENCY_KEY")
          else .ok (P.executeDefinition definition context input)

theorem executeCapability_of_resolveEntry {registry : PackRegistry Code} {ref : CapabilityRef}
    {entry : Entry Code} (hentry : entry ∈ registry.capabilities.rows)
    (hresolve : resolveEntry registry ref = some entry) (input : Value)
    (context : PackExecutionContext) :
    executeCapability P registry ref input context =
      if entry.descriptor.idempotencyMode = .required ∧ isBlank context.idempotencyKey then
        .error (.sdk "Missing idempotency key" "MISSING_IDEMPOTENCY_KEY")
      else .ok (P.executeDefinition entry.definition context input) := by
  have hget : registry.capabilities.get entry.descriptor.capabilityId = some entry :=
    Table.Keyed.get_of_mem hentry
  unfold executeCapability resolveCapability
  rw [hresolve]
  simp only [Option.map_some]
  rw [hget]

theorem Consistent.eq_of_name {registry : PackRegistry Code} (h : Consistent P registry)
    {pack : CapabilityPack Code} (hpack : pack ∈ registry.packs.rows)
    {definition : CapabilityDefinition Code} (hapart : StandsApart pack definition)
    {entry : Entry Code} (hentry : entry ∈ registry.capabilities.rows)
    (hpackId : entry.descriptor.packId = pack.manifest.packId)
    (hsame : entry.descriptor.capabilityId = definition.descriptor.capabilityId ∨
      entry.descriptor.name = definition.descriptor.name) : entry.definition = definition := by
  obtain ⟨hregistered, hmem, hfinal, hown⟩ := h.entry entry hentry
  have heq : entry.pack = pack :=
    Table.Keyed.eq_of_mem hregistered hpack (hown.symm.trans hpackId)
  rw [heq] at hmem
  rw [(finalizeDescriptor_ok hfinal).1] at hsame
  exact hapart.eq hmem hsame

/-- **A definition that stands apart in its pack is found and executed.** -/
theorem Consistent.resolves {registry : PackRegistry Code} (h : Consistent P registry)
    {pack : CapabilityPack Code} (hpack : pack ∈ registry.packs.rows)
    {definition : CapabilityDefinition Code} (hmem : definition ∈ pack.capabilities)
    (hapart : StandsApart pack definition) : Resolves P registry pack definition := by
  obtain ⟨entry, hentry, hof, hid⟩ := h.written pack hpack definition hmem
  obtain ⟨-, -, hfinal, hpackId⟩ := h.entry entry hentry
  rw [hof] at hpackId
  have hdefinition := h.eq_of_name hpack hapart hentry hpackId (Or.inl hid)
  have hnonempty := (finalizeDescriptor_ok hfinal).2
  rw [hdefinition] at hfinal hnonempty
  have htold := (finalizeDescriptor_ok hfinal).1
  have hbyId : resolveEntry registry (byId definition) = some entry := by
    unfold resolveEntry byId
    simp only
    rw [if_neg hnonempty, ← hid]
    exact Table.Keyed.get_of_mem hentry
  have hbyName : resolveEntry registry (byName pack definition) = some entry := by
    show registry.capabilities.rows.find? _ = _
    cases hfind : registry.capabilities.rows.find? fun entry =>
        some entry.descriptor.packId = (byName pack definition).packId ∧
          some entry.descriptor.name = (byName pack definition).name with
    | none =>
        have hnone := List.find?_eq_none.mp hfind entry hentry
        have hname : entry.descriptor.name = definition.descriptor.name := by rw [htold]
        exact absurd (by simp [byName, hpackId, hname]) hnone
    | some found =>
        have hfound := List.mem_of_find?_eq_some hfind
        have hholds := List.find?_some hfind
        have hboth := of_decide_eq_true hholds
        have hpackId' : found.descriptor.packId = pack.manifest.packId := Option.some.inj hboth.1
        have hname' : found.descriptor.name = definition.descriptor.name := Option.some.inj hboth.2
        have hsame := h.eq_of_name hpack hapart hfound hpackId' (Or.inr hname')
        obtain ⟨-, -, hfinal', -⟩ := h.entry found hfound
        rw [hsame, hfinal] at hfinal'
        have hdescriptor : entry.descriptor = found.descriptor := Except.ok.inj hfinal'
        have heq : found = entry := Table.Keyed.eq_of_mem hfound hentry (by
          show found.descriptor.capabilityId = entry.descriptor.capabilityId
          rw [hdescriptor])
        rw [heq]
  refine ⟨entry.descriptor, hfinal, ?_⟩
  intro ref href
  have hresolve : resolveEntry registry ref = some entry := by
    rcases List.mem_pair.mp href with rfl | rfl
    · exact hbyId
    · exact hbyName
  refine ⟨?_, ?_⟩
  · unfold resolveCapability
    rw [hresolve]
    rfl
  · intro input context
    rw [executeCapability_of_resolveEntry hentry hresolve, hdefinition]

/-- An id belongs to one pack. -/
theorem Consistent.pack_eq {registry : PackRegistry Code} (h : Consistent P registry)
    {pack other : CapabilityPack Code} (hpack : pack ∈ registry.packs.rows)
    (hother : other ∈ registry.packs.rows) {definition definition' : CapabilityDefinition Code}
    (hmem : definition ∈ pack.capabilities) (hmem' : definition' ∈ other.capabilities)
    (hid : definition.descriptor.capabilityId = definition'.descriptor.capabilityId) :
    pack = other := by
  obtain ⟨entry, hentry, hof, hkey⟩ := h.written pack hpack definition hmem
  obtain ⟨entry', hentry', hof', hkey'⟩ := h.written other hother definition' hmem'
  have hsame : entry = entry' :=
    Table.Keyed.eq_of_mem hentry hentry' (hkey.trans (hid.trans hkey'.symm))
  rw [← hof, ← hof', hsame]

/-! ### Listing -/

theorem mem_listCapabilities {registry : PackRegistry Code} {filter : CapabilityFilter}
    {descriptor : CapabilityDescriptor} :
    descriptor ∈ listCapabilities P registry filter ↔
      (∃ entry ∈ registry.capabilities.rows, entry.descriptor = descriptor) ∧
        PackRegistry.matchesFilter descriptor (registry.packs.get descriptor.packId) filter = true := by
  unfold listCapabilities
  rw [mem_sortByLocale, List.mem_filter, List.mem_map]

theorem matchesFilter_scopes {descriptor : CapabilityDescriptor}
    {pack : Option (CapabilityPack Code)} {filter : CapabilityFilter}
    (h : PackRegistry.matchesFilter descriptor pack filter = true) :
    (∀ allowed, filter.allowedScopes = some allowed → allowed ≠ [] →
        ∃ scope ∈ descriptor.scopes, scope ∈ allowed) ∧
      ∀ denied, filter.deniedScopes = some denied →
        ∀ scope ∈ descriptor.scopes, scope ∉ denied := by
  unfold PackRegistry.matchesFilter at h
  rw [Bool.and_eq_true, Bool.and_eq_true] at h
  obtain ⟨⟨-, hallowed⟩, hdenied⟩ := h
  refine ⟨?_, ?_⟩
  · intro allowed heq hne
    rw [heq] at hallowed
    rcases Bool.or_eq_true_iff.mp hallowed with hempty | hany
    · exact absurd (List.isEmpty_iff.mp hempty) hne
    · obtain ⟨scope, hscope, hin⟩ := List.any_eq_true.mp hany
      exact ⟨scope, hscope, List.contains_iff_mem.mp hin⟩
  · intro denied heq scope hscope hin
    rw [heq] at hdenied
    have hnone : descriptor.scopes.any denied.contains = false := by simpa using hdenied
    rw [List.any_eq_false] at hnone
    exact hnone scope hscope (List.contains_iff_mem.mpr hin)

/-! ### The integrity of the registry -/

/-- A call that throws changes nothing, and one that does not adds its pack. -/
structure CallsKeep (P : SdkPlatform Code) (registry : PackRegistry Code) : Prop where
  throws : ∀ pack error, (registerPack P registry pack).2 = .error error →
    (registerPack P registry pack).1 = registry
  succeeds : ∀ pack, (registerPack P registry pack).2 = .ok () →
    pack ∈ (registerPack P registry pack).1.packs.rows

theorem callsKeep (P : SdkPlatform Code) (registry : PackRegistry Code) :
    CallsKeep P registry where
  throws pack error h := by
    rcases registerPack_cases P registry pack with ⟨error', heq⟩ | ⟨next, -, -, heq⟩
    · rw [heq]
    · rw [heq] at h
      cases h
  succeeds pack h := by
    rcases registerPack_cases P registry pack with ⟨error', heq⟩ | ⟨next, -, -, heq⟩
    · rw [heq] at h
      cases h
    · rw [heq]
      exact Table.upsert_self _ _

/-- What a listing, and a snapshot of it, contains. -/
def Lists (P : SdkPlatform Code) (registry : PackRegistry Code) (filter : CapabilityFilter)
    (descriptor : CapabilityDescriptor) : Prop :=
  descriptor ∈ listCapabilities P registry filter ∨
    ∃ now, descriptor ∈ (createCapabilitySnapshot P registry filter now).capabilities

theorem lists_iff {registry : PackRegistry Code} {filter : CapabilityFilter}
    {descriptor : CapabilityDescriptor} :
    Lists P registry filter descriptor ↔ descriptor ∈ listCapabilities P registry filter :=
  ⟨fun h => h.elim id fun ⟨_, h⟩ => h, Or.inl⟩

/-- Every definition of a registered pack is found and run, all ids and all names within a pack
are different, and what is listed under allowed scopes asks for no others. -/
structure Integrity (P : SdkPlatform Code) (registry : PackRegistry Code) : Prop where
  calls : CallsKeep P registry
  resolves : ∀ pack ∈ registry.packs.rows, ∀ definition ∈ pack.capabilities,
    Resolves P registry pack definition
  ids : (registry.packs.rows.flatMap fun pack =>
    pack.capabilities.map (·.descriptor.capabilityId)).Nodup
  names : (registry.packs.rows.flatMap fun pack =>
    pack.capabilities.map fun d => (pack.manifest.packId, d.descriptor.name)).Nodup
  scopes : ∀ (filter : CapabilityFilter) allowed, filter.allowedScopes = some allowed →
    ∀ descriptor, Lists P registry filter descriptor →
      (∀ scope ∈ descriptor.scopes, scope ∈ allowed) ∧
        ∀ denied, filter.deniedScopes = some denied → ∀ scope ∈ descriptor.scopes, scope ∉ denied

/-- What holds as it stands: a definition that shares neither its id nor its name with another of
its pack is found and run, no id and no name of a pack is held by two packs, and what is listed
under allowed scopes, if there are any, has one of them and none that is denied. -/
structure IntegrityAcross (P : SdkPlatform Code) (registry : PackRegistry Code) : Prop where
  calls : CallsKeep P registry
  resolves : ∀ pack ∈ registry.packs.rows, ∀ definition ∈ pack.capabilities,
    StandsApart pack definition → Resolves P registry pack definition
  ids : ∀ pack ∈ registry.packs.rows, ∀ other ∈ registry.packs.rows, pack ≠ other →
    ∀ definition ∈ pack.capabilities, ∀ definition' ∈ other.capabilities,
      definition.descriptor.capabilityId ≠ definition'.descriptor.capabilityId
  names : ∀ pack ∈ registry.packs.rows, ∀ other ∈ registry.packs.rows, pack ≠ other →
    ∀ definition ∈ pack.capabilities, ∀ definition' ∈ other.capabilities,
      (pack.manifest.packId, definition.descriptor.name) ≠
        (other.manifest.packId, definition'.descriptor.name)
  scopes : ∀ (filter : CapabilityFilter) allowed, filter.allowedScopes = some allowed →
    allowed ≠ [] → ∀ descriptor, Lists P registry filter descriptor →
      (∃ scope ∈ descriptor.scopes, scope ∈ allowed) ∧
        ∀ denied, filter.deniedScopes = some denied → ∀ scope ∈ descriptor.scopes, scope ∉ denied

/-- **Whatever packs are registered, the registry keeps them apart.** -/
theorem registerAll_integrityAcross (P : SdkPlatform Code) (calls : List (CapabilityPack Code)) :
    IntegrityAcross P (registerAll P calls) := by
  have hconsistent := consistent_registerAll P calls
  refine ⟨callsKeep P _, ?_, ?_, ?_, ?_⟩
  · intro pack hpack definition hmem hapart
    exact hconsistent.resolves hpack hmem hapart
  · intro pack hpack other hother hne definition hmem definition' hmem' hid
    exact hne (hconsistent.pack_eq hpack hother hmem hmem' hid)
  · intro pack hpack other hother hne _ _ _ _ hsame
    exact hne (Table.Keyed.eq_of_mem hpack hother (congrArg Prod.fst hsame))
  · intro filter allowed hallowed hne descriptor hlists
    have hmatches := (mem_listCapabilities.mp (lists_iff.mp hlists)).2
    obtain ⟨hsome, hdenied⟩ := matchesFilter_scopes hmatches
    exact ⟨hsome allowed hallowed hne, hdenied⟩

/-! ### Where it says less -/

/-- A platform on which a definition, executed, yields itself. -/
def echoSdk : SdkPlatform Nat where
  sha256 _ := "aaaaaaaaaaaaaaaaaaaaaaaaaaaaaaaaaaaaaaaaaaaaaaaaaaaaaaaaaaaaaaaa"
  printNumber _ := "1"
  localeCompare := compare
  Result := Nat
  executeDefinition definition _ _ := definition.execute

def samplePack (scopes : List String) (codes : List Nat) : CapabilityPack Nat where
  manifest := ⟨"notes", "Notes", "0.1.0", "local", "MIT", .trustedLocal⟩
  capabilities := codes.map fun code =>
    ⟨⟨"notes.read", "notes", "read", "", .obj [], .obj [], .read, .filesystemRead, false,
      .recommended, 1, 1, scopes, [], []⟩, code⟩

def underScopes (allowed : List String) : CapabilityFilter := ⟨some allowed, none, none, none, none⟩

theorem registers_samplePack : (registerAll echoSdk [samplePack ["s"] [1, 2]]).packs.rows =
    [samplePack ["s"] [1, 2]] := by
  rfl

/-- A pack with two definitions of one capability is registered; a capability that asks for a
scope outside the allowed ones is listed if it asks for one of them too, and any is if none are
allowed. -/
theorem samplePack_loose :
    ¬ Integrity echoSdk (registerAll echoSdk [samplePack ["s"] [1, 2]]) ∧
      ¬ Integrity echoSdk (registerAll echoSdk [samplePack ["in", "out"] [1]]) ∧
      (listCapabilities echoSdk (registerAll echoSdk [samplePack ["in", "out"] [1]])
        (underScopes ["in"])).map (·.scopes) = [["in", "out"]] ∧
      (listCapabilities echoSdk (registerAll echoSdk [samplePack ["in", "out"] [1]])
        (underScopes [])).map (·.scopes) = [["in", "out"]] := by
  refine ⟨?_, ?_, rfl, rfl⟩
  · intro h
    have hids := h.ids
    rw [registers_samplePack] at hids
    revert hids
    decide
  · intro h
    have hlisted : ∃ descriptor, descriptor ∈ listCapabilities echoSdk
        (registerAll echoSdk [samplePack ["in", "out"] [1]]) (underScopes ["in"]) ∧
        descriptor.scopes = ["in", "out"] := ⟨_, List.mem_singleton_self _, rfl⟩
    obtain ⟨descriptor, hmem, hscopes⟩ := hlisted
    have hall := (h.scopes (underScopes ["in"]) ["in"] rfl descriptor (Or.inl hmem)).1
    rw [hscopes] at hall
    exact absurd (hall "out" (by decide)) (by decide)

end OpenLagrange.CapabilitySdk
