/-
What is kept of the usage of model calls, in summaries and on disk.

A call's file is named after a hash of the call, and its directory may be written as a relative
text.  Files are written from where the process runs and read from where its caller started, so a
plan's calls are found again only if the text leads to one directory from both.  Then, as long as
no two calls are named alike and calls are entered in the order of their times, the index lists
the calls as they were made; and where each call's record names the provider, the model and the
role that are written, the summary of the plan is the summary of the records.
-/
import OpenLagrange.Models.ModelCallArtifacts
import OpenLagrange.Proofs.UsageTotals

namespace OpenLagrange.Models

open LocalPath

variable {P : ModelCallPlatform} {R : Rounding} {input other : PersistModelCallArtifactsInput}
  {store store' : CallStore}

/-! ### Names -/

theorem length_callDigest : (callDigest P input).toList.length = 18 := by
  unfold callDigest firstChars stableHash
  rw [String.toList_ofList, List.length_take, P.sha256_length]
  rfl

theorem suffix_injective {part part' : CallPart} (h : part.suffix = part'.suffix) : part = part' := by
  revert h
  cases part <;> cases part' <;> decide

/-- Calls and parts with one id are one. -/
theorem partId_injective {part part' : CallPart} (h : partId P input part = partId P other part') :
    callDigest P input = callDigest P other ∧ part = part' := by
  unfold partId at h
  have hlist := congrArg String.toList h
  simp only [String.toList_append, List.append_assoc] at hlist
  have hrest := List.append_cancel_left hlist
  obtain ⟨hdigest, hsuffix⟩ := List.append_inj hrest (length_callDigest.trans length_callDigest.symm)
  exact ⟨String.toList_inj.mp hdigest, suffix_injective (String.toList_inj.mp hsuffix)⟩

theorem partFile_injective {part part' : CallPart}
    (h : partFile P input part = partFile P other part') :
    callDigest P input = callDigest P other ∧ part = part' := by
  have hchars := congrArg FileName.chars h
  simp only [partFile, String.toList_append] at hchars
  exact partId_injective (String.toList_inj.mp (List.append_cancel_right hchars))

/-- Where a part is, from a directory. -/
theorem resolve_partPath (cwd : AbsolutePath) (part : CallPart) :
    cwd.resolve (partPath P input part) =
      cwd.resolve input.artifactDir.toList ++ [partFile P input part] :=
  AbsolutePath.resolve_join _ _ _

theorem resolve_partPath_ne {part part' : CallPart}
    (h : callDigest P input ≠ callDigest P other ∨ part ≠ part') :
    P.processCwd.resolve (partPath P input part) ≠
      P.processCwd.resolve (partPath P other part') := by
  rw [resolve_partPath, resolve_partPath]
  intro heq
  have hlast := congrArg List.getLast? heq
  rw [List.getLast?_concat, List.getLast?_concat] at hlast
  obtain ⟨hdigest, hpart⟩ := partFile_injective (Option.some.inj hlast)
  exact h.elim (fun hne => hne hdigest) fun hne => hne hpart

/-! ### One call -/

/-- When a call counts as made. -/
def callTime (input : PersistModelCallArtifactsInput) : String :=
  input.completedAt.getD input.startedAt

/-- The store with the files of a call. -/
def written (P : ModelCallPlatform) (input : PersistModelCallArtifactsInput) (store : CallStore) :
    CallStore :=
  ((store.writePart P input .prompt).writePart P input .response).writePart P input .call

theorem persistModelCallArtifacts_ok (h : persistModelCallArtifacts P input store = .ok store') :
    ∃ hnow : P.isDatetime (callTime input) = true, (callFields P input).accepted P = true ∧
      store'.files = (written P input store).files ∧
      store'.index = Artifacts.registerArtifacts P.toViewerPlatform store.index
        ([.prompt, .response, .call].map (createArtifactSummary P input (written P input store)
          ⟨callTime input, hnow⟩)) ⟨callTime input, hnow⟩ := by
  unfold persistModelCallArtifacts at h
  dsimp only at h
  split at h
  · cases h
  · rename_i artifact hparse
    have haccepted : (callFields P input).accepted P = true := by
      unfold ModelCallArtifact.parse at hparse
      dsimp only at hparse
      split at hparse
      · assumption
      · cases hparse
    split at h
    · rename_i hnow
      refine ⟨hnow, haccepted, ?_, ?_⟩
      · rw [← Except.ok.inj h]
        rfl
      · rw [← Except.ok.inj h]
        rfl
    · cases h

/-- The file of a call holds what is known of it. -/
theorem written_call (P : ModelCallPlatform) (input : PersistModelCallArtifactsInput)
    (store : CallStore) :
    (written P input store).files (P.processCwd.resolve (partPath P input .call)) =
      some (.call (callFields P input)) :=
  Function.update_self ..

/-- The files of other calls stay. -/
theorem written_other {path : AbsolutePath}
    (h : ∀ part, path ≠ P.processCwd.resolve (partPath P input part)) :
    (written P input store).files path = store.files path := by
  have hwrite : ∀ (store : CallStore) (part : CallPart),
      (store.writePart P input part).files path = store.files path :=
    fun store part => Function.update_of_ne (h part) _ _
  unfold written
  rw [hwrite, hwrite, hwrite]

/-! ### What a record keeps on disk -/

/-- Two records of one call agree in the tokens, the costs, the role and the status. -/
structure SameAccount (rebuilt record : UsageFields) : Prop where
  inputTokens : rebuilt.inputTokens = record.inputTokens
  outputTokens : rebuilt.outputTokens = record.outputTokens
  totalTokens : rebuilt.totalTokens = record.totalTokens
  cachedInputTokens : rebuilt.cachedInputTokens = record.cachedInputTokens
  reasoningTokens : rebuilt.reasoningTokens = record.reasoningTokens
  providerReportedCostUsd : rebuilt.providerReportedCostUsd = record.providerReportedCostUsd
  estimatedCostUsd : rebuilt.estimatedCostUsd = record.estimatedCostUsd
  roleLabel : rebuilt.roleLabel = record.roleLabel
  status : rebuilt.status = record.status

/-- What the record that is rebuilt says, of a call that came with a record. -/
theorem rebuiltFields_callFields {record : ModelUsageRecord} (h : input.usageRecord = some record) :
    SameAccount (rebuiltFields (callFields P input)) record.toUsageFields ↔
      (artifactRoleForModelRole input.role).text = record.roleLabel ∧
        some (usageStatusOf input.status) = record.status := by
  constructor
  · intro hsame
    exact ⟨hsame.roleLabel, hsame.status⟩
  · rintro ⟨hrole, hstatus⟩
    constructor
    all_goals first
      | exact hrole
      | exact hstatus
      | simp [rebuiltFields, callFields, h]

/-- **The record that is read back agrees exactly where its role has a name on disk and its status
is the one that is read off the call's.** -/
theorem persisted_record_iff {record : ModelUsageRecord} (hrecord : input.usageRecord = some record)
    (h : persistModelCallArtifacts P input store = .ok store') :
    ∃ artifact : ModelCallArtifact P,
      (store'.files (P.processCwd.resolve (partPath P input .call))).bind
          (ModelCallArtifact.parse P) = some artifact ∧
        (SameAccount (usageRecordFromModelCallArtifact P artifact).toUsageFields
            record.toUsageFields ↔
          (artifactRoleForModelRole input.role).text = record.roleLabel ∧
            some (usageStatusOf input.status) = record.status) := by
  obtain ⟨-, haccepted, hfiles, -⟩ := persistModelCallArtifacts_ok h
  refine ⟨⟨callFields P input, haccepted⟩, ?_, rebuiltFields_callFields hrecord⟩
  rw [hfiles, written_call, Option.bind_some, ModelCallArtifact.parse, dif_pos haccepted]

/-! ### A number of calls -/

def allParts : List CallPart := [.prompt, .response, .call]

/-- What an entry of the index says about where a call is. -/
structure Listed where
  artifactId : String
  kind : Output.ArtifactKind
  pathOrUri : String
  relatedPlanId : Option String
  createdAt : String

def listed (entry : Artifacts.ArtifactSummary) : Listed where
  artifactId := entry.artifactId
  kind := entry.kind
  pathOrUri := entry.pathOrUri
  relatedPlanId := entry.relatedPlanId
  createdAt := entry.createdAt

/-- What the entry of a part says. -/
def partListed (P : ModelCallPlatform) (input : PersistModelCallArtifactsInput) (part : CallPart) :
    Listed where
  artifactId := partId P input part
  kind := part.kind
  pathOrUri := String.ofList (partPath P input part)
  relatedPlanId := present input.planId
  createdAt := callTime input

/-- What the index says of the calls, in their order. -/
def callsListed (P : ModelCallPlatform) (calls : List PersistModelCallArtifactsInput) :
    List Listed :=
  calls.flatMap fun call => allParts.map (partListed P call)

/-- Calls that are named apart from one another and from what is listed before them, in the order
of their times. -/
structure InOrder (P : ModelCallPlatform) (before : List Listed)
    (calls : List PersistModelCallArtifactsInput) : Prop where
  listedApart : (before.map (·.artifactId)).Nodup
  fresh : ∀ entry ∈ before, ∀ call ∈ calls, ∀ part, entry.artifactId ≠ partId P call part
  apart : (calls.map (callDigest P)).Nodup
  ascending : (before.map (·.createdAt) ++ calls.map callTime).Pairwise fun a b =>
    P.localeCompare a b ≠ .gt

variable {before : List Listed} {calls : List PersistModelCallArtifactsInput}

theorem InOrder.front (h : InOrder P before (calls ++ [input])) : InOrder P before calls := by
  obtain ⟨hlisted, hfresh, hapart, hascending⟩ := h
  rw [List.map_append] at hapart hascending
  rw [← List.append_assoc] at hascending
  exact ⟨hlisted, fun entry hentry call hcall => hfresh entry hentry call
    (List.mem_append_left _ hcall), (List.nodup_append.mp hapart).1,
    (List.pairwise_append.mp hascending).1⟩

theorem InOrder.last_apart (h : InOrder P before (calls ++ [input]))
    {call : PersistModelCallArtifactsInput} (hmem : call ∈ calls) :
    callDigest P call ≠ callDigest P input := by
  have hapart := h.apart
  rw [List.map_append, List.nodup_append] at hapart
  exact hapart.2.2 _ (List.mem_map_of_mem hmem) _ (List.mem_singleton_self _)

theorem callsListed_append :
    callsListed P (calls ++ [input]) = callsListed P calls ++ allParts.map (partListed P input) := by
  unfold callsListed
  rw [List.flatMap_append, List.flatMap_singleton]

theorem mem_callsListed {entry : Listed} :
    entry ∈ callsListed P calls ↔ ∃ call ∈ calls, ∃ part ∈ allParts, partListed P call part = entry := by
  unfold callsListed
  simp only [List.mem_flatMap, List.mem_map]

theorem callsListed_ids (h : InOrder P before calls) :
    ((before ++ callsListed P calls).map (·.artifactId)).Nodup := by
  rw [List.map_append, List.nodup_append]
  refine ⟨h.listedApart, ?_, ?_⟩
  · unfold callsListed
    rw [List.map_flatMap, List.nodup_flatMap]
    refine ⟨?_, ?_⟩
    · intro call _
      rw [List.map_map]
      refine List.Nodup.map ?_ (by decide)
      intro part part' heq
      exact (partId_injective heq).2
    · have hapart := List.pairwise_map.mp h.apart
      refine hapart.imp ?_
      intro call call' hne id hid hid'
      simp only [List.map_map, List.mem_map, Function.comp_apply, partListed] at hid hid'
      obtain ⟨part, -, rfl⟩ := hid
      obtain ⟨part', -, heq⟩ := hid'
      exact hne (partId_injective heq).1.symm
  · intro id hid id' hid'
    obtain ⟨entry, hentry, rfl⟩ := List.mem_map.mp hid
    obtain ⟨entry', hentry', rfl⟩ := List.mem_map.mp hid'
    obtain ⟨call, hcall, part, -, rfl⟩ := mem_callsListed.mp hentry'
    exact h.fresh entry hentry call hcall part

theorem callsListed_ascending (h : InOrder P before calls) :
    (before ++ callsListed P calls).Pairwise fun a b =>
      P.localeCompare a.createdAt b.createdAt ≠ .gt := by
  have hself : ∀ time, P.localeCompare time time ≠ .gt := by
    intro time hgt
    rw [P.localeCompare_self] at hgt
    cases hgt
  obtain ⟨hbefore, hcalls, hboth⟩ := List.pairwise_append.mp h.ascending
  rw [List.pairwise_append]
  refine ⟨List.pairwise_map.mp hbefore, ?_, ?_⟩
  · unfold callsListed
    rw [List.pairwise_flatMap]
    refine ⟨?_, ?_⟩
    · intro call _
      rw [List.pairwise_map]
      exact List.pairwise_of_forall_mem_list fun _ _ _ _ => hself _
    · refine (List.pairwise_map.mp hcalls).imp ?_
      intro call call' hle entry hentry entry' hentry'
      obtain ⟨part, -, rfl⟩ := List.mem_map.mp hentry
      obtain ⟨part', -, rfl⟩ := List.mem_map.mp hentry'
      exact hle
  · intro entry hentry entry' hentry'
    obtain ⟨call, hcall, part, -, rfl⟩ := mem_callsListed.mp hentry'
    exact hboth _ (List.mem_map_of_mem hentry) _ (List.mem_map_of_mem hcall)

/-- The store holds the calls, each in its file and all of them in the index. -/
structure Holds (P : ModelCallPlatform) (before : List Listed)
    (calls : List PersistModelCallArtifactsInput) (store : CallStore) : Prop where
  index : store.index.map listed = before ++ callsListed P calls
  files : ∀ call ∈ calls, (callFields P call).accepted P = true ∧
    store.files (P.processCwd.resolve (partPath P call .call)) = some (.call (callFields P call))

/-- An entry as it is entered at a time. -/
def dated (now : String) (entry : Artifacts.ArtifactSummary) : Artifacts.ArtifactSummary :=
  { entry with updatedAt := some now }

/-- Entries that are new and not older than the index are entered at its end. -/
theorem registerArtifacts_fresh {current added : List Artifacts.ArtifactSummary}
    {now : P.Timestamp}
    (hids : ((current.map listed ++ added.map listed).map (·.artifactId)).Nodup)
    (hascending : (current.map listed ++ added.map listed).Pairwise fun a b =>
      P.localeCompare a.createdAt b.createdAt ≠ .gt) :
    (Artifacts.registerArtifacts P.toViewerPlatform current added now).map listed =
      current.map listed ++ added.map listed := by
  have hlisted : (current ++ added.map (dated now.1)).map listed =
      current.map listed ++ added.map listed := by
    rw [List.map_append, List.map_map]
    rfl
  have hkeys : ((current ++ added.map (dated now.1)).map Artifacts.artifactKey).Nodup := by
    rw [← hlisted, List.map_map] at hids
    exact hids
  have hcurrent : (current.map Artifacts.artifactKey).Nodup := by
    rw [List.map_append] at hkeys
    exact (List.nodup_append.mp hkeys).1
  have hrows : (current.foldl Table.Keyed.upsert
      (Table.Keyed.empty : Table.Keyed Artifacts.artifactKey)).rows = current :=
    Table.Keyed.foldl_upsert_fresh hcurrent
  have hall := @Table.Keyed.foldl_upsert_fresh _ _ _ Artifacts.artifactKey
    (added.map (dated now.1)) (current.foldl Table.Keyed.upsert .empty) (by rw [hrows]; exact hkeys)
  rw [hrows] at hall
  have hsorted : (current ++ added.map (dated now.1)).Pairwise fun a b =>
      P.localeCompare a.createdAt b.createdAt ≠ .gt := by
    rw [← hlisted, List.pairwise_map] at hascending
    exact hascending
  have hregistered : Artifacts.registerArtifacts P.toViewerPlatform current added now =
      current ++ added.map (dated now.1) := by
    refine (congrArg (sortByLocale P.localeCompare (·.createdAt)) hall).trans ?_
    exact List.Pairwise.insertionSort_eq hsorted
  rw [hregistered, hlisted]

/-- **One more call is held too.** -/
theorem holds_step (horder : InOrder P before (calls ++ [input]))
    (hholds : Holds P before calls store)
    (h : persistModelCallArtifacts P input store = .ok store') :
    Holds P before (calls ++ [input]) store' := by
  obtain ⟨hnow, haccepted, hfiles, hindex⟩ := persistModelCallArtifacts_ok h
  have hadded : ([.prompt, .response, .call].map (createArtifactSummary P input
      (written P input store) ⟨callTime input, hnow⟩)).map listed =
      allParts.map (partListed P input) := by
    rw [List.map_map]
    rfl
  constructor
  · have hall : before ++ callsListed P (calls ++ [input]) = store.index.map listed ++
        ([.prompt, .response, .call].map (createArtifactSummary P input (written P input store)
          ⟨callTime input, hnow⟩)).map listed := by
      rw [callsListed_append, ← List.append_assoc, ← hholds.index, ← hadded]
    rw [hindex, registerArtifacts_fresh, hall]
    · rw [← hall]
      exact callsListed_ids horder
    · rw [← hall]
      exact callsListed_ascending horder
  · intro call hmem
    rcases List.mem_append.mp hmem with hold | hlast
    · obtain ⟨hcall, hfile⟩ := hholds.files call hold
      refine ⟨hcall, ?_⟩
      rw [hfiles, written_other, hfile]
      intro part
      exact resolve_partPath_ne (Or.inl (horder.last_apart hold))
    · rw [List.mem_singleton.mp hlast]
      refine ⟨haccepted, ?_⟩
      rw [hfiles]
      exact written_call P input store

/-- The calls one after the other; the first that is refused ends them. -/
def persistAll (P : ModelCallPlatform) (calls : List PersistModelCallArtifactsInput)
    (store : CallStore) : Except CallStore CallStore :=
  calls.foldlM (fun store call => persistModelCallArtifacts P call store) store

/-- **Calls that are named apart and made in order are all held.** -/
theorem holds_all (horder : InOrder P (store.index.map listed) calls)
    (h : persistAll P calls store = .ok store') : Holds P (store.index.map listed) calls store' := by
  induction calls using List.reverseRecOn generalizing store' with
  | nil =>
      cases h
      exact ⟨(List.append_nil _).symm, fun call hmem => absurd hmem List.not_mem_nil⟩
  | append_singleton calls input ih =>
      unfold persistAll at h
      rw [List.foldlM_append] at h
      cases hfront : calls.foldlM (fun store call => persistModelCallArtifacts P call store)
          store with
      | error stopped =>
          rw [hfront] at h
          cases h
      | ok middle =>
          rw [hfront] at h
          simp only [List.foldlM_cons, List.foldlM_nil, bind_pure] at h
          exact holds_step horder (ih horder.front hfront) h

/-! ### The calls of a plan -/

/-- The call is of the plan. -/
def OfPlan (planId : String) (call : PersistModelCallArtifactsInput) : Prop :=
  present call.planId = some planId

instance (planId : String) (call : PersistModelCallArtifactsInput) : Decidable (OfPlan planId call) :=
  inferInstanceAs (Decidable (present call.planId = some planId))

/-- The directory of a call is the same from where it is read and from where it is written. -/
def Findable (P : ModelCallPlatform) (call : PersistModelCallArtifactsInput) : Prop :=
  P.callerCwd.resolve call.artifactDir.toList = P.processCwd.resolve call.artifactDir.toList

theorem readArtifactContent_call (hfind : Findable P input) :
    readArtifactContent P store (String.ofList (partPath P input .call)) =
      store.files (P.processCwd.resolve (partPath P input .call)) := by
  have hlocal : ¬ "file://".toList.isPrefixOf (partPath P input .call) = true := by
    intro hscheme
    obtain ⟨rest, hrest⟩ := List.isPrefixOf_iff_prefix.mp hscheme
    refine AbsolutePath.join_no_double_slash input.artifactDir.toList (partFile P input .call) ?_
    exact ⟨"file:".toList, rest, hrest⟩
  have htext : (String.ofList (partPath P input .call)).toList = partPath P input .call :=
    String.toList_ofList
  unfold readArtifactContent
  dsimp only
  rw [htext, if_neg hlocal, resolve_partPath, resolve_partPath, hfind]

/-- What the index leads to, of an entry. -/
def readListed (P : ModelCallPlatform) (store : CallStore) (planId : String) (entry : Listed) :
    Option (ModelCallArtifact P) :=
  if entry.kind = .modelCall ∧ entry.relatedPlanId = some planId then
    (readArtifactContent P store entry.pathOrUri).bind (ModelCallArtifact.parse P)
  else none

theorem listModelCallArtifactsForPlan_eq (planId : String) :
    listModelCallArtifactsForPlan P store planId =
      (store.index.map listed).filterMap (readListed P store planId) := by
  unfold listModelCallArtifactsForPlan
  rw [List.filterMap_filter, List.filterMap_map]
  refine List.filterMap_congr ?_
  intro entry _
  unfold readListed listed
  simp only [Function.comp_apply, decide_eq_true_eq]

/-- The calls of the plan are listed as they were made. -/
theorem listed_calls {planId : String} (hholds : Holds P before calls store)
    (hbefore : ∀ entry ∈ before, entry.kind = .modelCall → entry.relatedPlanId ≠ some planId)
    (hfind : ∀ call ∈ calls, OfPlan planId call → Findable P call) :
    (listModelCallArtifactsForPlan P store planId).map (·.toCallFields) =
      (calls.filter (OfPlan planId ·)).map (callFields P) := by
  have hnone : before.filterMap (readListed P store planId) = [] := by
    rw [List.filterMap_eq_nil_iff]
    intro entry hentry
    exact if_neg fun h => hbefore entry hentry h.1 h.2
  rw [listModelCallArtifactsForPlan_eq, hholds.index, List.filterMap_append, hnone,
    List.nil_append]
  have hfiles := hholds.files
  clear hholds
  unfold callsListed
  induction calls with
  | nil => rfl
  | cons call rest ih =>
      have hrest := ih (fun other hmem => hfind other (List.mem_cons_of_mem _ hmem))
        (fun other hmem => hfiles other (List.mem_cons_of_mem _ hmem))
      obtain ⟨haccepted, hfile⟩ := hfiles call List.mem_cons_self
      rw [List.flatMap_cons, List.filterMap_append, List.map_append, hrest]
      have hkind : Output.ArtifactKind.rawLog ≠ .modelCall := by decide
      have hprompt : readListed P store planId (partListed P call .prompt) = none :=
        if_neg fun h => hkind h.1
      have hresponse : readListed P store planId (partListed P call .response) = none :=
        if_neg fun h => hkind h.1
      have hcall : readListed P store planId (partListed P call .call) =
          if OfPlan planId call then some ⟨callFields P call, haccepted⟩ else none := by
        unfold readListed
        by_cases hplan : OfPlan planId call
        · have hread := @readArtifactContent_call P call store
            (hfind call List.mem_cons_self hplan)
          rw [if_pos ⟨rfl, hplan⟩, if_pos hplan]
          refine (congrArg (Option.bind · (ModelCallArtifact.parse P)) (hread.trans hfile)).trans ?_
          exact dif_pos haccepted
        · rw [if_neg fun h => hplan h.2, if_neg hplan]
      simp only [allParts, List.map_cons, List.map_nil, List.filterMap_cons, hprompt, hresponse,
        hcall, List.filterMap_nil]
      by_cases hplan : OfPlan planId call
      · rw [if_pos hplan, List.filter_cons_of_pos (by simpa using hplan)]
        rfl
      · rw [if_neg hplan, List.filter_cons_of_neg (by simpa using hplan)]
        rfl

/-! ### The summary of a plan -/

/-- What a summary reads of a record. -/
structure Counted where
  provider : String
  model : String
  roleLabel : String
  inputTokens : Nat
  outputTokens : Nat
  totalTokens : Nat
  cachedInputTokens : Option Nat
  reasoningTokens : Option Nat
  providerReportedCostUsd : Option JsNumber
  estimatedCostUsd : Option JsNumber
  estimated : Bool

def counted (record : UsageFields) : Counted where
  provider := record.provider
  model := record.model
  roleLabel := record.roleLabel
  inputTokens := record.inputTokens
  outputTokens := record.outputTokens
  totalTokens := record.totalTokens
  cachedInputTokens := record.cachedInputTokens
  reasoningTokens := record.reasoningTokens
  providerReportedCostUsd := record.providerReportedCostUsd
  estimatedCostUsd := record.estimatedCostUsd
  estimated := record.estimated

theorem foldl_congr_map {α β γ : Type} {g : α → γ} {f : β → α → β}
    (hf : ∀ b x y, g x = g y → f b x = f b y) {xs ys : List α} (h : xs.map g = ys.map g) (b : β) :
    xs.foldl f b = ys.foldl f b := by
  induction xs generalizing ys b with
  | nil =>
      rw [List.map_eq_nil_iff.mp h.symm]
  | cons x rest ih =>
      cases ys with
      | nil => cases h
      | cons y others =>
          obtain ⟨hfirst, hrest⟩ := List.cons.inj h
          rw [List.foldl_cons, List.foldl_cons, hf b x y hfirst, ih hrest]

/-- **A summary is made of what it reads.** -/
theorem summarizeModelUsage_congr {xs ys : List ModelUsageRecord}
    (h : (xs.map fun record => counted record.toUsageFields) =
      ys.map fun record => counted record.toUsageFields) :
    summarizeModelUsage R xs = summarizeModelUsage R ys := by
  have hmap : ∀ {γ : Type} (f : Counted → γ),
      (xs.map fun record => f (counted record.toUsageFields)) =
        ys.map fun record => f (counted record.toUsageFields) := by
    intro γ f
    have hcomp := congrArg (List.map f) h
    rwa [List.map_map, List.map_map] at hcomp
  have hany : ∀ f : Counted → Bool, (xs.any fun record => f (counted record.toUsageFields)) =
      ys.any fun record => f (counted record.toUsageFields) := by
    intro f
    have hbools := congrArg (List.any · id) (hmap f)
    rwa [List.any_map, List.any_map] at hbools
  have hrows : usageByRole R xs = usageByRole R ys := by
    unfold usageByRole Table.Keyed.tally
    rw [List.foldl_filter, List.foldl_filter]
    refine foldl_congr_map ?_ h _
    intro table record other hsame
    have hrole : record.roleLabel = other.roleLabel := congrArg Counted.roleLabel hsame
    have hadd : ∀ row, RoleUsage.add R row record = RoleUsage.add R row other := by
      intro row
      simp only [counted, Counted.mk.injEq] at hsame
      simp only [RoleUsage.add, UsageFields.cost, hsame]
    simp only [Table.Keyed.enter, hrole, hadd]
  have hhead : (xs.head?.map fun record => record.provider) = ys.head?.map fun record =>
      record.provider := by
    have hproviders := congrArg List.head? (hmap (·.provider))
    rwa [List.head?_map, List.head?_map] at hproviders
  have hfields : summaryFields R xs = summaryFields R ys := by
    have hmodel := hmap (·.model)
    have hestimated := hany (·.estimated)
    have hsums : ∀ f : Counted → Nat,
        sumOf (fun record => f (counted record.toUsageFields)) xs =
          sumOf (fun record => f (counted record.toUsageFields)) ys :=
      fun f => congrArg List.sum (hmap f)
    have hcosts : ∀ f : Counted → JsNumber,
        costOf R (fun record => f (counted record.toUsageFields)) xs =
          costOf R (fun record => f (counted record.toUsageFields)) ys :=
      fun f => congrArg (JsNumber.total R) (hmap f)
    have hinput := hsums (·.inputTokens)
    have houtput := hsums (·.outputTokens)
    have hcached := hsums (·.cachedInputTokens.getD 0)
    have hreasoning := hsums (·.reasoningTokens.getD 0)
    have hprovider := hcosts (·.providerReportedCostUsd.getD (.finite 0))
    have hestimate := hcosts (·.estimatedCostUsd.getD (.finite 0))
    simp only [counted] at hmodel hestimated hinput houtput hcached hreasoning hprovider hestimate
    unfold summaryFields
    rw [hrows, hhead, hmodel, hestimated, hinput, houtput, hcached, hreasoning, hprovider,
      hestimate]
  have hnames : xs.any (·.roleLabel ∈ brokenRoles) = ys.any (·.roleLabel ∈ brokenRoles) :=
    hany (·.roleLabel ∈ brokenRoles)
  unfold summarizeModelUsage
  rw [hfields, hnames]

/-- The records of the plan's calls. -/
def recordsOfPlan (planId : String) (calls : List PersistModelCallArtifactsInput) :
    List ModelUsageRecord :=
  (calls.filter (OfPlan planId ·)).filterMap (·.usageRecord)

/-- The call comes with a record, which names what is written of the call. -/
def Recorded (call : PersistModelCallArtifactsInput) : Prop :=
  ∃ record, call.usageRecord = some record ∧ record.provider = call.provider ∧
    record.model = call.model ∧ record.roleLabel = (artifactRoleForModelRole call.role).text

/-- What is asked of the calls, so that the summary of a plan is that of its records. -/
structure Accountable (P : ModelCallPlatform) (planId : String) (before : List Listed)
    (calls : List PersistModelCallArtifactsInput) : Prop where
  order : InOrder P before calls
  unlisted : ∀ entry ∈ before, entry.kind = .modelCall → entry.relatedPlanId ≠ some planId
  findable : ∀ call ∈ calls, OfPlan planId call → Findable P call
  recorded : ∀ call ∈ calls, OfPlan planId call → Recorded call
  called : ∃ call ∈ calls, OfPlan planId call

theorem counted_callFields {record : ModelUsageRecord} (h : input.usageRecord = some record)
    (hprovider : record.provider = input.provider) (hmodel : record.model = input.model)
    (hrole : record.roleLabel = (artifactRoleForModelRole input.role).text) :
    counted (rebuiltFields (callFields P input)) = counted record.toUsageFields := by
  simp [counted, rebuiltFields, callFields, h, hprovider, hmodel, hrole]

/-- What the summary reads of the rebuilt records it would read of the originals. -/
theorem counted_calls {planId : String} (h : ∀ call ∈ calls, OfPlan planId call → Recorded call) :
    ((calls.filter (OfPlan planId ·)).map fun call => counted (rebuiltFields (callFields P call))) =
      (recordsOfPlan planId calls).map fun record => counted record.toUsageFields := by
  unfold recordsOfPlan
  induction calls with
  | nil => rfl
  | cons call rest ih =>
      have hrest := ih fun other hmem => h other (List.mem_cons_of_mem _ hmem)
      by_cases hplan : OfPlan planId call
      · obtain ⟨record, hrecord, hprovider, hmodel, hrole⟩ := h call List.mem_cons_self hplan
        rw [List.filter_cons_of_pos (by simpa using hplan), List.map_cons, List.filterMap_cons,
          hrecord, List.map_cons, hrest, counted_callFields hrecord hprovider hmodel hrole]
      · rw [List.filter_cons_of_neg (by simpa using hplan)]
        exact hrest

/-- **The summary of a plan whose calls can be accounted for is the summary of their records.** -/
theorem plan_summary {planId : String} (h : Accountable P planId (store.index.map listed) calls)
    (hpersist : persistAll P calls store = .ok store') :
    summarizeModelCallArtifactsForPlan P R store' planId =
      (summarizeModelUsage R (recordsOfPlan planId calls)).map some := by
  have hlisted := listed_calls (holds_all h.order hpersist) h.unlisted h.findable
  have hcounted : (((listModelCallArtifactsForPlan P store' planId).map
      (usageRecordFromModelCallArtifact P)).map fun record => counted record.toUsageFields) =
      (recordsOfPlan planId calls).map fun record => counted record.toUsageFields := by
    rw [← counted_calls h.recorded, List.map_map]
    have hmapped := congrArg (List.map fun fields => counted (rebuiltFields fields)) hlisted
    rw [List.map_map, List.map_map] at hmapped
    exact hmapped
  have hsome : ((listModelCallArtifactsForPlan P store' planId).map
      (usageRecordFromModelCallArtifact P)).length > 0 := by
    obtain ⟨call, hmem, hplan⟩ := h.called
    have hlength := congrArg List.length hlisted
    rw [List.length_map, List.length_map] at hlength
    rw [List.length_map, hlength]
    exact List.length_pos_of_mem (List.mem_filter.mpr ⟨hmem, by simpa using hplan⟩)
  unfold summarizeModelCallArtifactsForPlan
  dsimp only
  rw [if_pos hsome, summarizeModelUsage_congr hcounted]

/-! ### What is accounted for -/

section Sample

/-- The digest of the call below. -/
def sampleDigest : List Char :=
  ['c', '7', '7', '5', 'a', '1', '0', '9', '7', '0', '2', 'c', '7', 'f', 'd', 'a',
    'b', 'e', '1', '6', 'c', '7', 'e', 'b', '0', '9', 'f', '7', '9', 'b', '3', '4',
    '5', '1', '9', '2', '1', '2', 'e', 'e', '3', '5', '2', 'c', '4', 'f', '6', '6',
    '7', '4', 'f', '0', '9', '4', '5', 'd', 'a', 'd', '4', '4', 'd', 'a', '1', '0']

theorem sampleDigest_hex : ∀ c ∈ sampleDigest, '0' ≤ c ∧ c ≤ '9' ∨ 'a' ≤ c ∧ c ≤ 'f' := by
  have hall : sampleDigest.all (fun c => '0' ≤ c ∧ c ≤ '9' ∨ 'a' ≤ c ∧ c ≤ 'f') = true := by decide
  exact fun c hc => of_decide_eq_true (List.all_eq_true.mp hall c hc)

def sampleCalls : ModelCallPlatform where
  callerCwd := []
  processCwd := []
  localeCompare a b := compare a b
  toLowerCase := id
  isDatetime text := text = "2026-04-30T12:00:00.000Z"
  sha256 _ := String.ofList sampleDigest
  sha256_length _ := by rw [String.toList_ofList]; rfl
  sha256_hex _ := by rw [String.toList_ofList]; exact sampleDigest_hex
  localeCompare_self _ := compare_eq_iff_eq.mpr rfl
  redactModelCallValue value := (value, .noSensitiveContentDetected)
  jsonSize _ := 0

def askedPlan : UsageInput where
  modelRef := ⟨"local", "local-model", "planner"⟩
  prompt := "\"plan\""
  output := "\"ok\""
  latencyMs := 10
  status := some .completed
  error := none
  outputArtifactId := none
  trace := ⟨none, none, some "plan_1", none⟩

/-- Five tokens of reasoning are in the total alone. -/
def reasoningUsage : ProviderResult where
  requestId := none
  usage := fun name =>
    if name = "inputTokens" then some (.finite 10)
    else if name = "outputTokens" then some (.finite 5)
    else if name = "totalTokens" then some (.finite 20)
    else none

def plannedFields (total : Nat) : UsageFields :=
  usageFields .exact id askedPlan 10 5 total none none none false

def plannedRecord : ModelUsageRecord := ⟨plannedFields 15, by decide +kernel⟩

def reasonedRecord : ModelUsageRecord := ⟨plannedFields 20, by decide +kernel⟩

theorem numberField_whole (n : Nat) : numberField (some (.finite n)) = some n := by
  have hfloor : ⌊(n : ℚ) + 1 / 2⌋ = n := by
    rw [Int.floor_natCast_add]
    norm_num
  rw [numberField, hfloor]
  rfl

theorem reasonedRecord_reported :
    usageRecordFromProvider .exact id askedPlan reasoningUsage = some reasonedRecord := by
  have hinput : reasoningUsage.inputTokens = some 10 := by
    have hfield : numberField (reasoningUsage.usage "inputTokens") = some 10 := numberField_whole 10
    simp only [ProviderResult.inputTokens, ProviderResult.firstOf, List.findSome?_cons, hfield]
  have houtput : reasoningUsage.outputTokens = some 5 := by
    have hfield : numberField (reasoningUsage.usage "outputTokens") = some 5 := numberField_whole 5
    simp only [ProviderResult.outputTokens, ProviderResult.firstOf, List.findSome?_cons, hfield]
  have htotal : reasoningUsage.totalTokens = some 20 := by
    have hfield : numberField (reasoningUsage.usage "totalTokens") = some 20 := numberField_whole 20
    simp only [ProviderResult.totalTokens, ProviderResult.firstOf, List.findSome?_cons, hfield]
  have hcached : reasoningUsage.firstOf ["cachedInputTokens", "cached_input_tokens"] = none := by
    decide
  have hreasoning : reasoningUsage.firstOf ["reasoningTokens", "reasoning_tokens"] = none := by
    decide
  have hsome : ¬ ((some 10 : Option Nat) = none ∧ (some 5 : Option Nat) = none ∧
      (some 20 : Option Nat) = none) := by decide
  unfold usageRecordFromProvider
  dsimp only
  rw [hinput, houtput, htotal, hcached, hreasoning, if_neg hsome]
  exact dif_pos reasonedRecord.accepted

def plannedCall : PersistModelCallArtifactsInput where
  artifactDir := ".open-lagrange/model-calls"
  callId := "call_1"
  role := "planner"
  provider := "local"
  model := "local-model"
  status := .success
  startedAt := "2026-04-30T12:00:00.000Z"
  completedAt := none
  prompt := .str "plan"
  response := .str "ok"
  usageRecord := some plannedRecord
  routeId := none
  planId := some "plan_1"
  nodeId := none
  workOrderId := none
  scenarioId := none
  evalRunId := none
  inputArtifactRefs := []
  outputArtifactRefs := []
  outputSchemaName := none
  schemaValidationStatus := .passed
  latencyMs := some 10
  errorCode := none
  errorMessage := none

def emptyStore : CallStore := ⟨fun _ => none, []⟩

theorem persistModelCallArtifacts_accepted (haccepted : (callFields P input).accepted P = true)
    (hnow : P.isDatetime (callTime input) = true) (store : CallStore) :
    ∃ store', persistModelCallArtifacts P input store = .ok store' := by
  have hparse : ModelCallArtifact.parse P (.call (callFields P input)) =
      some ⟨callFields P input, haccepted⟩ := dif_pos haccepted
  have hnow' : P.isDatetime (input.completedAt.getD input.startedAt) = true := hnow
  unfold persistModelCallArtifacts
  rw [hparse]
  exact ⟨_, dif_pos hnow'⟩

theorem plannedCall_persisted :
    ∃ store', persistModelCallArtifacts sampleCalls plannedCall emptyStore = .ok store' :=
  persistModelCallArtifacts_accepted (by decide +kernel) (by decide) emptyStore

theorem plannedCall_accountable :
    Accountable sampleCalls "plan_1" (emptyStore.index.map listed) [plannedCall] where
  order :=
    { listedApart := List.nodup_nil
      fresh := fun _ hentry => absurd hentry List.not_mem_nil
      apart := List.nodup_singleton _
      ascending := List.pairwise_singleton _ _ }
  unlisted := fun _ hentry => absurd hentry List.not_mem_nil
  findable := fun _ _ _ => rfl
  recorded := by
    intro call hmem _
    rw [List.mem_singleton.mp hmem]
    exact ⟨plannedRecord, rfl, rfl, rfl, by decide⟩
  called := ⟨plannedCall, List.mem_singleton_self _, by decide⟩

end Sample

end OpenLagrange.Models
