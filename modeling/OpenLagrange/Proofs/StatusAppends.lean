/-
What becomes of the observations and errors that are appended together.

As long as one project is appended to, the two lookup ids hold one status, and appending is a
change of that status: in one block in memory, in two blocks in SQLite.  What the runs of such
calls come to is known, so a status loses nothing in memory, and in SQLite exactly if no call
writes between the reading and the writing of another.
-/
import OpenLagrange.Storage.ProjectStatus

namespace OpenLagrange

open Interleave

variable {isDatetime : String → Bool}

/-! ### One status under two ids -/

/-- A status of the project run that its schema accepts. -/
abbrev ProjectRecord (isDatetime : String → Bool) (projectId runId : String) :=
  { status : WorkflowStatusSnapshot //
    status.projectId = projectId ∧ status.projectRunId = runId ∧ status.refined isDatetime = true }

variable {projectId runId : String}

/-- The statuses in which the project's is this one. -/
def place (base : ProjectStatuses) (record : ProjectRecord isDatetime projectId runId) :
    ProjectStatuses :=
  Function.update (Function.update base projectId (some record.1)) runId (some record.1)

theorem place_get (base : ProjectStatuses) (record : ProjectRecord isDatetime projectId runId)
    {lookupId : String} (h : lookupId = projectId ∨ lookupId = runId) :
    place base record lookupId = some record.1 := by
  unfold place
  by_cases hrun : lookupId = runId
  · rw [hrun, Function.update_self]
  · rw [Function.update_of_ne hrun, h.resolve_right hrun, Function.update_self]

theorem recordProjectStatus_place (base : ProjectStatuses)
    (record record' : ProjectRecord isDatetime projectId runId) :
    recordProjectStatus isDatetime (place base record) record'.1 = place base record' := by
  obtain ⟨status, hproject, hrun, hrefined⟩ := record'
  unfold recordProjectStatus
  rw [if_pos hrefined]
  funext lookupId
  unfold place
  simp only
  rw [hproject, hrun]
  by_cases hisRun : lookupId = runId
  · rw [hisRun, Function.update_self, Function.update_self]
  · rw [Function.update_of_ne hisRun, Function.update_of_ne hisRun]
    by_cases hisProject : lookupId = projectId
    · rw [hisProject, Function.update_self, Function.update_self]
    · rw [Function.update_of_ne hisProject, Function.update_of_ne hisProject,
        Function.update_of_ne hisRun, Function.update_of_ne hisProject]

theorem append_refined {status : WorkflowStatusSnapshot} {item : StatusItem}
    (hstatus : status.refined isDatetime = true) (hitem : item.refined isDatetime = true) :
    (status.append item).projectId = status.projectId ∧
      (status.append item).projectRunId = status.projectRunId ∧
      (status.append item).refined isDatetime = true := by
  unfold WorkflowStatusSnapshot.refined at hstatus
  simp only [Bool.and_eq_true] at hstatus
  obtain ⟨⟨⟨⟨hproject, hrun⟩, hobservations⟩, herrors⟩, -⟩ := hstatus
  cases item with
  | observation item =>
      have hparts : nonempty item.observationId = true ∧ isDatetime item.observedAt = true := by
        simpa [StatusItem.refined, Observation.refined] using hitem
      refine ⟨rfl, rfl, ?_⟩
      have hall : (status.observations ++ [item]).all (·.refined isDatetime) = true := by
        rw [List.all_append, hobservations, Bool.true_and, List.all_cons, List.all_nil]
        exact (Bool.and_true _).trans hitem
      simp [WorkflowStatusSnapshot.append, WorkflowStatusSnapshot.refined, hproject, hrun, hall,
        herrors, hparts.2]
  | error item =>
      refine ⟨rfl, rfl, ?_⟩
      have hall : (status.errors ++ [item]).all (·.refined isDatetime) = true := by
        rw [List.all_append, herrors, Bool.true_and, List.all_cons, List.all_nil]
        exact (Bool.and_true _).trans hitem
      have hdate : isDatetime item.observedAt = true := by
        have hparts := hitem
        simp only [StatusItem.refined, StructuredError.refined, Bool.and_eq_true] at hparts
        exact hparts.2
      simp [WorkflowStatusSnapshot.append, WorkflowStatusSnapshot.refined, hproject, hrun, hall,
        hobservations, hdate]

theorem append_observations (status : WorkflowStatusSnapshot) (item : StatusItem) :
    (status.append item).observations = status.observations ++ [item].filterMap (·.observation?) := by
  cases item with
  | observation item => rfl
  | error item => exact (List.append_nil _).symm

theorem append_errors (status : WorkflowStatusSnapshot) (item : StatusItem) :
    (status.append item).errors = status.errors ++ [item].filterMap (·.error?) := by
  cases item with
  | observation item => exact (List.append_nil _).symm
  | error item => rfl

/-- An item is one or the other. -/
theorem length_items (items : List StatusItem) :
    (items.filterMap (·.observation?)).length + (items.filterMap (·.error?)).length =
      items.length := by
  induction items with
  | nil => rfl
  | cons item rest ih =>
      cases item with
      | observation item =>
          have hobservations : (StatusItem.observation item :: rest).filterMap (·.observation?) =
              item :: rest.filterMap (·.observation?) := rfl
          have herrors : (StatusItem.observation item :: rest).filterMap (·.error?) =
              rest.filterMap (·.error?) := rfl
          rw [hobservations, herrors, List.length_cons, List.length_cons]
          omega
      | error item =>
          have hobservations : (StatusItem.error item :: rest).filterMap (·.observation?) =
              rest.filterMap (·.observation?) := rfl
          have herrors : (StatusItem.error item :: rest).filterMap (·.error?) =
              item :: rest.filterMap (·.error?) := rfl
          rw [hobservations, herrors, List.length_cons, List.length_cons]
          omega

/-! ### Appending as a change -/

/-- What an item does to the status; an item that its schema refuses does nothing. -/
def StatusItem.change (item : StatusItem) :
    Option (ProjectRecord isDatetime projectId runId → ProjectRecord isDatetime projectId runId) :=
  if hitem : item.refined isDatetime = true then
    some fun record =>
      ⟨record.1.append item, by
        obtain ⟨hproject, hrun, hrefined⟩ := append_refined record.2.2.2 hitem
        exact ⟨hproject.trans record.2.1, hrun.trans record.2.2.1, hrefined⟩⟩
  else none

/-- How the store carries out a change. -/
def StatusBackend.carryOut {V : Type} (change : Option (V → V)) : StatusBackend → Interleave.Call V
  | .inMemory => atOnce change
  | .sqlite => readThenWrite change

theorem appendParsed_place (base : ProjectStatuses)
    (record record' : ProjectRecord isDatetime projectId runId) (item : StatusItem) :
    appendParsed isDatetime (place base record) record'.1 item =
      place base (item.change.elim record fun f => f record') := by
  unfold appendParsed StatusItem.change
  by_cases hitem : item.refined isDatetime = true
  · rw [if_pos hitem, dif_pos hitem]
    exact recordProjectStatus_place base record ⟨record'.1.append item, _⟩
  · rw [if_neg hitem, dif_neg hitem]
    rfl

theorem append_follows (backend : StatusBackend) (base : ProjectStatuses) {lookupId : String}
    (hlookup : lookupId = projectId ∨ lookupId = runId) (item : StatusItem) :
    Follows (@place isDatetime projectId runId base)
      (backend.append isDatetime lookupId item) (backend.carryOut item.change) := by
  cases backend with
  | inMemory =>
      refine Follows.block (fun record => ?_) fun _ => ?_
      · rw [place_get base record hlookup]
        exact appendParsed_place base record record item
      · exact Follows.done
  | sqlite =>
      refine Follows.block (fun record => rfl) fun seen => ?_
      rw [place_get base seen hlookup]
      simp only
      rw [if_pos seen.2.2.2]
      refine Follows.block (fun record => ?_) fun _ => ?_
      · exact appendParsed_place base record seen item
      · exact Follows.done

/-! ### What the runs come to -/

/-- An item to append, to the project found by its run or by its own id. -/
structure StatusAppend where
  byRun : Bool
  item : StatusItem

namespace StatusAppend

def lookupId (call : StatusAppend) (snapshot : WorkflowStatusSnapshot) : String :=
  if call.byRun then snapshot.projectRunId else snapshot.projectId

end StatusAppend

/-- The stored statuses once the status was recorded and the calls have had these turns. -/
def runAppends (isDatetime : String → Bool) (backend : StatusBackend) (base : ProjectStatuses)
    (snapshot : WorkflowStatusSnapshot) (calls : List StatusAppend)
    (turns : List (Fin calls.length)) : Running (Fin calls.length) ProjectStatuses :=
  run (fun i => backend.append isDatetime (calls[i].lookupId snapshot) calls[i].item)
    (recordProjectStatus isDatetime base snapshot) turns

/-- The items of the calls that do not throw. -/
def appended (isDatetime : String → Bool) (calls : List StatusAppend) : List StatusItem :=
  (calls.map (·.item)).filter (·.refined isDatetime)

/-- Both ids have one status, and it has what it had and each appended item once. -/
def Kept (isDatetime : String → Bool) (snapshot : WorkflowStatusSnapshot)
    (calls : List StatusAppend) (statuses : ProjectStatuses) : Prop :=
  ∃ status, statuses snapshot.projectId = some status ∧
    statuses snapshot.projectRunId = some status ∧
    status.observations.Perm (snapshot.observations ++
      (appended isDatetime calls).filterMap (·.observation?)) ∧
    status.errors.Perm (snapshot.errors ++ (appended isDatetime calls).filterMap (·.error?))

section Changes

variable {n : Nat} (items : Fin n → StatusItem)

variable (projectId runId) in
/-- The changes that the calls make. -/
def changes (isDatetime : String → Bool) (i : Fin n) :
    Option (ProjectRecord isDatetime projectId runId → ProjectRecord isDatetime projectId runId) :=
  (items i).change

theorem isSome_changes {i : Fin n} :
    (changes projectId runId items isDatetime i).isSome ↔ (items i).refined isDatetime = true := by
  unfold changes StatusItem.change
  split
  · rename_i hrefined
    exact iff_of_true rfl hrefined
  · rename_i hrefined
    exact iff_of_false Bool.false_ne_true hrefined

/-- The items that were added, the last first. -/
def added (isDatetime : String → Bool) (order : List (Fin n)) : List StatusItem :=
  (order.reverse.map items).filter (·.refined isDatetime)

theorem added_cons (i : Fin n) (rest : List (Fin n)) :
    added items isDatetime (i :: rest) = added items isDatetime rest ++
      [items i].filter (·.refined isDatetime) := by
  unfold added
  rw [List.reverse_cons, List.map_append, List.filter_append, List.map_singleton]

theorem changed_items (record : ProjectRecord isDatetime projectId runId) (order : List (Fin n)) :
    let record' := changed (changes projectId runId items isDatetime) record order
    record'.1.observations = record.1.observations ++
        (added items isDatetime order).filterMap (·.observation?) ∧
      record'.1.errors = record.1.errors ++
        (added items isDatetime order).filterMap (·.error?) := by
  induction order with
  | nil => simp [changed, added]
  | cons i rest ih =>
      obtain ⟨hobservations, herrors⟩ := ih
      dsimp only
      rw [added_cons, List.filterMap_append, List.filterMap_append, ← List.append_assoc,
        ← List.append_assoc, ← hobservations, ← herrors, changed, List.foldr_cons, ← changed,
        changes, StatusItem.change]
      by_cases hitem : (items i).refined isDatetime = true
      · rw [dif_pos hitem, Option.elim_some, List.filter_cons_of_pos hitem]
        exact ⟨append_observations _ _, append_errors _ _⟩
      · rw [dif_neg hitem, Option.elim_none, List.filter_cons_of_neg hitem]
        exact ⟨(List.append_nil _).symm, (List.append_nil _).symm⟩

/-- What a status holds. -/
def itemCount (record : ProjectRecord isDatetime projectId runId) : Nat :=
  record.1.observations.length + record.1.errors.length

theorem itemCount_change (i : Fin n)
    (f : ProjectRecord isDatetime projectId runId → ProjectRecord isDatetime projectId runId)
    (hchange : changes projectId runId items isDatetime i = some f)
    (record : ProjectRecord isDatetime projectId runId) :
    itemCount (f record) = itemCount record + 1 := by
  unfold changes StatusItem.change at hchange
  split at hchange
  · cases hchange
    have hone := length_items [items i]
    unfold itemCount
    dsimp only
    rw [append_observations, append_errors, List.length_append, List.length_append]
    rw [List.length_singleton] at hone
    omega
  · cases hchange

end Changes

/-- Every call that does not throw is among those that wrote, and only once. -/
theorem writers_perm {n k : Nat} (items : Fin n → StatusItem) {turns : List (Fin n)}
    (h : ∀ i, k < turns.count i) :
    (writers (changes projectId runId items isDatetime) k turns).Perm
      ((List.finRange n).filter fun i => (items i).refined isDatetime) := by
  refine (List.perm_ext_iff_of_nodup (nodup_writers k turns)
    ((List.nodup_finRange n).filter _)).mpr fun i => ?_
  rw [List.mem_filter]
  constructor
  · intro hmem
    exact ⟨List.mem_finRange i, (isSome_changes items).mp (writers_subset hmem).1⟩
  · intro hmem
    exact mem_writers ((isSome_changes items).mpr hmem.2) (h i)

theorem added_perm {calls : List StatusAppend} {order : List (Fin calls.length)}
    (h : order.Perm ((List.finRange calls.length).filter fun i =>
      calls[i].item.refined isDatetime)) :
    (added (fun i => calls[i].item) isDatetime order).Perm (appended isDatetime calls) := by
  have hall : ((List.finRange calls.length).map fun i => calls[i].item) = calls.map (·.item) := by
    conv_rhs => rw [← List.map_get_finRange calls, List.map_map]
    rfl
  have hperm := ((List.reverse_perm order).trans h).map fun i => calls[i].item
  refine (hperm.filter _).trans (List.Perm.of_eq ?_)
  rw [List.filter_map, List.filter_filter, appended, ← hall, List.filter_map]
  refine congrArg _ (List.filter_congr fun i _ => ?_)
  exact Bool.and_self _

theorem kept_place {base : ProjectStatuses} {snapshot : WorkflowStatusSnapshot}
    {calls : List StatusAppend}
    (record : ProjectRecord isDatetime snapshot.projectId snapshot.projectRunId) :
    Kept isDatetime snapshot calls (place base record) ↔
      record.1.observations.Perm (snapshot.observations ++
        (appended isDatetime calls).filterMap (·.observation?)) ∧
      record.1.errors.Perm (snapshot.errors ++
        (appended isDatetime calls).filterMap (·.error?)) := by
  unfold Kept
  rw [place_get base record (Or.inl rfl), place_get base record (Or.inr rfl)]
  constructor
  · rintro ⟨status, hstatus, -, hkept⟩
    cases hstatus
    exact hkept
  · intro hkept
    exact ⟨record.1, rfl, rfl, hkept⟩

section Finished

variable {snapshot : WorkflowStatusSnapshot} {calls : List StatusAppend}
  (hsnapshot : snapshot.refined isDatetime = true)

/-- The status as it is recorded before the calls. -/
abbrev recorded : ProjectRecord isDatetime snapshot.projectId snapshot.projectRunId :=
  ⟨snapshot, rfl, rfl, hsnapshot⟩

/-- Changes made one after the other, each call's once, keep everything. -/
theorem kept_changed {base : ProjectStatuses} {order : List (Fin calls.length)}
    (horder : order.Perm ((List.finRange calls.length).filter fun i =>
      calls[i].item.refined isDatetime)) :
    Kept isDatetime snapshot calls (place base (changed (changes _ _ (fun i => calls[i].item)
      isDatetime) (recorded hsnapshot) order)) := by
  obtain ⟨hobservations, herrors⟩ :=
    changed_items (fun i => calls[i].item) (recorded hsnapshot) order
  have hadded := added_perm horder
  rw [kept_place, hobservations, herrors]
  exact ⟨(hadded.filterMap _).append_left _, (hadded.filterMap _).append_left _⟩

/-- What is kept has grown by one item for each call that does not throw. -/
theorem itemCount_of_kept {base : ProjectStatuses}
    {record : ProjectRecord isDatetime snapshot.projectId snapshot.projectRunId}
    (h : Kept isDatetime snapshot calls (place base record)) :
    itemCount record = itemCount (recorded hsnapshot) + (appended isDatetime calls).length := by
  obtain ⟨hobservations, herrors⟩ := (kept_place record).mp h
  have hitems := length_items (appended isDatetime calls)
  unfold itemCount
  rw [hobservations.length_eq, herrors.length_eq, List.length_append, List.length_append]
  show _ = snapshot.observations.length + snapshot.errors.length + _
  omega

end Finished

theorem length_appended (isDatetime : String → Bool) (calls : List StatusAppend) :
    ((List.finRange calls.length).filter fun i => calls[i].item.refined isDatetime).length =
      (appended isDatetime calls).length := by
  have hperm := added_perm (List.Perm.refl ((List.finRange calls.length).filter fun i =>
    calls[i].item.refined isDatetime))
  rw [← hperm.length_eq, added, List.map_reverse, List.filter_reverse, List.length_reverse,
    List.filter_map, List.length_map, List.filter_filter]
  refine congrArg List.length (List.filter_congr fun i _ => ?_)
  exact (Bool.and_self _).symm

/-- **In memory nothing that is appended is lost; in SQLite exactly if no call writes between the
reading and the writing of another.** -/
theorem appends_kept_iff (isDatetime : String → Bool) (backend : StatusBackend)
    (base : ProjectStatuses) (snapshot : WorkflowStatusSnapshot) (calls : List StatusAppend)
    (turns : List (Fin calls.length)) (hsnapshot : snapshot.refined isDatetime = true)
    (hfinished : Finished (runAppends isDatetime backend base snapshot calls turns)) :
    Kept isDatetime snapshot calls
        (runAppends isDatetime backend base snapshot calls turns).state ↔
      backend = .inMemory ∨
        Undisturbed (changes snapshot.projectId snapshot.projectRunId (fun i => calls[i].item)
          isDatetime) turns := by
  have hplace : recordProjectStatus isDatetime base snapshot = place base (recorded hsnapshot) := by
    unfold recordProjectStatus
    rw [if_pos hsnapshot]
    rfl
  have hfollows : ∀ i : Fin calls.length, Follows (place base)
      (backend.append isDatetime (calls[i].lookupId snapshot) calls[i].item)
      (backend.carryOut (changes snapshot.projectId snapshot.projectRunId
        (fun i => calls[i].item) isDatetime i)) := by
    intro i
    refine append_follows backend base ?_ _
    unfold StatusAppend.lookupId
    split
    · exact Or.inr rfl
    · exact Or.inl rfl
  unfold runAppends at hfinished ⊢
  rw [hplace] at hfinished ⊢
  obtain ⟨hstate, hcalls⟩ := run_follows hfollows (recorded hsnapshot) turns
  rw [finished_iff_of_follows hcalls] at hfinished
  rw [hstate]
  cases backend with
  | inMemory =>
      refine iff_of_true ?_ (Or.inl rfl)
      have hcounts : ∀ i, 0 < turns.count i := finished_atOnce hfinished
      have hrun := (run_atOnce (changes snapshot.projectId snapshot.projectRunId
        (fun i => calls[i].item) isDatetime) (recorded hsnapshot) turns).1
      exact hrun ▸ kept_changed hsnapshot (writers_perm _ hcounts)
  | sqlite =>
      have hcounts : ∀ i, 1 < turns.count i := finished_readThenWrite hfinished
      have hperm := @writers_perm isDatetime snapshot.projectId snapshot.projectRunId _ _
        (fun i : Fin calls.length => calls[i].item) _ hcounts
      constructor
      · intro hkept
        refine Or.inr ((undisturbed_iff_size (v := recorded hsnapshot) itemCount
          (itemCount_change _) turns).mpr ?_)
        rw [hperm.length_eq, length_appended]
        exact itemCount_of_kept hsnapshot hkept
      · rintro (hmemory | hundisturbed)
        · cases hmemory
        · have hrun := (run_undisturbed (v := recorded hsnapshot) hundisturbed).1
          exact hrun ▸ kept_changed hsnapshot hperm

/-! ### An observation that is lost -/

def sampleStatus : WorkflowStatusSnapshot :=
  ⟨"project", "run", .running, [], [], [], none, "now"⟩

def sampleAppend (id : String) : StatusAppend :=
  ⟨false, .observation ⟨id, none, none, .recorded, "", .undefined, "now"⟩⟩

/-- Both calls read the status, then the one writes it and the other. -/
def overlapping : List (Fin [sampleAppend "first", sampleAppend "second"].length) := [1, 0, 1, 0]

theorem appends_kept_alternating : Kept (fun _ => true) sampleStatus
    [sampleAppend "first", sampleAppend "second"]
    (runAppends (fun _ => true) .inMemory (fun _ => none) sampleStatus
      [sampleAppend "first", sampleAppend "second"] overlapping).state :=
  (appends_kept_iff (fun _ => true) .inMemory (fun _ => none) sampleStatus
    [sampleAppend "first", sampleAppend "second"] overlapping (by decide)
    (by intro i; fin_cases i <;> rfl)).mpr (Or.inl rfl)

theorem overlapping_loses :
    Finished (runAppends (fun _ => true) .sqlite (fun _ => none) sampleStatus
      [sampleAppend "first", sampleAppend "second"] overlapping) ∧
    ¬ Kept (fun _ => true) sampleStatus [sampleAppend "first", sampleAppend "second"]
      (runAppends (fun _ => true) .sqlite (fun _ => none) sampleStatus
        [sampleAppend "first", sampleAppend "second"] overlapping).state := by
  refine ⟨?_, ?_⟩
  · intro i
    fin_cases i <;> rfl
  · rintro ⟨status, hstatus, -, hobservations, -⟩
    have hone : some status.observations.length = some 1 := congrArg
      (Option.map fun status : WorkflowStatusSnapshot => status.observations.length) hstatus.symm
    have htwo := hobservations.length_eq
    rw [Option.some.inj hone] at htwo
    exact absurd htwo (by decide)

end OpenLagrange
