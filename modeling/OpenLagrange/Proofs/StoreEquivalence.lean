/-
Where the memory backend and the SQLite backend answer alike.

Whatever is written, the two hold the same records: the maps and the tables have their rows
in one order, and an attempt is in the list of its run.  What is looked up by its key is
therefore the same.  A search by task or project is the same only if the row that was
inserted first is the one updated last, and a list only if its rows were updated in the
order they were inserted; an attempt that was recorded for two runs is in both lists in
memory and in the table once.
-/
import OpenLagrange.Lib.Simulation
import OpenLagrange.Storage.RecordStores

namespace OpenLagrange

/-! ### The same records -/

/-- An attempt stands in the lists of the runs it was recorded for, as it was recorded there
last, and in the table as it was recorded last. -/
structure AttemptsMirror (attempts : String → List NodeAttempt)
    (table : Table.Keyed AttemptRow.attemptId) : Prop where
  ofRecord : ∀ row ∈ table.rows, row = row.record.row
  listed : ∀ row ∈ table.rows, row.record ∈ attempts row.runId
  known : ∀ runId, ∀ attempt ∈ attempts runId, ∃ row ∈ table.rows, row.attemptId = attempt.attemptId
  distinct : ∀ runId, ((attempts runId).map (·.attemptId)).Nodup

/-- The two backends hold the same records. -/
structure Mirrors (m : MemoryStores) (s : SqliteStores) : Prop where
  approvals : m.approvals.rows = s.decisions.rows.map (·.decision)
  columns : ∀ row ∈ s.decisions.rows, row.decision.approvalRequestId = row.approvalRequestId ∧
    row.taskId = row.decision.taskId
  contexts : s.contexts.rows = m.continuations.rows.map (·.row)
  envelopes : s.envelopes.rows = m.continuationEnvelopes.rows.map (·.row)
  statuses : s.statuses.rows = m.taskStatuses.rows.map (·.row)
  attempts : AttemptsMirror m.attempts s.attempts

/-- What an operation needs to be answered alike. -/
def AnsweredAlike (m : MemoryStores) (s : SqliteStores) : StoreOp → Prop
  | .getApprovalDecisionForTask id =>
      Table.FirstIsLatest DecisionRow.updatedAt (fun row => m.ofTask id row.decision)
        (SqliteStores.ofTask id) s.decisions.rows
  | .getTaskStatusByTaskId taskId =>
      Table.FirstIsLatest TaskStatusSnapshot.updatedAt (fun status => status.taskId = taskId)
        (fun status => status.taskId = taskId) m.taskStatuses.rows
  | .listTaskStatusesForProject projectId =>
      (m.taskStatuses.rows.filter fun status => status.projectId = projectId).Pairwise
        fun a b => a.updatedAt < b.updatedAt
  | .listNodeAttempts runId nodeId =>
      ((m.attempts runId).filter fun attempt => ofNode nodeId attempt.nodeId).Pairwise
          (fun a b => a.row.updatedAt < b.row.updatedAt) ∧
        ∀ attempt ∈ m.attempts runId, ofNode nodeId attempt.nodeId = true →
          ∀ row ∈ s.attempts.rows, row.attemptId = attempt.attemptId → row.runId = runId
  | _ => True

/-! ### Approvals -/

section Approvals

variable {isDatetime : String → Bool} {tokenHash : String → String} {m : MemoryStores}
  {s : SqliteStores}

theorem Mirrors.getApprovalDecision (hms : Mirrors m s) (id : String) :
    m.getApprovalDecision id = s.getApprovalDecision id := by
  have hget : (s.decisions.get id).map (·.decision)
      = Table.get ApprovalDecision.approvalRequestId (s.decisions.rows.map (·.decision)) id :=
    Table.map_get (fun row hrow => (hms.columns row hrow).1) id
  rw [← hms.approvals] at hget
  exact hget.symm

theorem ApprovalDecision.parse_eq {decision parsed : ApprovalDecision}
    (hparse : decision.parse isDatetime = .ok parsed) : parsed = decision := by
  unfold ApprovalDecision.parse at hparse
  split at hparse
  · exact (Except.ok.inj hparse).symm
  · cases hparse

theorem ApprovalRequest.parse_eq {request : ApprovalRequest} {parsed : ApprovalDecision}
    (hparse : request.parse isDatetime tokenHash = .ok parsed) :
    parsed = request.requested tokenHash := by
  unfold ApprovalRequest.parse at hparse
  split at hparse
  · exact ApprovalDecision.parse_eq hparse
  · cases hparse

/-- A request is created in both. -/
theorem Mirrors.createApprovalRequest (hms : Mirrors m s) (request : ApprovalRequest) :
    Mirrors (m.createApprovalRequest isDatetime tokenHash request).1
        (s.createApprovalRequest isDatetime tokenHash request).1 ∧
      (m.createApprovalRequest isDatetime tokenHash request).2
        = (s.createApprovalRequest isDatetime tokenHash request).2 := by
  unfold MemoryStores.createApprovalRequest SqliteStores.createApprovalRequest
  cases hparse : request.parse isDatetime tokenHash with
  | error e => exact ⟨hms, rfl⟩
  | ok decision =>
      have hdecision := ApprovalRequest.parse_eq hparse
      subst hdecision
      refine ⟨⟨?_, ?_, hms.contexts, hms.envelopes, hms.statuses, hms.attempts⟩, rfl⟩
      · simp only [SqliteStores.writeApproval, Table.Keyed.upsert]
        rw [Table.map_upsert (fun row hrow => (hms.columns row hrow).1) rfl, ← hms.approvals]
        rfl
      · intro row hrow
        rcases Table.mem_upsert hrow with hnew | ⟨hold, -⟩
        · rw [hnew]
          exact ⟨rfl, rfl⟩
        · exact hms.columns row hold

/-- A decision that keeps its request is written to the row of the request in both. -/
theorem Mirrors.decideRequest (hms : Mirrors m s) (id decidedAt : String)
    {verdict : ApprovalDecision → ApprovalDecision}
    (hkeeps : ∀ decision, (verdict decision).approvalRequestId = decision.approvalRequestId ∧
      (verdict decision).taskId = decision.taskId) :
    Mirrors (m.decideRequest isDatetime id verdict).1 (s.decideRequest isDatetime id decidedAt verdict).1 ∧
      (m.decideRequest isDatetime id verdict).2
        = (s.decideRequest isDatetime id decidedAt verdict).2 := by
  unfold MemoryStores.decideRequest SqliteStores.decideRequest
  rw [hms.getApprovalDecision]
  cases hget : s.getApprovalDecision id with
  | none => exact ⟨hms, rfl⟩
  | some existing =>
      obtain ⟨found, hfound, hexisting⟩ := Option.map_eq_some_iff.mp hget
      obtain ⟨hmem, hid⟩ := Table.mem_of_get hfound
      have hkept := hkeeps existing
      cases hparse : (verdict existing).parse isDatetime with
      | error e =>
          simp only [hparse]
          exact ⟨hms, trivial⟩
      | ok decision =>
          have hdecision := ApprovalDecision.parse_eq hparse
          subst hdecision
          have hfoundId : found.approvalRequestId = (verdict existing).approvalRequestId := by
            rw [hkept.1, ← hexisting, (hms.columns found hmem).1]
          simp only [hparse]
          refine ⟨⟨?_, ?_, hms.contexts, hms.envelopes, hms.statuses, hms.attempts⟩, trivial⟩
          · have hany : (s.decisions.rows.map DecisionRow.decision).any (fun d =>
                decide (d.approvalRequestId = (verdict existing).approvalRequestId)) = true := by
              refine List.any_eq_true.mpr ⟨found.decision, List.mem_map_of_mem hmem, ?_⟩
              rw [decide_eq_true_iff, (hms.columns found hmem).1, hfoundId]
            simp only [SqliteStores.writeApprovalDecision, Table.Keyed.upsert, Table.Keyed.update]
            rw [hms.approvals, Table.upsert, hany, if_pos rfl, List.map_map, List.map_map]
            refine List.map_congr_left ?_
            intro row hrow
            simp only [Function.comp_apply, (hms.columns row hrow).1]
            split <;> rfl
          · intro row hrow
            simp only [SqliteStores.writeApprovalDecision, Table.Keyed.update] at hrow
            obtain ⟨old, hold, hrow⟩ := List.mem_map.mp hrow
            by_cases hsame : old.approvalRequestId = (verdict existing).approvalRequestId
            · rw [if_pos hsame] at hrow
              have hfoundOld : old = found :=
                Table.Keyed.eq_of_mem hold hmem (hsame.trans hfoundId.symm)
              rw [← hrow]
              refine ⟨hsame.symm, ?_⟩
              rw [hkept.2, hfoundOld, (hms.columns found hmem).2, hexisting]
            · rw [if_neg hsame] at hrow
              rw [← hrow]
              exact hms.columns old hold

theorem Mirrors.approveRequest (hms : Mirrors m s) (id approvedBy decidedAt reason : String) :
    Mirrors (m.approveRequest isDatetime id approvedBy decidedAt reason).1
        (s.approveRequest isDatetime id approvedBy decidedAt reason).1 ∧
      (m.approveRequest isDatetime id approvedBy decidedAt reason).2
        = (s.approveRequest isDatetime id approvedBy decidedAt reason).2 :=
  hms.decideRequest id decidedAt fun _ => ⟨rfl, rfl⟩

theorem Mirrors.rejectRequest (hms : Mirrors m s) (id rejectedBy decidedAt reason : String) :
    Mirrors (m.rejectRequest isDatetime id rejectedBy decidedAt reason).1
        (s.rejectRequest isDatetime id rejectedBy decidedAt reason).1 ∧
      (m.rejectRequest isDatetime id rejectedBy decidedAt reason).2
        = (s.rejectRequest isDatetime id rejectedBy decidedAt reason).2 :=
  hms.decideRequest id decidedAt fun _ => ⟨rfl, rfl⟩

/-- A search by task ends alike. -/
theorem Mirrors.getApprovalDecisionForTask (hms : Mirrors m s) {db : Database} {id : String}
    (halike : AnsweredAlike m s (.getApprovalDecisionForTask id)) :
    m.getApprovalDecisionForTask id = s.getApprovalDecisionForTask db id := by
  unfold MemoryStores.getApprovalDecisionForTask SqliteStores.getApprovalDecisionForTask
  rw [db.decisions.latest_eq halike, hms.approvals, List.find?_map]
  rfl

end Approvals

/-! ### Statuses -/

section Statuses

variable {m : MemoryStores} {s : SqliteStores} {db : Database}

theorem Mirrors.getTaskStatusByTaskId (hms : Mirrors m s) {taskId : String}
    (halike : AnsweredAlike m s (.getTaskStatusByTaskId taskId)) :
    m.getTaskStatusByTaskId taskId = s.getTaskStatusByTaskId db taskId := by
  have hrows : Table.FirstIsLatest StatusRow.updatedAt (fun row => row.taskId = taskId)
      (fun row => row.taskId = taskId) s.statuses.rows := by
    rw [hms.statuses]
    exact Table.FirstIsLatest.map halike
  unfold MemoryStores.getTaskStatusByTaskId SqliteStores.getTaskStatusByTaskId
  rw [db.statuses.latest_eq hrows, hms.statuses, List.find?_map, Option.map_map]
  exact Option.map_id.symm ▸ rfl

theorem Mirrors.listTaskStatusesForProject (hms : Mirrors m s) {projectId : String}
    (halike : AnsweredAlike m s (.listTaskStatusesForProject projectId)) :
    m.listTaskStatusesForProject projectId = s.listTaskStatusesForProject db projectId := by
  have hfilter : s.statuses.rows.filter (fun row => decide (row.projectId = projectId))
      = (m.taskStatuses.rows.filter fun status => status.projectId = projectId).map (·.row) := by
    rw [hms.statuses, List.filter_map]
    rfl
  have hup : ((m.taskStatuses.rows.filter fun status => status.projectId = projectId).map
      TaskStatusSnapshot.row).Pairwise fun a b => a.updatedAt < b.updatedAt := by
    rw [List.pairwise_map]
    exact halike
  unfold MemoryStores.listTaskStatusesForProject SqliteStores.listTaskStatusesForProject
  rw [hfilter, db.statuses.ascending_eq (List.Perm.refl _) hup, List.map_map]
  exact (List.map_id _).symm

end Statuses

/-! ### Attempts -/

section Attempts

variable {attempts : String → List NodeAttempt} {table : Table.Keyed AttemptRow.attemptId}

/-- An attempt is recorded in both. -/
theorem AttemptsMirror.record (hmirror : AttemptsMirror attempts table) (attempt : NodeAttempt) :
    AttemptsMirror (Function.update attempts attempt.runId
        ((attempts attempt.runId).filter (·.attemptId ≠ attempt.attemptId) ++ [attempt]))
      (table.upsert attempt.row) := by
  have hself : attempt.row ∈ (table.upsert attempt.row).rows := Table.upsert_self _ _
  refine ⟨?_, ?_, ?_, ?_⟩
  · intro row hrow
    rcases Table.mem_upsert hrow with hnew | ⟨hold, -⟩
    · rw [hnew]
      rfl
    · exact hmirror.ofRecord row hold
  · intro row hrow
    rcases Table.mem_upsert hrow with hnew | ⟨hold, hother⟩
    · rw [hnew]
      have hmine : attempt.row.runId = attempt.runId := rfl
      rw [hmine, Function.update_self]
      exact List.mem_append_right _ (List.mem_singleton_self _)
    · have hlisted := hmirror.listed row hold
      by_cases hrun : row.runId = attempt.runId
      · rw [hrun] at hlisted ⊢
        rw [Function.update_self]
        refine List.mem_append_left _ (List.mem_filter.mpr ⟨hlisted, ?_⟩)
        rw [decide_eq_true_iff]
        rw [hmirror.ofRecord row hold] at hother
        exact hother
      · rw [Function.update_of_ne hrun]
        exact hlisted
  · -- whoever was known is known still, and the new attempt is
    have hkept : ∀ a : NodeAttempt, (∃ row ∈ table.rows, row.attemptId = a.attemptId) →
        ∃ row ∈ (table.upsert attempt.row).rows, row.attemptId = a.attemptId := by
      rintro a ⟨row, hrow, hid⟩
      by_cases hsame : row.attemptId = attempt.attemptId
      · exact ⟨_, hself, hsame.symm.trans hid⟩
      · exact ⟨row, Table.upsert_other hrow hsame, hid⟩
    intro runId a ha
    by_cases hrun : runId = attempt.runId
    · subst hrun
      rw [Function.update_self] at ha
      rcases List.mem_append.mp ha with hold | hnew
      · exact hkept a (hmirror.known _ a (List.mem_filter.mp hold).1)
      · rw [List.mem_singleton.mp hnew]
        exact ⟨_, hself, rfl⟩
    · rw [Function.update_of_ne hrun] at ha
      exact hkept a (hmirror.known _ a ha)
  · intro runId
    by_cases hrun : runId = attempt.runId
    · subst hrun
      rw [Function.update_self, List.map_append, List.nodup_append]
      refine ⟨(List.filter_sublist.map _).nodup (hmirror.distinct _), by simp, ?_⟩
      intro id hid id' hid' heq
      simp only [List.map_cons, List.map_nil, List.mem_singleton] at hid'
      obtain ⟨a, ha, hfirst⟩ := List.mem_map.mp hid
      have hother := of_decide_eq_true (List.mem_filter.mp ha).2
      exact hother (hfirst.trans (heq.trans hid'))
    · rw [Function.update_of_ne hrun]
      exact hmirror.distinct _

/-- Where no attempt of a run was recorded for another since, the table has the run's list. -/
theorem AttemptsMirror.perm (hmirror : AttemptsMirror attempts table) {runId : String}
    {nodeId : Option String}
    (hown : ∀ attempt ∈ attempts runId, ofNode nodeId attempt.nodeId = true →
      ∀ row ∈ table.rows, row.attemptId = attempt.attemptId → row.runId = runId) :
    (table.rows.filter fun row => row.runId = runId && ofNode nodeId row.nodeId).Perm
      (((attempts runId).filter fun attempt => ofNode nodeId attempt.nodeId).map (·.row)) := by
  rw [List.perm_ext_iff_of_nodup]
  · intro row
    simp only [List.mem_filter, List.mem_map, Bool.and_eq_true, decide_eq_true_eq]
    constructor
    · rintro ⟨hmem, hrun, hnode⟩
      have hrow := hmirror.ofRecord row hmem
      refine ⟨row.record, ⟨?_, ?_⟩, hrow.symm⟩
      · rw [← hrun]
        exact hmirror.listed row hmem
      · rw [hrow] at hnode
        exact hnode
    · rintro ⟨attempt, ⟨hmem, hnode⟩, rfl⟩
      obtain ⟨row, hrow, hid⟩ := hmirror.known runId attempt hmem
      have hrun := hown attempt hmem hnode row hrow hid
      have hlisted := hmirror.listed row hrow
      rw [hrun] at hlisted
      have hrecord : row.record.attemptId = attempt.attemptId := by
        rw [← hid, hmirror.ofRecord row hrow]
        rfl
      have hsame := List.inj_on_of_nodup_map (hmirror.distinct runId) hlisted hmem hrecord
      have hrowEq : row = attempt.row := by
        rw [hmirror.ofRecord row hrow, hsame]
      rw [← hrowEq]
      refine ⟨hrow, hrun, ?_⟩
      rw [hrowEq]
      exact hnode
  · exact List.Nodup.filter _ (List.Nodup.of_map _ table.nodup)
  · have hids : (((attempts runId).filter fun attempt => ofNode nodeId attempt.nodeId).map
        NodeAttempt.row).map AttemptRow.attemptId
          = ((attempts runId).filter fun attempt => ofNode nodeId attempt.nodeId).map
            (·.attemptId) := by
      rw [List.map_map]
      rfl
    refine List.Nodup.of_map AttemptRow.attemptId ?_
    rw [hids]
    exact (List.filter_sublist.map _).nodup (hmirror.distinct runId)

theorem Mirrors.listNodeAttempts {m : MemoryStores} {s : SqliteStores} (hms : Mirrors m s)
    {db : Database} {runId : String} {nodeId : Option String}
    (halike : AnsweredAlike m s (.listNodeAttempts runId nodeId)) :
    m.listNodeAttempts runId nodeId = s.listNodeAttempts db runId nodeId := by
  obtain ⟨hup, hown⟩ := halike
  have hup' : (((m.attempts runId).filter fun attempt => ofNode nodeId attempt.nodeId).map
      NodeAttempt.row).Pairwise fun a b => a.updatedAt < b.updatedAt := by
    rw [List.pairwise_map]
    exact hup
  unfold MemoryStores.listNodeAttempts SqliteStores.listNodeAttempts
  rw [db.attempts.ascending_eq (hms.attempts.perm hown) hup', List.map_map]
  exact (List.map_id _).symm

end Attempts

/-! ### Every operation -/

section Operations

variable {isDatetime : String → Bool} {tokenHash : String → String} {db : Database}

theorem mirrors_empty : Mirrors .empty .empty := by
  refine ⟨rfl, fun row hrow => (nomatch hrow), rfl, rfl, rfl, ?_⟩
  exact ⟨fun row hrow => (nomatch hrow), fun row hrow => (nomatch hrow),
    fun _ attempt hattempt => (nomatch hattempt), fun _ => List.nodup_nil⟩

/-- **One operation.**  The backends hold the same records after it, and answer it alike on its
condition. -/
theorem stores_simulate : Simulation.Simulates (MemoryStores.perform isDatetime tokenHash)
    (SqliteStores.perform isDatetime tokenHash db) Mirrors AnsweredAlike := by
  refine ⟨?_, ?_⟩
  · intro m s op hms
    cases op with
    | createApprovalRequest request => exact (hms.createApprovalRequest request).1
    | approveRequest id approvedBy decidedAt reason =>
        exact (hms.approveRequest id approvedBy decidedAt reason).1
    | rejectRequest id rejectedBy decidedAt reason =>
        exact (hms.rejectRequest id rejectedBy decidedAt reason).1
    | recordContinuationContext context =>
        exact ⟨hms.approvals, hms.columns, Table.Keyed.upsert_mirror (fun _ => rfl) hms.contexts context,
          hms.envelopes, hms.statuses, hms.attempts⟩
    | recordApprovalContinuationEnvelope envelope =>
        exact ⟨hms.approvals, hms.columns, hms.contexts,
          Table.Keyed.upsert_mirror (fun _ => rfl) hms.envelopes envelope, hms.statuses, hms.attempts⟩
    | recordTaskStatus snapshot =>
        exact ⟨hms.approvals, hms.columns, hms.contexts, hms.envelopes,
          Table.Keyed.upsert_mirror (fun _ => rfl) hms.statuses snapshot, hms.attempts⟩
    | recordNodeAttempt attempt =>
        exact ⟨hms.approvals, hms.columns, hms.contexts, hms.envelopes, hms.statuses,
          hms.attempts.record attempt⟩
    | getApprovalDecision _ | getApprovalDecisionForTask _ | getContinuationContext _
    | getApprovalContinuationEnvelope _ | getTaskStatus _ | getTaskStatusByTaskId _
    | listTaskStatusesForProject _ | listNodeAttempts _ _ => exact hms
  · intro m s op hms halike
    cases op with
    | createApprovalRequest request => exact (hms.createApprovalRequest request).2
    | getApprovalDecision id => exact hms.getApprovalDecision id
    | getApprovalDecisionForTask id => exact hms.getApprovalDecisionForTask halike
    | approveRequest id approvedBy decidedAt reason =>
        exact (hms.approveRequest id approvedBy decidedAt reason).2
    | rejectRequest id rejectedBy decidedAt reason =>
        exact (hms.rejectRequest id rejectedBy decidedAt reason).2
    | getContinuationContext id =>
        exact Table.Keyed.get_mirror ContextRow.context (fun _ => rfl) (fun _ => rfl) hms.contexts id
    | getApprovalContinuationEnvelope id =>
        exact Table.Keyed.get_mirror EnvelopeRow.envelope (fun _ => rfl) (fun _ => rfl) hms.envelopes id
    | getTaskStatus id => exact Table.Keyed.get_mirror StatusRow.snapshot (fun _ => rfl) (fun _ => rfl) hms.statuses id
    | getTaskStatusByTaskId id => exact hms.getTaskStatusByTaskId halike
    | listTaskStatusesForProject id => exact hms.listTaskStatusesForProject halike
    | listNodeAttempts runId nodeId => exact hms.listNodeAttempts halike
    | recordContinuationContext _ | recordApprovalContinuationEnvelope _ | recordTaskStatus _
    | recordNodeAttempt _ => rfl

/-- **The two backends.**  Over every sequence of operations from empty stores, whatever the
database does with equal times: if every search and every listing meets its condition in the
state it is made in, then every operation is answered alike. -/
theorem stores_answer {ops : List StoreOp}
    (halike : Simulation.Along (MemoryStores.perform isDatetime tokenHash)
      (SqliteStores.perform isDatetime tokenHash db) AnsweredAlike ops .empty .empty)
    {done : List StoreOp} {op : StoreOp} (hdone : done ++ [op] <+: ops) :
    ((Simulation.runs (MemoryStores.perform isDatetime tokenHash) done .empty).perform isDatetime
        tokenHash op).2
      = ((Simulation.runs (SqliteStores.perform isDatetime tokenHash db) done .empty).perform
          isDatetime tokenHash db op).2 :=
  stores_simulate.answers mirrors_empty halike hdone

end Operations

/-! ### Two runs of one task -/

def plainDatabase : Database := ⟨.stable _, .stable _, .stable _⟩

def statusOf (taskRunId updatedAt : String) : TaskStatusSnapshot where
  projectId := "project"
  taskId := "task"
  taskRunId
  status := .running
  observations := []
  errors := []
  finalMessage := ""
  result := none
  updatedAt

/-- The status that was inserted first is also the later one. -/
def firstIsLatest : List StoreOp :=
  [.recordTaskStatus (statusOf "first" "2026-01-02T00:00:00.000Z"),
    .recordTaskStatus (statusOf "second" "2026-01-01T00:00:00.000Z"),
    .getTaskStatusByTaskId "task"]

theorem firstIsLatest_answered :
    ((Simulation.runs (MemoryStores.perform (fun _ => true) id) (firstIsLatest.take 2) .empty).perform
        (fun _ => true) id (.getTaskStatusByTaskId "task")).2
      = ((Simulation.runs (SqliteStores.perform (fun _ => true) id plainDatabase)
          (firstIsLatest.take 2) .empty).perform (fun _ => true) id plainDatabase
            (.getTaskStatusByTaskId "task")).2 := by
  refine @stores_answer (fun _ => true) id plainDatabase firstIsLatest ?_ _ _ List.prefix_rfl
  refine ⟨trivial, trivial, ⟨rfl, ?_⟩, trivial⟩
  intro other hother _
  rcases List.mem_cons.mp hother with rfl | hother
  · exact Or.inr rfl
  · rw [List.mem_singleton.mp hother]
    exact Or.inl (by decide)

/-- The second run's status is the later one: memory answers with the first run's. -/
def secondIsLatest : List StoreOp :=
  [.recordTaskStatus (statusOf "first" "2026-01-01T00:00:00.000Z"),
    .recordTaskStatus (statusOf "second" "2026-01-02T00:00:00.000Z"),
    .getTaskStatusByTaskId "task"]

theorem secondIsLatest_not_answered : ¬ ∀ (isDatetime : String → Bool) (tokenHash : String → String)
    (db : Database) (ops done : List StoreOp) (op : StoreOp), done ++ [op] <+: ops →
    ((Simulation.runs (MemoryStores.perform isDatetime tokenHash) done .empty).perform isDatetime
        tokenHash op).2
      = ((Simulation.runs (SqliteStores.perform isDatetime tokenHash db) done .empty).perform
          isDatetime tokenHash db op).2 := by
  intro hall
  have hread := hall (fun _ => true) id plainDatabase secondIsLatest (secondIsLatest.take 2)
    (.getTaskStatusByTaskId "task") List.prefix_rfl
  have hrun := congrArg (Option.map TaskStatusSnapshot.taskRunId) hread
  revert hrun
  decide +kernel

end OpenLagrange
