/-
The project reconciler.

It has a plan generated for the goal of a project and runs the tasks of the plan one after the
other, each in a task reconciler of its own.  What has become of the project is recorded by child
tasks along the way: that it is being planned, that its tasks run, after each task how far it has
come, and at the end what its results add up to.

Every child task is a call, run under a key.  Whatever a child answers or throws is part of the
run, and a status that its schema refuses makes the child that records it throw.  The clock is
read a number of times; `clock i` is what it shows the time `i`.
-/
import OpenLagrange.Storage.ProjectStatus
import OpenLagrange.Lib.Prog
import OpenLagrange.Util.Text

namespace OpenLagrange

/-! ### What is given and what is planned -/

/-- The bounds of a project, those of its tasks among them. -/
structure ProjectBounds extends ExecutionBounds where
  maxTasksPerProject : Nat

def defaultProjectBounds : ProjectBounds where
  toExecutionBounds := defaultExecutionBounds
  maxTasksPerProject := 3

structure ProjectReconcilerInput where
  goal : String
  projectId : Option String
  delegationContext : DelegationContext
  metadata : Option (List (String × Value))
  bounds : Option ProjectBounds

structure ExecutionPlan where
  planId : String
  projectId : String
  planVersion : String
  goal : String
  tasks : List ScopedTask
  assumptions : List String

structure ProjectReconciliationResult where
  projectId : String
  projectRunId : String
  status : ReconciliationStatus
  plan : Option ExecutionPlan
  taskRunIds : List String
  taskResults : List TaskReconciliationResult
  observations : List Observation
  errors : List StructuredError
  finalMessage : String

/-! ### Ids -/

/-- `text.replace(/\s+/g, " ")`; `inRun` says that a space has just been written. -/
def spaceSeparated : Bool → List Char → List Char
  | _, [] => []
  | inRun, c :: rest =>
      if jsSpace c then if inRun then spaceSeparated true rest else ' ' :: spaceSeparated true rest
      else c :: spaceSeparated false rest

section Ids

variable (sha256 : String → String)

/-- `id(name, value, length)`. -/
def deterministicId (name : String) (value : Value) (length : Nat) : String :=
  name ++ "_" ++ firstChars length (stableHash sha256 value)

def deterministicProjectId (toLowerCase : String → String)
    (goal workspaceId principalId delegateId : String) : String :=
  let normalized := toLowerCase (String.ofList (spaceSeparated false (trimChars goal.toList)))
  deterministicId sha256 "project" (.obj [("goal", .str normalized),
    ("workspace_id", .str workspaceId), ("principal_id", .str principalId),
    ("delegate_id", .str delegateId)]) 24

def deterministicProjectRunId (projectId : String) : String :=
  let name := "project_".toList
  "project_run_" ++ String.ofList
    (if name.isPrefixOf projectId.toList then projectId.toList.drop name.length
      else projectId.toList)

/-- What the run id of a task is made of. -/
def taskRunContent (projectId planVersion : String) (taskIndex : Nat) (taskTitle : String) : Value :=
  .obj [("project_id", .str projectId), ("plan_version", .str planVersion),
    ("task_index", .num (Nat.repr taskIndex)), ("task_title", .str taskTitle)]

def deterministicTaskRunId (projectId planVersion : String) (taskIndex : Nat)
    (taskTitle : String) : String :=
  deterministicId sha256 "task_run" (taskRunContent projectId planVersion taskIndex taskTitle) 24

end Ids

/-! ### The child tasks -/

inductive ProjectChild where
  | recordProjectStatus (snapshot : WorkflowStatusSnapshot)
  | recordTaskStatus (snapshot : TaskStatusSnapshot)
  | generateExecutionPlan (goal : String) (delegationContext : DelegationContext)
      (metadata : Option (List (String × Value))) (bounds : ProjectBounds)
  | taskReconciler (input : TaskReconcilerInput)

/-- A child task with the key it is run under and the metadata it is run with. -/
structure ProjectCall where
  key : String
  child : ProjectChild
  metadata : List (String × String)

/-- What the reconciler reads of an answer; a plan and a result are read through their schemas. -/
abbrev ProjectCall.Answer (call : ProjectCall) : Type :=
  match call.child with
  | .recordProjectStatus _ => Unit
  | .recordTaskStatus _ => Unit
  | .generateExecutionPlan _ _ _ _ => Except String ExecutionPlan
  | .taskReconciler _ => Except String TaskReconciliationResult

abbrev ProjectProg := Prog ProjectCall ProjectCall.Answer

/-! ### Results -/

def aggregateStatus (results : List TaskReconciliationResult) : ReconciliationStatus :=
  if results.any (·.status = .requiresApproval) then .requiresApproval
  else if results.any (·.status = .failed) then .failed
  else if results.any (·.status = .yielded) then .yielded
  else if results.any (·.status = .completedWithErrors) then .completedWithErrors
  else .completed

def projectFinalMessage (status : ReconciliationStatus) (taskMessages : List String) : String :=
  match status with
  | .completed => " ".intercalate taskMessages
  | .requiresApproval => "Project requires approval before continuing."
  | .yielded => "Project yielded safely."
  | .completedWithErrors => "Project completed with errors."
  | .failed => "Project failed."

/-- A project that is being reconciled: what is known of it from the start. -/
structure ProjectSetting where
  projectId : String
  projectRunId : String
  requested : ProjectReconcilerInput
  delegation : DelegationContext
  bounds : ProjectBounds

namespace ProjectSetting

variable (p : ProjectSetting)

def statusSnapshot (status : WorkflowStatus) (now : String) (taskRunIds : List String)
    (observations : List Observation) (errors : List StructuredError) (finalMessage : String) :
    WorkflowStatusSnapshot where
  projectId := p.projectId
  projectRunId := p.projectRunId
  status
  taskRunIds
  observations
  errors
  finalMessage := some finalMessage
  updatedAt := now

/-- `recordStatusTask`, on a status of the project. -/
def recordStatus (name : String) (snapshot : WorkflowStatusSnapshot) : ProjectCall where
  key := p.projectRunId ++ ":status:" ++ name
  child := .recordProjectStatus snapshot
  metadata := []

/-- A project that fails before any of its tasks is run. -/
def failedResult (plan : Option ExecutionPlan) (error : StructuredError) (finalMessage : String) :
    ProjectReconciliationResult where
  projectId := p.projectId
  projectRunId := p.projectRunId
  status := .failed
  plan
  taskRunIds := []
  taskResults := []
  observations := []
  errors := [error]
  finalMessage

def generatePlan : ProjectCall where
  key := p.projectRunId ++ ":plan"
  child := .generateExecutionPlan p.requested.goal p.delegation p.requested.metadata p.bounds
  metadata := [("project_id", p.projectId), ("project_run_id", p.projectRunId),
    ("trace_id", p.delegation.traceId)]

def taskInput (taskRunId : String) (task : ScopedTask) : TaskReconcilerInput where
  parentProjectId := p.projectId
  parentProjectRunId := p.projectRunId
  taskRunId
  scopedTask := task
  delegationContext := { p.delegation with taskRunId := some taskRunId }
  bounds := p.bounds.toExecutionBounds

def runTask (taskRunId : String) (task : ScopedTask) : ProjectCall where
  key := taskRunId
  child := .taskReconciler (p.taskInput taskRunId task)
  metadata := [("project_id", p.projectId), ("project_run_id", p.projectRunId),
    ("task_run_id", taskRunId), ("trace_id", p.delegation.traceId)]

def recordTask (taskRunId : String) (now : String) (taskResult : TaskReconciliationResult) :
    ProjectCall where
  key := taskRunId ++ ":status:final"
  child := .recordTaskStatus
    { projectId := p.projectId
      taskId := taskResult.taskId
      taskRunId := taskResult.taskRunId
      status := .reconciled taskResult.status
      observations := taskResult.observations
      errors := taskResult.errors
      finalMessage := taskResult.finalMessage
      result := some taskResult
      updatedAt := now }
  metadata := []

section

variable (sha256 : String → String) (clock : Nat → String)

def taskRunIds (plan : ExecutionPlan) : List String :=
  plan.tasks.zipIdx.map fun task =>
    deterministicTaskRunId sha256 p.projectId plan.planVersion task.2 task.1.title

/-- One task: it is run, and what it and the project have come to is recorded. -/
def reconcileTask (taskRunIds : List String) (total index : Nat) (taskRunId : String)
    (task : ScopedTask) (taskResults : List TaskReconciliationResult) :
    ProjectProg (List TaskReconciliationResult) := do
  let candidate : Except String TaskReconciliationResult ←
    Prog.perform (p.runTask taskRunId task)
  match candidate with
  | .error message => .fail message
  | .ok taskResult =>
      let taskResults := taskResults ++ [taskResult]
      let _ ← Prog.perform (p.recordTask taskRunId (clock (2 * index + 1)) taskResult)
      let _ ← Prog.perform (p.recordStatus ("task-" ++ Nat.repr index)
        (p.statusSnapshot .running (clock (2 * index + 2)) taskRunIds
          (taskResults.flatMap (·.observations)) (taskResults.flatMap (·.errors))
          ("Completed " ++ Nat.repr taskResults.length ++ " of " ++ Nat.repr total ++
            " task workflows.")))
      return taskResults

/-- The tasks from an index on, each with its run id. -/
def reconcileTasks (taskRunIds : List String) (total : Nat) :
    Nat → List (String × ScopedTask) → List TaskReconciliationResult →
      ProjectProg (List TaskReconciliationResult)
  | _, [], taskResults => .done taskResults
  | index, (taskRunId, task) :: rest, taskResults => do
      let taskResults ← p.reconcileTask clock taskRunIds total index taskRunId task taskResults
      reconcileTasks taskRunIds total (index + 1) rest taskResults

/-- The results of all tasks, added up. -/
def projectResult (plan : ExecutionPlan) (taskRunIds : List String)
    (taskResults : List TaskReconciliationResult) : ProjectReconciliationResult where
  projectId := p.projectId
  projectRunId := p.projectRunId
  status := aggregateStatus taskResults
  plan := some plan
  taskRunIds
  taskResults
  observations := taskResults.flatMap (·.observations)
  errors := taskResults.flatMap (·.errors)
  finalMessage := projectFinalMessage (aggregateStatus taskResults)
    (taskResults.map (·.finalMessage))

def finalStatus (now : String) (result : ProjectReconciliationResult) : WorkflowStatusSnapshot :=
  p.statusSnapshot (.reconciled result.status) now result.taskRunIds result.observations
    result.errors result.finalMessage

/-- A plan within the bounds: its tasks are run. -/
def reconcilePlan (plan : ExecutionPlan) : ProjectProg ProjectReconciliationResult := do
  let taskRunIds := p.taskRunIds sha256 plan
  let _ ← Prog.perform (p.recordStatus "running" (p.statusSnapshot .running (clock 0) taskRunIds
    [observation sha256 .recorded "Execution plan validated." (clock 0) none none .undefined] []
    "Running scoped task workflows."))
  let taskResults ← p.reconcileTasks clock taskRunIds plan.tasks.length 0
    (taskRunIds.zip plan.tasks) []
  let result := p.projectResult plan taskRunIds taskResults
  let _ ← Prog.perform (p.recordStatus "final"
    (p.finalStatus (clock (2 * plan.tasks.length + 1)) result))
  return result

def reconcile : ProjectProg ProjectReconciliationResult := do
  let _ ← Prog.perform (p.recordStatus "planning" (p.statusSnapshot .planning (clock 0) [] [] []
    "Planning project."))
  let planParsed : Except String ExecutionPlan ← Prog.perform p.generatePlan
  match planParsed with
  | .error message =>
      let error := structuredError "INVALID_PLAN" message (clock 0) none none
      let _ ← Prog.perform (p.recordStatus "invalid-plan" (p.statusSnapshot (.reconciled .failed)
        (clock 0) [] [] [error] "Execution plan was invalid."))
      return p.failedResult none error "Execution plan was invalid."
  | .ok plan =>
      if plan.tasks.length > p.bounds.maxTasksPerProject then
        return p.failedResult (some plan) (structuredError "BUDGET_EXCEEDED"
          "Plan exceeds maximum task count" (clock 0) none none) "Task count bound exceeded."
      else p.reconcilePlan sha256 clock plan

end

end ProjectSetting

section

variable (sha256 : String → String) (toLowerCase : String → String)

def ProjectReconcilerInput.setting (requested : ProjectReconcilerInput) : ProjectSetting :=
  let projectId := requested.projectId.getD (deterministicProjectId sha256 toLowerCase
    requested.goal requested.delegationContext.workspaceId requested.delegationContext.principalId
    requested.delegationContext.delegateId)
  let projectRunId := deterministicProjectRunId projectId
  { projectId
    projectRunId
    requested
    delegation := { requested.delegationContext with projectId, parentRunId := projectRunId }
    bounds := requested.bounds.getD defaultProjectBounds }

def projectReconciler (clock : Nat → String) (rawInput : Except String ProjectReconcilerInput) :
    ProjectProg ProjectReconciliationResult :=
  match rawInput with
  | .error message =>
      .done
        { projectId := "project_invalid"
          projectRunId := "project_run_invalid"
          status := .failed
          plan := none
          taskRunIds := []
          taskResults := []
          observations := []
          errors := [structuredError "INVALID_DELEGATION_CONTEXT" message (clock 0) none none]
          finalMessage := "Project input was invalid." }
  | .ok requested => (requested.setting sha256 toLowerCase).reconcile sha256 clock

end

end OpenLagrange
