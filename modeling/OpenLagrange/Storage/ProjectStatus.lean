/-
The status of a project, and the two stores it is kept in.

A status is written under two lookup ids, the project's and the project run's, and both hold all
of it.  Appending an observation or an error reads the status, adds to it and writes it back whole.
In memory nothing is awaited in between; the SQLite store awaits its own `getProjectStatus` first,
and other calls can run before it goes on.  What follows the last write changes nothing.
-/
import OpenLagrange.Lib.Interleave
import OpenLagrange.Reconciliation.Records

namespace OpenLagrange

structure WorkflowStatusSnapshot where
  projectId : String
  projectRunId : String
  status : WorkflowStatus
  taskRunIds : List String
  observations : List Observation
  errors : List StructuredError
  finalMessage : Option String
  updatedAt : String

/-- What is appended to a status. -/
inductive StatusItem where
  | observation (item : Observation)
  | error (item : StructuredError)

namespace StatusItem

def observation? : StatusItem → Option Observation
  | .observation item => some item
  | .error _ => none

def error? : StatusItem → Option StructuredError
  | .observation _ => none
  | .error item => some item

end StatusItem

variable (isDatetime : String → Bool)

def WorkflowStatusSnapshot.refined (snapshot : WorkflowStatusSnapshot) : Bool :=
  nonempty snapshot.projectId && nonempty snapshot.projectRunId &&
    snapshot.observations.all (·.refined isDatetime) &&
    snapshot.errors.all (·.refined isDatetime) && isDatetime snapshot.updatedAt

def StatusItem.refined : StatusItem → Bool
  | .observation item => item.refined isDatetime
  | .error item => item.refined isDatetime

/-- The status with the item added, as of when the item was observed. -/
def WorkflowStatusSnapshot.append (status : WorkflowStatusSnapshot) :
    StatusItem → WorkflowStatusSnapshot
  | .observation item =>
      { status with
        observations := status.observations ++ [item]
        updatedAt := item.observedAt }
  | .error item =>
      { status with
        errors := status.errors ++ [item]
        updatedAt := item.observedAt }

/-- The status under each lookup id. -/
abbrev ProjectStatuses := String → Option WorkflowStatusSnapshot

/-- A snapshot that its schema refuses is not written. -/
def recordProjectStatus (statuses : ProjectStatuses) (snapshot : WorkflowStatusSnapshot) :
    ProjectStatuses :=
  if snapshot.refined isDatetime then
    Function.update (Function.update statuses snapshot.projectId (some snapshot))
      snapshot.projectRunId (some snapshot)
  else statuses

/-- The last step of appending: an item that its schema refuses makes the call throw. -/
def appendParsed (statuses : ProjectStatuses) (status : WorkflowStatusSnapshot)
    (item : StatusItem) : ProjectStatuses :=
  if item.refined isDatetime then recordProjectStatus isDatetime statuses (status.append item)
  else statuses

inductive StatusBackend where
  | inMemory | sqlite
  deriving DecidableEq, Repr

/-- `appendObservation` and `appendStructuredError`. -/
def StatusBackend.append (lookupId : String) (item : StatusItem) :
    StatusBackend → Interleave.Call ProjectStatuses
  | .inMemory =>
      .block (fun statuses =>
          match statuses lookupId with
          | none => statuses
          | some status => appendParsed isDatetime statuses status item)
        fun _ => .done
  | .sqlite =>
      .block id fun statuses =>
        match statuses lookupId with
        | none => .done
        | some status =>
            -- what is read back is parsed, and a status that fails makes the call throw
            if status.refined isDatetime then
              .block (fun statuses => appendParsed isDatetime statuses status item) fun _ => .done
            else .done

end OpenLagrange
