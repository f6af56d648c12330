/-
The two run event stores.

The memory store keeps the events of a run sorted by time and id, and numbers them by
their place in that order whenever it is asked.  The SQLite store keeps one table for all
runs, with the event id as its primary key and a sequence number given once, at the
insertion: one more than the highest of the run.

What `RunEvent.parse` lets through has an id; a store is only handed parsed events.
-/
import OpenLagrange.Lib.CursorLog
import OpenLagrange.Storage.StateStore

namespace OpenLagrange

structure RunEventEnvelope where
  eventId : String
  runId : String
  sequence : Nat
  timestamp : String
  runtime : RunRuntime
  event : RunEvent
  deriving DecidableEq

/-- What the event schema lets through. -/
abbrev ParsedRunEvent (isDatetime : String → Bool) :=
  { event : RunEvent // event.refined isDatetime = true }

/-- `eventsAfter`: the empty cursor is no cursor. -/
def eventsAfter (events : List RunEventEnvelope) (cursorEventId : Option String) :
    List RunEventEnvelope :=
  CursorLog.after RunEventEnvelope.eventId events (cursorEventId.filter (· ≠ ""))

def limitEnvelopes (events : List RunEventEnvelope) (limit : Option Nat) : List RunEventEnvelope :=
  match limit with
  | none => events
  | some limit => events.take limit

/-- A run event store: an append answers with the envelope of the event, and every listing
is cut out of the envelopes of a run. -/
structure RunEventStore (isDatetime : String → Bool) (σ : Type) where
  appendRunEvent : σ → ParsedRunEvent isDatetime → σ × RunEventEnvelope
  envelopes : σ → String → List RunEventEnvelope

namespace RunEventStore

variable {isDatetime : String → Bool} {σ : Type} (store : RunEventStore isDatetime σ)

def listRunEvents (s : σ) (runId : String) (after : Option String) (limit : Option Nat) :
    List RunEventEnvelope :=
  limitEnvelopes (eventsAfter (store.envelopes s runId) after) limit

def getLatestEventId (s : σ) (runId : String) : Option String :=
  (store.envelopes s runId).getLast?.map (·.eventId)

end RunEventStore

/-! ### The memory store -/

/-- The envelope of an event; a sequence number is never below one. -/
def envelopeFor (event : RunEvent) (sequence : Nat) : RunEventEnvelope where
  eventId := event.eventId
  runId := event.runId
  sequence := max 1 sequence
  timestamp := event.timestamp
  runtime := .localDev
  event

/-- The place of an event among the events of its run, counted from one. -/
def sequenceIn (events : List RunEvent) (event : RunEvent) : Nat :=
  match events.findIdx? fun item => item.eventId = event.eventId with
  | some index => index + 1
  | none => 0

def inMemoryRunEventStore (P : Platform) : RunEventStore P.isDatetime (String → List RunEvent) where
  appendRunEvent events parsed :=
    let sorted := appendEvent P (events parsed.val.runId) parsed.val
    (Function.update events parsed.val.runId sorted,
      envelopeFor parsed.val (sequenceIn sorted parsed.val))
  envelopes events runId :=
    (sortEvents P (events runId)).zipIdx.map fun (event, index) => envelopeFor event (index + 1)

/-! ### The SQLite store -/

/-- A row of `run_events`; the JSON column holds the event. -/
structure RunEventRow where
  eventId : String
  runId : String
  planId : String
  type : String
  event : RunEvent
  timestamp : String
  sequence : Nat

/-- The table, its primary key kept, and the runtime of a run by `run_executions`. -/
structure RunEventTable where
  rows : List RunEventRow
  primaryKey : (rows.map (·.eventId)).Nodup
  runtime : String → RunRuntime

namespace RunEventTable

variable (table : RunEventTable)

/-- The sequence a row of that id has, or else the next one of the run. -/
def sequenceFor (event : RunEvent) : Nat :=
  match table.rows.find? (·.eventId = event.eventId) with
  | some row => row.sequence
  | none =>
      (((table.rows.filter (·.runId = event.runId)).map (·.sequence)).foldl max 0) + 1

def rowFor (event : RunEvent) : RunEventRow where
  eventId := event.eventId
  runId := event.runId
  planId := event.planId
  type := event.body.type
  event
  timestamp := event.timestamp
  sequence := table.sequenceFor event

/-- `insert … on conflict(event_id) do update`: the row of that id is overwritten where it
is, but for its sequence. -/
def upsert (event : RunEvent) : List RunEventRow :=
  if table.rows.any (·.eventId = event.eventId) then
    table.rows.map fun row => if row.eventId = event.eventId then table.rowFor event else row
  else table.rows ++ [table.rowFor event]

theorem upsert_primaryKey (event : RunEvent) :
    ((table.upsert event).map (·.eventId)).Nodup := by
  unfold upsert
  split
  · have hsame : (table.rows.map fun row => if row.eventId = event.eventId then table.rowFor event
        else row).map (·.eventId) = table.rows.map (·.eventId) := by
      rw [List.map_map]
      refine List.map_congr_left ?_
      intro row _
      by_cases hrow : row.eventId = event.eventId
      · simp [hrow, rowFor]
      · simp [hrow]
    rw [hsame]
    exact table.primaryKey
  · rename_i hnone
    rw [List.map_append, List.nodup_append]
    refine ⟨table.primaryKey, by simp, ?_⟩
    intro eventId hmem eventId' hmem' heq
    simp only [List.map_cons, List.map_nil, List.mem_singleton] at hmem'
    obtain ⟨row, hrow, hid⟩ := List.mem_map.mp hmem
    refine hnone (List.any_eq_true.mpr ⟨row, hrow, ?_⟩)
    rw [decide_eq_true_iff, hid, heq, hmem']
    rfl

/-- `order by sequence asc, timestamp asc, event_id asc`. -/
def rowLe (a b : RunEventRow) : Bool :=
  a.sequence < b.sequence ∨ a.sequence = b.sequence ∧
    (a.timestamp < b.timestamp ∨ a.timestamp = b.timestamp ∧ a.eventId ≤ b.eventId)

def runRows (runId : String) : List RunEventRow :=
  (table.rows.filter (·.runId = runId)).insertionSort fun a b => rowLe a b

/-- The envelope of a row; the sequence zero counts as one. -/
def rowToEnvelope (runId : String) (row : RunEventRow) : RunEventEnvelope where
  eventId := row.eventId
  runId := runId
  sequence := if row.sequence = 0 then 1 else row.sequence
  timestamp := row.timestamp
  runtime := table.runtime runId
  event := row.event

def append (event : RunEvent) : RunEventTable :=
  { table with rows := table.upsert event, primaryKey := table.upsert_primaryKey event }

end RunEventTable

def sqliteRunEventStore (isDatetime : String → Bool) : RunEventStore isDatetime RunEventTable where
  appendRunEvent table parsed :=
    let table' := table.append parsed.val
    (table', table'.rowToEnvelope parsed.val.runId (table.rowFor parsed.val))
  envelopes table runId := (table.runRows runId).map (table.rowToEnvelope runId)

end OpenLagrange
