/-
One server-sent event connection to a run.

On opening it replays what the store has after the cursor, then subscribes to what this
process publishes, and from then on polls the store as well.  A replay is read first and
delivered a moment later.  One variable, the id of the last event sent, is where the next
replay is read from and what a published event is compared with.

Events are appended by this process, which publishes them, and by other processes, which
nobody here hears of.  The connection stays open, and a write to it does not fail.
-/
import OpenLagrange.Storage.RunEventLog

namespace OpenLagrange

def replayLimit : Nat := 500

inductive StreamPhase where
  | closed
  /-- The initial replay is under way. -/
  | replaying
  /-- It is done, and nobody has subscribed yet. -/
  | replayed
  | live
  deriving DecidableEq, Repr

/-- What was read from the store and is not delivered yet, with the cursor it was read from. -/
structure Replay where
  cursor : Option String
  events : List RunEventEnvelope

structure RunEventStream where
  table : RunEventTable
  /-- The cursor the client came with. -/
  cursor : Option String
  cursorEventId : Option String
  phase : StreamPhase
  pending : List Replay
  sent : List RunEventEnvelope

inductive StreamAction (isDatetime : String → Bool) where
  | append (parsed : ParsedRunEvent isDatetime)
  | appendElsewhere (parsed : ParsedRunEvent isDatetime)
  | start (cursor : Option String)
  | deliver
  | subscribe
  | poll

namespace RunEventStream

variable (isDatetime : String → Bool) (runId : String)

/-- The store before anything happened in it, and no connection. -/
def initial (runtime : String → RunRuntime) : RunEventStream where
  table := ⟨[], List.nodup_nil, runtime⟩
  cursor := none
  cursorEventId := none
  phase := .closed
  pending := []
  sent := []

def sendEnvelope (s : RunEventStream) (envelope : RunEventEnvelope) : RunEventStream :=
  { s with cursorEventId := some envelope.eventId, sent := s.sent ++ [envelope] }

/-- The read that `sendReplay` begins with. -/
def readReplay (s : RunEventStream) : Replay where
  cursor := s.cursorEventId
  events := (sqliteRunEventStore isDatetime).listRunEvents s.table runId s.cursorEventId
    (some (replayLimit + 1))

/-- The rest of `sendReplay`: too many events are not sent. -/
def sendReplay (s : RunEventStream) (replay : Replay) : RunEventStream :=
  if replayLimit < replay.events.length then s
  else replay.events.foldl sendEnvelope s

/-- What the subscriber does with a published event. -/
def onEvent (s : RunEventStream) (envelope : RunEventEnvelope) : RunEventStream :=
  if some envelope.eventId = s.cursorEventId then s else s.sendEnvelope envelope

def step (s : RunEventStream) : StreamAction isDatetime → RunEventStream
  | .append parsed =>
      let (table, envelope) := (sqliteRunEventStore isDatetime).appendRunEvent s.table parsed
      let s := { s with table }
      if s.phase = .live ∧ parsed.val.runId = runId then s.onEvent envelope else s
  | .appendElsewhere parsed =>
      { s with table := ((sqliteRunEventStore isDatetime).appendRunEvent s.table parsed).1 }
  | .start cursor =>
      if s.phase = .closed then
        let s := { s with cursor, cursorEventId := cursor, phase := .replaying }
        { s with pending := [s.readReplay isDatetime runId] }
      else s
  | .deliver =>
      match s.pending with
      | [] => s
      | replay :: rest =>
          let phase := if s.phase = .replaying then .replayed else s.phase
          { s with pending := rest, phase }.sendReplay replay
  | .subscribe => if s.phase = .replayed then { s with phase := .live } else s
  | .poll =>
      if s.phase = .live then { s with pending := s.pending ++ [s.readReplay isDatetime runId] }
      else s

def run (actions : List (StreamAction isDatetime)) (s : RunEventStream) : RunEventStream :=
  actions.foldl (step isDatetime runId) s

end RunEventStream

end OpenLagrange
