/-
Who hears of the events of a run.

The subscribers of a run are a set of callbacks, made when the first subscribes.  The function that
unsubscribes a callback keeps hold of the set it was put in; when it finds that set empty, it
deletes the run from the map, whatever set the run has there by then.

Sets are objects, so they are kept by number, as are the functions that were returned.  A callback
may call some of these functions when it is given an envelope; which ones is up to it, each time
anew.  It does not subscribe anyone meanwhile, and it returns.
-/
import OpenLagrange.Storage.RunEventLog

namespace OpenLagrange.Delivery

variable {κ : Type} [DecidableEq κ]

/-! ### Subscribing and publishing -/

/-- What an unsubscribe function has captured. -/
structure Subscription (κ : Type) where
  runId : String
  onEvent : κ
  set : Nat

structure Subscribers (κ : Type) where
  /-- The sets that were made, by number. -/
  sets : Nat → List κ
  /-- The number of the next set. -/
  fresh : Nat
  /-- The map from runs to sets. -/
  subscribers : String → Option Nat
  /-- The functions that were returned. -/
  functions : List (Subscription κ)

namespace Subscribers

def empty : Subscribers κ := ⟨fun _ => [], 0, fun _ => none, []⟩

/-- `set.add(onEvent)`. -/
def add (members : List κ) (onEvent : κ) : List κ :=
  if onEvent ∈ members then members else members ++ [onEvent]

def subscribeRunEvents (s : Subscribers κ) (runId : String) (onEvent : κ) : Subscribers κ :=
  match s.subscribers runId with
  | some set =>
      { s with
        sets := Function.update s.sets set (add (s.sets set) onEvent)
        functions := s.functions ++ [⟨runId, onEvent, set⟩] }
  | none =>
      { sets := Function.update s.sets s.fresh (add [] onEvent)
        fresh := s.fresh + 1
        subscribers := Function.update s.subscribers runId (some s.fresh)
        functions := s.functions ++ [⟨runId, onEvent, s.fresh⟩] }

/-- A call of one of the functions that were returned. -/
def unsubscribe (s : Subscribers κ) (n : Nat) : Subscribers κ :=
  match s.functions[n]? with
  | none => s
  | some f =>
      let members := (s.sets f.set).erase f.onEvent
      { s with
        sets := Function.update s.sets f.set members
        subscribers :=
          if members.length = 0 then Function.update s.subscribers f.runId none
          else s.subscribers }

def unsubscribeAll (s : Subscribers κ) (functions : List Nat) : Subscribers κ :=
  functions.foldl unsubscribe s

/-- The rest of a loop over a set: a callback that is no longer in it is passed over. -/
def deliver (reactions : κ → List Nat) (set : Nat) :
    List κ → Subscribers κ → List κ × Subscribers κ
  | [], s => ([], s)
  | onEvent :: rest, s =>
      if onEvent ∈ s.sets set then
        let (delivered, s) := deliver reactions set rest (s.unsubscribeAll (reactions onEvent))
        (onEvent :: delivered, s)
      else deliver reactions set rest s

/-- The callbacks that are given the envelope, and what is left of the subscribers. -/
def publishRunEventEnvelope (s : Subscribers κ) (envelope : RunEventEnvelope)
    (reactions : κ → List Nat) : List κ × Subscribers κ :=
  match s.subscribers envelope.runId with
  | some set => deliver reactions set (s.sets set) s
  | none => ([], s)

end Subscribers

inductive Call (κ : Type) where
  | subscribe (runId : String) (onEvent : κ)
  | unsubscribe (n : Nat)
  /-- `reactions` are the functions that each callback calls when it is given the envelope. -/
  | publish (envelope : RunEventEnvelope) (reactions : κ → List Nat)

def Subscribers.call (s : Subscribers κ) : Call κ → List κ × Subscribers κ
  | .subscribe runId onEvent => ([], s.subscribeRunEvents runId onEvent)
  | .unsubscribe n => ([], s.unsubscribe n)
  | .publish envelope reactions => s.publishRunEventEnvelope envelope reactions

def Subscribers.run (s : Subscribers κ) (calls : List (Call κ)) : Subscribers κ :=
  calls.foldl (fun s c => (s.call c).2) s

/-! ### A stream of events

The generator is consumed by a loop that asks for the next envelope when it has dealt with the
last.  It is suspended before its first statement, at a `yield`, or at the promise it waits for;
`notify` is set exactly while it waits, also when the promise is resolved and the generator was not
resumed yet.
-/

inductive GeneratorPhase where
  | idle
  | yielded
  | waiting
  | woken
  | done
  deriving DecidableEq, Repr

structure RunEventGenerator where
  runId : String
  phase : GeneratorPhase
  queue : List RunEventEnvelope
  /-- What its consumer was given. -/
  yielded : List RunEventEnvelope
  aborted : Bool
  unsubscribe : Option Nat

def subscribeRunEventStream (runId : String) : RunEventGenerator where
  runId := runId
  phase := .idle
  queue := []
  yielded := []
  aborted := false
  unsubscribe := none

/-- The subscribers, and one stream; its callback is told from all others. -/
structure Streaming (κ : Type) where
  bus : Subscribers κ
  generator : RunEventGenerator

inductive StreamStep (κ : Type) where
  | call (c : Call κ)
  /-- The consumer asks for the next envelope. -/
  | next
  /-- The generator goes on after its promise was resolved. -/
  | resume
  | abort
  /-- The consumer leaves its loop. -/
  | leave

/-- The callback that the generator subscribes. -/
def RunEventGenerator.onEvent (g : RunEventGenerator) (envelope : RunEventEnvelope) :
    RunEventGenerator :=
  { g with
    queue := g.queue ++ [envelope]
    phase := if g.phase = .waiting then .woken else g.phase }

namespace Streaming

/-- The `finally` block. -/
def finish (s : Streaming κ) : Streaming κ where
  bus :=
    match s.generator.unsubscribe with
    | some n => s.bus.unsubscribe n
    | none => s.bus
  generator := { s.generator with phase := .done }

/-- The loop, from its head to where the generator is suspended. -/
def loop (s : Streaming κ) : Streaming κ :=
  if s.generator.aborted then s.finish
  else
    match s.generator.queue with
    | item :: rest =>
        { s with
          generator :=
            { s.generator with
              queue := rest, yielded := s.generator.yielded ++ [item], phase := .yielded } }
    | [] => { s with generator := { s.generator with phase := .waiting } }

def step (mine : κ) (s : Streaming κ) : StreamStep κ → Streaming κ
  | .call c =>
      let (delivered, bus) := s.bus.call c
      match c with
      | .publish envelope _ =>
          if mine ∈ delivered then ⟨bus, s.generator.onEvent envelope⟩ else ⟨bus, s.generator⟩
      | _ => ⟨bus, s.generator⟩
  | .next =>
      match s.generator.phase with
      | .idle =>
          loop ⟨s.bus.subscribeRunEvents s.generator.runId mine,
            { s.generator with unsubscribe := some s.bus.functions.length }⟩
      | .yielded => s.loop
      | _ => s
  | .resume => if s.generator.phase = .woken then s.loop else s
  | .abort =>
      { s with
        generator :=
          { s.generator with
            aborted := true
            phase := if s.generator.phase = .waiting then .woken else s.generator.phase } }
  | .leave =>
      match s.generator.phase with
      | .idle => { s with generator := { s.generator with phase := .done } }
      | .yielded => s.finish
      | _ => s

def run (mine : κ) (s : Streaming κ) (steps : List (StreamStep κ)) : Streaming κ :=
  steps.foldl (step mine) s

end Streaming

end OpenLagrange.Delivery
