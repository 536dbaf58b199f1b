/-! # Event bus -/

namespace Stepper

inductive EventKind where
  | executionStart
  | executionOutput
  | executionError
  | executionComplete
  | inputRequest
  | inputResponse
  | breakpointHit
  | stepComplete
  | variableUpdate
  | sessionStart
  | sessionStop
  | executionPaused
  | executionContinued
deriving DecidableEq, Repr

namespace EventKind

def all : List EventKind :=
  [.executionStart, .executionOutput, .executionError, .executionComplete, .inputRequest,
   .inputResponse, .breakpointHit, .stepComplete, .variableUpdate, .sessionStart, .sessionStop,
   .executionPaused, .executionContinued]

def name : EventKind → String
  | .executionStart => "execution.start"
  | .executionOutput => "execution.output"
  | .executionError => "execution.error"
  | .executionComplete => "execution.complete"
  | .inputRequest => "execution.input_request"
  | .inputResponse => "execution.input_response"
  | .breakpointHit => "debug.breakpoint_hit"
  | .stepComplete => "debug.step_complete"
  | .variableUpdate => "debug.variable_update"
  | .sessionStart => "debug.session_start"
  | .sessionStop => "debug.session_stop"
  | .executionPaused => "debug.execution_paused"
  | .executionContinued => "debug.execution_continued"

def ofName? (text : String) : Option EventKind := all.find? fun kind => kind.name == text

end EventKind

structure Event (α : Type) where
  id : Nat
  kind : EventKind
  payload : α

structure Subscriber (α : Type) where
  id : Nat
  dropped : Bool
  waiting : List (Event α)

structure Bus (α : Type) where
  capacity : Nat
  published : Nat
  subscriptions : Nat
  subscribers : List (Subscriber α)
  recent : List (Event α)

namespace Bus

variable {α : Type}

def empty (capacity : Nat) : Bus α := ⟨capacity, 0, 0, [], []⟩

def subscribe (bus : Bus α) : Bus α × Nat :=
  ({ bus with
      subscriptions := bus.subscriptions + 1
      subscribers := bus.subscribers ++ [⟨bus.subscriptions, false, []⟩] },
   bus.subscriptions)

def unsubscribe (bus : Bus α) (id : Nat) : Bus α :=
  { bus with
    subscribers := bus.subscribers.map fun subscriber =>
      if subscriber.id = id then { subscriber with dropped := true, waiting := [] }
      else subscriber }

def nextEvent (bus : Bus α) (kind : EventKind) (payload : α) : Event α :=
  ⟨bus.published + 1, kind, payload⟩

def publish (bus : Bus α) (kind : EventKind) (payload : α) : Bus α :=
  let event := bus.nextEvent kind payload
  { bus with
    published := bus.published + 1
    subscribers :=
      (bus.subscribers.filter fun subscriber => !subscriber.dropped).map fun subscriber =>
        { subscriber with waiting := event :: subscriber.waiting }
    recent := (event :: bus.recent).take bus.capacity }

/-- Hands a subscriber the oldest of the events that wait for it, and nothing if none does. -/
def receive (bus : Bus α) (id : Nat) : Bus α × Option (Event α) :=
  let own := bus.subscribers.find? fun subscriber => subscriber.id == id
  ({ bus with
      subscribers := bus.subscribers.map fun subscriber =>
        if subscriber.id = id then { subscriber with waiting := subscriber.waiting.dropLast }
        else subscriber },
   own.bind fun subscriber => subscriber.waiting.getLast?)

/-- Receives one event after the other until none waits. -/
def drain (bus : Bus α) (id : Nat) : Nat → Bus α × List (Event α)
  | 0 => (bus, [])
  | bound + 1 =>
    match bus.receive id with
    | (bus, none) => (bus, [])
    | (bus, some event) =>
      let (bus, others) := bus.drain id bound
      (bus, event :: others)

def history (bus : Bus α) : List (Event α) := bus.recent.reverse

def audience (bus : Bus α) : Nat := bus.subscribers.length

end Bus

end Stepper
