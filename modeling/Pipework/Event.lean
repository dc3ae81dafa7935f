import Pipework.Json.Basic

/-!
# Events

Registrations, builds and runs are reported as events, in the order in which they happen. An event
goes to a sink, and no sink ever refuses one: it keeps the event, writes it to the log or drops it.
A process may have a sink that everything can report to; while none is set, such reports are
dropped.
-/

namespace Pipework

structure Event where
  type : String
  data : Option Json := none
  deriving DecidableEq

namespace Event

def registered : String := "pipeline.registered"

def built : String := "pipeline.build"

def ran : String := "pipeline.run"

/-- The events with a type that starts in a given way. -/
def ofType (start : String) (events : List Event) : List Event :=
  events.filter fun e => start.toList.isPrefixOf e.type.toList

end Event

/-- How detailed a line of a log is. -/
inductive LogLevel where
  | error
  | warn
  | info
  | debug
  | trace
  deriving DecidableEq, Repr

namespace LogLevel

/-- The level at which events are written for a sink of this level: a sink that is less detailed
than `debug` writes at `info`. -/
def ofEvents : LogLevel → LogLevel
  | .debug | .trace => .debug
  | .error | .warn | .info => .info

end LogLevel

/-- Where events go. -/
inductive EventSink where
  | noOp
  | logging (level : LogLevel)
  /-- The collector of this number, which keeps all events. -/
  | collecting (collector : Nat)
  deriving DecidableEq, Repr

/-- What the sinks of a process have received. -/
structure EventSinks where
  /-- The events that each collector keeps. -/
  collected : Nat → List Event := fun _ => []
  log : List (LogLevel × Event) := []
  /-- The sink of the process, if one is set. -/
  shared : Option EventSink := none

namespace EventSinks

/-- The sink of the process. Without one there is a sink that drops all events. -/
def current (s : EventSinks) : EventSink := s.shared.getD .noOp

def receive (s : EventSinks) (event : Event) : EventSink → EventSinks
  | .noOp => s
  | .logging level => { s with log := s.log ++ [(level.ofEvents, event)] }
  | .collecting n =>
    { s with collected := fun m => if m = n then s.collected n ++ [event] else s.collected m }

/-- What a process does with its sinks. -/
inductive Op where
  | emit (sink : EventSink) (event : Event)
  /-- Emits an event to the sink of the process. -/
  | report (event : Event)
  /-- Drops all events of a collector. -/
  | clear (collector : Nat)
  | share (sink : EventSink)
  | unshare

def step (s : EventSinks) : Op → EventSinks
  | .emit sink event => s.receive event sink
  | .report event => s.receive event s.current
  | .clear n => { s with collected := fun m => if m = n then [] else s.collected m }
  | .share sink => { s with shared := some sink }
  | .unshare => { s with shared := none }

/-- The sinks after several operations, one after the other. -/
def run (s : EventSinks) (ops : List Op) : EventSinks := ops.foldl step s

end EventSinks

end Pipework
