import BulkRun.Command.Id
import BulkRun.Status.State
import BulkRun.Time.Timestamp
/-!
# Status events

Every move of a command to a state is published as an event.  A subscriber reads the events
published after its subscription in order, but the log only keeps the newest ones: a subscriber that
is too far behind is told how many it missed and goes on with the oldest event that is kept.
-/

namespace BulkRun

/-- A command moved to a state. -/
structure StatusEvent where
  commandId : CommandId
  state : CommandState
  publishedAt : Timestamp
deriving DecidableEq, Repr

/-- The name of an event. -/
def StatusEvent.name (e : StatusEvent) : String := "command." ++ e.state.name

/-- All events published so far, oldest first, and how many of them are asked to be kept. -/
structure EventLog where
  capacity : Nat
  events : List StatusEvent
deriving DecidableEq, Repr

/-- A subscriber: the number of events that were published before the next one it reads. -/
structure Subscriber where
  next : Nat
deriving DecidableEq, Repr

/-- What a subscriber gets at once. -/
inductive Reception where
  | event (e : StatusEvent)
  /-- So many events are no longer kept. -/
  | lagged (missed : Nat)
deriving DecidableEq, Repr

namespace EventLog

/-- A log without events. -/
def empty (capacity : Nat) : EventLog := ⟨capacity, []⟩

/-- The number of events that are kept: the capacity, at least one, rounded up to a power of two. -/
def kept (log : EventLog) : Nat := (max log.capacity 1).nextPowerOfTwo

/-- Adds an event. -/
def publish (log : EventLog) (e : StatusEvent) : EventLog :=
  { log with events := log.events ++ [e] }

/-- A subscriber to the events that come from now on. -/
def subscribe (log : EventLog) : Subscriber := ⟨log.events.length⟩

/-- What a subscriber reads next; `none` when it has read everything. -/
def read? (log : EventLog) (s : Subscriber) : Option (Reception × Subscriber) :=
  let oldest := log.events.length - log.kept
  if s.next < oldest then some (.lagged (oldest - s.next), ⟨oldest⟩)
  else
    match log.events[s.next]? with
    | none => none
    | some e => some (.event e, ⟨s.next + 1⟩)

/-- Everything a subscriber has not read: the number of events it missed, and the events kept. -/
def readAll (log : EventLog) (s : Subscriber) : Nat × List StatusEvent × Subscriber :=
  let oldest := log.events.length - log.kept
  (oldest - s.next, log.events.drop (max oldest s.next), log.subscribe)

end EventLog

end BulkRun
