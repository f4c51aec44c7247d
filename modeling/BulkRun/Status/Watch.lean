import BulkRun.Status.Waiter
/-!
# Watches

A watch is somebody who waits for the end of a command and takes turns with others.  It begins to
wait in its first turn: of what happened before, it knows only what the command tells.
-/

namespace BulkRun

/-- Where a watch stands. -/
inductive Watch where
  /-- It has had no turn yet. -/
  | created (id : CommandId)
  | waiting (waiter : Waiter)
  | answered (answer : Waited)

namespace Watch

/-- The watch of a waiter that has its answer or goes on. -/
def ofWaiting : Waited ⊕ Waiter → Watch
  | .inl answer => .answered answer
  | .inr w => .waiting w

/-- One step; `none` when there is nothing to read, or the answer is there. -/
def step? (t : Tracker) : Watch → Option Watch
  | .created id => some (ofWaiting (Waiter.start t id))
  | .waiting w => (w.step? t).map ofWaiting
  | .answered _ => none

/-- Whether the next step reads an event. -/
def spends : Watch → Bool
  | .waiting _ => true
  | _ => false

/-- The answer, once there is one. -/
def answer? : Watch → Option Waited
  | .answered answer => some answer
  | _ => none

end Watch

end BulkRun
