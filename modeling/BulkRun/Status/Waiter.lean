import BulkRun.Status.Tracker
/-!
# Waiting for the end of a command

A waiter subscribes to the status events before it looks at the command, so that no move slips
between the two.  It then reads events until the command's terminal one arrives, and looks at the
command again whenever it missed events.
-/

namespace BulkRun

/-- Somebody who waits for the end of a command. -/
structure Waiter where
  id : CommandId
  subscriber : Subscriber
deriving DecidableEq, Repr

/-- The answer to a waiter: that the command has ended, or that it is unknown. -/
abbrev Waited := Except Error Bool

namespace Waiter

/-- Begins to wait; an answer at once when the command has ended or is unknown. -/
def start (t : Tracker) (id : CommandId) : Waited ⊕ Waiter :=
  match t.state id with
  | .error e => .inl (.error e)
  | .ok s => if s.isTerminal then .inl (.ok true) else .inr ⟨id, t.log.subscribe⟩

/-- What a waiter does with what it reads: an answer, or it goes on reading. -/
def digest (t : Tracker) (w : Waiter) : Reception → Option Waited
  | .event e => if e.commandId = w.id ∧ e.state.isTerminal then some (.ok true) else none
  | .lagged _ =>
    match t.state w.id with
    | .error e => some (.error e)
    | .ok s => if s.isTerminal then some (.ok true) else none

/-- Reads one thing: an answer, or the waiter as it goes on; `none` when nothing is to be read. -/
def step? (t : Tracker) (w : Waiter) : Option (Waited ⊕ Waiter) :=
  (t.log.read? w.subscriber).map fun (r, s) =>
    match w.digest t r with
    | some answer => .inl answer
    | none => .inr { w with subscriber := s }

/-- Reads for as long as there is something to read, at most so many times. -/
def run (t : Tracker) : Nat → Waiter → Waited ⊕ Waiter
  | 0, w => .inr w
  | fuel + 1, w =>
    match w.step? t with
    | none => .inr w
    | some (.inl answer) => .inl answer
    | some (.inr w) => run t fuel w

end Waiter

end BulkRun
