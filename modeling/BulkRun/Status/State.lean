/-!
# States of a command

A command is scheduled, then its records are scrolled, then the rest of its buckets is worked off,
and it ends in one of three terminal states.  States only move forward, and a terminal state is
final.
-/

namespace BulkRun

/-- Where a command stands. -/
inductive CommandState where
  /-- Accepted; its scroll has not begun. -/
  | scheduled
  /-- Its records are being scrolled, and worked on at the same time. -/
  | scrollingRunning
  /-- Its scroll is over, and buckets are still to be worked on. -/
  | running
  | completed
  | completedWithErrors
  /-- Cancelled, or ended by a failure. -/
  | aborted
deriving DecidableEq, Repr

namespace CommandState

/-- The position of a state in the order of the lifecycle. -/
def number : CommandState → Nat
  | .scheduled => 0
  | .scrollingRunning => 1
  | .running => 2
  | .completed => 3
  | .completedWithErrors => 4
  | .aborted => 5

/-- Whether no further move is possible. -/
def isTerminal : CommandState → Bool
  | .completed | .completedWithErrors | .aborted => true
  | _ => false

/-- The name of a state. -/
def name : CommandState → String
  | .scheduled => "scheduled"
  | .scrollingRunning => "scrolling_running"
  | .running => "running"
  | .completed => "completed"
  | .completedWithErrors => "completed_with_errors"
  | .aborted => "aborted"

/-- The states in the order of the lifecycle. -/
def all : List CommandState :=
  [.scheduled, .scrollingRunning, .running, .completed, .completedWithErrors, .aborted]

/-- The states by name. -/
def named : List (String × CommandState) := all.map fun s => (s.name, s)

/-- The state of a name. -/
def ofName? (s : String) : Option CommandState := named.lookup s

/-- The wording for a name that no state has. -/
def invalidName (s : String) : String := "Invalid command state: " ++ s

/-- The state that a new command is in. -/
def initial : CommandState := .scheduled

/-- Whether a command may move from one state to another: never out of a terminal state, and to a
state that is not terminal only forward. -/
def canMove (current target : CommandState) : Bool :=
  !current.isTerminal && (target.isTerminal || current.number < target.number)

end CommandState

end BulkRun
