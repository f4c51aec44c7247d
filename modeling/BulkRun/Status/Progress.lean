import BulkRun.Command.Basic
import BulkRun.Status.Event
/-!
# Progress of one command

Counters of what was scrolled and what was worked on, and the state that follows from them.  Whether
a command is finished is never reported: it is found out after every change, when the scroll has
ended and as many records were worked on as were scrolled.

An operation returns the new progress and the states that the command moved to, in order.
-/

namespace BulkRun

/-- The progress of a command. -/
structure Progress where
  command : Command
  createdAt : Timestamp
  state : CommandState
  /-- The number of records scrolled so far. -/
  scrollCount : Nat
  /-- The number of records with a reported outcome. -/
  processed : Nat
  errorCount : Nat
  /-- The scroll came to its end. -/
  submitted : Bool
  /-- The scroll broke off. -/
  scrollFailed : Bool
  /-- The sequence numbers of the buckets that were worked through. -/
  completedBuckets : List Nat
  scrollStartedAt : Option Timestamp
  scrollEndedAt : Option Timestamp
  startedAt : Option Timestamp
  completedAt : Option Timestamp
  errorMessage : Option String

/-- What can be seen of the progress of a command. -/
structure Status where
  id : CommandId
  action : String
  username : Option String
  state : CommandState
  scrollCount : Nat
  processed : Nat
  errorCount : Nat
  submitted : Bool
  errorMessage : Option String
  createdAt : Timestamp
  scrollStartedAt : Option Timestamp
  scrollEndedAt : Option Timestamp
  startedAt : Option Timestamp
  completedAt : Option Timestamp
deriving DecidableEq, Repr

namespace Status

/-- Whether the command has ended. -/
def isTerminal (s : Status) : Bool := s.state.isTerminal

/-- Whether anything went wrong. -/
def hasError (s : Status) : Bool := 0 < s.errorCount || s.errorMessage.isSome

end Status

namespace Progress

/-- The progress of a command that was just accepted. -/
def new (command : Command) (now : Timestamp) : Progress where
  command := command
  createdAt := now
  state := .initial
  scrollCount := 0
  processed := 0
  errorCount := 0
  submitted := false
  scrollFailed := false
  completedBuckets := []
  scrollStartedAt := none
  scrollEndedAt := none
  startedAt := none
  completedAt := none
  errorMessage := none

/-- The id of the command. -/
def id (p : Progress) : CommandId := p.command.id

/-- What can be seen of the progress. -/
def status (p : Progress) : Status where
  id := p.command.id
  action := p.command.action
  username := p.command.username
  state := p.state
  scrollCount := p.scrollCount
  processed := p.processed
  errorCount := p.errorCount
  submitted := p.submitted
  errorMessage := p.errorMessage
  createdAt := p.createdAt
  scrollStartedAt := p.scrollStartedAt
  scrollEndedAt := p.scrollEndedAt
  startedAt := p.startedAt
  completedAt := p.completedAt

/-- The progress with its command moved to a state, when it may move there. -/
def moveTo? (p : Progress) (target : CommandState) : Option Progress :=
  if p.state.canMove target then some { p with state := target } else none

/-- The state a command ends in once nothing is left to do. -/
def finalState (p : Progress) : CommandState :=
  if p.scrollFailed then .aborted
  else if 0 < p.errorCount then .completedWithErrors
  else .completed

/-- Whether the scroll is over and all that it found was worked on. -/
def isDrained (p : Progress) : Bool :=
  (p.submitted || p.scrollFailed) && p.scrollCount ≤ p.processed

/-- Ends the command if nothing is left to do. -/
def settle (now : Timestamp) (p : Progress) : Progress × List CommandState :=
  if p.isDrained then
    match p.moveTo? p.finalState with
    | some q => ({ q with completedAt := some now }, [p.finalState])
    | none => (p, [])
  else (p, [])

/-- The scroll begins. -/
def startScrolling (now : Timestamp) (p : Progress) : Progress × List CommandState :=
  match p.moveTo? .scrollingRunning with
  | some q => ({ q with scrollStartedAt := some now }, [.scrollingRunning])
  | none => (p, [])

/-- Counts records found by the scroll, modulo `2 ^ 64`. -/
def addScrolled (count : Nat) (p : Progress) : Progress :=
  { p with scrollCount := (p.scrollCount + count) % wordCount }

/-- Moves on from scrolling, and ends the command if nothing is left to do. -/
def endScroll (now : Timestamp) (p : Progress) : Progress × List CommandState :=
  let moved : Progress × List CommandState := match p.moveTo? .running with
    | some q => (q, [.running])
    | none => (p, [])
  let ended := moved.1.settle now
  (ended.1, moved.2 ++ ended.2)

/-- The scroll came to its end. -/
def markSubmitted (now : Timestamp) (p : Progress) : Progress × List CommandState :=
  endScroll now { p with scrollEndedAt := some now, submitted := true }

/-- The scroll broke off. -/
def failScroll (now : Timestamp) (message : String) (p : Progress) : Progress × List CommandState :=
  endScroll now { p with
    scrollEndedAt := some now
    errorMessage := some message
    scrollFailed := true }

/-- Reports the outcome of records: so many were worked on, and so many of them failed.  No more
records count as worked on than were scrolled. -/
def recordBatch (now : Timestamp) (processed errors : Nat) (p : Progress) :
    Progress × List CommandState :=
  settle now { p with
    startedAt := p.startedAt.or (some now)
    errorCount := (p.errorCount + errors) % wordCount
    processed := min (min (p.processed + processed) wordMax) p.scrollCount }

/-- Whether a bucket was worked through. -/
def isBucketDone (sequence : Nat) (p : Progress) : Bool := p.completedBuckets.contains sequence

/-- Remembers that a bucket was worked through. -/
def completeBucket (sequence : Nat) (p : Progress) : Progress :=
  if p.isBucketDone sequence then p
  else { p with completedBuckets := sequence :: p.completedBuckets }

/-- Ends the command at once, unless it has ended. -/
def abort? (now : Timestamp) (message : Option String) (p : Progress) : Option Progress :=
  (p.moveTo? .aborted).map fun q =>
    { q with errorMessage := message.or q.errorMessage, completedAt := some now }

/-- Whether the command ended so long ago that its progress need not be kept; the retention is in
nanoseconds. -/
def isExpired (now : Timestamp) (retention : Nat) (p : Progress) : Bool :=
  p.state.isTerminal &&
    match p.completedAt.bind (·.add? retention) with
    | some expiry => decide (expiry ≤ now)
    | none => false

end Progress

end BulkRun
