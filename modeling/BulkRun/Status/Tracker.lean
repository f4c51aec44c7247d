import BulkRun.Status.Progress
/-!
# The status tracker

The progress of every command that was accepted and not yet dropped, in the order of acceptance, and
the log of status events.  A command that ended is dropped once its retention is over.
-/

namespace BulkRun

/-- The progress of all commands. -/
structure Tracker where
  commands : List Progress
  log : EventLog
  /-- The nanoseconds for which the progress of a command that ended is kept. -/
  retention : Nat

namespace Tracker

/-- The longest retention that is taken as given, in nanoseconds: as many milliseconds as a signed
word counts. -/
def maxRetention : Nat := 9223372036854775807 * 1000000

/-- A retention in nanoseconds; one that is too long counts as a hundred years of 365 days. -/
def effectiveRetention (nanos : Nat) : Nat :=
  if nanos ≤ maxRetention then nanos else 36500 * 86400 * 1000000000

/-- A tracker without commands, with a retention in nanoseconds. -/
def keeping (eventCapacity retention : Nat) : Tracker :=
  ⟨[], .empty eventCapacity, effectiveRetention retention⟩

/-- A tracker without commands, with a retention in seconds. -/
def new (eventCapacity seconds : Nat) : Tracker := keeping eventCapacity (seconds * 1000000000)

/-- The progress of a command. -/
def find? (t : Tracker) (id : CommandId) : Option Progress :=
  t.commands.find? fun p => p.id == id

/-- The progress of a command, which has to be there. -/
def progress (t : Tracker) (id : CommandId) : Except Error Progress :=
  match t.find? id with
  | some p => .ok p
  | none => .error (.notFound id)

/-- Puts new progress in the place of that of the same command. -/
def replace (t : Tracker) (q : Progress) : Tracker :=
  { t with commands := t.commands.map fun p => if p.id == q.id then q else p }

/-- Publishes the moves of a command, in order. -/
def publish (t : Tracker) (now : Timestamp) (id : CommandId) (states : List CommandState) :
    Tracker :=
  { t with log := states.foldl (fun log s => log.publish ⟨id, s, now⟩) t.log }

/-- Changes the progress of a command and publishes its moves. -/
def change (t : Tracker) (now : Timestamp) (id : CommandId)
    (f : Progress → Progress × List CommandState) : Except Error Tracker :=
  (t.progress id).map fun p =>
    let (q, states) := f p
    (t.replace q).publish now id states

/-- Accepts a command, unless there is one of its id. -/
def register (t : Tracker) (now : Timestamp) (c : Command) : Except Error Tracker :=
  match t.find? c.id with
  | some _ => .error (.configuration ("Command " ++ c.id.text ++ " is already registered"))
  | none =>
    let t := { t with commands := t.commands ++ [Progress.new c now] }
    .ok (t.publish now c.id [.scheduled])

/-- The command of an id. -/
def command (t : Tracker) (id : CommandId) : Except Error Command :=
  (t.progress id).map (·.command)

/-- The state of a command. -/
def state (t : Tracker) (id : CommandId) : Except Error CommandState :=
  (t.progress id).map (·.state)

/-- Whether a command is there and aborted. -/
def isAborted (t : Tracker) (id : CommandId) : Bool :=
  match t.find? id with
  | some p => p.state == .aborted
  | none => false

/-- The status of a command; one whose retention is over is dropped instead. -/
def get (t : Tracker) (now : Timestamp) (id : CommandId) : Except Error Status × Tracker :=
  match t.progress id with
  | .error e => (.error e, t)
  | .ok p =>
    if p.isExpired now t.retention then
      (.error (.notFound id), { t with commands := t.commands.filter fun q => q.id != id })
    else (.ok p.status, t)

/-- The scroll of a command begins. -/
def startScrolling (t : Tracker) (now : Timestamp) (id : CommandId) : Except Error Tracker :=
  t.change now id (·.startScrolling now)

/-- Counts records found by the scroll of a command. -/
def addScrolled (t : Tracker) (now : Timestamp) (id : CommandId) (count : Nat) :
    Except Error Tracker :=
  t.change now id fun p => (p.addScrolled count, [])

/-- The scroll of a command came to its end. -/
def markSubmitted (t : Tracker) (now : Timestamp) (id : CommandId) : Except Error Tracker :=
  t.change now id (·.markSubmitted now)

/-- The scroll of a command broke off. -/
def failScroll (t : Tracker) (now : Timestamp) (id : CommandId) (message : String) :
    Except Error Tracker :=
  t.change now id (·.failScroll now message)

/-- Reports the outcome of records of a command. -/
def recordBatch (t : Tracker) (now : Timestamp) (id : CommandId) (processed errors : Nat) :
    Except Error Tracker :=
  t.change now id (·.recordBatch now processed errors)

/-- Whether a bucket of a command was worked through. -/
def isBucketDone (t : Tracker) (id : CommandId) (sequence : Nat) : Bool :=
  match t.find? id with
  | some p => p.isBucketDone sequence
  | none => false

/-- Remembers that a bucket of a command was worked through; returns whether that is new. -/
def completeBucket (t : Tracker) (now : Timestamp) (id : CommandId) (sequence : Nat) :
    Except Error (Bool × Tracker) :=
  (t.change now id fun p => (p.completeBucket sequence, [])).map fun u =>
    (!t.isBucketDone id sequence, u)

/-- Ends a command at once, perhaps with a message; returns whether it had not ended yet. -/
def abortWith (t : Tracker) (now : Timestamp) (id : CommandId) (message : Option String) :
    Except Error (Bool × Tracker) :=
  (t.progress id).map fun p =>
    match p.abort? now message with
    | some q => (true, (t.replace q).publish now id [.aborted])
    | none => (false, t)

/-- Cancels a command. -/
def abort (t : Tracker) (now : Timestamp) (id : CommandId) : Except Error (Bool × Tracker) :=
  t.abortWith now id none

/-- Ends a command because of an error. -/
def abortWithError (t : Tracker) (now : Timestamp) (id : CommandId) (message : String) :
    Except Error (Bool × Tracker) :=
  t.abortWith now id (some message)

/-- The statuses of the commands of a user, in the order of acceptance. -/
def statusesForUser (t : Tracker) (username : String) : List Status :=
  (t.commands.filter fun p => p.command.username == some username).map (·.status)

/-- Drops every command whose retention is over at an instant; returns their number. -/
def purgeExpired (t : Tracker) (now : Timestamp) : Nat × Tracker :=
  let rest := t.commands.filter fun p => !p.isExpired now t.retention
  (t.commands.length - rest.length, { t with commands := rest })

/-- The number of commands. -/
def size (t : Tracker) : Nat := t.commands.length

end Tracker

end BulkRun
