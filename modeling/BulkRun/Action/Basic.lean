import BulkRun.Command.Basic
/-!
# Actions

An action is the work done on the records of a command.  It is applied to a batch of records at once
and reports an outcome for each.  An action that stops on a record says which one it was.

An action may take its time: a call is begun and then polled until it answers.  While it works, an
action may also abort its own command or have ended commands dropped.
-/

namespace BulkRun

/-- What an action is told about its command. -/
structure ActionContext where
  commandId : CommandId
  action : String
  repository : Option String
  username : Option String
  params : Params

/-- What an action is told about a command. -/
def ActionContext.of (c : Command) : ActionContext :=
  ⟨c.id, c.action, c.repository, c.username, c.params⟩

/-- What became of a record. -/
structure RecordOutcome where
  recordId : String
  error : Option String
deriving DecidableEq, Repr

/-- Whether the action succeeded on the record. -/
def RecordOutcome.isSuccess (o : RecordOutcome) : Bool := o.error.isNone

/-- Why an action reports no outcomes. -/
inductive ActionError where
  /-- It stopped on a record; that record and those after it were not worked on. -/
  | recordFailed (record message : String)
  /-- It cannot run at all. -/
  | configuration (message : String)
  /-- The transaction around it is lost. -/
  | transaction (message : String)
deriving DecidableEq, Repr

/-- The wording of an action error. -/
def ActionError.message : ActionError → String
  | .recordFailed r m => "record " ++ r ++ " failed: " ++ m
  | .configuration m => "action configuration: " ++ m
  | .transaction m => "transaction failure: " ++ m

/-- The error that an action error amounts to. -/
def ActionError.toError : ActionError → Error
  | .recordFailed r m => .perRecord r m
  | .configuration m => .configuration m
  | .transaction m => .transaction m

/-- What an action may do to the commands while it works. -/
inductive Intervention where
  /-- Cancel its own command. -/
  | abort
  /-- Drop the commands whose retention is over. -/
  | purge
deriving DecidableEq, Repr

/-- The answer to a call of an action. -/
structure ActionReply where
  interventions : List Intervention
  result : Except ActionError (List RecordOutcome)

/-- Work on records, in a world of type `σ`. -/
structure Action (σ : Type) where
  /-- Refuses a command before it is accepted. -/
  validate : Command → Except ActionError Unit
  /-- Begins a call on some records; returns a number by which the call is known. -/
  call : ActionContext → List String → σ → Nat × σ
  /-- Whether each answer takes a permit, of which there are only so many. -/
  takesPermit : Bool
  /-- The answer to a call; `none` when it has to wait. -/
  poll : ActionContext → List String → Nat → σ → Option (ActionReply × σ)

end BulkRun
