import BulkRun.Command.Id
/-!
# Errors

The ways in which work on commands fails.  A collaborator reports in an error type of its own, which
is turned into one of these where its answer is taken up.
-/

namespace BulkRun

/-- Why something could not be done. -/
inductive Error where
  /-- A command, an action or the settings cannot be used as they are. -/
  | configuration (message : String)
  /-- The records of a command could not be enumerated. -/
  | scroll (message : String)
  | unknownAction (name : String)
  /-- No scroller has this kind and name. -/
  | unknownScroller (name : String)
  | transaction (message : String)
  /-- The action failed on one record. -/
  | perRecord (record message : String)
  | notFound (id : CommandId)
  /-- A bucket could not be handed on. -/
  | channel (message : String)
deriving DecidableEq, Repr

/-- The wording of an error. -/
def Error.message : Error → String
  | .configuration m => "Configuration error: " ++ m
  | .scroll m => "Scroll error: " ++ m
  | .unknownAction a => "Unknown action: " ++ a
  | .unknownScroller s => "Unknown scroller: " ++ s
  | .transaction m => "Transaction error: " ++ m
  | .perRecord r m => "Record " ++ r ++ " failed: " ++ m
  | .notFound id => "Command not found: " ++ id.text
  | .channel m => "Channel error: " ++ m

/-- The id that a text names, which has to be one. -/
def CommandId.read (s : String) : Except Error CommandId :=
  match CommandId.parse? s with
  | some id => .ok id
  | none => .error (.configuration ("Invalid command id " ++ s))

/-- The name of the kind of an error. -/
def Error.kind : Error → String
  | .configuration _ => "Configuration"
  | .scroll _ => "Scroll"
  | .unknownAction _ => "UnknownAction"
  | .unknownScroller _ => "UnknownScroller"
  | .transaction _ => "Transaction"
  | .perRecord _ _ => "PerRecord"
  | .notFound _ => "NotFound"
  | .channel _ => "Channel"

end BulkRun
