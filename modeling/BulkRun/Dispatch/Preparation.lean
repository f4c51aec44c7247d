import BulkRun.Engine
/-!
# Preparing a command

Before a command is accepted, everything it needs is looked up: its action, the sizes and the limit
it leaves unset, its repository and its scroller.  A command that fails here leaves no trace.
-/

namespace BulkRun

namespace DispatcherSettings

/-- A command with its unset sizes, limit and repository filled in; defaults of the action go before
those of the settings. -/
def resolve (s : DispatcherSettings) (d : ActionDescriptor) (c : Command) :
    Except CommandFault Command :=
  (c.withDefaults (d.defaultBucketSize.getD s.defaultBucketSize)
    (d.defaultBatchSize.getD s.defaultBatchSize) d.defaultQueryLimit).map
    (·.withDefaultRepository s.defaultRepository)

/-- The number of records that a scroll asks for at once: some buckets' worth, at most the greatest
word. -/
def fetchSize (s : DispatcherSettings) (c : Command) : Nat :=
  min (c.bucketSize * max s.scrollFetchMultiplier 1) wordMax

end DispatcherSettings

/-- The error of a command that its action refuses. -/
def rejection (c : Command) (e : ActionError) : Error :=
  .configuration ("Action " ++ c.action ++ " rejected command: " ++ e.message)

/-- The command to be run, and its scroller. -/
def Setup.prepare {σ : Type} (setup : Setup σ) (c : Command) :
    Except Error (Command × Numbered (Scroller σ)) :=
  match setup.actions.resolve c.action with
  | .error e => .error e
  | .ok registered =>
    match setup.dispatcher.resolve registered.descriptor c with
    | .error f => .error f.toError
    | .ok c =>
      match registered.action.validate c with
      | .error e => .error (rejection c e)
      | .ok () => (setup.scrollers.resolve c.toDraft).map fun s => (c, s)

end BulkRun
