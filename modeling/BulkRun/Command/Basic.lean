import BulkRun.Error
import BulkRun.Json.Basic
import BulkRun.Text.Blank
/-!
# Commands

A command asks for one action on every record that a query finds.  It is put together as a `Draft`,
whose steps refuse what no command may hold, and becomes a `Command` when it is given an id.

Sizes are zero while they are unset.  A bucket is the number of records handed to a worker at once
and a batch the number within one transaction, so a set bucket size is never below the batch size.
-/

namespace BulkRun

/-- The parameters of an action, with distinct keys. -/
abbrev Params := List (String × Json)

/-- What keeps a draft from being a command. -/
inductive CommandFault where
  | emptyAction
  | emptyQuery
  | zeroLimit
  | zeroBucketSize
  | zeroBatchSize
  | bucketBelowBatch (bucket batch : Nat)
  | emptyParamKey
  | zeroDefaults (bucket batch : Nat)
deriving DecidableEq, Repr

/-- The wording of a fault. -/
def CommandFault.message : CommandFault → String
  | .emptyAction => "Action cannot be empty"
  | .emptyQuery => "Query cannot be empty"
  | .zeroLimit => "Invalid limit: 0, must be > 0 (use query_unlimited)"
  | .zeroBucketSize => "Invalid bucket size, must be > 0"
  | .zeroBatchSize => "Invalid batch size, must be > 0"
  | .bucketBelowBatch bucket batch =>
    "Bucket size: " ++ Text.ofNat bucket ++ " must be greater or equal to batch size: " ++
      Text.ofNat batch
  | .emptyParamKey => "Param key cannot be empty"
  | .zeroDefaults bucket batch =>
    "Default sizes must be > 0 (bucket: " ++ Text.ofNat bucket ++ ", batch: " ++
      Text.ofNat batch ++ ")"

/-- A fault of a command is an error of configuration. -/
def CommandFault.toError (f : CommandFault) : Error := .configuration f.message

/-- A command without its id. -/
structure Draft where
  action : String
  /-- The query, or a descriptor of records when a generic scroller is used. -/
  query : String
  /-- The most records to take; unset when absent, and without bound when zero. -/
  queryLimit : Option Nat
  username : Option String
  repository : Option String
  bucketSize : Nat
  batchSize : Nat
  /-- The name of the scroller; that of the default one when absent. -/
  scroller : Option String
  genericScroller : Bool
  params : Params

/-- A command. -/
structure Command extends Draft where
  id : CommandId

/-- Refuses a set bucket size below the batch size. -/
def checkSizes (bucket batch : Nat) : Except CommandFault Unit :=
  if 0 < bucket ∧ bucket < batch then .error (.bucketBelowBatch bucket batch) else .ok ()

namespace Draft

/-- A draft with nothing set but its action and its query. -/
def new (action query : String) : Except CommandFault Draft :=
  if Text.isBlank action then .error .emptyAction
  else if Text.isBlank query then .error .emptyQuery
  else .ok ⟨action, query, none, none, none, 0, 0, none, false, []⟩

/-- Names the repository. -/
def withRepository (d : Draft) (name : String) : Draft := { d with repository := some name }

/-- Names the user. -/
def withUser (d : Draft) (name : String) : Draft := { d with username := some name }

/-- Bounds the number of records. -/
def withQueryLimit (d : Draft) (limit : Nat) : Except CommandFault Draft :=
  if limit = 0 then .error .zeroLimit else .ok { d with queryLimit := some limit }

/-- Asks for all records, whatever the action's own bound. -/
def unlimited (d : Draft) : Draft := { d with queryLimit := some 0 }

/-- Sets the bucket size. -/
def withBucket (d : Draft) (size : Nat) : Except CommandFault Draft :=
  if size = 0 then .error .zeroBucketSize
  else (checkSizes size d.batchSize).map fun _ => { d with bucketSize := size }

/-- Sets the batch size. -/
def withBatch (d : Draft) (size : Nat) : Except CommandFault Draft :=
  if size = 0 then .error .zeroBatchSize
  else (checkSizes d.bucketSize size).map fun _ => { d with batchSize := size }

/-- Adds a parameter, or replaces the one of that key. -/
def withParam (d : Draft) (key : String) (value : Json) : Except CommandFault Draft :=
  if Text.isBlank key then .error .emptyParamKey
  else .ok { d with params := insertEntry d.params key value }

/-- Replaces all parameters; no parameters leave those there are. -/
def withParams (d : Draft) (params : Params) : Except CommandFault Draft :=
  if params.isEmpty then .ok d
  else if params.any fun p => Text.isBlank p.1 then .error .emptyParamKey
  else .ok { d with params := params }

/-- A name of a scroller, unless it is empty. -/
def scrollerName (name : String) : Option String :=
  if name.isEmpty then none else some name

/-- Names the scroller; the empty name stands for the default one. -/
def withScroller (d : Draft) (name : String) : Draft := { d with scroller := scrollerName name }

/-- Takes the query as a descriptor for a generic scroller. -/
def useGenericScroller (d : Draft) : Draft := { d with genericScroller := true }

/-- Takes the query as a document query. -/
def useDocumentScroller (d : Draft) : Draft := { d with genericScroller := false }

/-- The command with an id. -/
def build (d : Draft) (id : CommandId) : Command := { d with id := id }

/-! ## What a draft says -/

/-- The bound on the number of records, if there is one. -/
def effectiveQueryLimit (d : Draft) : Option Nat :=
  match d.queryLimit with
  | some (n + 1) => some (n + 1)
  | _ => none

/-- Whether both sizes are set. -/
def isSized (d : Draft) : Bool := 0 < d.bucketSize && 0 < d.batchSize

/-- The value of a parameter. -/
def param? (d : Draft) (key : String) : Option Json := d.params.lookup key

/-! ## Defaults -/

/-- The sizes that result from set ones and defaults.  A default batch size gives way to a set
bucket size, and a default bucket size to a set batch size. -/
def resolvedSizes (bucket batch defaultBucket defaultBatch : Nat) : Nat × Nat :=
  match bucket, batch with
  | 0, 0 => (defaultBucket, min defaultBatch defaultBucket)
  | bucket, 0 => (bucket, min defaultBatch bucket)
  | 0, batch => (max defaultBucket batch, batch)
  | bucket, batch => (bucket, batch)

/-- Fills in unset sizes and an unset bound on the number of records. -/
def withDefaults (d : Draft) (bucket batch : Nat) (limit : Option Nat) :
    Except CommandFault Draft :=
  if bucket = 0 ∨ batch = 0 then .error (.zeroDefaults bucket batch)
  else
    let sizes := resolvedSizes d.bucketSize d.batchSize bucket batch
    (checkSizes sizes.1 sizes.2).map fun _ =>
      { d with bucketSize := sizes.1, batchSize := sizes.2, queryLimit := d.queryLimit.or limit }

/-- Names a repository unless there is one. -/
def withDefaultRepository (d : Draft) (name : Option String) : Draft :=
  { d with repository := d.repository.or name }

end Draft

namespace Command

/-- Fills in unset sizes and an unset bound; the id stays. -/
def withDefaults (c : Command) (bucket batch : Nat) (limit : Option Nat) :
    Except CommandFault Command :=
  (c.toDraft.withDefaults bucket batch limit).map (·.build c.id)

/-- Names a repository unless there is one; the id stays. -/
def withDefaultRepository (c : Command) (name : Option String) : Command :=
  (c.toDraft.withDefaultRepository name).build c.id

end Command

end BulkRun
