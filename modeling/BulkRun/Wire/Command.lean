import BulkRun.Command.Basic
import BulkRun.Json.Reader
/-!
# The wire form of commands

A command travels as a record of its fields.  A record is no command before it went through the same
checks as a draft, so whatever is decoded could have been built.
-/

namespace BulkRun

/-- The fields of a command, unchecked. -/
structure WireCommand where
  id : CommandId
  action : String
  query : String
  queryLimit : Option Nat
  username : Option String
  repository : Option String
  /-- Zero when unset. -/
  bucketSize : Nat
  /-- Zero when unset. -/
  batchSize : Nat
  scroller : Option String
  genericScroller : Bool
  params : Params

namespace Command

/-- The fields of a command. -/
def encode (c : Command) : WireCommand :=
  ⟨c.id, c.action, c.query, c.queryLimit, c.username, c.repository, c.bucketSize, c.batchSize,
    c.scroller, c.genericScroller, c.params⟩

end Command

namespace WireCommand

/-- Sets a size unless it is zero. -/
def sized (set : Draft → Nat → Except CommandFault Draft) (size : Nat) (d : Draft) :
    Except CommandFault Draft :=
  if size = 0 then .ok d else set d size

/-- The command that a record describes. -/
def decode (w : WireCommand) : Except CommandFault Command := do
  let d ← Draft.new w.action w.query
  let d ← d.withParams w.params
  let d ← sized Draft.withBucket w.bucketSize d
  let d ← sized Draft.withBatch w.batchSize d
  return { d with
    id := w.id
    queryLimit := w.queryLimit
    username := w.username
    repository := w.repository
    scroller := w.scroller.bind Draft.scrollerName
    genericScroller := w.genericScroller }

/-- The names of the fields, in order. -/
def fieldNames : List String :=
  ["id", "action", "query", "query_limit", "username", "repository", "bucket_size", "batch_size",
   "scroller", "generic_scroller", "params"]

/-- An id in a JSON text. -/
def id? : Json.Reader CommandId := fun t => (Json.text? t).bind CommandId.parse?

/-- A record in a JSON text. -/
def read? : Json.Reader WireCommand := fun t => do
  let fs ← Json.Fields.read? fieldNames t
  let id ← fs.required "id" id?
  let action ← fs.required "action" Json.text?
  let query ← fs.required "query" Json.text?
  let queryLimit ← fs.defaulted "query_limit" (Json.nullable? Json.word?) none
  let username ← fs.defaulted "username" (Json.nullable? Json.text?) none
  let repository ← fs.defaulted "repository" (Json.nullable? Json.text?) none
  let bucketSize ← fs.defaulted "bucket_size" Json.word? 0
  let batchSize ← fs.defaulted "batch_size" Json.word? 0
  let scroller ← fs.defaulted "scroller" (Json.nullable? Json.text?) none
  let genericScroller ← fs.defaulted "generic_scroller" Json.flag? false
  let params ← fs.defaulted "params" (Json.members? 1) []
  return ⟨id, action, query, queryLimit, username, repository, bucketSize, batchSize, scroller,
    genericScroller, params⟩

/-- A record as a JSON value. -/
def toJson (w : WireCommand) : Json :=
  .object [("id", .string w.id.text), ("action", .string w.action), ("query", .string w.query),
    ("query_limit", .ofOption .nat w.queryLimit), ("username", .ofOption .string w.username),
    ("repository", .ofOption .string w.repository), ("bucket_size", .nat w.bucketSize),
    ("batch_size", .nat w.batchSize), ("scroller", .ofOption .string w.scroller),
    ("generic_scroller", .bool w.genericScroller), ("params", .object w.params)]

end WireCommand

/-- Why a JSON text stands for no command or record. -/
inductive DecodeFault where
  /-- It is not of the expected form. -/
  | malformed
  /-- It describes a command that may not be. -/
  | rejected (f : CommandFault)
deriving DecidableEq, Repr

/-- A fault of decoding is an error of configuration. -/
def DecodeFault.toError : DecodeFault → Error
  | .malformed => .configuration "serialization"
  | .rejected f => .configuration ("serialization: " ++ f.toError.message)

/-- A reader of JSON trees that tells why it fails. -/
abbrev Decoder (α : Type) := Json.Tree → Except DecodeFault α

/-- A reader whose only fault is the form. -/
def Decoder.ofReader {α : Type} (read : Json.Reader α) : Decoder α := fun t =>
  match read t with
  | some a => .ok a
  | none => .error .malformed

/-- The decoder of commands. -/
def Command.decoder : Decoder Command := fun t =>
  match WireCommand.read? t with
  | none => .error .malformed
  | some w => w.decode.mapError .rejected

/-- Decodes a text that is one JSON value.  What the value describes is checked before anything
behind it is looked at. -/
def Decoder.text {α : Type} (decode : Decoder α) (s : String) : Except DecodeFault α :=
  match Json.Tree.scan s.toList with
  | none => .error .malformed
  | some (t, rest) =>
    match decode t with
    | .error f => .error f
    | .ok a => if (Json.skipSpace rest).isEmpty then .ok a else .error .malformed

end BulkRun
