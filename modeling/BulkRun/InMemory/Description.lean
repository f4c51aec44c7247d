import BulkRun.InMemory.World
import BulkRun.Json.View
/-!
# Collaborators described in JSON

How the collaborators in memory are written down as JSON values, and how what they remember is.  A
description is an object whose members are optional: what it leaves out has the value that does
nothing.
-/

namespace BulkRun

/-- A list of record ids: its texts, or a stem (`prefix`) with a count. -/
def Json.recordIds (j : Json) : List String :=
  match j with
  | .object _ => BulkRun.recordIds (j.textAt "prefix") (j.natAt "count" 0)
  | _ => j.texts

/-- Lists of record ids by name. -/
def Json.recordLists (j : Json) : List (String × List String) :=
  j.entries.map fun (k, v) => (k, v.recordIds)

/-- An id, given as text or as a number. -/
def CommandId.ofJson (j : Json) : Except Error CommandId :=
  match j with
  | .number (.int i) => .ok (.ofNat i.toNat)
  | _ => CommandId.read (j.asText?.getD "")

/-- A kind of scroller; the query kind unless another is named. -/
def ScrollerKind.ofJson (j : Json) : ScrollerKind :=
  (j.asText?.bind fun name => ScrollerKind.named.lookup name).getD .query

/-! ## Errors -/

/-- An error, given by its kind and its message. -/
def Error.ofJson (j : Json) : Except Error Error :=
  let m := j.textAt "message"
  match j.textAt "error" with
  | "Configuration" => .ok (.configuration m)
  | "Scroll" => .ok (.scroll m)
  | "UnknownAction" => .ok (.unknownAction m)
  | "UnknownScroller" => .ok (.unknownScroller m)
  | "Transaction" => .ok (.transaction m)
  | "PerRecord" => .ok (.perRecord (j.textAt "record_id") m)
  | "NotFound" => (CommandId.ofJson (j.member "id")).map .notFound
  | _ => .ok (.channel m)

/-- An action error, under the name of its kind. -/
def ActionError.ofJson? (j : Json) : Option ActionError :=
  match j.itemsAt "record_failed", (j.member "configuration").asText?,
      (j.member "transaction").asText? with
  | .string id :: .string m :: _, _, _ => some (.recordFailed id m)
  | _, some m, _ => some (.configuration m)
  | _, _, some m => some (.transaction m)
  | _, _, _ => none

/-- A source error, under the name of its kind. -/
def SourceError.ofJson? (j : Json) : Option SourceError :=
  match (j.member "invalid_query").asText?, (j.member "unavailable").asText?,
      (j.member "protocol").asText? with
  | some m, _, _ => some (.invalidQuery m)
  | _, some m, _ => some (.unavailable m)
  | _, _, some m => some (.protocol m)
  | _, _, _ => none

/-- A transaction error, given by its kind and its message. -/
def TransactionError.ofJson? (j : Json) : Option TransactionError :=
  match j.textAt "kind" with
  | "begin" => some (.begin (j.textAt "message"))
  | "commit" => some (.commit (j.textAt "message"))
  | "rollback" => some (.rollback (j.textAt "message"))
  | _ => none

/-! ## Actions -/

/-- The descriptor of a described action. -/
def ActionDescriptor.ofDescription (j : Json) : ActionDescriptor :=
  ⟨j.textAt "name", (j.member "bucket").asNat?, (j.member "batch").asNat?,
    (j.member "limit").asNat?⟩

namespace InMemory

/-- An outcome: a record id and perhaps an error. -/
def outcomeOf (j : Json) : RecordOutcome :=
  match j with
  | .array (.string id :: rest) => ⟨id, rest.head?.bind Json.asText?⟩
  | _ => ⟨"", none⟩

/-- An intervention of a name. -/
def interventionOf? (name : String) : Option Intervention :=
  match name with
  | "abort" => some .abort
  | "purge" => some .purge
  | _ => none

/-- An entry of a script of answers. -/
def ScriptEntry.ofJson (j : Json) : ScriptEntry where
  interventions := (j.member "side").texts.filterMap interventionOf?
  answer :=
    match ActionError.ofJson? j, j.member "outcomes" with
    | some e, _ => .fail e
    | none, .array os => .outcomes (os.map outcomeOf)
    | none, _ => .succeed (j.member "fail").recordIds (j.natAt "drop" 0)

/-- A described action before its first call. -/
def ActionMemory.ofJson (j : Json) : ActionMemory :=
  match j.member "script" with
  | .array entries => .scripted ⟨entries.map .ofJson, ActionError.ofJson? (j.member "validate"), []⟩
  | _ => .recording ⟨[], 0, (j.member "failing").recordIds, (j.member "rejecting_param").asText?,
      (j.member "misconfigured").asText?, (j.member "gate").asNat?⟩

/-- A call that was made. -/
def ActionCall.toJson (c : ActionCall) : Json :=
  .object [("ids", .strings c.ids), ("action", .string c.context.action),
    ("repository", .ofOption .string c.context.repository),
    ("username", .ofOption .string c.context.username), ("params", .object c.context.params)]

/-- What an action remembers. -/
def ActionMemory.log : ActionMemory → Json
  | .recording a => .object [("applied", .strings a.applied), ("apply_calls", .nat a.calls)]
  | .scripted a => .object [("calls", .array (a.calls.map ActionCall.toJson))]

/-! ## Transactions -/

/-- Batches, each by the sequence number of its bucket and its index. -/
def batchKeys (j : Json) : List BatchKey :=
  j.items.filterMap fun
    | .array [a, b] => some (a.asNat?.getD 0, b.asNat?.getD 0)
    | _ => none

/-- A described transaction manager before its first call. -/
def TransactionMemory.ofJson (j : Json) : TransactionMemory :=
  match j, j.member "fail" with
  | .object _, .array pairs => .failing ⟨batchKeys (.array pairs), 0, 0⟩
  | .object _, _ =>
    .scripted ⟨[TransactionStep.begin, .commit, .rollback].flatMap fun step =>
      (batchKeys (j.member step.name)).map fun key => (step, key), []⟩
  | _, _ => .none

/-- A call that was made. -/
def TransactionCall.toJson (c : TransactionCall) : Json :=
  .array [.string c.step.name, .nat c.key.1, .nat c.key.2,
    .string (if c.succeeded then "ok" else "failed")]

/-- What a transaction manager remembers. -/
def TransactionMemory.log : TransactionMemory → Json
  | .none => .null
  | .failing m => .object [("commits", .nat m.commits), ("rollbacks", .nat m.rollbacks)]
  | .scripted m => .array (m.calls.map TransactionCall.toJson)

/-! ## Sources -/

/-- Described lists by query. -/
def QueryLists.ofJson (j : Json) : QueryLists where
  results := (j.member "results").recordLists
  rejected := (j.member "rejecting").texts
  failingAfter := (j.member "failing_after").entries.map fun (k, v) => (k, v.asNat?.getD 0)
  maxPage := (j.member "max_page").asNat?
  pagesServed := 0

/-- A page, or the error in its place. -/
def pageOfJson (j : Json) : Except SourceError Page :=
  match SourceError.ofJson? j with
  | some e => .error e
  | none => .ok ⟨(j.member "ids").recordIds, (j.member "next").asText?⟩

/-- How queries are validated; `false` means not at all. -/
def Validation.ofJson (j : Json) : Validation :=
  match j, SourceError.ofJson? j with
  | .bool false, _ => .absent
  | _, some e => .refuse e
  | _, none => .accept

/-- A described script of pages. -/
def PageScript.ofJson (j : Json) : PageScript :=
  ⟨(j.itemsAt "pages").map pageOfJson, .ofJson (j.member "validate"), []⟩

/-- A chunk, or the error in its place. -/
def chunkOfJson (j : Json) : Except Error (Except Error Chunk) :=
  if (j.member "error").isNull then
    .ok (.ok ⟨(j.member "ids").recordIds, j.flagAt "exhausted" false⟩)
  else (Error.ofJson j).map .error

/-- A described script of chunks. -/
def ChunkScript.ofJson (j : Json) : Except Error ChunkScript := do
  let chunks ← (j.itemsAt "chunks").mapM chunkOfJson
  let opening := j.member "open"
  if opening.isNull then return ⟨chunks, none⟩
  else return ⟨chunks, some (← Error.ofJson opening)⟩

/-- A described source before its first call. -/
def Source.ofJson (j : Json) : Except Error Source :=
  match j.textAt "type" with
  | "query" => .ok (.queryLists (.ofJson j))
  | "generic" => .ok (.namedLists ⟨(j.member "lists").recordLists⟩)
  | "query_pages" => .ok (.queryPages (.ofJson j))
  | "generic_pages" => .ok (.recordPages (.ofJson j))
  | _ => (ChunkScript.ofJson j).map (.chunks (.ofJson (j.member "kind")))

/-- A call that was made. -/
def SourceCall.toJson : SourceCall → Json
  | .validate q => .object [("validate", .string q)]
  | .page r position size => .object [("query", .string r.query),
      ("repository", .ofOption .string r.repository), ("username", .ofOption .string r.username),
      ("position", .ofOption .string position), ("page_size", .nat size)]
  | .scan d params position size => .object [("descriptor", .string d), ("params", .object params),
      ("position", .ofOption .string position), ("page_size", .nat size)]

/-- What a source remembers. -/
def Source.log : Source → Json
  | .queryLists s => .object [("pages_served", .nat s.pagesServed)]
  | .queryPages s | .recordPages s => .object [("requests", .array (s.calls.map SourceCall.toJson))]
  | _ => .null

end InMemory

end BulkRun
