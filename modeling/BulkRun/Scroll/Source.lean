import BulkRun.Command.Basic
/-!
# Sources of records

A source answers page by page.  Each page says where the next one begins, or that there is none.
What a source remembers between calls is part of a world of type `σ`, which every call is given and
gives back.
-/

namespace BulkRun

/-- Why a source gives no page. -/
inductive SourceError where
  | invalidQuery (message : String)
  | unavailable (message : String)
  /-- The source or its caller broke the rules of paging. -/
  | protocol (message : String)
deriving DecidableEq, Repr

/-- The wording of a source error. -/
def SourceError.message : SourceError → String
  | .invalidQuery m => "invalid query: " ++ m
  | .unavailable m => "source unavailable: " ++ m
  | .protocol m => "protocol violation: " ++ m

/-- The name of the kind of a source error. -/
def SourceError.kind : SourceError → String
  | .invalidQuery _ => "InvalidQuery"
  | .unavailable _ => "Unavailable"
  | .protocol _ => "Protocol"

/-- An error of a source is an error of the scroll. -/
def SourceError.toError (e : SourceError) : Error := .scroll e.message

/-- Some records, and the position of the next page if there is one. -/
structure Page where
  ids : List String
  next : Option String
deriving DecidableEq, Repr

/-- A query as a query engine sees it. -/
structure QueryRequest where
  query : String
  repository : Option String
  username : Option String
deriving DecidableEq, Repr

/-- The query of a command. -/
def QueryRequest.of (c : Command) : QueryRequest := ⟨c.query, c.repository, c.username⟩

/-- A query engine. -/
structure QuerySource (σ : Type) where
  /-- Refuses a query before any page is read. -/
  validate : QueryRequest → σ → Except SourceError Unit × σ
  /-- The page at a position, of at most so many records as asked. -/
  page : QueryRequest → Option String → Nat → σ → Except SourceError Page × σ

/-- A source that takes the query of a command as a descriptor of its own. -/
structure RecordSource (σ : Type) where
  scan : String → Params → Option String → Nat → σ → Except SourceError Page × σ

end BulkRun
