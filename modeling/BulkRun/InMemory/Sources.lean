import BulkRun.Bucket
import BulkRun.Scroll.Scroller
/-!
# Sources in memory

Sources of records that are lists: by query, by name, or page by page as written down beforehand.  A
position is the number of records before it, in decimal.
-/

namespace BulkRun.InMemory

/-- The page of a list at a position; `maxPage` bounds its length when there is a bound. -/
def pageOf (ids : List String) (position : Option String) (pageSize : Nat) (maxPage : Option Nat) :
    Except SourceError Page :=
  let offset := match position with
    | none => some 0
    | some p => Text.readWord p
  match offset with
  | none => .error (.protocol ("bad position token: " ++ position.getD ""))
  | some offset =>
    let size := match maxPage with
      | none => pageSize
      | some m => min pageSize m
    let ahead := ids.drop offset
    let isLast := (ahead.drop size).isEmpty
    .ok ⟨ahead.take size, if isLast then none else some (Text.ofNat (offset + size))⟩

/-- Lists of records by query.  A query without a list has no records. -/
structure QueryLists where
  results : List (String × List String)
  /-- Queries that are refused. -/
  rejected : List String
  /-- Queries that become unavailable once the source has served so many pages. -/
  failingAfter : List (String × Nat)
  /-- The most records of a page; a page holds at least one. -/
  maxPage : Option Nat
  /-- The number of pages asked for so far, of any query, as a word. -/
  pagesServed : Nat
deriving DecidableEq, Repr

namespace QueryLists

/-- Whether a query is refused. -/
def validate (r : QueryRequest) (s : QueryLists) : Except SourceError Unit × QueryLists :=
  (if s.rejected.contains r.query then .error (.invalidQuery r.query) else .ok (), s)

/-- A page of the list of a query. -/
def page (r : QueryRequest) (position : Option String) (size : Nat) (s : QueryLists) :
    Except SourceError Page × QueryLists :=
  let served := s.pagesServed
  let ids := (s.results.lookup r.query).getD []
  let answer := match s.failingAfter.lookup r.query with
    | some limit =>
      if limit ≤ served then
        .error (.unavailable ("source went away after " ++ Text.ofNat limit ++ " pages"))
      else pageOf ids position size (s.maxPage.map (max 1))
    | none => pageOf ids position size (s.maxPage.map (max 1))
  (answer, { s with pagesServed := (served + 1) % wordCount })

/-- The lists as a query engine. -/
def source : QuerySource QueryLists := ⟨validate, page⟩

end QueryLists

/-- Lists of records by name. -/
structure NamedLists where
  lists : List (String × List String)
deriving DecidableEq, Repr

namespace NamedLists

/-- A page of the list of a name. -/
def scan (name : String) (_ : Params) (position : Option String) (size : Nat) (s : NamedLists) :
    Except SourceError Page × NamedLists :=
  match s.lists.lookup name with
  | none => (.error (.invalidQuery ("unknown list: " ++ name)), s)
  | some ids => (pageOf ids position size none, s)

/-- The lists as a source of records. -/
def source : RecordSource NamedLists := ⟨scan⟩

end NamedLists

/-- Something a scripted source was asked for. -/
inductive SourceCall where
  | validate (query : String)
  | page (request : QueryRequest) (position : Option String) (pageSize : Nat)
  | scan (descriptor : String) (params : Params) (position : Option String) (pageSize : Nat)

/-- How a scripted source validates queries. -/
inductive Validation where
  /-- It takes every query and remembers that it was asked. -/
  | accept
  | refuse (e : SourceError)
  /-- It takes every query without noticing. -/
  | absent
deriving DecidableEq, Repr

/-- Answers that are written down beforehand; after the last of them every page is empty. -/
structure PageScript where
  pages : List (Except SourceError Page)
  validation : Validation
  /-- What was asked for so far. -/
  calls : List SourceCall

namespace PageScript

/-- The next answer. -/
def answer (call : SourceCall) (s : PageScript) : Except SourceError Page × PageScript :=
  (s.pages.head?.getD (.ok ⟨[], none⟩),
    { s with pages := s.pages.tail, calls := s.calls ++ [call] })

/-- The script as a query engine. -/
def querySource : QuerySource PageScript where
  validate r s :=
    let asked := { s with calls := s.calls ++ [.validate r.query] }
    match s.validation with
    | .accept => (.ok (), asked)
    | .refuse e => (.error e, asked)
    | .absent => (.ok (), s)
  page r position size s := s.answer (.page r position size)

/-- The script as a source of records. -/
def recordSource : RecordSource PageScript where
  scan name params position size s := s.answer (.scan name params position size)

end PageScript

/-- Chunks that are written down beforehand, whatever is asked for; the last of them comes again and
again. -/
structure ChunkScript where
  chunks : List (Except Error Chunk)
  /-- The error of opening, if that fails. -/
  opening : Option Error

namespace ChunkScript

/-- The next chunk. -/
def next (s : ChunkScript) : Except Error Chunk × ChunkScript :=
  match s.chunks with
  | [] => (.ok ⟨[], true⟩, s)
  | [c] => (c, s)
  | c :: rest => (c, { s with chunks := rest })

/-- The script as a scroller of a kind. -/
def scroller (kind : ScrollerKind) : Scroller ChunkScript where
  kind := kind
  start c s :=
    match s.opening with
    | some e => (.error e, s)
    | none => (.ok (.new c), s)
  -- its chunks are there already
  reserved _ _ := 0
  next c _ s :=
    let (chunk, s) := s.next
    (chunk, c, s)

end ChunkScript

/-- What a scroller in memory draws on. -/
inductive Source where
  | queryLists (s : QueryLists)
  | namedLists (s : NamedLists)
  | queryPages (s : PageScript)
  | recordPages (s : PageScript)
  | chunks (kind : ScrollerKind) (s : ChunkScript)

end BulkRun.InMemory
