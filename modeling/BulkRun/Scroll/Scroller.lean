import BulkRun.Scroll.Cursor
/-!
# Scrollers

A scroller enumerates the records of a command chunk by chunk.  There are two kinds: one runs the
query of the command, the other takes it as a descriptor of records.
-/

namespace BulkRun

/-- The kinds of scrollers. -/
inductive ScrollerKind where
  | query
  | generic
deriving DecidableEq, Repr

/-- The name of a kind. -/
def ScrollerKind.name : ScrollerKind → String
  | .query => "query"
  | .generic => "generic"

/-- The kinds by name. -/
def ScrollerKind.named : List (String × ScrollerKind) :=
  [ScrollerKind.query, .generic].map fun k => (k.name, k)

/-- The kind of scroller that a draft asks for. -/
def Draft.scrollerKind (d : Draft) : ScrollerKind :=
  if d.genericScroller then .generic else .query

/-- An enumeration of the records of commands. -/
structure Scroller (σ : Type) where
  kind : ScrollerKind
  /-- A cursor before the first record of a command. -/
  start : Command → σ → Except Error Cursor × σ
  /-- The number of records that room is set aside for before a chunk of at most so many. -/
  reserved : Cursor → Nat → Nat
  /-- The next chunk, of at most so many records. -/
  next : Cursor → Nat → σ → Except Error Chunk × Cursor × σ

namespace Scroller

variable {σ : Type}

/-- A chunk or the error of its source. -/
def chunkOrError : Except SourceError Chunk × Cursor × σ → Except Error Chunk × Cursor × σ
  | (r, c, s) => (r.mapError (·.toError), c, s)

/-- The scroller that runs the queries of commands. -/
def query (source : QuerySource σ) : Scroller σ where
  kind := .query
  start c s :=
    match source.validate (.of c) s with
    | (.error e, s) => (.error e.toError, s)
    | (.ok (), s) => (.ok (.new c), s)
  reserved := Cursor.reserved
  next c maxCount s := chunkOrError (c.fill (source.page (.of c.command)) maxCount s)

/-- The scroller that takes the queries of commands as descriptors. -/
def generic (source : RecordSource σ) : Scroller σ where
  kind := .generic
  start c s := (.ok (.new c), s)
  reserved := Cursor.reserved
  next c maxCount s :=
    chunkOrError (c.fill (source.scan c.command.query c.command.params) maxCount s)

end Scroller

end BulkRun
