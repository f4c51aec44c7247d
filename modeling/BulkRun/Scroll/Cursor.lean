import BulkRun.Scroll.Source
/-!
# Cursors

A cursor hands out the records of one command in chunks.  A chunk is filled from as many pages as it
takes, holds no more records than asked for and never more than the command's limit allows, and is
short only when it is the last.  Records of a page that a chunk has no room for wait in the cursor.
-/

namespace BulkRun

/-- Records handed out at once; `exhausted` when no more will come. -/
structure Chunk where
  ids : List String
  exhausted : Bool
deriving DecidableEq, Repr

/-- How far the scroll of a command has come. -/
structure Cursor where
  command : Command
  /-- Where the next page begins; the first page when absent. -/
  position : Option String
  /-- The number of records handed out. -/
  produced : Nat
  /-- Records of the last page that wait to be handed out. -/
  buffered : List String
  /-- There is no further page. -/
  sourceDone : Bool
  exhausted : Bool

namespace Cursor

/-- A cursor before the first record. -/
def new (c : Command) : Cursor := ⟨c, none, 0, [], false, false⟩

/-- The bound on the number of records handed out, if there is one. -/
def limit (c : Cursor) : Option Nat := c.command.effectiveQueryLimit

/-- How many more records may be handed out, if that is bounded. -/
def remaining (c : Cursor) : Option Nat := c.limit.map (· - c.produced)

/-- The number of records to hand out when `maxCount` are asked for. -/
def wanted (c : Cursor) (maxCount : Nat) : Nat :=
  match c.remaining with
  | some n => min maxCount n
  | none => maxCount

/-- The number of records that room is set aside for when `maxCount` are asked for. -/
def reserved (c : Cursor) (maxCount : Nat) : Nat :=
  if c.exhausted then 0 else c.wanted maxCount

/-- The fault of a page that is empty and yet not the last. -/
def emptyPage (c : Cursor) : SourceError :=
  .protocol ("source returned an empty page with a continuation for command " ++ c.command.id.text)

variable {σ : Type}

/-- A request for a page at a position, of so many records. -/
abbrev Fetch (σ : Type) := Option String → Nat → σ → Except SourceError Page × σ

/-- Reads pages, with nothing buffered, until `need` records are gathered or there is no further
page. -/
def pull (fetch : Fetch σ) (need : Nat) (c : Cursor) (s : σ) :
    Except SourceError (List String) × Cursor × σ :=
  if _h : need = 0 then (.ok [], c, s)
  else
    match fetch c.position need s with
    | (.error e, s) => (.error e, c, s)
    | (.ok page, s) =>
      match page.ids, page.next with
      | [], some _ => (.error c.emptyPage, c, s)
      | [], none => (.ok [], { c with position := none, sourceDone := true }, s)
      | id :: ids, next =>
        let taken := (id :: ids).take need
        let c := { c with
          position := next
          sourceDone := next.isNone
          buffered := (id :: ids).drop need }
        if next.isNone then (.ok taken, c, s)
        else
          match pull fetch (need - taken.length) c s with
          | (.error e, c, s) => (.error e, c, s)
          | (.ok more, c, s) => (.ok (taken ++ more), c, s)
termination_by need
decreasing_by
  simp only [List.length_take, List.length_cons]
  omega

/-- Gathers `need` records: the buffered ones first, then those of further pages. -/
def gather (fetch : Fetch σ) (need : Nat) (c : Cursor) (s : σ) :
    Except SourceError (List String) × Cursor × σ :=
  let taken := c.buffered.take need
  let c := { c with buffered := c.buffered.drop need }
  if c.sourceDone then (.ok taken, c, s)
  else
    match pull fetch (need - taken.length) c s with
    | (.error e, c, s) => (.error e, c, s)
    | (.ok more, c, s) => (.ok (taken ++ more), c, s)

/-- Hands out the next chunk of at most `maxCount` records.  When a page cannot be had, the records
gathered so far are lost. -/
def fill (fetch : Fetch σ) (maxCount : Nat) (c : Cursor) (s : σ) :
    Except SourceError Chunk × Cursor × σ :=
  if maxCount = 0 then (.error (.protocol "max_count must be > 0"), c, s)
  else if c.exhausted then (.ok ⟨[], true⟩, c, s)
  else
    match gather fetch (c.wanted maxCount) c s with
    | (.error e, c, s) => (.error e, c, s)
    | (.ok ids, c, s) =>
      let c := { c with produced := c.produced + ids.length }
      let exhausted := c.remaining == some 0 || (c.sourceDone && c.buffered.isEmpty)
      (.ok ⟨ids, exhausted⟩, { c with exhausted := exhausted }, s)

end Cursor

end BulkRun
