import BulkRun.Text.Alphanumeric
import BulkRun.Text.Blank
import BulkRun.Text.Lines
import BulkRun.Text.Numeral
import BulkRun.Validator.Log
/-!
# Filters of log records

A filter tells which records are put out.  It is written as directives with commas between them,
such as `info`, `part=debug` or `part[span\x7bfield\x7d]=warn`: a level for the records of a part of
the program, perhaps only within a span or with a field.  Of the directives about a record, the one
that is most specific decides.
-/

namespace BulkRun.Validator

/-! ## Levels -/

/-- The ranks by the names of the levels in lower case. -/
def ranksByName : List (String × Nat) :=
  [("off", 0), ("error", 1), ("warn", 2), ("info", 3), ("debug", 4), ("trace", 5)]

/-- The rank that a text tells, by name or by number. -/
def rankOf? (text : String) : Option Nat :=
  match Text.readWord text with
  | some n => if n ≤ Level.trace.rank then some n else none
  | none => ranksByName.lookup (text.map Char.toLower)

/-! ## Directives -/

/-- A rule of a filter: records are put out up to a rank. -/
structure Directive where
  /-- What the targets of its records begin with. -/
  target : String
  /-- The span that its records are in. -/
  span : Option String
  /-- A field of its records, and perhaps its value. -/
  field : Option (String × Option String)
  maxRank : Nat
deriving DecidableEq, Repr

/-- Why a text is no directive. -/
inductive DirectiveFault where
  | malformed
  | unknownLevel
deriving DecidableEq, Repr

/-- What is said about a text that is no directive. -/
def DirectiveFault.message : DirectiveFault → String
  | .malformed => "invalid filter directive"
  | .unknownLevel =>
    "error parsing level filter: expected one of \"off\", \"error\", \"warn\", \"info\", " ++
      "\"debug\", \"trace\", or a number 0-5"

namespace Directive

/-- A directive for the records of a target that lets everything pass. -/
def all (target : String) : Directive := ⟨target, none, none, Level.trace.rank⟩

/-- A text without the white space around it. -/
def trim (cs : List Char) : List Char :=
  ((cs.dropWhile Text.isWhite).reverse.dropWhile Text.isWhite).reverse

/-- The number of bytes of a text. -/
def size (cs : List Char) : Nat := cs.foldr (fun c n => c.utf8Size + n) 0

/-- The characters of a text behind so many bytes. -/
def behind : Nat → List Char → List Char
  | _, [] => []
  | n, c :: rest => if n = 0 then c :: rest else behind (n - c.utf8Size) rest

/-- The characters of a text within so many bytes. -/
def within : Nat → List Char → List Char
  | _, [] => []
  | n, c :: rest => if n = 0 then [] else c :: within (n - c.utf8Size) rest

/-- The stretch of a text from one position to another, in bytes. -/
def stretch (given : List Char) (first last : Nat) : String :=
  String.ofList (within (last - first) (behind first given))

/-- The rank that a text tells from a position on; without any text, everything passes. -/
def levelFrom (given : List Char) (first : Nat) : Except DirectiveFault Nat :=
  match behind first given with
  | [] => .ok Level.trace.rank
  | cs =>
    match rankOf? (String.ofList cs) with
    | some rank => .ok rank
    | none => .error .unknownLevel

/-- A directive with the rank that follows a closing bracket. -/
def ofLevel (given : List Char) (d : Directive) (first : Nat) :
    List Char → Except DirectiveFault Directive
  | [] => .ok d
  | '=' :: _ => (levelFrom given (first + 1)).map fun rank => { d with maxRank := rank }
  | _ => .error .malformed

/-- The field that a text tells, and its value behind an equals sign. -/
def fieldOf (text : String) : String × Option String :=
  match Text.split '=' text.toList with
  | name :: value :: _ => (String.ofList name, some (String.ofList value))
  | _ => (text, none)

/-- A directive with the field that stands between braces. -/
def ofField (given : List Char) (d : Directive) (first : Nat) (cs : List Char) :
    Except DirectiveFault Directive :=
  let text := cs.takeWhile (· != '\x7d')
  let last := first + size text
  match cs.drop text.length with
  | _ :: ']' :: rest =>
    if text.isEmpty then .error .malformed
    else
      ofLevel given { d with field := some (fieldOf (stretch given first last)) } (last + 2) rest
  | _ => .error .malformed

/-- A directive with what stands between brackets. -/
def ofSpan (given : List Char) (d : Directive) (first : Nat) (cs : List Char) :
    Except DirectiveFault Directive :=
  let text := cs.takeWhile fun c => c != ']' && c != '\x7b'
  let last := first + size text
  let span := stretch given first last
  match cs.drop text.length with
  | [] => .error .malformed
  | ']' :: rest => ofLevel given { d with span := some span } (last + 1) rest
  | _ :: rest =>
    ofField given { d with span := if text.isEmpty then none else some span } (last + 1) rest

/-- Whether a directive may begin with a character. -/
def begins (c : Char) : Bool := c == '-' || c == ':' || c == '_' || Text.isAlphanumeric c

/-- The directive that a text writes: a level, or a target and perhaps what else its records need,
with a level behind an equals sign.  Its parts are found in the text without the white space around
it, and read at the same positions in the text as it was given. -/
def parse (given : List Char) : Except DirectiveFault Directive :=
  match trim given with
  | [] => .error .malformed
  | '[' :: rest => ofSpan given (all "") 1 rest
  | c :: rest =>
    if !begins c then .error .malformed
    else
      let name := (c :: rest).takeWhile fun c => c != '=' && c != '['
      let last := size name
      let target := all (stretch given 0 last)
      match (c :: rest).drop name.length with
      | [] =>
        let whole := String.ofList given
        .ok (match rankOf? whole with
          | some rank => { all "" with maxRank := rank }
          | none => all whole)
      | '=' :: _ => (levelFrom given (last + 1)).map fun rank => { target with maxRank := rank }
      | _ :: rest => ofSpan given target (last + 1) rest

/-- Whether a directive decides about a record.  No record is in a span, and the value of a field
is known in a span only. -/
def covers (d : Directive) (r : LogRecord) : Bool :=
  d.target.toList.isPrefixOf r.target.toList && d.span.isNone &&
    match d.field with
    | none => true
    | some (name, none) => r.hasField name
    | some (_, some _) => false

/-- Whether a directive goes before another that is about the same record: it is more specific, and
otherwise it comes later or has the later name of a field. -/
def outranks (d other : Directive) : Bool :=
  other.target.length < d.target.length ||
    (other.target.length == d.target.length &&
      match other.field, d.field with
      | none, _ => true
      | some _, none => false
      | some (old, _), some (new, _) => old ≤ new)

end Directive

/-! ## Filters -/

/-- The rules by which records are put out. -/
structure Filter where
  directives : List Directive
  /-- What was given for a directive and is none. -/
  ignored : List (String × DirectiveFault)
deriving DecidableEq, Repr

namespace Filter

/-- A filter with nothing but a rank. -/
def ofRank (rank : Nat) : Filter := ⟨[{ Directive.all "" with maxRank := rank }], []⟩

/-- What stands between the commas of a text. -/
def given (s : String) : List (List Char) := (Text.split ',' s.toList).filter (· != [])

/-- The filter that a text writes, with commas between its directives.  Without any directive only
errors pass. -/
def parse (s : String) : Filter :=
  let directives := (given s).filterMap fun cs => (Directive.parse cs).toOption
  let ignored := (given s).filterMap fun cs =>
    match Directive.parse cs with
    | .ok _ => none
    | .error f => some (String.ofList cs, f)
  let f := if directives.isEmpty then ofRank Level.error.rank else ⟨directives, []⟩
  { f with ignored := ignored }

/-- The directive that decides about a record. -/
def deciding? (f : Filter) (r : LogRecord) : Option Directive :=
  (f.directives.filter (·.covers r)).foldl
    (fun best d =>
      match best with
      | none => some d
      | some b => if d.outranks b then some d else some b)
    none

/-- Whether a record is put out. -/
def passes (f : Filter) (r : LogRecord) : Bool :=
  match f.deciding? r with
  | none => false
  | some d => r.level.rank ≤ d.maxRank

end Filter

end BulkRun.Validator
