import BulkRun.Toml.Basic
import BulkRun.Toml.DateText
/-!
# Tables that stand for dates

A table whose first entry has a name that is set aside for it stands for the date which the text
under that name writes.  Whatever else is in the table does not count.
-/

namespace BulkRun.Toml

/-- The name that marks a table as a date. -/
def dateMark : String := "$__toml_private_datetime"

/-- Why a marked value is refused. -/
inductive MarkFault where
  /-- It is no text but something else. -/
  | noText (found : String)
  | noDate (f : DateFault)
deriving DecidableEq, Repr

/-- What is said about a marked value that is refused. -/
def MarkFault.message : MarkFault → String
  | .noText found => "invalid type: " ++ found ++ ", expected string containing a datetime"
  | .noDate f => f.message

/-- What is found where a text is wanted. -/
def Value.description : Value → String
  | .text s => "string \"" ++ s ++ "\""
  | .integer i => "integer `" ++ Text.ofInt i ++ "`"
  | .real x => "floating point `" ++ x.pointedText ++ "`"
  | .boolean b => "boolean `" ++ (if b then "true" else "false") ++ "`"
  | .date _ => "map"
  | .list _ => "sequence"
  | .table _ => "map"

/-- The date that a marked value writes. -/
def Value.marked : Value → Except MarkFault Value
  | .text s =>
    match readDate s with
    | .ok d => .ok (.date d)
    | .error f => .error (.noDate f)
  | v => .error (.noText v.description)

/-- The first of the marked values that is refused, with the place where it stands. -/
structure MarkRefusal where
  place : Place
  fault : MarkFault
deriving DecidableEq, Repr

mutual

/-- A value with dates in the place of the tables that stand for them. -/
def Value.resolve : Value → Except MarkRefusal Value
  | .list items => (resolveAll items).map .list
  | .table [] => .ok (.table [])
  | .table ((key, place, v) :: rest) =>
    if key == dateMark then v.marked.mapError (⟨place, ·⟩)
    else
      match v.resolve with
      | .error r => .error r
      | .ok v => (resolveEntries rest).map fun more => .table ((key, place, v) :: more)
  | .text s => .ok (.text s)
  | .integer i => .ok (.integer i)
  | .real x => .ok (.real x)
  | .boolean b => .ok (.boolean b)
  | .date s => .ok (.date s)

/-- The items of a list, each with its dates. -/
def resolveAll : List Value → Except MarkRefusal (List Value)
  | [] => .ok []
  | v :: rest =>
    match v.resolve with
    | .error r => .error r
    | .ok v => (resolveAll rest).map (v :: ·)

/-- Entries behind the first one of a table, each with its dates. -/
def resolveEntries : List (String × Place × Value) →
    Except MarkRefusal (List (String × Place × Value))
  | [] => .ok []
  | (key, place, v) :: rest =>
    match v.resolve with
    | .error r => .error r
    | .ok v => (resolveEntries rest).map ((key, place, v) :: ·)

end

end BulkRun.Toml
