import BulkRun.Text.Numeral
/-!
# Faults of TOML documents

A text that is no document is at fault in one place.  Either something else was expected there, or a
rule that goes beyond the grammar is broken by what begins there.
-/

namespace BulkRun.Toml

/-- A rule beyond the grammar that a document breaks. -/
inductive Breach where
  /-- A name is defined twice.  The path of its table is told where the table has a header. -/
  | taken (name : String) (table : Option (List String))
  /-- A key goes on below a value of a kind that has no entries. -/
  | noTable (path : List String) (kind : String)
  /-- There is no such month, day, hour or character. -/
  | outOfRange
  /-- An integer is above the signed words. -/
  | tooLarge
  /-- An integer is below the signed words. -/
  | tooSmall
  /-- A key has too many parts, or values are nested too deep. -/
  | tooDeep
deriving DecidableEq, Repr

/-- A path of names with points between them. -/
def joinPath (path : List String) : String := ".".intercalate path

/-- What is said about a broken rule. -/
def Breach.message : Breach → String
  | .taken name none => "duplicate key `" ++ name ++ "`"
  | .taken name (some []) => "duplicate key `" ++ name ++ "` in document root"
  | .taken name (some path) => "duplicate key `" ++ name ++ "` in table `" ++ joinPath path ++ "`"
  | .noTable path kind =>
    "dotted key `" ++ joinPath path ++ "` attempted to extend non-table type (" ++ kind ++ ")"
  | .outOfRange => "value is out of range"
  | .tooLarge => "number too large to fit in target type"
  | .tooSmall => "number too small to fit in target type"
  | .tooDeep => "recursion limit exceeded"

/-- Why a text cannot be read. -/
structure Fault where
  /-- What is left of the text where it is at fault. -/
  rest : List Char
  /-- What was being read. -/
  subject : Option String
  /-- What could have stood there. -/
  expected : List String
  breach : Option Breach
  /-- Whether it is certain that nothing else was meant. -/
  final : Bool
deriving DecidableEq, Repr

namespace Fault

/-- A fault in a place, of which nothing else is known. -/
def here (rest : List Char) : Fault := ⟨rest, none, [], none, false⟩

/-- What is said about a fault, which may be nothing. -/
def message (f : Fault) : String :=
  let subject := f.subject.toList.map ("invalid " ++ ·)
  let expected :=
    if f.expected.isEmpty then [] else ["expected " ++ ", ".intercalate f.expected]
  "\n".intercalate (subject ++ expected ++ f.breach.toList.map Breach.message)

end Fault

end BulkRun.Toml
