import BulkRun.Toml.Date
/-!
# Dates that a text writes

A text may be meant as a date, a time of day, or both.  It is cut into runs of digits and marks, and
it is told which of these is missing or out of bounds.  Main statement: a text is a date only if all
of it was read (`readDate` refuses what is left over).
-/

namespace BulkRun.Toml

/-! ## Pieces -/

/-- A piece of a text that may be a date. -/
inductive DatePiece where
  | digits (ds : List Char)
  /-- A character that may stand in a date; letters are capital. -/
  | mark (c : Char)
  /-- All that follows a character that may not. -/
  | other
deriving DecidableEq, Repr

/-- The marks of dates, in either case. -/
def dateMarks : List (Char × Char) :=
  [('-', '-'), (':', ':'), ('T', 'T'), ('t', 'T'), (' ', ' '), ('Z', 'Z'), ('z', 'Z'), ('+', '+'),
    ('.', '.')]

/-- The pieces of a text. -/
def datePieces : List Char → List DatePiece
  | [] => []
  | c :: rest =>
    if c.isDigit then
      match datePieces rest with
      | .digits ds :: more => .digits (c :: ds) :: more
      | more => .digits [c] :: more
    else
      match dateMarks.lookup c with
      | some m => .mark m :: datePieces rest
      | none => [.other]

/-! ## Faults -/

/-- Why a text is no date. -/
structure DateFault where
  /-- The part that is at fault, if it is only a part. -/
  subject : Option String
  /-- What could have stood there. -/
  expected : Option String
deriving DecidableEq, Repr

/-- What is said about a text that is no date. -/
def DateFault.message (f : DateFault) : String :=
  "invalid " ++ f.subject.getD "datetime" ++ (f.expected.map (", expected " ++ ·)).getD ""

/-- A reader of pieces. -/
abbrev PieceScan (α : Type) := List DatePiece → Except DateFault (α × List DatePiece)

/-- Nothing but what is told could be in this part. -/
def wanting {α : Type} (subject expected : String) : Except DateFault α :=
  .error ⟨some subject, some expected⟩

/-- The digits of a part. -/
def nextDigits (subject name : String) : PieceScan (List Char)
  | .digits ds :: rest => .ok (ds, rest)
  | _ => wanting subject name

/-- A mark in a part, with how it stands there. -/
def nextMark (subject : String) (c : Char) (form : String) : PieceScan Unit
  | .mark d :: rest => if d == c then .ok ((), rest) else wanting subject form
  | _ => wanting subject form

/-- The number that digits write, of which there must be so many. -/
def fixedNumber (subject expected : String) (width : Nat) (ds : List Char) :
    Except DateFault Nat :=
  match Text.readDigits 10 Text.digit? ds with
  | some n => if ds.length = width then .ok n else wanting subject expected
  | none => wanting subject expected

/-- A number is within bounds, which have two digits each. -/
def checkBounds (subject name : String) (low high n : Nat) : Except DateFault Unit :=
  if low ≤ n ∧ n ≤ high then .ok ()
  else
    wanting subject
      (name ++ " between " ++ Text.padded 2 low ++ " and " ++ Text.padded 2 high)

/-! ## Parts -/

/-- What follows the year of a date and a hyphen. -/
def dateAfterYear (year : List Char) : PieceScan String := fun ps => do
  let (month, ps) ← nextDigits "date" "month" ps
  let (_, ps) ← nextMark "date" '-' "`-` (MM-DD)" ps
  let (day, ps) ← nextDigits "date" "day" ps
  let year ← fixedNumber "date" "a four-digit year (YYYY)" 4 year
  let month ← fixedNumber "date" "a two-digit month (MM)" 2 month
  let day ← fixedNumber "date" "a two-digit day (DD)" 2 day
  checkBounds "date" "month" 1 12 month
  checkBounds "date" "day" 1 (Date.daysIn year month) day
  return (Text.padded 4 year ++ "-" ++ Text.padded 2 month ++ "-" ++ Text.padded 2 day, ps)

/-- The digits of a fraction of a second, if there is a point. -/
def fractionDigits : PieceScan (List Char)
  | .mark '.' :: rest => nextDigits "time" "nanosecond" rest
  | ps => .ok ([], ps)

/-- A time of day. -/
def timeOfPieces : PieceScan String := fun ps => do
  let (hour, ps) ← nextDigits "time" "hour" ps
  let (_, ps) ← nextMark "time" ':' "`:` (HH:MM)" ps
  let (minute, ps) ← nextDigits "time" "minute" ps
  let (_, ps) ← nextMark "time" ':' "`:` (MM:SS)" ps
  let (second, ps) ← nextDigits "time" "second" ps
  let (fraction, ps) ← fractionDigits ps
  let hour ← fixedNumber "time" "a two-digit hour (HH)" 2 hour
  let minute ← fixedNumber "time" "a two-digit minute (MM)" 2 minute
  let second ← fixedNumber "time" "a two-digit second (SS)" 2 second
  checkBounds "time" "hour" 0 23 hour
  checkBounds "time" "minute" 0 59 minute
  checkBounds "time" "second" 0 60 second
  return (Text.padded 2 hour ++ ":" ++ Text.padded 2 minute ++ ":" ++ Text.padded 2 second ++
    secondFraction fraction, ps)

/-- The hours and minutes of an offset from UTC, behind its sign. -/
def offsetAfterSign (west : Bool) : PieceScan String := fun ps => do
  let (hour, ps) ← nextDigits "offset" "hour" ps
  let (_, ps) ← nextMark "offset" ':' "`:` (HH:MM)" ps
  let (minute, ps) ← nextDigits "offset" "minute" ps
  let hour ← fixedNumber "offset" "a two-digit hour (HH)" 2 hour
  let minute ← fixedNumber "offset" "a two-digit minute (MM)" 2 minute
  checkBounds "offset" "hours" 0 23 hour
  checkBounds "offset" "minutes" 0 59 minute
  return (writtenOffset west hour minute, ps)

/-- An offset from UTC, or nothing. -/
def offsetOfPieces : PieceScan String
  | [] => .ok ("", [])
  | .mark 'Z' :: rest => .ok ("Z", rest)
  | .mark '+' :: rest => offsetAfterSign false rest
  | .mark '-' :: rest => offsetAfterSign true rest
  | _ => wanting "offset" "`Z`, +OFFSET, -OFFSET"

/-- What follows a date: nothing, or a time and perhaps an offset. -/
def timeAfterDate : PieceScan String
  | [] => .ok ("", [])
  | .mark c :: rest =>
    if c == 'T' || c == ' ' then do
      let (time, ps) ← timeOfPieces rest
      let (offset, ps) ← offsetOfPieces ps
      return ("T" ++ time ++ offset, ps)
    else wanting "date-time" "`T` between date and time"
  | _ => wanting "date-time" "`T` between date and time"

/-- A date, a time of day, or both. -/
def dateOfPieces : PieceScan String
  | .digits year :: .mark '-' :: rest => do
    let (date, ps) ← dateAfterYear year rest
    let (time, ps) ← timeAfterDate ps
    return (date ++ time, ps)
  | .digits hour :: .mark ':' :: rest => timeOfPieces (.digits hour :: .mark ':' :: rest)
  | .digits _ :: _ => .error ⟨none, some "`-` (YYYY-MM) or `:` (HH:MM)"⟩
  | _ => .error ⟨none, some "year or hour"⟩

/-- The date that a text writes, in standard form. -/
def readDate (s : String) : Except DateFault String := do
  match ← dateOfPieces (datePieces s.toList) with
  | (date, []) => return date
  | _ => .error ⟨none, none⟩

end BulkRun.Toml
