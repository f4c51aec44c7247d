import BulkRun.Time.Calendar
import BulkRun.Text.Blank
import BulkRun.Text.Numeral
/-!
# Timestamps

An instant in UTC with its text after RFC 3339.  Reading is lenient: white space between the parts,
a year of any number of digits behind a sign, one digit where two are usual, a space for the `T`,
the zone as `Z`, `UTC` or an offset with or without a colon.  Writing is strict.
-/

namespace BulkRun

/-- An instant: whole seconds since 1970 and nanoseconds after them.  In a leap second the
nanoseconds are a thousand million or more. -/
structure Timestamp where
  seconds : Int
  nanos : Nat
deriving DecidableEq, Repr

namespace Timestamp

/-- An instant comes no later than another if its second comes before, or is the same with a
fraction that is no greater. -/
instance : LE Timestamp where
  le t u := t.seconds < u.seconds ∨ t.seconds = u.seconds ∧ t.nanos ≤ u.nanos

instance (t u : Timestamp) : Decidable (t ≤ u) := inferInstanceAs (Decidable (_ ∨ _ ∧ _))

/-- The years that timestamps reach. -/
def minYear : Int := -262143

/-- The last year that timestamps reach. -/
def maxYear : Int := 262142

/-- The first second after the last year. -/
def secondsEnd : Int := Date.toDays ⟨maxYear + 1, 1, 1⟩ * 86400

/-- The instant a number of nanoseconds later; `none` when it lies past the last year.  A leap
second counts only for an instant that does not leave it. -/
def add? (t : Timestamp) (n : Nat) : Option Timestamp :=
  if 1000000000 ≤ t.nanos ∧ t.nanos + n < 2000000000 then some { t with nanos := t.nanos + n }
  else
    let nanos := t.nanos % 1000000000 + n
    let seconds := t.seconds + (nanos / 1000000000 : Nat)
    if seconds < secondsEnd then some ⟨seconds, nanos % 1000000000⟩ else none

/-! ## Reading -/

/-- The text without white space in front. -/
def trimStart (cs : List Char) : List Char := cs.dropWhile Text.isWhite

/-- A number of at least one digit and at most `width`, or of any length, in front of a text. -/
def scanNumber (width : Option Nat) (cs : List Char) : Option (Nat × List Char) :=
  let all := cs.takeWhile fun c => (Text.digit? c).isSome
  let digits := match width with
    | none => all
    | some w => all.take w
  (Text.readDigits 10 Text.digit? digits).map fun n => (n, cs.drop digits.length)

/-- A field of at most two digits with white space in front. -/
def scanField (cs : List Char) : Option (Nat × List Char) :=
  scanNumber (some 2) (trimStart cs)

/-- A year: four digits at most, or a sign and any number of digits. -/
def scanYear (cs : List Char) : Option (Int × List Char) :=
  match trimStart cs with
  | '-' :: rest => (scanNumber none rest).map fun (n, r) => (-(n : Int), r)
  | '+' :: rest => (scanNumber none rest).map fun (n, r) => ((n : Int), r)
  | rest => (scanNumber (some 4) rest).map fun (n, r) => ((n : Int), r)

/-- A character with white space in front. -/
def scanMark (mark : Char) (cs : List Char) : Option (List Char) :=
  match trimStart cs with
  | c :: rest => if c == mark then some rest else none
  | [] => none

/-- The nanoseconds of a fraction behind a point; digits after the ninth are dropped. -/
def scanNanos : List Char → Option (Nat × List Char)
  | '.' :: rest =>
    let all := rest.takeWhile fun c => (Text.digit? c).isSome
    let digits := all.take 9
    (Text.readDigits 10 Text.digit? digits).map fun n =>
      (n * tenTo (9 - digits.length), rest.drop all.length)
  | cs => some (0, cs)

/-- Two digits in front of a text. -/
def scanPair : List Char → Option (Nat × List Char)
  | a :: b :: rest => (Text.readDigits 10 Text.digit? [a, b]).map fun n => (n, rest)
  | _ => none

/-- The seconds that a zone is ahead of UTC. -/
def scanZone (cs : List Char) : Option (Int × List Char) :=
  let offset (sign : Int) (cs : List Char) : Option (Int × List Char) :=
    match scanPair cs with
    | none => none
    | some (hours, rest) =>
      match scanPair (rest.dropWhile fun c => c == ':' || Text.isWhite c) with
      | none => none
      | some (minutes, rest) =>
        if minutes < 60 then some (sign * (hours * 3600 + minutes * 60 : Nat), rest) else none
  match trimStart cs with
  | [] => none
  | c :: rest =>
    let utc := (c :: rest).take 3
    if utc.map Char.toUpper == ['U', 'T', 'C'] then some (0, rest.drop 2)
    else if c == 'Z' || c == 'z' then some (0, rest)
    else if c == '+' then offset 1 rest
    else if c == '-' || c == '\u2212' then offset (-1) rest
    else none

/-- The instant that a text names. -/
def parse? (s : String) : Option Timestamp := do
  let (year, cs) ← scanYear s.toList
  let cs ← scanMark '-' cs
  let (month, cs) ← scanField cs
  let cs ← scanMark '-' cs
  let (day, cs) ← scanField cs
  let cs ← match cs with
    | c :: rest => if c == 'T' || c == 't' || c == ' ' then some rest else none
    | [] => none
  let (hour, cs) ← scanField cs
  let cs ← scanMark ':' cs
  let (minute, cs) ← scanField cs
  let cs ← scanMark ':' cs
  let (second, cs) ← scanField cs
  let (nanos, cs) ← scanNanos cs
  let (zone, cs) ← scanZone cs
  let date : Date := ⟨year, month, day⟩
  if (trimStart cs).isEmpty && date.exists? && hour < 24 && minute < 60 && second ≤ 60 &&
      -86400 < zone && zone < 86400 && minYear ≤ year && year ≤ maxYear then
    let leap := second == 60
    let inDay := hour * 3600 + minute * 60 + (if leap then 59 else second)
    let seconds := date.toDays * 86400 + inDay - zone
    if Date.toDays ⟨minYear, 1, 1⟩ * 86400 ≤ seconds && seconds < secondsEnd then
      some ⟨seconds, if leap then nanos + 1000000000 else nanos⟩
    else none
  else none

/-! ## Writing -/

/-- A year: four digits, or a sign and at least four digits outside 0 … 9999. -/
def yearText (year : Int) : String :=
  let digits := Text.padded 4 year.natAbs
  if year < 0 then "-" ++ digits else if year > 9999 then "+" ++ digits else digits

/-- The fraction of a second: none, or the fewest of three, six and nine digits that are exact. -/
def fractionText (nanos : Nat) : String :=
  if nanos = 0 then ""
  else if nanos % 1000000 = 0 then "." ++ Text.padded 3 (nanos / 1000000)
  else if nanos % 1000 = 0 then "." ++ Text.padded 6 (nanos / 1000)
  else "." ++ Text.padded 9 nanos

/-- The text of an instant, in UTC. -/
def text (t : Timestamp) : String :=
  let date := Date.ofDays (t.seconds / 86400)
  let inDay := (t.seconds % 86400).toNat
  let leap := t.nanos ≥ 1000000000
  let second := inDay % 60 + (if leap then 1 else 0)
  let nanos := if leap then t.nanos - 1000000000 else t.nanos
  yearText date.year ++ "-" ++ Text.padded 2 date.month ++ "-" ++ Text.padded 2 date.day ++ "T" ++
    Text.padded 2 (inDay / 3600) ++ ":" ++ Text.padded 2 (inDay / 60 % 60) ++ ":" ++
    Text.padded 2 second ++ fractionText nanos ++ "Z"

end Timestamp

end BulkRun
