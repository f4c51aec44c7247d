import BulkRun.Time.Calendar
import BulkRun.Toml.Text
/-!
# Dates and times in TOML documents

A date, a time of day, or both with a `T` or a space between them and perhaps an offset from UTC.
Such a value is taken as its text in standard form: a capital `T` and `Z`, and no zeros at the end
of a fraction of a second, which has nine digits at most.
-/

namespace BulkRun.Toml

/-- A number of so many digits. -/
def scanFixed (width : Nat) : Scan Nat := fun cs =>
  match Text.readDigits 10 Text.digit? (cs.take width) with
  | none => fail cs
  | some n => if cs.length < width then fail cs else .ok (n, cs.drop width)

/-- A number of two digits within bounds. -/
def scanTwo (low high : Nat) : Scan Nat := fun cs => do
  let (n, rest) ← scanFixed 2 cs
  if low ≤ n ∧ n ≤ high then return (n, rest) else refuse cs .outOfRange

/-- The fraction of a second in standard form, from its digits. -/
def secondFraction (digits : List Char) : String :=
  let kept := ((digits.take 9).reverse.dropWhile (· == '0')).reverse
  if kept.isEmpty then "" else String.ofList ('.' :: kept)

/-- The fraction of a second in standard form, or nothing. -/
def scanSecondFraction : List Char → String × List Char
  | '.' :: rest =>
    let digits := rest.takeWhile fun c => (Text.digit? c).isSome
    if digits.isEmpty then ("", '.' :: rest)
    else (secondFraction digits, rest.drop digits.length)
  | cs => ("", cs)

/-- The minute and the second of a time of day; the sixtieth second is a leap second. -/
def scanAfterHour : Scan String := fun cs => do
  let (minute, cs) ← scanTwo 0 59 cs
  let (_, cs) ← scanChar ':' cs
  let (second, cs) ← scanTwo 0 60 cs
  let (fraction, cs) := scanSecondFraction cs
  return (Text.padded 2 minute ++ ":" ++ Text.padded 2 second ++ fraction, cs)

/-- A time of day. -/
def scanTime : Scan String := fun cs => do
  let (hour, cs) ← scanTwo 0 23 cs
  let (_, cs) ← scanChar ':' cs
  let (rest, cs) ← certainly (scanAfterHour cs)
  return (Text.padded 2 hour ++ ":" ++ rest, cs)

/-- The hours and the minutes of an offset from UTC. -/
def scanOffsetTime : Scan (Nat × Nat) := fun cs => do
  let (hour, cs) ← scanTwo 0 23 cs
  let (_, cs) ← scanChar ':' cs
  let (minute, cs) ← scanTwo 0 59 cs
  return ((hour, minute), cs)

/-- An offset from UTC in standard form.  One of zero has a plus sign. -/
def writtenOffset (west : Bool) (hour minute : Nat) : String :=
  (if west && hour + minute != 0 then "-" else "+") ++ Text.padded 2 hour ++ ":" ++
    Text.padded 2 minute

/-- An offset from UTC. -/
def scanOffset : Scan String := fun cs =>
  about "time offset"
    (match cs with
      | [] => fail []
      | c :: rest =>
        if c == 'Z' || c == 'z' then .ok ("Z", rest)
        else if c == '+' || c == '-' then do
          let ((hour, minute), after) ← certainly (scanOffsetTime rest)
          return (writtenOffset (c == '-') hour minute, after)
        else fail cs)

/-- The month and the day of a date that the calendar has. -/
def scanAfterYear (year : Nat) : Scan String := fun cs => do
  let (month, cs) ← scanTwo 1 12 cs
  let (_, cs) ← scanChar '-' cs
  let (day, rest) ← scanTwo 1 31 cs
  if Date.exists? ⟨year, month, day⟩ then
    return (Text.padded 2 month ++ "-" ++ Text.padded 2 day, rest)
  else refuse cs .outOfRange

/-- A date. -/
def scanCalendarDate : Scan String := fun cs => do
  let (year, cs) ← scanFixed 4 cs
  let (_, cs) ← scanChar '-' cs
  let (rest, cs) ← certainly (scanAfterYear year cs)
  return (Text.padded 4 year ++ "-" ++ rest, cs)

/-- What may follow a date: a time, and perhaps an offset. -/
def scanAfterDate : Scan String
  | [] => fail []
  | c :: rest =>
    if c == 'T' || c == 't' || c == ' ' then do
      let (time, rest) ← scanTime rest
      let (offset, rest) ← optional scanOffset rest
      return ("T" ++ time ++ offset.getD "", rest)
    else fail (c :: rest)

/-- A date, and perhaps a time. -/
def scanDateTime : Scan String := fun cs =>
  about "date-time" do
    let (date, cs) ← scanCalendarDate cs
    let (time, cs) ← optional scanAfterDate cs
    return (date ++ time.getD "", cs)

/-- A date, a time of day, or both. -/
def scanDate : Scan String :=
  either scanDateTime fun cs => about "time" (scanTime cs)

end BulkRun.Toml
