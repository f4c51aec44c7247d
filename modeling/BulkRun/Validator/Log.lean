import BulkRun.Json.Printer
/-!
# The log of the validator

A log record has a level and a target, which names the part of the program that it comes from, and a
message with fields.  It is put out as JSON, or as text for a terminal; there a message may not
command the terminal, so the characters that could are written as escapes.
-/

namespace BulkRun.Validator

/-- How important a log record is. -/
inductive Level where
  | error
  | warn
  | info
  | debug
  | trace
deriving DecidableEq, Repr

/-- The position of a level in the order of importance, the most important one first. -/
def Level.rank : Level → Nat
  | .error => 1
  | .warn => 2
  | .info => 3
  | .debug => 4
  | .trace => 5

/-- The name of a level in a log. -/
def Level.name : Level → String
  | .error => "ERROR"
  | .warn => "WARN"
  | .info => "INFO"
  | .debug => "DEBUG"
  | .trace => "TRACE"

/-- A log record. -/
structure LogRecord where
  level : Level
  target : String
  message : String
  /-- Further lines of the message, which only a log of text shows. -/
  report : Option String
  fields : List (String × Json)
  /-- The names of the fields that are not put out. -/
  silent : List String

/-- Whether a record has a field; the message counts as one. -/
def LogRecord.hasField (r : LogRecord) (name : String) : Bool :=
  name == "message" || r.fields.any (·.1 == name) || r.silent.contains name

/-! ## Text for a terminal -/

/-- A character of a message: those that begin commands to a terminal are written by their
number. -/
def safeChar (c : Char) : List Char :=
  let n := c.toNat
  let digits := [Text.hexDigit (n / 16), Text.hexDigit (n % 16)]
  if n = 0x1B || n = 7 || n = 8 || n = 0xC || n = 0x7F then ['\\', 'x'] ++ digits
  else if 0x80 ≤ n && n < 0xA0 then ['\\', 'u', '\x7b'] ++ digits ++ ['\x7d']
  else [c]

/-- A message that a terminal only shows. -/
def safeText (s : String) : String := String.ofList (s.toList.flatMap safeChar)

/-- A command to a terminal that changes how it shows what follows. -/
def style (number : String) : String := String.ofList [Char.ofNat 0x1B, '['] ++ number ++ "m"

/-- A text that a terminal shows in a style. -/
def styled (number s : String) : String := style number ++ s ++ style "0"

/-- A field in a log of text, with its name in italics and a faint equals sign. -/
def showField : String × Json → String
  | (name, .string s) => " " ++ styled "3" name ++ styled "2" "=" ++ s
  | (name, v) => " " ++ styled "3" name ++ styled "2" "=" ++ v.compact

/-- A log record as it is put out: as JSON in one line, or as text. -/
def LogRecord.render (json : Bool) (r : LogRecord) : String :=
  if json then
    Json.compact (.object [("level", .string r.level.name),
      ("fields", .object (("message", .string r.message) :: r.fields)),
      ("target", .string r.target)])
  else
    r.level.name ++ " " ++ r.target ++ ": " ++
      safeText (r.message ++ (r.report.map ("\n" ++ ·)).getD "") ++
      String.join (r.fields.map showField)

end BulkRun.Validator
