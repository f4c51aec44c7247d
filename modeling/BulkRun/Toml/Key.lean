import BulkRun.Text.Numeral
/-!
# Keys of TOML documents

A key is a path of names.  A name can always be written: bare if it is made of letters, digits,
underscores and hyphens, or else in quotes, where a character has an escape only if nothing else
will do.
-/

namespace BulkRun.Toml

/-- A stretch of a text. -/
structure Place where
  /-- What is left of the text where the stretch begins. -/
  start : List Char
  /-- What is left of the text behind it. -/
  stop : List Char
deriving DecidableEq, Repr, Inhabited

/-- A name that stands in a document. -/
structure Key where
  name : String
  place : Place
deriving DecidableEq, Repr

/-- The double quote. -/
def doubleQuote : Char := '"'

/-- The single quote. -/
def singleQuote : Char := Char.ofNat 39

/-- A character of a bare key. -/
def isBare (c : Char) : Bool := c.isAlphanum || c == '_' || c == '-'

/-- A character that may stand as it is within a line: no control character but the tab. -/
def isPlain (c : Char) : Bool := c == '\t' || (0x20 ≤ c.toNat && c.toNat != 0x7F)

/-- A character between double quotes. -/
def quotedChar (c : Char) : List Char :=
  match c with
  | '"' => ['\\', '"']
  | '\\' => ['\\', '\\']
  | '\n' => ['\\', 'n']
  | '\r' => ['\\', 'r']
  | '\t' => ['\\', 't']
  | _ =>
    let n := c.toNat
    if n = 8 then ['\\', 'b']
    else if n = 12 then ['\\', 'f']
    else if isPlain c then [c]
    else ['\\', 'u', '0', '0', (Text.hexDigit (n / 16)).toUpper, (Text.hexDigit (n % 16)).toUpper]

/-- Characters between two quotes. -/
def between (quote : Char) (cs : List Char) : String := String.ofList (quote :: cs ++ [quote])

/-- A name as it is written in a key: bare, or in the first kind of quotes that does without
escapes, or with escapes. -/
def writtenName (name : String) : String :=
  let cs := name.toList
  if !cs.isEmpty && cs.all isBare then name
  else if cs.all fun c => isPlain c && c != doubleQuote && c != '\\' then between doubleQuote cs
  else if cs.all fun c => isPlain c && c != singleQuote then between singleQuote cs
  else between doubleQuote (cs.flatMap quotedChar)

end BulkRun.Toml
