import BulkRun.Json.Basic
/-!
# Writing JSON texts

A value is written on one line without spaces, or over several lines with an indentation of two
spaces a level.
-/

namespace BulkRun.Json

/-- A character of a string as it is written between quotes. -/
def escapeChar (c : Char) : List Char :=
  if c == '"' then ['\\', '"']
  else if c == '\\' then ['\\', '\\']
  else if c == '\n' then ['\\', 'n']
  else if c == '\r' then ['\\', 'r']
  else if c == '\t' then ['\\', 't']
  else if c.toNat == 8 then ['\\', 'b']
  else if c.toNat == 12 then ['\\', 'f']
  else if c.toNat < 0x20 then
    ['\\', 'u', '0', '0', Text.hexDigit (c.toNat / 16), Text.hexDigit (c.toNat % 16)]
  else [c]

/-- A text in quotes. -/
def quote (s : String) : String :=
  "\"" ++ String.ofList (s.toList.flatMap escapeChar) ++ "\""

/-- A number as it is written. -/
def numberText : JsonNumber → String
  | .int i => Text.ofInt i
  | .real x => x.write .json

/-- Texts with a separator between them. -/
def joined (separator : String) (parts : List String) : String :=
  String.intercalate separator parts

mutual

/-- A value on one line. -/
def compact : Json → String
  | .null => "null"
  | .bool true => "true"
  | .bool false => "false"
  | .number n => numberText n
  | .string s => quote s
  | .array items => "[" ++ joined "," (compactItems items) ++ "]"
  | .object members => "\x7b" ++ joined "," (compactMembers members) ++ "\x7d"

/-- The items of an array, each on one line. -/
def compactItems : List Json → List String
  | [] => []
  | j :: rest => compact j :: compactItems rest

/-- The members of an object, each on one line. -/
def compactMembers : List (String × Json) → List String
  | [] => []
  | (k, j) :: rest => (quote k ++ ":" ++ compact j) :: compactMembers rest

end

/-- The space in front of a line at a level of indentation. -/
def indent (level : Nat) : String :=
  String.ofList (List.replicate (2 * level) ' ')

/-- The lines of an array or an object: its opening and closing lines with the parts between them,
each part but the last followed by a comma. -/
def bracketed (level : Nat) (opening closing : String) (parts : List (List String)) : List String :=
  let closed : List (List String) := parts.mapIdx fun i lines =>
    if i + 1 < parts.length then
      match lines.reverse with
      | [] => []
      | last :: before => (( last ++ ",") :: before).reverse
    else lines
  opening :: closed.flatten ++ [indent level ++ closing]

/-- Puts a text in front of the first line. -/
def prependLine (s : String) : List String → List String
  | [] => [s]
  | line :: rest => (s ++ line) :: rest

mutual

/-- A value over several lines; the first line is not indented. -/
def prettyLines (level : Nat) : Json → List String
  | .array items =>
    if items.isEmpty then ["[]"]
    else bracketed level "[" "]" (prettyItems (level + 1) items)
  | .object members =>
    if members.isEmpty then ["\x7b\x7d"]
    else bracketed level "\x7b" "\x7d" (prettyMembers (level + 1) members)
  | .null => ["null"]
  | .bool true => ["true"]
  | .bool false => ["false"]
  | .number n => [numberText n]
  | .string s => [quote s]

/-- The items of an array over several lines. -/
def prettyItems (level : Nat) : List Json → List (List String)
  | [] => []
  | j :: rest => prependLine (indent level) (prettyLines level j) :: prettyItems level rest

/-- The members of an object over several lines. -/
def prettyMembers (level : Nat) : List (String × Json) → List (List String)
  | [] => []
  | (k, j) :: rest =>
    prependLine (indent level ++ quote k ++ ": ") (prettyLines level j) :: prettyMembers level rest

end

/-- A value over several lines, indented by two spaces a level. -/
def pretty (j : Json) : List String := prettyLines 0 j

end BulkRun.Json
