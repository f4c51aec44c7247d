/-!
# Lines

The lines of a text end with a line feed, perhaps with a carriage return before it.
-/

namespace BulkRun.Text

/-- The runs of a text between separators. -/
def split (separator : Char) : List Char → List (List Char)
  | [] => [[]]
  | c :: rest =>
    if c == separator then [] :: split separator rest
    else
      match split separator rest with
      | [] => [[c]]
      | run :: more => (c :: run) :: more

/-- A line without the carriage return at its end. -/
def dropReturn (line : List Char) : List Char :=
  if line.getLast? == some '\r' then line.dropLast else line

/-- The lines of a text; there is at least one. -/
def lines (s : String) : List String :=
  (split '\n' s.toList).map fun line => String.ofList (dropReturn line)

end BulkRun.Text
