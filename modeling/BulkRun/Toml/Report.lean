import BulkRun.Toml.Fault
import BulkRun.Toml.Key
/-!
# Reports of faults

A fault is reported with its line of the text, and marks under that line where it is.  Lines and
columns are counted from one.
-/

namespace BulkRun.Toml

/-- The characters behind the last line feed of a text. -/
def lastLine (cs : List Char) : List Char := (cs.reverse.takeWhile (· != '\n')).reverse

/-- The line that a text begins with. -/
def firstLine (cs : List Char) : List Char := cs.takeWhile (· != '\n')

/-- The number of bytes of a text. -/
def byteCount (cs : List Char) : Nat := cs.foldr (fun c n => c.utf8Size + n) 0

/-- Where something is shown. -/
structure Mark where
  /-- The number of lines before. -/
  line : Nat
  /-- The text of the line. -/
  content : List Char
  /-- How far from the beginning of the line. -/
  column : Nat
  /-- The number of marks. -/
  width : Nat
deriving DecidableEq, Repr

/-- The mark of so many bytes of a text, of which `rest` is left where they begin.  The end of a
text is shown behind its last character, even where that is a line feed.  Columns count characters;
only in front of a character that takes several bytes they count bytes.  There are no more marks
than bytes in the line, and at least one. -/
def markOf (text rest : List Char) (bytes : Nat) : Mark :=
  let before := text.take (text.length - rest.length)
  match rest with
  | [] =>
    let most := before.dropLast
    ⟨most.count '\n', lastLine most ++ firstLine (before.drop most.length),
      (lastLine most).length + 1, 1⟩
  | c :: rest =>
    let start := lastLine before
    let line := start ++ firstLine (c :: rest)
    ⟨before.count '\n', line, if c.utf8Size = 1 then start.length else byteCount start,
      max 1 (min bytes (byteCount line))⟩

/-- A message with the line of a text that it is about. -/
def Mark.show (m : Mark) (message : String) : String :=
  let number := Text.ofNat (m.line + 1)
  let spaces (n : Nat) : String := String.ofList (List.replicate n ' ')
  let gutter := spaces (number.length + 1) ++ "|"
  "\n".intercalate [gutter, number ++ " | " ++ String.ofList m.content,
    gutter ++ spaces (m.column + 1) ++ String.ofList (List.replicate m.width '^'), message]

/-- What is shown of a fault in a text: the character is marked that is there. -/
def Fault.report (text : String) (f : Fault) : String :=
  (markOf text.toList f.rest (byteCount (f.rest.take 1))).show f.message

/-- A message about a stretch of a text. -/
def Place.report (text : String) (p : Place) (message : String) : String :=
  let length := p.start.length - p.stop.length
  (markOf text.toList p.start (byteCount (p.start.take length))).show message

end BulkRun.Toml
