import BulkRun.Toml.DateTable
import BulkRun.Toml.Number
import BulkRun.Toml.Report
/-!
# Reading TOML documents

The grammar of TOML 1.0.  Arrays and inline tables are nested less than eighty deep, and a key has
less than eighty parts.
-/

namespace BulkRun.Toml

/-! ## Space -/

/-- The text without the space in front of it. -/
def skipSpace (cs : List Char) : List Char := cs.dropWhile isSpace

/-- The text without the comment in front of it, if there is one. -/
def skipComment : List Char → List Char
  | '#' :: rest => rest.dropWhile isPlain
  | cs => cs

/-- What follows the end of a line, which may be the end of the text. -/
def endLine : List Char → Except Fault (List Char)
  | [] => .ok []
  | '\n' :: rest => .ok rest
  | '\r' :: '\n' :: rest => .ok rest
  | cs => fail cs

/-- What follows the end of a line, before which only space and a comment may stand. -/
def endEntry (cs : List Char) : Except Fault (List Char) :=
  expecting ["newline", "`#`"] (endLine (skipComment (skipSpace cs)))

/-- The text without the space, the line breaks and the comments in front of it.  A character that
may not stand in a comment is passed over before it is noticed, and so is a carriage return
alone. -/
def skipLines (inComment : Bool) : List Char → Except Fault (List Char)
  | [] => if inComment then fail [] else .ok []
  | '\r' :: '\n' :: rest => skipLines false rest
  | c :: rest =>
    if c == '\n' then skipLines false rest
    else if c == '\r' then fail rest
    else if inComment then if isPlain c then skipLines true rest else fail rest
    else if isSpace c then skipLines false rest
    else if c == '#' then skipLines true rest
    else .ok (c :: rest)

/-! ## Keys -/

/-- A part of a key: bare, or in quotes. -/
def scanPart : Scan String := fun cs =>
  match cs.takeWhile isBare with
  | [] => scanLineText cs
  | bare => .ok (String.ofList bare, cs.drop bare.length)

/-- A part of a key with space around it. -/
def scanSpacedPart : Scan Key := fun cs =>
  let cs := skipSpace cs
  (scanPart cs).map fun (part, rest) => (⟨part, ⟨cs, rest⟩⟩, skipSpace rest)

/-- The bound on the parts of a key and on the nesting of values. -/
def maxDepth : Nat := 79

/-- A key: the path of tables before its last part, and that part. -/
def scanKey : Scan (List Key × Key) := fun cs =>
  match about "key" (someItems scanSpacedPart '.' cs) with
  | .error f => .error f
  | .ok (parts, rest) =>
    match parts.getLast? with
    | none => fail cs
    | some name =>
      if maxDepth < parts.length then refuse cs .tooDeep else .ok ((parts.dropLast, name), rest)

/-! ## Values -/

/-- A truth value, or a number that is written as a word. -/
def scanWord : Scan Value
  | 't' :: 'r' :: 'u' :: 'e' :: rest => .ok (.boolean true, rest)
  | 'f' :: 'a' :: 'l' :: 's' :: 'e' :: rest => .ok (.boolean false, rest)
  | 't' :: rest => certainly (fail ('t' :: rest))
  | 'f' :: rest => certainly (fail ('f' :: rest))
  | 'i' :: 'n' :: 'f' :: rest => .ok (.real (.infinite false), rest)
  | 'n' :: 'a' :: 'n' :: rest => .ok (.real .nan, rest)
  | cs => fail cs

/-- A value that is no array and no inline table.  What begins like nothing else is taken for a text
that lacks its quotes. -/
def scanScalar : Scan Value
  | [] => fail []
  | c :: rest =>
    let cs := c :: rest
    if c == doubleQuote || c == singleQuote then (scanText cs).map fun (s, r) => (.text s, r)
    else if c == '+' || c == '-' || c.isDigit then
      let date : Scan Value := fun cs => (scanDate cs).map fun (s, r) => (.date s, r)
      either date (either scanReal scanInteger) cs
    else if c == '_' then expecting ["leading digit"] (scanInteger cs)
    else if c == '.' then expecting ["leading digit"] (scanReal cs)
    else about "string" (expecting ["`\"`", "`'`"] (scanWord cs))

/-- An item of an array, with space, line breaks and comments around it. -/
def scanItem (value : Scan Value) : Scan Value := fun cs => do
  let (v, cs) ← value (← skipLines false cs)
  return (v, ← skipLines false cs)

/-- The items of an array, with what stands between them and its closing bracket. -/
def scanItems (value : Scan Value) : Scan (List Value)
  | ']' :: rest => .ok ([], ']' :: rest)
  | cs => do
    let (items, cs) ← manyItems (scanItem value) ',' cs
    match items, cs with
    | [], _ => return ([], ← skipLines false cs)
    | _, ',' :: rest => return (items, ← skipLines false rest)
    | _, _ => return (items, ← skipLines false cs)

/-- An array, behind its opening bracket. -/
def scanArray (value : Scan Value) : Scan Value := fun cs =>
  certainly do
    let (items, cs) ← scanItems value cs
    let (_, cs) ← about "array" (expecting ["`]`"] (scanChar ']' cs))
    return (.list items, cs)

/-- A key with its value. -/
def scanPair (value : Scan Value) : Scan Pair := fun cs => do
  let ((path, key), cs) ← scanKey cs
  certainly do
    let (_, cs) ← expecting ["`.`", "`=`"] (scanChar '=' cs)
    let cs := skipSpace cs
    let (v, rest) ← value cs
    return (⟨path, key, ⟨cs, rest⟩, v⟩, rest)

/-- The table of some pairs. -/
def tableOf (pairs : List Pair) : Except Breach Nodes :=
  pairs.foldlM (fun nodes p => (Nodes.assign .inline none p .header p.place nodes).map (·.2)) []

/-- An inline table, behind its opening brace. -/
def scanInline (value : Scan Value) : Scan Value := fun cs =>
  certainly do
    let pair : Scan Pair := fun cs => (scanPair value cs).map fun (p, r) => (p, skipSpace r)
    let (pairs, rest) ← manyItems pair ',' cs
    match tableOf pairs with
    | .error b => refuse cs b
    | .ok nodes =>
      let (_, rest) ← about "inline table" (expecting ["`\x7d`"] (scanChar '\x7d' (skipSpace rest)))
      return (.table (nodeValues nodes), rest)

/-- A value that is nested at most so deep. -/
def scanValue : Nat → Scan Value
  | 0 => fun cs =>
    match cs with
    | '[' :: _ => certainly (refuse cs .tooDeep)
    | '\x7b' :: _ => certainly (refuse cs .tooDeep)
    | _ => scanScalar cs
  | depth + 1 => fun cs =>
    match cs with
    | '[' :: rest => scanArray (scanValue depth) rest
    | '\x7b' :: rest => scanInline (scanValue depth) rest
    | _ => scanScalar cs

/-! ## Lines -/

/-- A document that is being read: the path of the table that is open, and all that was defined. -/
structure Draft where
  current : List Key
  root : Nodes

/-- Changes the table at a path. -/
def Draft.change (d : Draft) (path : List Key) (change : Nodes.Change) : Except Breach Draft :=
  (Nodes.alter .header change [] path .header default d.root).map fun (_, root) =>
    { d with root := root }

/-- Opens a table by its header. -/
def Draft.header (d : Draft) (opens : Nodes.Opening) (path : List Key) (key : Key)
    (place : Place) : Except Breach Draft :=
  (d.change path fun _ there nodes =>
    (opens (path.map Key.name) key place nodes).map (there, ·)).map fun d =>
      { d with current := path ++ [key] }

/-- Defines a value in the open table. -/
def Draft.define (d : Draft) (p : Pair) : Except Breach Draft :=
  d.change d.current (Nodes.assign .line (some (d.current.map Key.name)) p)

/-- Takes a change of a document for what begins here. -/
def orRefuse (rest : List Char) (r : Except Breach Draft) : Except Fault Draft :=
  match r with
  | .ok d => .ok d
  | .error b => refuse rest b

/-- A header with so many brackets on either side. -/
def scanHeader (d : Draft) (opens : Nodes.Opening) (brackets : Nat) : Scan Draft := fun cs => do
  let ((path, key), rest) ← scanKey (cs.drop brackets)
  let closing := List.replicate brackets ']'
  let rest ← expecting ["`.`", "`" ++ String.ofList closing ++ "`"]
    (if closing.isPrefixOf rest then .ok (rest.drop brackets) else fail rest)
  let next ← endEntry rest
  return (← orRefuse cs (d.header opens path key ⟨cs, rest⟩), next)

/-- The header that begins with a bracket. -/
def scanTable (d : Draft) : Scan Draft := fun cs =>
  about "table header"
    (match cs with
      | ['['] => fail cs
      | '[' :: '[' :: _ => scanHeader d Nodes.openItem 2 cs
      | _ => scanHeader d Nodes.openTable 1 cs)

/-- A line with a key and its value. -/
def scanAssignment (d : Draft) : Scan Draft := fun cs => do
  let (p, rest) ← scanPair (scanValue maxDepth) cs
  let rest ← endEntry rest
  return (← orRefuse cs (d.define p), rest)

/-- The next line of a document, or a part of it. -/
def scanEntry (d : Draft) : Scan Draft
  | [] => .ok (d, [])
  | '#' :: rest => (endLine (skipComment ('#' :: rest))).map fun rest => (d, rest)
  | '[' :: rest => scanTable d ('[' :: rest)
  | '\n' :: rest => .ok (d, rest)
  | '\r' :: rest => (endLine ('\r' :: rest)).map fun rest => (d, rest)
  | cs => scanAssignment d cs

/-- The lines of a document, at most so many. -/
def readLines : Nat → Draft → List Char → Except Fault Draft
  | 0, d, _ => .ok d
  | count + 1, d, cs =>
    match skipSpace cs with
    | [] => .ok d
    | cs =>
      match scanEntry d cs with
      | .error f => .error f
      | .ok (d, rest) => readLines count d rest

/-- A text without a byte order mark in front. -/
def dropMark : List Char → List Char
  | c :: rest => if c.toNat = 0xFEFF then rest else c :: rest
  | [] => []

/-- Why a text is refused. -/
inductive Refusal where
  | malformed (f : Fault)
  /-- A value that should write a date does not. -/
  | marked (r : MarkRefusal)
  /-- The document itself stands for a date. -/
  | noTable
deriving DecidableEq, Repr

/-- The entries of the table that a text describes. -/
def parse (s : String) : Except Refusal (List (String × Place × Value)) :=
  let cs := dropMark s.toList
  match readLines (cs.length + 1) ⟨[], []⟩ cs with
  | .error f => .error (.malformed f)
  | .ok d =>
    match (Value.table (nodeValues d.root)).resolve with
    | .error r => .error (.marked r)
    | .ok (.table entries) => .ok entries
    | .ok _ => .error .noTable

/-- What is shown of a refusal of a text, if anything is. -/
def Refusal.report? (text : String) : Refusal → Option String
  | .malformed f => some (f.report text)
  | .marked r => some (r.place.report text r.fault.message)
  | .noTable => none

end BulkRun.Toml
