import BulkRun.Toml.Key
import BulkRun.Toml.Scan
/-!
# Texts in TOML documents

A text stands between double quotes, where a backslash begins an escape, or between single quotes,
where nothing does.  Between three quotes at once it may run over several lines; a line break right
after the opening quotes is dropped, and a backslash at the end of a line joins what follows to it.
-/

namespace BulkRun.Toml

/-- Space within a line. -/
def isSpace (c : Char) : Bool := c == ' ' || c == '\t'

/-! ## Escapes -/

/-- The character of an escape of one letter. -/
def escaped? : Char → Option Char
  | 'b' => some (Char.ofNat 8)
  | 't' => some '\t'
  | 'n' => some '\n'
  | 'f' => some (Char.ofNat 12)
  | 'r' => some '\r'
  | '"' => some '"'
  | '\\' => some '\\'
  | _ => none

/-- Whether a line ends here, but for space. -/
def endsLine (cs : List Char) : Bool :=
  match cs.dropWhile isSpace with
  | '\n' :: _ => true
  | '\r' :: '\n' :: _ => true
  | _ => false

/-- The character whose number stands here in so many hexadecimal digits; half a surrogate pair is
none. -/
def numbered (width : Nat) (cs : List Char) : Except Fault Char :=
  certainly (about ("unicode " ++ Text.ofNat width ++ "-digit hex code")
    (match Text.readDigits 16 Text.hexDigit? (cs.take width) with
      | none => fail cs
      | some n =>
        if cs.length < width then fail cs
        else if h : n.isValidChar then .ok (Char.ofNatAux n h)
        else refuse cs .outOfRange))

/-- What may follow a backslash. -/
def escapeMarks : List String :=
  ["`b`", "`f`", "`n`", "`r`", "`t`", "`u`", "`U`", "`\\`", "`\"`"]

/-- The character that is meant by what follows a backslash; none when it joins two lines.  A letter
of ASCII that means nothing is passed over before the fault is noticed. -/
def escape (multiline : Bool) : List Char → Except Fault (Option Char)
  | [] => fail []
  | 'u' :: rest => (numbered 4 rest).map some
  | 'U' :: rest => (numbered 8 rest).map some
  | c :: rest =>
    match escaped? c with
    | some c => .ok (some c)
    | none =>
      if multiline && endsLine (c :: rest) then .ok none
      else
        certainly (about "escape sequence" (expecting escapeMarks
          (fail (if c.utf8Size = 1 then rest else c :: rest))))

/-! ## Characters up to the closing quotes -/

/-- Puts a character in front of what is read after it. -/
def push (c : Char) (r : Except Fault (List Char × List Char)) :
    Except Fault (List Char × List Char) :=
  r.map fun (cs, rest) => (c :: cs, rest)

/-- A kind of text. -/
structure TextKind where
  /-- The name of the kind. -/
  name : String
  multiline : Bool
deriving DecidableEq, Repr

/-- A text of a kind should have been closed here. -/
def TextKind.unclosed {α : Type} (k : TextKind) (rest : List Char) : Except Fault α :=
  certainly (about k.name (fail rest))

/-- The end of a text over several lines, after the first of its closing quotes: up to two quotes
that belong to the text may stand before the closing three. -/
def closing? (quote : Char) (rest : List Char) : Option (List Char × List Char) :=
  let run := ((rest.take 4).takeWhile (· == quote)).length
  if run < 2 then none else some (List.replicate (run - 2) quote, rest.drop run)

/-- What is read behind a quote that belongs to a text without escapes.  When the text cannot go on
behind it, the quote is where the text should have been closed. -/
def behindQuote {α : Type} (quote : Char) (rest : List Char) (r : Except Fault α) :
    Except Fault α :=
  r.mapError fun f => if f.rest.length = rest.length then { f with rest := quote :: rest } else f

/-- The characters of a text with escapes up to its closing quotes.  While `joining`, space and line
breaks are passed over.  Of quotes at the end of everything, the first is where the text should have
been closed. -/
def scanEscaped (k : TextKind) (joining : Bool) : Scan (List Char)
  | [] => k.unclosed []
  | '\\' :: 'u' :: a :: b :: c :: d :: rest =>
    match numbered 4 (a :: b :: c :: d :: rest) with
    | .error f => .error f
    | .ok x => push x (scanEscaped k false rest)
  | '\\' :: 'U' :: a :: b :: c :: d :: e :: f :: g :: h :: rest =>
    match numbered 8 (a :: b :: c :: d :: e :: f :: g :: h :: rest) with
    | .error f => .error f
    | .ok x => push x (scanEscaped k false rest)
  | '\\' :: e :: rest =>
    match escape k.multiline (e :: rest) with
    | .error f => .error f
    | .ok (some c) => push c (scanEscaped k false rest)
    | .ok none => scanEscaped k true rest
  | '\r' :: '\n' :: rest =>
    if !k.multiline then k.unclosed ('\r' :: '\n' :: rest)
    else if joining then scanEscaped k true rest
    else push '\n' (scanEscaped k false rest)
  | c :: rest =>
    if c == doubleQuote then
      if !k.multiline then .ok ([], rest)
      else
        match closing? doubleQuote rest with
        | some r => .ok r
        | none =>
          if rest.all (· == doubleQuote) then k.unclosed (c :: rest)
          else push c (scanEscaped k false rest)
    else if c == '\n' && k.multiline then
      if joining then scanEscaped k true rest else push c (scanEscaped k false rest)
    else if joining && isSpace c then scanEscaped k true rest
    else if isPlain c && c != '\\' then push c (scanEscaped k false rest)
    else k.unclosed (c :: rest)

/-- The characters of a text without escapes up to its closing quotes. -/
def scanLiteral (k : TextKind) : Scan (List Char)
  | [] => k.unclosed []
  | '\r' :: '\n' :: rest =>
    if k.multiline then push '\n' (scanLiteral k rest) else k.unclosed ('\r' :: '\n' :: rest)
  | c :: rest =>
    if c == singleQuote then
      if !k.multiline then .ok ([], rest)
      else
        match closing? singleQuote rest with
        | some r => .ok r
        | none => push c (behindQuote c rest (scanLiteral k rest))
    else if isPlain c || (k.multiline && c == '\n') then push c (scanLiteral k rest)
    else k.unclosed (c :: rest)

/-! ## Texts -/

/-- Drops a line break in front of a text. -/
def dropBreak : List Char → List Char
  | '\n' :: rest => rest
  | '\r' :: '\n' :: rest => rest
  | cs => cs

/-- Characters as a text. -/
def asString (r : Except Fault (List Char × List Char)) : Except Fault (String × List Char) :=
  r.map fun (cs, rest) => (String.ofList cs, rest)

/-- A text within one line. -/
def scanLineText : Scan String
  | [] => fail []
  | c :: rest =>
    if c == doubleQuote then asString (scanEscaped ⟨"basic string", false⟩ false rest)
    else if c == singleQuote then asString (scanLiteral ⟨"literal string", false⟩ rest)
    else fail (c :: rest)

/-- A text. -/
def scanText : Scan String := fun cs =>
  if cs.take 3 == List.replicate 3 doubleQuote then
    asString (scanEscaped ⟨"multiline basic string", true⟩ false (dropBreak (cs.drop 3)))
  else if cs.take 3 == List.replicate 3 singleQuote then
    asString (scanLiteral ⟨"multiline literal string", true⟩ (dropBreak (cs.drop 3)))
  else scanLineText cs

end BulkRun.Toml
