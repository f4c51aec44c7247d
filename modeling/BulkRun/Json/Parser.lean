import BulkRun.Json.Basic
/-!
# Reading JSON texts

The grammar is the strict one: four characters of white space, no byte order mark, no leading zeros,
no raw control characters in strings, no trailing commas.  Tokens are cut from the front of the
text, each leaving a shorter rest, and a stack of open arrays and objects takes them up.
-/

namespace BulkRun.Json

/-- The white space between tokens. -/
def isSpace (c : Char) : Bool :=
  c == ' ' || c == '\n' || c == '\t' || c == '\r'

/-- The text without the white space in front of it. -/
def skipSpace : List Char → List Char
  | [] => []
  | c :: rest => if isSpace c then skipSpace rest else c :: rest

theorem length_skipSpace_le (cs : List Char) : (skipSpace cs).length ≤ cs.length := by
  induction cs with
  | nil => simp [skipSpace]
  | cons c rest ih => grind [skipSpace]

/-- The rest of a text after some of it has been read. -/
abbrev Rest (cs : List Char) := { rest : List Char // rest.length < cs.length }

/-! ## Strings -/

/-- One character of a string, or one UTF-16 unit written as an escape. -/
inductive StringPiece where
  | char (c : Char)
  | unit (u : Nat)
deriving DecidableEq, Repr

/-- The number of four hexadecimal digits. -/
def fourHex? (a b c d : Char) : Option Nat :=
  Text.readDigits 16 Text.hexDigit? [a, b, c, d]

/-- The character after a backslash, other than the escapes by number. -/
def escaped? : Char → Option Char
  | '"' => some '"'
  | '\\' => some '\\'
  | '/' => some '/'
  | 'b' => some (Char.ofNat 8)
  | 'f' => some (Char.ofNat 12)
  | 'n' => some '\n'
  | 'r' => some '\r'
  | 't' => some '\t'
  | _ => none

/-- The pieces of a string after its opening quote, and what follows the closing one. -/
def scanString : List Char → Option (List StringPiece × List Char)
  | [] => none
  | '"' :: rest => some ([], rest)
  | '\\' :: 'u' :: a :: b :: c :: d :: rest =>
    match fourHex? a b c d with
    | none => none
    | some u => (scanString rest).map fun (ps, r) => (.unit u :: ps, r)
  | '\\' :: e :: rest =>
    match escaped? e with
    | none => none
    | some c => (scanString rest).map fun (ps, r) => (.char c :: ps, r)
  | c :: rest =>
    if c.toNat < 0x20 || c == '\\' then none
    else (scanString rest).map fun (ps, r) => (.char c :: ps, r)

theorem length_of_scanString {cs : List Char} {ps : List StringPiece} {r : List Char}
    (h : scanString cs = some (ps, r)) : r.length < cs.length := by
  fun_induction scanString cs generalizing ps r with
  | case2 => grind
  | case4 => grind [Option.map_eq_some_iff]
  | case6 => grind [Option.map_eq_some_iff]
  | case8 => grind [Option.map_eq_some_iff]
  | _ => simp at h

/-- The text of pieces: two units that are a surrogate pair make one character, and a surrogate
without its other half makes the whole no text. -/
def joinPieces : List StringPiece → Option (List Char)
  | [] => some []
  | .char c :: rest => (joinPieces rest).map (c :: ·)
  | .unit u :: .unit v :: rest =>
    if 0xD800 ≤ u && u ≤ 0xDBFF then
      if 0xDC00 ≤ v && v ≤ 0xDFFF then
        (joinPieces rest).map (Char.ofNat (0x10000 + (u - 0xD800) * 0x400 + (v - 0xDC00)) :: ·)
      else none
    else if 0xDC00 ≤ u && u ≤ 0xDFFF then none
    else (joinPieces (.unit v :: rest)).map (Char.ofNat u :: ·)
  | .unit u :: rest =>
    if 0xD800 ≤ u && u ≤ 0xDFFF then none
    else (joinPieces rest).map (Char.ofNat u :: ·)

/-! ## Numbers -/

/-- The digit values in front of a text, and what follows them. -/
def spanDigits : List Char → List Nat × List Char
  | [] => ([], [])
  | c :: rest =>
    match Text.digit? c with
    | some d => let (ds, r) := spanDigits rest; (d :: ds, r)
    | none => ([], c :: rest)

theorem length_spanDigits_le (cs : List Char) : (spanDigits cs).2.length ≤ cs.length := by
  induction cs with
  | nil => simp [spanDigits]
  | cons c rest ih => grind [spanDigits]

theorem length_spanDigits_lt {cs : List Char} (h : (spanDigits cs).1 ≠ []) :
    (spanDigits cs).2.length < cs.length := by
  cases cs with
  | nil => simp [spanDigits] at h
  | cons c rest =>
    have := length_spanDigits_le rest
    grind [spanDigits]

/-- The digits in front of a text, at least one, and what follows them. -/
def scanDigits (cs : List Char) : Option (List Nat × List Char) :=
  if (spanDigits cs).1 = [] then none else some (spanDigits cs)

theorem length_of_scanDigits {cs r : List Char} {ds : List Nat}
    (h : scanDigits cs = some (ds, r)) : r.length < cs.length := by
  unfold scanDigits at h
  split at h
  · simp at h
  · rename_i hne
    have := length_spanDigits_lt hne
    simp only [Option.some.injEq] at h
    rw [h] at this
    exact this

/-- The fraction after a number's whole part; `none` when a point has no digits behind it. -/
def scanFraction : List Char → Option (List Nat × List Char)
  | [] => some ([], [])
  | c :: rest => if c == '.' then scanDigits rest else some ([], c :: rest)

theorem length_of_scanFraction {cs r : List Char} {ds : List Nat}
    (h : scanFraction cs = some (ds, r)) : r.length ≤ cs.length := by
  unfold scanFraction at h
  split at h
  · simp_all
  · split at h
    · have := length_of_scanDigits h
      simp only [List.length_cons]
      omega
    · simp only [Option.some.injEq, Prod.mk.injEq] at h
      obtain ⟨_, rfl⟩ := h
      omega

/-- A sign in front of a text: whether it is a minus, and what follows. -/
def scanSign : List Char → Bool × List Char
  | [] => (false, [])
  | c :: rest =>
    if c == '+' then (false, rest) else if c == '-' then (true, rest) else (false, c :: rest)

theorem length_scanSign_le (cs : List Char) : (scanSign cs).2.length ≤ cs.length := by
  cases cs with
  | nil => simp [scanSign]
  | cons c rest => grind [scanSign]

/-- The exponent after a number; `none` when its mark has no digits behind it. -/
def scanExponent : List Char → Option (Option (Bool × List Nat) × List Char)
  | [] => some (none, [])
  | c :: rest =>
    if c == 'e' || c == 'E' then
      match scanDigits (scanSign rest).2 with
      | none => none
      | some (ds, r) => some (some ((scanSign rest).1, ds), r)
    else some (none, c :: rest)

theorem length_of_scanExponent {cs r : List Char} {e : Option (Bool × List Nat)}
    (h : scanExponent cs = some (e, r)) : r.length ≤ cs.length := by
  unfold scanExponent at h
  split at h
  · simp_all
  · rename_i rest
    split at h
    · split at h
      · simp at h
      · rename_i hd
        have h1 := length_of_scanDigits hd
        have h2 := length_scanSign_le rest
        simp only [Option.some.injEq, Prod.mk.injEq] at h
        obtain ⟨_, rfl⟩ := h
        simp only [List.length_cons]
        omega
    · simp only [Option.some.injEq, Prod.mk.injEq] at h
      obtain ⟨_, rfl⟩ := h
      omega

/-- An unsigned number: no leading zeros, digits on both sides of a point. -/
def scanUnsigned (negative : Bool) (cs : List Char) : Option (Decimal.Numeral × Rest cs) :=
  match hw : scanDigits cs with
  | none => none
  | some (whole, r) =>
    if whole.head? = some 0 ∧ whole.length > 1 then none
    else
      match hf : scanFraction r with
      | none => none
      | some (fraction, r) =>
        match he : scanExponent r with
        | none => none
        | some (exponent, r) =>
          some (⟨negative, whole, fraction, exponent⟩, ⟨r, by
            have h1 := length_of_scanDigits hw
            have h2 := length_of_scanFraction hf
            have h3 := length_of_scanExponent he
            omega⟩)

/-! ## Tokens -/

/-- The words of a JSON text. -/
inductive Token where
  | openArray
  | closeArray
  | openObject
  | closeObject
  | comma
  | colon
  | null
  | bool (b : Bool)
  | number (n : Decimal.Numeral)
  | string (s : Option String)
deriving Repr

/-- The first token of a text with no white space in front. -/
def scanToken : (cs : List Char) → Option (Token × Rest cs)
  | [] => none
  | c :: rest =>
    let single (t : Token) : Option (Token × Rest (c :: rest)) := some (t, ⟨rest, by simp⟩)
    if c == '[' then single .openArray
    else if c == ']' then single .closeArray
    else if c == '\x7b' then single .openObject
    else if c == '\x7d' then single .closeObject
    else if c == ',' then single .comma
    else if c == ':' then single .colon
    else if c == '"' then
      match h : scanString rest with
      | none => none
      | some (ps, r) =>
        some (.string ((joinPieces ps).map String.ofList),
          ⟨r, by have := length_of_scanString h; simp only [List.length_cons]; omega⟩)
    else if c == '-' then
      (scanUnsigned true rest).map fun (n, r) =>
        (.number n, ⟨r.1, by have := r.2; simp only [List.length_cons]; omega⟩)
    else if c == 'n' then
      match rest with
      | 'u' :: 'l' :: 'l' :: r => some (.null, ⟨r, by simp only [List.length_cons]; omega⟩)
      | _ => none
    else if c == 't' then
      match rest with
      | 'r' :: 'u' :: 'e' :: r => some (.bool true, ⟨r, by simp only [List.length_cons]; omega⟩)
      | _ => none
    else if c == 'f' then
      match rest with
      | 'a' :: 'l' :: 's' :: 'e' :: r =>
        some (.bool false, ⟨r, by simp only [List.length_cons]; omega⟩)
      | _ => none
    else (scanUnsigned false (c :: rest)).map fun (n, r) => (.number n, r)

/-- The first token of a text, white space in front passed over. -/
def nextToken (cs : List Char) : Option (Token × Rest cs) :=
  (scanToken (skipSpace cs)).map fun (t, r) =>
    (t, ⟨r.1, Nat.lt_of_lt_of_le r.2 (length_skipSpace_le cs)⟩)

/-! ## Trees -/

/-- An array or an object that is still open: what it holds so far, last first. -/
inductive Frame where
  | array (items : List Tree)
  | object (members : List (Option String × Tree)) (key : Option String)

/-- What may come next. -/
inductive Expect where
  /-- A value. -/
  | value
  /-- A value, or the end of the array just opened. -/
  | valueOrClose
  /-- A key; the members so far are given. -/
  | key (members : List (Option String × Tree))
  /-- A key, or the end of the object just opened. -/
  | keyOrClose
  /-- The colon after a key. -/
  | colon (members : List (Option String × Tree)) (key : Option String)
  /-- A comma or the end of the innermost array or object, after this value. -/
  | more (last : Tree)

/-- The state of a reader. -/
structure Reading where
  expect : Expect
  stack : List Frame

/-- Takes up one token; `none` when the grammar has no place for it. -/
def Reading.take (r : Reading) (t : Token) : Option Reading :=
  let scalar (v : Tree) : Option Reading := some ⟨.more v, r.stack⟩
  let value (t : Token) : Option Reading :=
    match t with
    | .null => scalar .null
    | .bool b => scalar (.bool b)
    | .number n => scalar (.number n)
    | .string s => scalar (.string s)
    | .openArray => some ⟨.valueOrClose, .array [] :: r.stack⟩
    | .openObject => some ⟨.keyOrClose, r.stack⟩
    | _ => none
  match r.expect, t with
  | .value, t => value t
  | .valueOrClose, .closeArray =>
    match r.stack with
    | .array _ :: outer => some ⟨.more (.array []), outer⟩
    | _ => none
  | .valueOrClose, t => value t
  | .keyOrClose, .closeObject => scalar (.object [])
  | .keyOrClose, .string k => some ⟨.colon [] k, r.stack⟩
  | .key members, .string k => some ⟨.colon members k, r.stack⟩
  | .colon members k, .colon => some ⟨.value, .object members k :: r.stack⟩
  | .more v, .comma =>
    match r.stack with
    | .array items :: outer => some ⟨.value, .array (v :: items) :: outer⟩
    | .object members k :: outer => some ⟨.key ((k, v) :: members), outer⟩
    | [] => none
  | .more v, .closeArray =>
    match r.stack with
    | .array items :: outer => some ⟨.more (.array (v :: items).reverse), outer⟩
    | _ => none
  | .more v, .closeObject =>
    match r.stack with
    | .object members k :: outer => some ⟨.more (.object ((k, v) :: members).reverse), outer⟩
    | _ => none
  | _, _ => none

/-- The value that a reader has finished, when nothing is left open. -/
def Reading.finished? (r : Reading) : Option Tree :=
  match r.expect, r.stack with
  | .more v, [] => some v
  | _, _ => none

/-- Reads tokens until a whole value has been taken up; returns what follows it. -/
def Reading.run (r : Reading) (cs : List Char) : Option (Tree × List Char) :=
  match r.finished? with
  | some v => some (v, cs)
  | none =>
    match nextToken cs with
    | none => none
    | some (t, rest) =>
      match r.take t with
      | none => none
      | some r => r.run rest.1
termination_by cs.length
decreasing_by exact rest.2

/-- The value in front of a text, and what follows it. -/
def Tree.scan (cs : List Char) : Option (Tree × List Char) :=
  Reading.run ⟨.value, []⟩ cs

/-- A text that is one JSON value and white space. -/
def Tree.parse? (s : String) : Option Tree :=
  match Tree.scan s.toList with
  | some (t, rest) => if (skipSpace rest).isEmpty then some t else none
  | none => none

/-- The value of a text that is one JSON value and white space. -/
def parse? (s : String) : Option Json :=
  (Tree.parse? s).bind (Tree.toJson? 0)

end BulkRun.Json
