import BulkRun.Decimal.Reading
import BulkRun.Toml.Basic
import BulkRun.Toml.Text
/-!
# Numbers in TOML documents

Integers are signed 64-bit words, in decimal or in base 16, 8 or 2.  A single underscore may stand
between two digits.  A decimal number has no leading zeros, and a point has digits on both sides.
-/

namespace BulkRun.Toml

/-! ## Digits -/

/-- A digit is missing behind an underscore. -/
def missingDigit {α : Type} (rest : List Char) : Except Fault α :=
  certainly (expecting ["digit"] (fail rest))

/-- More digits after a first one, without their underscores. -/
def moreDigits (isDigit : Char → Bool) : Scan (List Char)
  | [] => .ok ([], [])
  | '_' :: c :: rest =>
    if isDigit c then push c (moreDigits isDigit rest) else missingDigit (c :: rest)
  | c :: rest =>
    if isDigit c then push c (moreDigits isDigit rest)
    else if c == '_' then missingDigit rest
    else .ok ([], c :: rest)

/-- Digits, at least one. -/
def scanDigits (isDigit : Char → Bool) : Scan (List Char)
  | [] => fail []
  | c :: rest =>
    if isDigit c then push c (moreDigits isDigit rest) else fail (c :: rest)

/-- Whether a character is a digit of a base, in either case. -/
def isDigitOf (base : Nat) (c : Char) : Bool :=
  match Text.hexDigit? c with
  | some d => d < base
  | none => false

/-- A sign, if there is one. -/
def scanSign : List Char → List Char × List Char
  | '+' :: rest => (['+'], rest)
  | '-' :: rest => (['-'], rest)
  | cs => ([], cs)

/-- The digits before a point: a zero alone, or digits that begin with another one. -/
def scanWhole : Scan (List Char)
  | '0' :: rest => .ok (['0'], rest)
  | cs => scanDigits (isDigitOf 10) cs

/-- The digits before a point, with a sign if there is one. -/
def scanSigned : Scan (List Char × List Char) := fun cs =>
  let (sign, rest) := scanSign cs
  about "integer" ((scanWhole rest).map fun (whole, r) => ((sign, whole), r))

/-! ## Integers -/

/-- An integer in a base, behind the mark of the base. -/
def scanMarked (name : String) (base : Nat) (mark digits : List Char) :
    Except Fault (Value × List Char) :=
  match certainly (about name (scanDigits (isDigitOf base) digits)) with
  | .error f => .error f
  | .ok (ds, rest) =>
    match Text.readDigits base Text.hexDigit? ds with
    | none => fail digits
    | some n =>
      if n < signedCount then .ok (.integer n, rest)
      else certainly (refuse (mark ++ digits) .tooLarge)

/-- An integer. -/
def scanInteger : Scan Value
  | '0' :: 'x' :: rest => scanMarked "hexadecimal integer" 16 ['0', 'x'] rest
  | '0' :: 'o' :: rest => scanMarked "octal integer" 8 ['0', 'o'] rest
  | '0' :: 'b' :: rest => scanMarked "binary integer" 2 ['0', 'b'] rest
  | cs =>
    match scanSigned cs with
    | .error f => .error f
    | .ok ((sign, whole), rest) =>
      match Text.readSignedWord (String.ofList (sign ++ whole)) with
      | some i => .ok (.integer i, rest)
      | none => certainly (refuse cs (if sign == ['-'] then .tooSmall else .tooLarge))

/-! ## Numbers with a point or an exponent -/

/-- A point with the digits behind it, or nothing. -/
def scanFraction : Scan (List Char)
  | '.' :: rest =>
    push '.' (expecting ["digit"] (certainly (scanDigits (isDigitOf 10) rest)))
  | cs => .ok ([], cs)

/-- An exponent, or nothing. -/
def scanExponent : Scan (List Char)
  | [] => .ok ([], [])
  | c :: rest =>
    if c == 'e' || c == 'E' then
      (certainly (scanDigits (isDigitOf 10) (scanSign rest).2)).map fun (digits, r) =>
        ('e' :: (scanSign rest).1 ++ digits, r)
    else .ok ([], c :: rest)

/-- A number with a point, an exponent or both.  One that is too large for a double is refused, but
for a negative one, which counts as infinite. -/
def scanFinite : Scan Value := fun cs => do
  let ((sign, whole), rest) ← scanSigned cs
  let (fraction, rest) ← scanFraction rest
  let (exponent, rest) ← scanExponent rest
  if fraction.isEmpty && exponent.isEmpty then fail rest
  else
    match Double.read? (String.ofList (sign ++ whole ++ fraction ++ exponent)) with
    | none => fail cs
    | some x => if x = .infinite false then certainly (fail cs) else return (.real x, rest)

/-- An infinite number, or none at all. -/
def scanSpecial : Scan Value := fun cs =>
  match scanSign cs with
  | (sign, 'i' :: 'n' :: 'f' :: rest) => .ok (.real (.infinite (sign == ['-'])), rest)
  | (_, 'n' :: 'a' :: 'n' :: rest) => .ok (.real .nan, rest)
  | (_, rest) => fail rest

/-- A number that is no integer. -/
def scanReal : Scan Value := fun cs =>
  about "floating-point number" (either scanFinite scanSpecial cs)

end BulkRun.Toml
