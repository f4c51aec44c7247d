import BulkRun.Decimal.Numeral
/-!
# Reading doubles

A double is written as a numeral with at least one digit, where either side of the point may be
empty, or as `inf`, `infinity` or `nan` in any case.
-/

namespace BulkRun

namespace Decimal

/-- The digit values in front of a text, and what follows them. -/
def takeDigits (cs : List Char) : List Nat × List Char :=
  ((cs.takeWhile fun c => (Text.digit? c).isSome).filterMap Text.digit?,
    cs.dropWhile fun c => (Text.digit? c).isSome)

/-- A sign in front of a text: whether it is a minus, and what follows. -/
def takeSign : List Char → Bool × List Char
  | '-' :: rest => (true, rest)
  | '+' :: rest => (false, rest)
  | cs => (false, cs)

/-- An exponent that ends a text: absent when the text is empty, `none` when it is no exponent. -/
def readExponent : List Char → Option (Option (Bool × List Nat))
  | [] => some none
  | c :: rest =>
    let (down, rest) := takeSign rest
    match takeDigits rest with
    | (d :: ds, []) => if c.toLower == 'e' then some (some (down, d :: ds)) else none
    | _ => none

/-- The numeral that a text is. -/
def Numeral.read? (cs : List Char) : Option Numeral :=
  let (negative, cs) := takeSign cs
  let (whole, cs) := takeDigits cs
  let (fraction, cs) := match cs with
    | '.' :: rest => takeDigits rest
    | _ => ([], cs)
  if whole.isEmpty && fraction.isEmpty then none
  else (readExponent cs).map fun exponent => ⟨negative, whole, fraction, exponent⟩

end Decimal

/-- The double that a text writes: the one nearest to its numeral. -/
def Double.read? (s : String) : Option Double :=
  let (negative, rest) := Decimal.takeSign s.toList
  match String.ofList (rest.map Char.toLower) with
  | "inf" | "infinity" => some (.infinite negative)
  | "nan" => some .nan
  | _ => (Decimal.Numeral.read? s.toList).map (·.nearest)

end BulkRun
