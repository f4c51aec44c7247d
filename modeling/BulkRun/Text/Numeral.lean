import BulkRun.Powers
/-!
# Numerals

Reading and writing numerals of ASCII digits.
-/

namespace BulkRun.Text

/-- The value of an ASCII digit. -/
def digit? (c : Char) : Option Nat :=
  if '0' ≤ c ∧ c ≤ '9' then some (c.toNat - 48) else none

/-- The value of a hexadecimal digit in either case. -/
def hexDigit? (c : Char) : Option Nat :=
  if '0' ≤ c ∧ c ≤ '9' then some (c.toNat - 48)
  else if 'a' ≤ c ∧ c ≤ 'f' then some (c.toNat - 87)
  else if 'A' ≤ c ∧ c ≤ 'F' then some (c.toNat - 55)
  else none

/-- The digit for a number below sixteen, in lower case. -/
def hexDigit (n : Nat) : Char :=
  if n < 10 then Char.ofNat (48 + n) else Char.ofNat (87 + n)

/-- Appends digits of base `base` to `value`; refuses any other character. -/
def appendDigits (base : Nat) (value? : Char → Option Nat) : Nat → List Char → Option Nat
  | value, [] => some value
  | value, c :: rest =>
    match value? c with
    | none => none
    | some d => appendDigits base value? (value * base + d) rest

/-- The number written by one or more digits of base `base`. -/
def readDigits (base : Nat) (value? : Char → Option Nat) : List Char → Option Nat
  | [] => none
  | cs => appendDigits base value? 0 cs

/-- An unsigned 64-bit word: an optional plus sign, then digits, the value below `2 ^ 64`. -/
def readWord (s : String) : Option Nat :=
  let digits := match s.toList with
    | '+' :: rest => rest
    | cs => cs
  match readDigits 10 digit? digits with
  | none => none
  | some n => if n ≤ wordMax then some n else none

/-- A signed 64-bit word: an optional sign, then digits, the value in `-2 ^ 63 … 2 ^ 63 - 1`. -/
def readSignedWord (s : String) : Option Int :=
  match s.toList with
  | '-' :: rest =>
    match readDigits 10 digit? rest with
    | none => none
    | some n => if n ≤ signedCount then some (-(n : Int)) else none
  | cs =>
    let digits := match cs with
      | '+' :: rest => rest
      | other => other
    match readDigits 10 digit? digits with
    | none => none
    | some n => if n < signedCount then some (n : Int) else none

/-- The decimal digits of a number, most significant first, before the digits in `tail`.  The first
argument bounds the number of digits. -/
def decimalDigits : Nat → Nat → List Char → List Char
  | 0, _, tail => tail
  | fuel + 1, n, tail =>
    let tail := Char.ofNat (48 + n % 10) :: tail
    if n < 10 then tail else decimalDigits fuel (n / 10) tail

/-- A number in decimal, without leading zeros. -/
def ofNat (n : Nat) : String :=
  String.ofList (decimalDigits (n + 1) n [])

/-- A number in decimal, padded with zeros on the left to at least `width` digits. -/
def padded (width n : Nat) : String :=
  let digits := decimalDigits (n + 1) n []
  String.ofList (List.replicate (width - digits.length) '0' ++ digits)

/-- An integer in decimal, with a minus sign when it is negative. -/
def ofInt (i : Int) : String :=
  if i < 0 then "-" ++ ofNat i.natAbs else ofNat i.natAbs

end BulkRun.Text
