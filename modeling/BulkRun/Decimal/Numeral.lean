import BulkRun.Decimal.Shortest
/-!
# Decimal numerals and doubles

A numeral is a sign, the digits before and after a point, and perhaps an exponent.  It is read in
one of two ways: exactly, where the double nearest to the written number results, or quickly,
through a 64-bit significand and one multiplication or division by a power of ten, which can be off
in the last bit.  Doubles are written from their shortest decimal.
-/

namespace BulkRun

/-- A double, the values that are no number included. -/
inductive Double where
  | finite (x : Binary64)
  | infinite (negative : Bool)
  | nan
deriving DecidableEq, Repr

namespace Decimal

/-- A written number: digit values, most significant first. -/
structure Numeral where
  negative : Bool
  whole : List Nat
  fraction : List Nat
  /-- The exponent, when there is one: whether it is negative, and its digits. -/
  exponent : Option (Bool × List Nat)
deriving DecidableEq, Repr

/-- The number written by digits, most significant first. -/
def ofDigits (digits : List Nat) : Nat :=
  digits.foldl (fun n d => n * 10 + d) 0

/-- A written number without point or exponent. -/
def Numeral.isWhole (n : Numeral) : Bool :=
  n.fraction.isEmpty && n.exponent.isNone

/-- The exponent as a number; absent means zero. -/
def Numeral.power (n : Numeral) : Int :=
  match n.exponent with
  | none => 0
  | some (true, ds) => -(ofDigits ds : Int)
  | some (false, ds) => (ofDigits ds : Int)

/-- The double nearest to the written number; a number beyond the largest double is infinite. -/
def Numeral.nearest (n : Numeral) : Double :=
  let digits := ofDigits (n.whole ++ n.fraction)
  let scale := n.power - (n.fraction.length : Int)
  -- the number lies below 10 ^ (count + scale), and not below 10 ^ scale
  let count : Int := ((n.whole ++ n.fraction).length : Int)
  if digits = 0 then .finite (.zero n.negative)
  else if scale > 400 then .infinite n.negative
  else if count + scale < -400 then .finite (.zero n.negative)
  else
    let x := match scale with
      | .ofNat k => Binary64.ofRatio? n.negative (digits * tenTo k) 1
      | .negSucc k => Binary64.ofRatio? n.negative digits (tenTo (k + 1))
    match x with
    | some x => .finite x
    | none => .infinite n.negative

/-! ## The quick reading -/

/-- Collects digits into a 64-bit significand for as long as they fit; returns it with the digits
left over. -/
def accumulate : Nat → List Nat → Nat × List Nat
  | n, [] => (n, [])
  | n, d :: rest => if n * 10 + d ≤ wordMax then accumulate (n * 10 + d) rest else (n, d :: rest)

/-- The greatest exponent that is read digit by digit. -/
def exponentMax : Nat := twoTo 31 - 1

/-- Multiplies a double by a power of ten: one rounding for exponents up to 308, and one more for
each further factor `10 ^ -308`; `none` when the result is too large. -/
def scaleByTen : Nat → Binary64 → Int → Option Binary64
  | 0, x, _ => some (.zero x.negative)
  | fuel + 1, x, e =>
    if e.natAbs ≤ 308 then
      match Binary64.ofNat? (tenTo e.natAbs) with
      | none => none
      | some p => if e ≥ 0 then x.mul? p else x.div? p
    else if x.isZero then some x
    else if e > 0 then none
    else
      match (Binary64.ofNat? (tenTo 308)).bind x.div? with
      | none => none
      | some x => scaleByTen fuel x (e + 308)

/-- The double of a numeral read through a 64-bit significand.  Digits that no longer fit are
dropped; before the point each still counts as a factor of ten.  `none` when the number is too
large. -/
def Numeral.quick? (n : Numeral) : Option Binary64 :=
  let (m, restWhole) := accumulate 0 n.whole
  let (m, restFraction) := accumulate m n.fraction
  let start : Int :=
    (restWhole.length : Int) - ((n.fraction.length - restFraction.length : Nat) : Int)
  let signed (x : Option Binary64) := x.map fun x => { x with negative := n.negative }
  let scaled (e : Int) := signed ((Binary64.ofNat? m).bind fun x => scaleByTen 8 x e)
  match n.exponent with
  | none => scaled start
  | some (down, ds) =>
    if ofDigits ds ≤ exponentMax then scaled (start + n.power)
    else if m ≠ 0 ∧ !down then none
    else some (.zero n.negative)

/-! ## Writing -/

/-- How a shortest decimal is laid out: the number of digits before the point up to which whole
numbers are written out, the number of zeros after the point up to which fractions are, and what
follows a whole number. -/
structure Layout where
  maxWhole : Option Nat
  maxZeros : Option Nat
  wholeTail : String

/-- The layout of a number with no exponent at all. -/
def Layout.positional : Layout := ⟨none, none, ""⟩

/-- The layout of a number that always has a point. -/
def Layout.pointed : Layout := ⟨none, none, ".0"⟩

/-- The layout of a number in a JSON text. -/
def Layout.json : Layout := ⟨some 16, some 4, ".0"⟩

/-- Whether a bound, when there is one, admits a count. -/
def within (bound : Option Nat) (n : Nat) : Bool :=
  match bound with
  | none => true
  | some b => n ≤ b

/-- A positive decimal in a layout. -/
def Shortest.write (layout : Layout) (s : Shortest) : String :=
  let digits := (Text.ofNat s.digits).toList
  -- the position of the point, counted from the first digit
  let point : Int := (digits.length : Int) + s.scale
  match s.scale, point with
  | .ofNat k, _ =>
    if within layout.maxWhole (digits.length + k) then
      String.ofList (digits ++ List.replicate k '0') ++ layout.wholeTail
    else scientific digits point
  | .negSucc _, .ofNat (p + 1) =>
    if within layout.maxWhole (p + 1) then
      String.ofList (digits.take (p + 1)) ++ "." ++ String.ofList (digits.drop (p + 1))
    else scientific digits point
  | .negSucc _, _ =>
    if within layout.maxZeros point.natAbs then
      "0." ++ String.ofList (List.replicate point.natAbs '0' ++ digits)
    else scientific digits point
where
  /-- One digit, the others behind a point, and an exponent. -/
  scientific (digits : List Char) (point : Int) : String :=
    let mantissa := match digits with
      | d :: e :: rest => String.ofList (d :: '.' :: e :: rest)
      | ds => String.ofList ds
    mantissa ++ "e" ++ Text.ofInt (point - 1)

end Decimal

/-- A finite double in a layout; zero is a whole number. -/
def Binary64.write (layout : Decimal.Layout) (x : Binary64) : String :=
  let magnitude := match Decimal.shortest? x with
    | none => "0" ++ layout.wholeTail
    | some s => s.write layout
  if x.negative then "-" ++ magnitude else magnitude

/-- A double without exponent, in the layout that it has if it is finite. -/
def Double.textIn (layout : Decimal.Layout) : Double → String
  | .finite x => x.write layout
  | .infinite false => "inf"
  | .infinite true => "-inf"
  | .nan => "NaN"

/-- A double as in running text. -/
def Double.text : Double → String := Double.textIn .positional

/-- A double as in running text, with a point also in a whole number. -/
def Double.pointedText : Double → String := Double.textIn .pointed

/-- A double rounded to the nearest integer, a half away from zero, and cut to the range of an
unsigned 64-bit word; what is no number counts as zero. -/
def Double.toWord : Double → Nat
  | .nan => 0
  | .infinite negative => if negative then 0 else wordMax
  | .finite x =>
    if x.negative then 0
    else
      let (a, b) := x.toRatio
      min ((2 * a + b) / (2 * b)) wordMax

end BulkRun
