import BulkRun.Text.Numeral
/-!
# Doubles as exact numbers

A finite double is `(-1)^negative * significand * 2^exponent`, held in lowest form so that equal
values of one sign have one representation.  Arithmetic is exact arithmetic on ratios of natural
numbers followed by one rounding: to the nearest double, a half to the even significand.
-/

namespace BulkRun

/-- A finite double.  Above the subnormal range the significand has 53 bits; zero and the subnormal
numbers have exponent `-1074`. -/
structure Binary64 where
  negative : Bool
  significand : Nat
  exponent : Int
deriving DecidableEq, Repr

namespace Binary64

/-- The least exponent of a double. -/
def minExponent : Int := -1074

/-- The greatest exponent of a double. -/
def maxExponent : Int := 971

/-- Zero of either sign. -/
def zero (negative : Bool) : Binary64 := ⟨negative, 0, minExponent⟩

/-- The quotient `num / den` rounded to the nearest number, a half to the even one. -/
def roundQuotient (num den : Nat) : Nat :=
  let q := num / den
  let r := num % den
  if 2 * r > den || (2 * r == den && q % 2 == 1) then q + 1 else q

/-- The nonnegative ratio `num / den` in units of `2 ^ e`, as a ratio again. -/
def inUnits (num den : Nat) (e : Int) : Nat × Nat :=
  match e with
  | .ofNat k => (num, den * twoTo k)
  | .negSucc k => (num * twoTo (k + 1), den)

/-- The exponent at which `num / den` has a significand of 53 bits, or the least exponent. -/
def exponentOf (num den : Nat) : Int :=
  let e : Int := (num.log2 : Int) - (den.log2 : Int) - 52
  let (a, b) := inUnits num den e
  let e := if a < b * twoTo 52 then e - 1 else e
  if e < minExponent then minExponent else e

/-- The double nearest to `num / den` with the given sign; `none` when it is too large. -/
def ofRatio? (negative : Bool) (num den : Nat) : Option Binary64 :=
  if num = 0 then some (zero negative)
  else
    let e := exponentOf num den
    let (a, b) := inUnits num den e
    let m := roundQuotient a b
    let (m, e) := if m = twoTo 53 then (twoTo 52, e + 1) else (m, e)
    if e > maxExponent then none else some ⟨negative, m, e⟩

/-- The magnitude of a double as a ratio. -/
def toRatio (x : Binary64) : Nat × Nat :=
  match x.exponent with
  | .ofNat k => (x.significand * twoTo k, 1)
  | .negSucc k => (x.significand, twoTo (k + 1))

/-- The double nearest to a natural number below `2 ^ 1023`. -/
def ofNat? (n : Nat) : Option Binary64 := ofRatio? false n 1

/-- The product of two magnitudes, rounded; `none` when it is too large. -/
def mul? (x y : Binary64) : Option Binary64 :=
  let (a, b) := x.toRatio
  let (c, d) := y.toRatio
  ofRatio? x.negative (a * c) (b * d)

/-- The quotient of two magnitudes, rounded. -/
def div? (x y : Binary64) : Option Binary64 :=
  let (a, b) := x.toRatio
  let (c, d) := y.toRatio
  ofRatio? x.negative (a * d) (b * c)

/-- Whether the value is zero, of either sign. -/
def isZero (x : Binary64) : Bool := x.significand == 0

end Binary64

end BulkRun
