import BulkRun.Decimal.Binary64
/-!
# The fewest digits that read back

Every double has an interval of numbers that round to it.  Its shortest decimal is the one with the
fewest digits inside that interval, and among those of that length the one nearest to the double.
-/

namespace BulkRun.Decimal

/-- A positive decimal: the digits of `digits`, read as a number, times `10 ^ scale`. -/
structure Shortest where
  digits : Nat
  scale : Int
deriving DecidableEq, Repr

/-- The magnitude of a nonzero double with the interval that rounds to it, all over `den`: the
bounds belong to the interval when `closed` is set. -/
structure Interval where
  low : Nat
  value : Nat
  high : Nat
  den : Nat
  closed : Bool

/-- The numbers that round to the magnitude of `x`.  Below a power of two the neighbour is twice as
close, except at the least exponent. -/
def Interval.of (x : Binary64) : Interval :=
  let m := x.significand
  let lower := if m = twoTo 52 ∧ x.exponent > Binary64.minExponent then 4 * m - 1 else 4 * m - 2
  let closed := m % 2 == 0
  match x.exponent - 2 with
  | .ofNat k => ⟨lower * twoTo k, 4 * m * twoTo k, (4 * m + 2) * twoTo k, 1, closed⟩
  | .negSucc k => ⟨lower, 4 * m, 4 * m + 2, twoTo (k + 1), closed⟩

/-- Whether the number `d * 10 ^ scale` lies in the interval. -/
def Interval.holds (i : Interval) (d : Nat) (scale : Int) : Bool :=
  let (n, low, high) := match scale with
    | .ofNat k => (d * tenTo k * i.den, i.low, i.high)
    | .negSucc k => (d * i.den, i.low * tenTo (k + 1), i.high * tenTo (k + 1))
  if i.closed then low ≤ n && n ≤ high else low < n && n < high

/-- The magnitude divided by `10 ^ scale`, as a ratio. -/
def Interval.inUnits (i : Interval) (scale : Int) : Nat × Nat :=
  match scale with
  | .ofNat k => (i.value, i.den * tenTo k)
  | .negSucc k => (i.value * tenTo (k + 1), i.den)

/-- The neighbour of the magnitude on the grid `10 ^ scale` that lies in the interval, the nearer
one when both do. -/
def Interval.gridPoint? (i : Interval) (scale : Int) : Option Nat :=
  let (a, b) := i.inUnits scale
  let below := a / b
  let inBelow := below > 0 && i.holds below scale
  let inAbove := i.holds (below + 1) scale
  if inBelow && inAbove then some (Binary64.roundQuotient a b)
  else if inBelow then some below
  else if inAbove then some (below + 1)
  else none

/-- Tries ever finer grids from `scale` downwards. -/
def Interval.search (i : Interval) : Nat → Int → Option Shortest
  | 0, _ => none
  | fuel + 1, scale =>
    match i.gridPoint? scale with
    | some d => some ⟨d, scale⟩
    | none => i.search fuel (scale - 1)

/-- Removes zeros from the end of the digits. -/
def Shortest.trim : Nat → Shortest → Shortest
  | 0, s => s
  | fuel + 1, s =>
    if s.digits % 10 = 0 ∧ s.digits ≠ 0 then trim fuel ⟨s.digits / 10, s.scale + 1⟩ else s

/-- An upper estimate of the decimal exponent of the magnitude: no grid coarser than this one has a
point in the interval. -/
def startScale (x : Binary64) : Int :=
  let bits : Int := (x.significand.log2 : Int) + x.exponent
  -- 1233 / 4096 is a little more than the decimal logarithm of two
  bits * 1233 / 4096 + 2

/-- The shortest decimal that reads back as the magnitude of `x`; `none` for zero. -/
def shortest? (x : Binary64) : Option Shortest :=
  if x.isZero then none
  else ((Interval.of x).search 400 (startScale x)).map (Shortest.trim 20)

end BulkRun.Decimal
