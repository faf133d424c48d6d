import RecordMapper.Number.Binary64

/-!
# The shortest decimal of a floating-point number

The reals that round to a finite word form an interval around its value.  `shortest` finds in it a
decimal with as few digits as possible, and among those the one nearest to the value.
-/

namespace RecordMapper

/-- The number `digits · 10 ^ power`. -/
structure Decimal where
  digits : Nat
  power : Int
  deriving DecidableEq

/-- What becomes of a value halfway between two decimals. -/
inductive Halfway
  | up
  | even
  deriving DecidableEq

/--
A value and the ends of the interval that rounds to it, over one denominator.  The ends belong to
the interval when the significand is even.
-/
structure RoundingSpan where
  low : Nat
  value : Nat
  high : Nat
  den : Nat
  closed : Bool

namespace Binary64

/-- The interval that rounds to a word.  Below a power of two the words lie twice as close. -/
def span (x : Binary64) : RoundingSpan :=
  let below := if x.fractionField = 0 ∧ 1 < x.exponentField then 1 else 2
  let unit : Nat × Nat :=
    match x.exponent - 2 with
    | .ofNat up => (twoPow up, 1)
    | .negSucc down => (1, twoPow (down + 1))
  { low := (4 * x.significand - below) * unit.1
    value := 4 * x.significand * unit.1
    high := (4 * x.significand + 2) * unit.1
    den := unit.2
    closed := x.significand % 2 == 0 }

end Binary64

namespace RoundingSpan

/-- The span with all its numbers divided by `10 ^ power`. -/
def scale (s : RoundingSpan) : Int → RoundingSpan
  | .ofNat up => { s with den := s.den * tenPow up }
  | .negSucc down =>
      let factor := tenPow (down + 1)
      { s with low := s.low * factor, value := s.value * factor, high := s.high * factor }

def holds (s : RoundingSpan) (n : Nat) : Bool :=
  if s.closed then s.low ≤ n * s.den && n * s.den ≤ s.high
  else s.low < n * s.den && n * s.den < s.high

/-- Of the two whole numbers around the value, the nearer one that lies in the interval. -/
def nearestHeld (s : RoundingSpan) (halfway : Halfway) : Option Nat :=
  let floor := s.value / s.den
  let twice := 2 * (s.value % s.den)
  let upper : Bool :=
    s.den < twice || (twice == s.den && (halfway == .up || floor % 2 == 1))
  match s.holds floor, s.holds (floor + 1) with
  | true, true => some (if upper then floor + 1 else floor)
  | true, false => some floor
  | false, true => some (floor + 1)
  | false, false => none

/--
The `p` with `10 ^ (p - 1) ≤ value < 10 ^ p`.  No positive word is below `10 ^ (-324)`, so the
digits of the value times `10 ^ 324` can be counted.
-/
def decimalOrder (s : RoundingSpan) : Int :=
  (Nat.toDigits 10 (s.value * tenPow 324 / s.den)).length - 324

end RoundingSpan

namespace Decimal

/-- A decimal without the zero that a carry into a new place leaves at its end. -/
def dropZero (d : Decimal) : Decimal :=
  if d.digits % 10 = 0 then ⟨d.digits / 10, d.power + 1⟩ else d

end Decimal

namespace Binary64

/-- The decimal of at most `count` digits for a word, if one rounds to it. -/
def decimalOf? (x : Binary64) (halfway : Halfway) (count : Nat) : Option Decimal :=
  let power := x.span.decimalOrder - count
  ((x.span.scale power).nearestHeld halfway).map fun digits => (Decimal.mk digits power).dropZero

/-- The shortest decimal that rounds to a positive finite word; 17 digits always suffice. -/
def shortest (x : Binary64) (halfway : Halfway) : Decimal :=
  ((List.range 17).findSome? fun count => x.decimalOf? halfway (count + 1)).getD ⟨0, 0⟩

end Binary64

end RecordMapper
