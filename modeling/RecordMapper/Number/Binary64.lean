import RecordMapper.Number.Power

/-!
# Binary floating-point numbers

A 64-bit word read as a sign, an exponent and a fraction.  A finite word stands for the exact
number `± significand · 2 ^ exponent`; `rounded` is the way back, from a quotient of natural
numbers to the nearest word.
-/

namespace RecordMapper

/-- A floating-point number, known by its 64 bits. -/
structure Binary64 where
  bits : UInt64
  deriving DecidableEq, Inhabited

namespace Binary64

def isNegative (x : Binary64) : Bool :=
  twoPow 63 ≤ x.bits.toNat

def exponentField (x : Binary64) : Nat :=
  x.bits.toNat / twoPow 52 % twoPow 11

def fractionField (x : Binary64) : Nat :=
  x.bits.toNat % twoPow 52

def isFinite (x : Binary64) : Bool :=
  x.exponentField != 2047

def isNaN (x : Binary64) : Bool :=
  x.exponentField == 2047 && x.fractionField != 0

theorem isNaN_of_isFinite {x : Binary64} (h : x.isFinite = true) : x.isNaN = false := by
  simp only [isFinite, bne_iff_ne] at h
  simp [isNaN, h]

/-- The whole number that the fraction and its hidden bit stand for. -/
def significand (x : Binary64) : Nat :=
  if x.exponentField = 0 then x.fractionField else twoPow 52 + x.fractionField

/-- The power of two that belongs to the significand. -/
def exponent (x : Binary64) : Int :=
  (max x.exponentField 1 : Nat) - 1075

/-- The size of the whole number that a finite word stands for, if it is whole. -/
def wholeMagnitude? (x : Binary64) : Option Nat :=
  if x.isFinite then
    match x.exponent with
    | .ofNat up => some (x.significand * twoPow up)
    | .negSucc down =>
        let unit := twoPow (down + 1)
        if x.significand % unit = 0 then some (x.significand / unit) else none
  else none

def whole? (x : Binary64) : Option Int :=
  x.wholeMagnitude?.map fun n => if x.isNegative then -(n : Int) else n

/-- Equality of numbers: the two zeros are equal, and a word that is no number equals nothing. -/
def equals (x y : Binary64) : Bool :=
  !x.isNaN && !y.isNaN &&
    (x.bits == y.bits || (x.bits.toNat % twoPow 63 == 0 && y.bits.toNat % twoPow 63 == 0))

/-! ## Rounding -/

/-- The whole number nearest to a quotient; a half goes to the even neighbour. -/
def nearestEven (num den : Nat) : Nat :=
  let quotient := num / den
  let twice := 2 * (num % den)
  if den < twice ∨ (twice = den ∧ quotient % 2 = 1) then quotient + 1 else quotient

/-- The largest `k` with `2 ^ k ≤ num / den`. -/
def binaryOrder (num den : Nat) : Int :=
  let guess : Int := (num.log2 : Int) - den.log2
  let fits : Bool :=
    match guess with
    | .ofNat up => den * twoPow up ≤ num
    | .negSucc down => den ≤ num * twoPow (down + 1)
  if fits then guess else guess - 1

/-- The word of infinity, without its sign. -/
def infinityField : Nat :=
  2047 * twoPow 52

/--
The bits, without the sign, of the word nearest to a quotient.  A significand that reaches `2 ^ 53`
carries into the exponent by itself, and what would pass the largest exponent is infinite.
-/
def roundedField (num den : Nat) : Nat :=
  if num = 0 then 0
  else
    let power : Int := max (binaryOrder num den - 52) (-1074)
    let significand :=
      match power with
      | .ofNat up => nearestEven num (den * twoPow up)
      | .negSucc down => nearestEven (num * twoPow (down + 1)) den
    min ((power + 1074).toNat * twoPow 52 + significand) infinityField

/-- A sign and the other 63 bits as one word. -/
def ofField (negative : Bool) (field : Nat) : Binary64 :=
  ⟨UInt64.ofNat ((if negative then twoPow 63 else 0) + field)⟩

/-- The word nearest to `± num / den`. -/
def rounded (negative : Bool) (num den : Nat) : Binary64 :=
  ofField negative (roundedField num den)

def ofInt (n : Int) : Binary64 :=
  rounded (n < 0) n.natAbs 1

/-- The word nearest to `± digits · 10 ^ power`. -/
def ofScientific (negative : Bool) (digits : Nat) (power : Int) : Binary64 :=
  let order : Int := (Nat.toDigits 10 digits).length + power
  if digits = 0 ∨ order < -326 then ofField negative 0
  else if 310 < order then ofField negative infinityField
  else
    match power with
    | .ofNat up => rounded negative (digits * tenPow up) 1
    | .negSucc down => rounded negative digits (tenPow (down + 1))

end Binary64

end RecordMapper
