import Mathlib.Algebra.Order.Field.Power
import Mathlib.Algebra.Order.Field.Rat
import Mathlib.Tactic.Positivity
import RecordMapper.Proofs.Number.Reading

/-!
# The numbers that words and texts denote

A finite word denotes `± significand · 2 ^ exponent` and a decimal text `± digits · 10 ^ power`, as
exact rational numbers.  A word is whole in the sense of `Binary64.whole?` if and only if its number
is, and a text of a whole number denotes this number.
-/

namespace RecordMapper

def signFactor (negative : Bool) : ℚ :=
  if negative then -1 else 1

theorem cast_signed (negative : Bool) (n : Nat) :
    (((if negative then -(n : Int) else n : Int)) : ℚ) = signFactor negative * n := by
  cases negative with
  | false => rw [signFactor, if_neg Bool.false_ne_true, if_neg Bool.false_ne_true, one_mul,
      Int.cast_natCast]
  | true => rw [signFactor, if_pos rfl, if_pos rfl, neg_one_mul, Int.cast_neg, Int.cast_natCast]

/-! ## Words -/

namespace Binary64

variable {x : Binary64}

def magnitude (x : Binary64) : ℚ :=
  x.significand * 2 ^ x.exponent

/-- The number that a finite word denotes. -/
def value (x : Binary64) : ℚ :=
  signFactor x.isNegative * x.magnitude

theorem magnitude_nonneg (x : Binary64) : 0 ≤ x.magnitude := by
  rw [magnitude]
  positivity

theorem cast_twoPow (k : Nat) : (twoPow k : ℚ) = 2 ^ k :=
  Nat.cast_pow 2 k

theorem magnitude_of_exponent_nonneg {up : Nat} (h : x.exponent = .ofNat up) :
    x.magnitude = (x.significand * twoPow up : Nat) := by
  rw [magnitude, h, Int.ofNat_eq_natCast, zpow_natCast, Nat.cast_mul, cast_twoPow]

theorem magnitude_mul_unit {down : Nat} (h : x.exponent = .negSucc down) :
    x.magnitude * twoPow (down + 1) = x.significand := by
  rw [magnitude, h, cast_twoPow, zpow_negSucc, mul_assoc, inv_mul_cancel₀ (by positivity), mul_one]

/-- The size is whole if and only if no digit of the significand stands behind the point. -/
theorem wholeMagnitude?_eq_some_iff (hfinite : x.isFinite = true) (n : Nat) :
    x.wholeMagnitude? = some n ↔ x.magnitude = n := by
  rw [wholeMagnitude?, if_pos hfinite]
  cases hexponent : x.exponent with
  | ofNat up =>
      rw [magnitude_of_exponent_nonneg hexponent, Option.some.injEq, Nat.cast_inj]
  | negSucc down =>
      have hscaled := magnitude_mul_unit hexponent
      have hpos : 0 < twoPow (down + 1) := twoPow_pos _
      have hiff : x.magnitude = n ↔ x.significand = n * twoPow (down + 1) := by
        rw [← Nat.cast_inj (R := ℚ), ← hscaled, Nat.cast_mul,
          mul_left_inj' (Nat.cast_ne_zero.mpr hpos.ne')]
      simp only []
      rw [hiff]
      split
      next hdivides =>
          rw [Option.some.injEq, Nat.div_eq_iff_eq_mul_left hpos (Nat.dvd_of_mod_eq_zero hdivides)]
      next hfraction =>
          refine iff_of_false (by simp) fun h => hfraction ?_
          rw [h, Nat.mul_mod_left]

theorem whole?_eq_map (x : Binary64) :
    x.whole? = x.wholeMagnitude?.map fun n : Nat => if x.isNegative then -(n : Int) else n := by
  rw [whole?]
  cases x.wholeMagnitude? with
  | none => rfl
  | some n => rfl

theorem whole?_eq_some_iff (hfinite : x.isFinite = true) (n : Int) :
    x.whole? = some n ↔ x.value = n := by
  have hmagnitude := wholeMagnitude?_eq_some_iff hfinite
  rw [whole?_eq_map, Option.map_eq_some_iff, value]
  constructor
  · rintro ⟨m, hm, rfl⟩
    rw [(hmagnitude m).mp hm, cast_signed]
  · -- The size is not negative, so that it is the size of the whole number.
    intro h
    have hnonneg := x.magnitude_nonneg
    rw [signFactor] at h
    split at h
    next hnegative =>
        rw [neg_one_mul] at h
        have hnonpos : (n : ℚ) ≤ 0 := h ▸ neg_nonpos.mpr hnonneg
        obtain ⟨m, rfl⟩ := Int.exists_eq_neg_ofNat (Int.cast_nonpos.mp hnonpos)
        rw [Int.cast_neg, neg_inj, Int.cast_natCast] at h
        exact ⟨m, (hmagnitude m).mpr h, if_pos hnegative⟩
    next hnegative =>
        rw [one_mul] at h
        obtain ⟨m, rfl⟩ := Int.eq_ofNat_of_zero_le (Int.cast_nonneg_iff.mp (h ▸ hnonneg))
        exact ⟨m, (hmagnitude m).mpr h, if_neg hnegative⟩

end Binary64

/-! ## Texts -/

def decimalParts? (text : List Char) : Option (List Char × List Char × Int) := do
  let before := text.takeWhile Char.isDigit
  let (after?, rest) := takeFraction (text.dropWhile Char.isDigit)
  let after := after?.getD []
  if before.isEmpty && after.isEmpty then none
  else
    let power ← readPower rest
    some (before, after, power)

def readNumber (text : List Char) : Option ℚ :=
  let (negative, rest) := takeSign text
  (decimalParts? rest).map fun (before, after, power) =>
    signFactor negative * (digitsValue (before ++ after) * 10 ^ (power - after.length))

theorem decimalParts?_of_digits {digits : List Char} (hne : digits.isEmpty = false)
    (h : digits.all Char.isDigit = true) : decimalParts? digits = some (digits, [], 0) := by
  have htake : digits.takeWhile Char.isDigit = digits :=
    List.takeWhile_eq_self_iff.mpr (List.all_eq_true.mp h)
  have hdrop : digits.dropWhile Char.isDigit = [] :=
    List.dropWhile_eq_nil_iff.mpr (List.all_eq_true.mp h)
  simp only [decimalParts?, htake, hdrop, takeFraction, hne]
  rfl

theorem readNumber_of_readInt {text : List Char} {n : Int} (h : readInt text = some n) :
    readNumber text = some (n : ℚ) := by
  rw [readInt] at h
  rw [readNumber]
  generalize takeSign text = signed at h ⊢
  obtain ⟨negative, digits⟩ := signed
  simp only [] at h ⊢
  split at h
  next hdigits =>
      rw [Bool.and_eq_true, Bool.not_eq_true'] at hdigits
      cases h
      rw [decimalParts?_of_digits hdigits.1 hdigits.2, Option.map_some, cast_signed,
        List.append_nil, List.length_nil, Int.natCast_zero, sub_zero, zpow_zero, mul_one]
  next => cases h

end RecordMapper
