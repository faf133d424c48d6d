import RecordMapper.Proofs.Number.Denoted

/-!
# One word for one number

No number other than zero is denoted by two words.  A word whose exponent is not the least one has 53
binary digits, so that of two words of one size neither has the larger exponent.
-/

namespace RecordMapper.Binary64

variable {x y : Binary64}

/-! ## The parts of a word -/

theorem eq_of_parts (hsign : x.isNegative = y.isNegative)
    (hexponent : x.exponentField = y.exponentField) (hfraction : x.fractionField = y.fractionField) :
    x = y := by
  obtain ⟨a⟩ := x
  obtain ⟨b⟩ := y
  have ha : a.toNat < 2 ^ 64 := a.toNat_lt
  have hb : b.toNat < 2 ^ 64 := b.toNat_lt
  rw [isNegative, isNegative, decide_eq_decide] at hsign
  change 2 ^ 63 ≤ a.toNat ↔ 2 ^ 63 ≤ b.toNat at hsign
  change a.toNat / 2 ^ 52 % 2 ^ 11 = b.toNat / 2 ^ 52 % 2 ^ 11 at hexponent
  change a.toNat % 2 ^ 52 = b.toNat % 2 ^ 52 at hfraction
  rw [mk.injEq, ← UInt64.toNat_inj]
  omega

theorem fractionField_lt (x : Binary64) : x.fractionField < 2 ^ 52 :=
  Nat.mod_lt _ (twoPow_pos 52)

theorem significand_eq (x : Binary64) :
    x.significand = if x.exponentField = 0 then x.fractionField else 2 ^ 52 + x.fractionField :=
  rfl

theorem significand_lt (x : Binary64) : x.significand < 2 ^ 53 := by
  have hfraction := x.fractionField_lt
  rw [significand_eq]
  split <;> omega

/-! ## Sizes -/

theorem exponent_le_of_magnitude_eq (h : x.magnitude = y.magnitude) : y.exponent ≤ x.exponent := by
  by_contra hlt
  obtain ⟨k, hk⟩ := Int.lt.dest (Int.not_le.mp hlt)
  have hnormal : 2 ^ 52 ≤ y.significand := by
    rw [significand_eq, if_neg]
    · exact Nat.le_add_right _ _
    · -- The exponent of the other word would be less than the least one.
      intro hzero
      rw [exponent, exponent, hzero] at hlt
      omega
  have hscaled : x.significand = y.significand * 2 ^ (k + 1) := by
    have hpos : (0 : ℚ) < 2 ^ x.exponent := by positivity
    rw [magnitude, magnitude, ← hk, zpow_add₀ two_ne_zero, zpow_natCast, mul_comm (2 ^ x.exponent),
      ← mul_assoc] at h
    exact_mod_cast mul_right_cancel₀ hpos.ne' h
  have hdouble : y.significand * 2 ≤ x.significand := by
    rw [hscaled]
    exact Nat.mul_le_mul_left _ (Nat.le_self_pow k.succ_ne_zero 2)
  have hshort := x.significand_lt
  omega

theorem fields_of_magnitude_eq (h : x.magnitude = y.magnitude) :
    x.exponentField = y.exponentField ∧ x.fractionField = y.fractionField := by
  have hexponent : x.exponent = y.exponent :=
    Int.le_antisymm (exponent_le_of_magnitude_eq h.symm) (exponent_le_of_magnitude_eq h)
  have hsignificand : x.significand = y.significand := by
    rw [magnitude, magnitude, hexponent] at h
    exact_mod_cast mul_right_cancel₀ (zpow_ne_zero _ two_ne_zero) h
  have hx := x.fractionField_lt
  have hy := y.fractionField_lt
  rw [exponent, exponent] at hexponent
  rw [significand_eq, significand_eq] at hsignificand
  split at hsignificand <;> split at hsignificand <;> omega

/-! ## Numbers -/

theorem abs_value (x : Binary64) : |x.value| = x.magnitude := by
  rw [value, signFactor]
  split
  · rw [neg_one_mul, abs_neg, abs_of_nonneg x.magnitude_nonneg]
  · rw [one_mul, abs_of_nonneg x.magnitude_nonneg]

theorem isNegative_iff_of_value_ne_zero (h : x.value ≠ 0) : x.isNegative = true ↔ x.value < 0 := by
  have hnonneg := x.magnitude_nonneg
  rw [value, signFactor] at h ⊢
  split at h
  next hnegative =>
      rw [if_pos hnegative]
      refine iff_of_true hnegative (lt_of_le_of_ne ?_ h)
      rw [neg_one_mul]
      exact neg_nonpos.mpr hnonneg
  next hpositive =>
      rw [if_neg hpositive, one_mul]
      exact iff_of_false hpositive (not_lt.mpr hnonneg)

theorem value_eq_iff : x.value = y.value ↔ x = y ∨ x.value = 0 ∧ y.value = 0 := by
  constructor
  · intro h
    by_cases hzero : x.value = 0
    · exact .inr ⟨hzero, h ▸ hzero⟩
    · have hsign : x.isNegative = y.isNegative := by
        rw [Bool.eq_iff_iff, isNegative_iff_of_value_ne_zero hzero,
          isNegative_iff_of_value_ne_zero (h ▸ hzero), h]
      have hmagnitude : x.magnitude = y.magnitude := by rw [← abs_value, h, abs_value]
      obtain ⟨hexponent, hfraction⟩ := fields_of_magnitude_eq hmagnitude
      exact .inl (eq_of_parts hsign hexponent hfraction)
  · rintro (rfl | ⟨hx, hy⟩)
    · rfl
    · rw [hx, hy]

end RecordMapper.Binary64
