import RecordMapper.Proofs.Number.Denoted

/-!
# Words of whole numbers

A whole number is rounded to 53 binary digits.  Its order, the place of its first binary digit, gives
the exponent of its word, so that the words of larger orders are larger; within one order the digits
decide.
-/

namespace RecordMapper.Binary64

/-! ## Quotients -/

variable {num den quotient : Nat}

theorem le_nearestEven (hden : 0 < den) (h : quotient * den ≤ num) :
    quotient ≤ nearestEven num den := by
  have hfloor : quotient ≤ num / den := (Nat.le_div_iff_mul_le hden).mpr h
  simp only [nearestEven]
  split <;> omega

theorem nearestEven_le (hden : 0 < den) (h : num ≤ quotient * den) :
    nearestEven num den ≤ quotient := by
  have hsplit := Nat.div_add_mod num den
  have hfloor : num / den ≤ quotient := Nat.div_le_of_le_mul (by rwa [Nat.mul_comm])
  simp only [nearestEven]
  split
  next hup =>
      -- A quotient without a remainder is not rounded up.
      have hne : num / den ≠ quotient := by
        intro heq
        rw [heq, Nat.mul_comm] at hsplit
        omega
      omega
  next => exact hfloor

theorem nearestEven_one (n : Nat) : nearestEven n 1 = n :=
  Nat.le_antisymm (nearestEven_le Nat.one_pos (by omega)) (le_nearestEven Nat.one_pos (by omega))

/-- A number is rounded to the whole numbers at most half a step away; at half a step to the even one. -/
theorem nearestEven_eq_iff {num den q : Nat} (hden : 0 < den) : nearestEven num den = q ↔
    if q % 2 = 0 then 2 * (q * den) ≤ 2 * num + den ∧ 2 * num ≤ 2 * (q * den) + den
    else 2 * (q * den) < 2 * num + den ∧ 2 * num < 2 * (q * den) + den := by
  have hsplit := Nat.div_add_mod num den
  have hrest := Nat.mod_lt num hden
  have hfloor : den * (num / den) = num / den * den := Nat.mul_comm _ _
  have hnext : (num / den + 1) * den = num / den * den + den := Nat.succ_mul _ _
  have hbelow : q < num / den → q * den + den ≤ num / den * den := fun h => by
    rw [← Nat.succ_mul]
    exact Nat.mul_le_mul_right den h
  have habove : num / den + 1 < q → num / den * den + den + den ≤ q * den := fun h => by
    rw [← Nat.succ_mul, ← Nat.succ_mul]
    exact Nat.mul_le_mul_right den h
  simp only [nearestEven]
  rcases lt_trichotomy q (num / den) with h | rfl | h
  · have := hbelow h
    split <;> split <;> omega
  · split <;> split <;> omega
  · rcases eq_or_lt_of_le (Nat.succ_le_of_lt h) with rfl | h
    · rw [hnext]
      split <;> split <;> omega
    · have := habove h
      split <;> split <;> omega
/-! ## Orders -/

variable {n : Nat}

theorem binaryOrder_one (hn : n ≠ 0) : binaryOrder n 1 = n.log2 := by
  have hself : twoPow n.log2 ≤ n := Nat.log2_self_le hn
  have hone : Nat.log2 1 = 0 := by decide
  simp only [binaryOrder, hone, Int.natCast_zero, Int.sub_zero, Nat.one_mul, decide_eq_true hself,
    if_true]

def wholeSignificand (n : Nat) : Nat :=
  if 52 ≤ n.log2 then nearestEven n (twoPow (n.log2 - 52)) else n * twoPow (52 - n.log2)

theorem roundedField_one (hn : n ≠ 0) :
    roundedField n 1 = min ((n.log2 + 1022) * twoPow 52 + wholeSignificand n) infinityField := by
  rw [roundedField, if_neg hn, binaryOrder_one hn, wholeSignificand]
  have hpower : max ((n.log2 : Int) - 52) (-1074) = n.log2 - 52 := by omega
  have hfield : ((n.log2 : Int) - 52 + 1074).toNat = n.log2 + 1022 := by omega
  simp only [hpower, hfield]
  by_cases h : 52 ≤ n.log2
  · obtain ⟨up, hup⟩ := Nat.exists_eq_add_of_le h
    have hcase : (n.log2 : Int) - 52 = .ofNat up := by
      rw [Int.ofNat_eq_natCast]
      omega
    rw [if_pos h, hcase]
    simp only [Nat.one_mul, hup, Nat.add_sub_cancel_left]
  · obtain ⟨down, hdown⟩ := Nat.exists_eq_add_of_lt (Nat.lt_of_not_le h)
    have hcase : (n.log2 : Int) - 52 = .negSucc down := by
      rw [Int.negSucc_eq]
      omega
    have hplaces : 52 - n.log2 = down + 1 := by omega
    rw [if_neg h, hcase, hplaces]
    simp only [nearestEven_one]

theorem wholeSignificand_bounds (hn : n ≠ 0) :
    twoPow 52 ≤ wholeSignificand n ∧ wholeSignificand n ≤ twoPow 53 := by
  have hlow : 2 ^ n.log2 ≤ n := Nat.log2_self_le hn
  have hhigh : n < 2 ^ (n.log2 + 1) := Nat.lt_log2_self
  unfold wholeSignificand twoPow
  change 2 ^ 52 ≤ (if _ then nearestEven n (2 ^ _) else n * 2 ^ _) ∧
    (if _ then nearestEven n (2 ^ _) else n * 2 ^ _) ≤ 2 ^ 53
  split
  next h =>
      refine ⟨le_nearestEven (by positivity) ?_, nearestEven_le (by positivity) ?_⟩
      · rw [← Nat.pow_add, Nat.add_sub_cancel' h]
        exact hlow
      · rw [← Nat.pow_add, show 53 + (n.log2 - 52) = n.log2 + 1 by omega]
        exact hhigh.le
  next h =>
      constructor
      · calc 2 ^ 52 = 2 ^ n.log2 * 2 ^ (52 - n.log2) := by rw [← Nat.pow_add]; congr 1; omega
          _ ≤ n * 2 ^ (52 - n.log2) := Nat.mul_le_mul_right _ hlow
      · calc n * 2 ^ (52 - n.log2) ≤ 2 ^ (n.log2 + 1) * 2 ^ (52 - n.log2) :=
              Nat.mul_le_mul_right _ hhigh.le
          _ = 2 ^ 53 := by rw [← Nat.pow_add]; congr 1; omega

/-- What has no more than `k` binary digits is rounded to at most the word of `2 ^ k`. -/
theorem roundedField_le_of_lt {k : Nat} (h : n < 2 ^ k) :
    roundedField n 1 ≤ (k + 1023) * twoPow 52 := by
  by_cases hn : n = 0
  · rw [hn]
    exact Nat.zero_le _
  · have horder : n.log2 < k := (Nat.log2_lt hn).mpr h
    have hsignificand := (wholeSignificand_bounds hn).2
    rw [roundedField_one hn]
    change min ((n.log2 + 1022) * 2 ^ 52 + _) _ ≤ (k + 1023) * 2 ^ 52
    change _ ≤ 2 ^ 53 at hsignificand
    omega

/-- What has more than `k` binary digits is rounded to at least the word of `2 ^ k`. -/
theorem le_roundedField {k : Nat} (hk : k ≤ 1023) (h : 2 ^ k ≤ n) :
    (k + 1023) * twoPow 52 ≤ roundedField n 1 := by
  have hn : n ≠ 0 := by
    rintro rfl
    exact absurd h (by simp)
  have horder : k ≤ n.log2 := (Nat.le_log2 hn).mpr h
  have hsignificand := (wholeSignificand_bounds hn).1
  rw [roundedField_one hn]
  refine Nat.le_min.mpr ⟨?_, Nat.mul_le_mul_right _ (by omega)⟩
  calc (k + 1023) * twoPow 52 ≤ (n.log2 + 1022 + 1) * twoPow 52 :=
        Nat.mul_le_mul_right _ (by omega)
    _ = (n.log2 + 1022) * twoPow 52 + twoPow 52 := Nat.succ_mul _ _
    _ ≤ _ := Nat.add_le_add_left hsignificand _

theorem roundedField_of_order {k : Nat} (hk : 52 ≤ k) (hfinite : k ≤ 1022) (hlow : 2 ^ k ≤ n)
    (hhigh : n < 2 ^ (k + 1)) :
    roundedField n 1 = (k + 1022) * twoPow 52 + nearestEven n (twoPow (k - 52)) := by
  have hn : n ≠ 0 := by
    rintro rfl
    exact absurd hlow (by simp)
  have horder : n.log2 = k := (Nat.log2_eq_iff hn).mpr ⟨hlow, hhigh⟩
  have hsignificand := (wholeSignificand_bounds hn).2
  rw [roundedField_one hn, horder]
  rw [wholeSignificand, horder, if_pos hk] at hsignificand ⊢
  refine Nat.min_eq_left ?_
  change (k + 1022) * 2 ^ 52 + _ ≤ 2047 * 2 ^ 52
  change _ ≤ 2 ^ 53 at hsignificand
  omega

theorem roundedField_le (num den : Nat) : roundedField num den ≤ infinityField := by
  simp only [roundedField]
  split
  · exact Nat.zero_le _
  · exact Nat.min_le_right _ _

/-! ## Words -/

theorem toNat_bits_ofInt (n : Int) :
    (ofInt n).bits.toNat = (if n < 0 then twoPow 63 else 0) + roundedField n.natAbs 1 := by
  have hfield : roundedField n.natAbs 1 ≤ 2047 * 2 ^ 52 := roundedField_le _ _
  rw [ofInt, rounded, ofField]
  simp only [decide_eq_true_eq]
  refine UInt64.toNat_ofNat_of_lt' ?_
  split
  · change 2 ^ 63 + _ < 2 ^ 64
    omega
  · change 0 + _ < 2 ^ 64
    omega

theorem ofInt_eq_iff {m n : Int} :
    ofInt m = ofInt n ↔ (m < 0 ↔ n < 0) ∧ roundedField m.natAbs 1 = roundedField n.natAbs 1 := by
  have hm : roundedField m.natAbs 1 ≤ 2047 * 2 ^ 52 := roundedField_le _ _
  have hn : roundedField n.natAbs 1 ≤ 2047 * 2 ^ 52 := roundedField_le _ _
  have hbits : ofInt m = ofInt n ↔ (ofInt m).bits.toNat = (ofInt n).bits.toNat := by
    rw [UInt64.toNat_inj, Binary64.mk.injEq]
  rw [hbits, toNat_bits_ofInt, toNat_bits_ofInt]
  change (if m < 0 then 2 ^ 63 else 0) + _ = (if n < 0 then 2 ^ 63 else 0) + _ ↔ _
  split <;> split <;> omega

theorem fields_of_bits {x : Binary64} {e f : Nat} (h : x.bits.toNat = e * twoPow 52 + f)
    (he : e < 2048) (hf : f < twoPow 52) :
    x.isNegative = false ∧ x.exponentField = e ∧ x.fractionField = f := by
  change _ = e * 2 ^ 52 + f at h
  change f < 2 ^ 52 at hf
  refine ⟨?_, ?_, ?_⟩
  · rw [isNegative, decide_eq_false_iff_not, h]
    change ¬ 2 ^ 63 ≤ _
    omega
  · rw [exponentField, h]
    change _ / 2 ^ 52 % 2 ^ 11 = e
    omega
  · rw [fractionField, h]
    change _ % 2 ^ 52 = f
    omega

end RecordMapper.Binary64
