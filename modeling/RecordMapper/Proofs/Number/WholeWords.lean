import RecordMapper.Proofs.Number.Shortest

/-!
# Words of whole numbers beyond 63 bits

The words of the numbers from `2 ^ 63` up to `2 ^ 64` lie 2048 apart, and the span of such a word holds
exactly the whole numbers that are rounded to it.  The text of the word is the shortest of these numbers.
-/

namespace RecordMapper.Binary64

variable {x : Binary64} {n m : Nat}

theorem span_of_fields {e f : Nat} (hexponent : x.exponentField = e) (hfraction : x.fractionField = f)
    (he : 1077 ≤ e) :
    x.span =
      { low := (4 * (twoPow 52 + f) - if f = 0 then 1 else 2) * twoPow (e - 1077)
        value := 4 * (twoPow 52 + f) * twoPow (e - 1077)
        high := (4 * (twoPow 52 + f) + 2) * twoPow (e - 1077)
        den := 1
        closed := (twoPow 52 + f) % 2 == 0 } := by
  have hsignificand : x.significand = twoPow 52 + f := by
    rw [significand, if_neg (by omega), hfraction]
  have hpower : x.exponent - 2 = .ofNat (e - 1077) := by
    rw [exponent, hexponent, Int.ofNat_eq_natCast]
    omega
  have hbelow : (f = 0 ∧ 1 < e) ↔ f = 0 := by omega
  simp only [span, hsignificand, hpower, hfraction, hexponent, hbelow]

theorem roundedField_cases (m : Nat) :
    (m < 2 ^ 62 ∧ roundedField m 1 ≤ 1085 * 2 ^ 52) ∨
      (2 ^ 62 ≤ m ∧ m < 2 ^ 63 ∧ roundedField m 1 = 1084 * 2 ^ 52 + nearestEven m 1024) ∨
      (2 ^ 63 ≤ m ∧ m < 2 ^ 64 ∧ roundedField m 1 = 1085 * 2 ^ 52 + nearestEven m 2048) ∨
      (2 ^ 64 ≤ m ∧ m < 2 ^ 65 ∧ roundedField m 1 = 1086 * 2 ^ 52 + nearestEven m 4096) ∨
      (2 ^ 65 ≤ m ∧ 1088 * 2 ^ 52 ≤ roundedField m 1) := by
  rcases Nat.lt_or_ge m (2 ^ 62) with h62 | h62
  · exact .inl ⟨h62, roundedField_le_of_lt h62⟩
  rcases Nat.lt_or_ge m (2 ^ 63) with h63 | h63
  · exact .inr (.inl ⟨h62, h63, roundedField_of_order (k := 62) (by decide) (by decide) h62 h63⟩)
  rcases Nat.lt_or_ge m (2 ^ 64) with h64 | h64
  · exact .inr (.inr (.inl ⟨h63, h64,
      roundedField_of_order (k := 63) (by decide) (by decide) h63 h64⟩))
  rcases Nat.lt_or_ge m (2 ^ 65) with h65 | h65
  · exact .inr (.inr (.inr (.inl ⟨h64, h65,
      roundedField_of_order (k := 64) (by decide) (by decide) h64 h65⟩)))
  · exact .inr (.inr (.inr (.inr ⟨h65, le_roundedField (by decide) h65⟩)))

theorem nearestEven_bounds (num : Nat) {den : Nat} (hden : 0 < den) :
    (nearestEven num den % 2 = 0 ∧ 2 * (nearestEven num den * den) ≤ 2 * num + den ∧
        2 * num ≤ 2 * (nearestEven num den * den) + den) ∨
      (nearestEven num den % 2 = 1 ∧ 2 * (nearestEven num den * den) < 2 * num + den ∧
        2 * num < 2 * (nearestEven num den * den) + den) := by
  have hbounds := (nearestEven_eq_iff hden).mp (Eq.refl (nearestEven num den))
  split at hbounds
  next heven => exact .inl ⟨heven, hbounds⟩
  next hodd => exact .inr ⟨Nat.mod_two_ne_zero.mp hodd, hbounds⟩

section

variable (hlow : 2 ^ 63 ≤ n) (hhigh : n < 2 ^ 64)

include hlow hhigh

theorem roundedField_of_large : roundedField n 1 = 1085 * 2 ^ 52 + nearestEven n 2048 ∧
    2 ^ 52 ≤ nearestEven n 2048 ∧ nearestEven n 2048 ≤ 2 ^ 53 := by
  refine ⟨roundedField_of_order (k := 63) (by decide) (by decide) hlow hhigh,
    le_nearestEven (by decide) (by omega), nearestEven_le (by decide) (by omega)⟩

/-- The fields of the word of a large number: a significand of 53 digits, or `2 ^ 64`. -/
theorem fields_of_large :
    (∃ f, nearestEven n 2048 = 2 ^ 52 + f ∧ f < 2 ^ 52 ∧ (ofInt n).isNegative = false ∧
        (ofInt n).exponentField = 1086 ∧ (ofInt n).fractionField = f) ∨
      nearestEven n 2048 = 2 ^ 53 ∧ (ofInt n).isNegative = false ∧
        (ofInt n).exponentField = 1087 ∧ (ofInt n).fractionField = 0 := by
  obtain ⟨hfield, hge, hle⟩ := roundedField_of_large hlow hhigh
  have hbits : (ofInt n).bits.toNat = 1085 * 2 ^ 52 + nearestEven n 2048 := by
    rw [toNat_bits_ofInt, if_neg (by omega), Int.natAbs_natCast, Nat.zero_add, hfield]
  rcases Nat.lt_or_ge (nearestEven n 2048) (2 ^ 53) with hlt | hcarry
  · obtain ⟨f, hf⟩ := Nat.exists_eq_add_of_le hge
    refine .inl ⟨f, hf, by omega, fields_of_bits (e := 1086) (f := f) ?_ (by decide) ?_⟩
    · change _ = 1086 * 2 ^ 52 + f
      omega
    · change f < 2 ^ 52
      omega
  · refine .inr ⟨by omega, fields_of_bits (e := 1087) (f := 0) ?_ (by decide) (by decide)⟩
    change _ = 1087 * 2 ^ 52 + 0
    omega

theorem span_of_large :
    (∃ f, nearestEven n 2048 = 2 ^ 52 + f ∧ f < 2 ^ 52 ∧
      (ofInt n).span = ⟨2048 * (2 ^ 52 + f) - (if f = 0 then 512 else 1024), 2048 * (2 ^ 52 + f),
        2048 * (2 ^ 52 + f) + 1024, 1, f % 2 == 0⟩) ∨
      nearestEven n 2048 = 2 ^ 53 ∧
        (ofInt n).span = ⟨2 ^ 64 - 1024, 2 ^ 64, 2 ^ 64 + 2048, 1, true⟩ := by
  rcases fields_of_large hlow hhigh with ⟨f, hf, hlt, -, hexponent, hfraction⟩ |
    ⟨hcarry, -, hexponent, hfraction⟩
  · refine .inl ⟨f, hf, hlt, ?_⟩
    rw [span_of_fields hexponent hfraction (by decide)]
    change RoundingSpan.mk ((4 * (2 ^ 52 + f) - if f = 0 then 1 else 2) * 512)
      (4 * (2 ^ 52 + f) * 512) ((4 * (2 ^ 52 + f) + 2) * 512) 1 ((2 ^ 52 + f) % 2 == 0) = _
    congr 1
    · split <;> omega
    · omega
    · omega
    · congr 1
      omega
  · refine .inr ⟨hcarry, ?_⟩
    rw [span_of_fields hexponent hfraction (by decide)]
    rfl

/-- The span of a word holds the whole numbers that are rounded to it. -/
theorem ofInt_eq_iff_holds : ofInt m = ofInt n ↔ (ofInt n).span.holds m = true := by
  obtain ⟨hfield, hge, hle⟩ := roundedField_of_large hlow hhigh
  rw [ofInt_eq_iff, Int.natAbs_natCast, Int.natAbs_natCast, hfield, RoundingSpan.holds_iff]
  have hsign : ((m : Int) < 0 ↔ (n : Int) < 0) := by omega
  rw [and_iff_right hsign]
  -- Words lie 2048 apart in the order of the number, 1024 apart below it and 4096 above.
  have h1024 := nearestEven_bounds m (show 0 < 1024 by decide)
  have h2048 := nearestEven_bounds m (show 0 < 2048 by decide)
  have h4096 := nearestEven_bounds m (show 0 < 4096 by decide)
  rcases span_of_large hlow hhigh with ⟨f, hf, hlt, hspan⟩ | ⟨hcarry, hspan⟩
  · rw [hspan, hf]
    simp only [Nat.mul_one, beq_iff_eq]
    rcases roundedField_cases m with h | h | h | h | h <;> split <;> split <;> omega
  · rw [hspan, hcarry]
    simp only [Nat.mul_one, if_true]
    rcases roundedField_cases m with h | h | h | h | h <;> omega

theorem isWide_of_large : ∃ order, (ofInt n).span.IsWide order := by
  have hspan : (ofInt n).span.den = 1 ∧ 10 ^ 18 ≤ (ofInt n).span.value ∧
      (ofInt n).span.value < 10 ^ 20 ∧ (ofInt n).span.low < (ofInt n).span.value ∧
      (ofInt n).span.value + 1000 < (ofInt n).span.high ∧
      (ofInt n).span.high < (ofInt n).span.low + 10 ^ 17 := by
    rcases span_of_large hlow hhigh with ⟨f, -, hf, hspan⟩ | ⟨-, hspan⟩
    · rw [hspan]
      refine ⟨rfl, ?_⟩
      dsimp only
      split <;> omega
    · rw [hspan]
      decide
  obtain ⟨hden, hge, hlt, hbelow, habove, hnarrow⟩ := hspan
  have horder : 18 ≤ (Nat.toDigits 10 (ofInt n).span.value).length ∧
      (Nat.toDigits 10 (ofInt n).span.value).length ≤ 20 := by
    refine ⟨Nat.le_of_lt (Nat.lt_of_not_le ?_),
      (Nat.length_toDigits_le_iff (by decide) (by decide)).mpr hlt⟩
    rw [Nat.length_toDigits_le_iff (by decide) (by decide)]
    omega
  have hreach : tenPow ((Nat.toDigits 10 (ofInt n).span.value).length - 17) ≤ 1000 :=
    Nat.pow_le_pow_right (n := 10) (by decide) (show _ ≤ 3 by omega)
  exact ⟨_, ⟨by omega, hbelow, by omega⟩, hden, horder.1, rfl, hnarrow, by omega⟩

theorem value_of_large : (ofInt n).value = (ofInt n).span.value := by
  have hvalue : ∀ {f e : Nat}, (ofInt n).isNegative = false → (ofInt n).exponentField = e →
      (ofInt n).fractionField = f → 1077 ≤ e → (ofInt n).value = (ofInt n).span.value := by
    intro f e hsign hexponent hfraction he
    have hpower : (ofInt n).exponent = .ofNat (e - 1077 + 2) := by
      rw [exponent, hexponent, Int.ofNat_eq_natCast]
      omega
    have hsignificand : (ofInt n).significand = twoPow 52 + f := by
      rw [significand, if_neg (by omega), hfraction]
    rw [value, hsign, signFactor, if_neg Bool.false_ne_true, one_mul,
      magnitude_of_exponent_nonneg hpower, span_of_fields hexponent hfraction he, hsignificand,
      Nat.cast_inj]
    have hunit : twoPow (e - 1077 + 2) = 4 * twoPow (e - 1077) := by
      rw [twoPow_succ, twoPow_succ]
      omega
    dsimp only
    rw [hunit, ← Nat.mul_assoc, Nat.mul_comm _ 4]
  rcases fields_of_large hlow hhigh with ⟨f, -, -, hsign, hexponent, hfraction⟩ |
    ⟨-, hsign, hexponent, hfraction⟩
  · exact hvalue hsign hexponent hfraction (by decide)
  · exact hvalue hsign hexponent hfraction (by decide)

/-- A large word is written by the digits of its shortest decimal. -/
theorem text_of_large :
    (ofInt n).isFinite = true ∧
      (ofInt n).text .plain = ((ofInt n).shortest .up).positional "" := by
  have htext : ∀ {e : Nat}, (ofInt n).isNegative = false → (ofInt n).exponentField = e → 0 < e →
      e < 2047 → (ofInt n).isFinite = true ∧
        (ofInt n).text .plain = ((ofInt n).shortest .up).positional "" := by
    intro e hsign hexponent hpos hlt
    have hfinite : (ofInt n).isFinite = true := by
      rw [isFinite, hexponent, bne_iff_ne]
      omega
    have hsignificand : (ofInt n).significand ≠ 0 := by
      have htwo := twoPow_pos 52
      rw [significand, if_neg (by omega)]
      omega
    refine ⟨hfinite, ?_⟩
    rw [text, isNaN_of_isFinite hfinite, if_neg Bool.false_ne_true, hsign,
      if_neg Bool.false_ne_true, String.empty_append, if_pos hfinite, magnitudeText,
      if_neg hsignificand]
    simp only [NumberLayout.plain, if_true]
  rcases fields_of_large hlow hhigh with ⟨f, -, -, hsign, hexponent, -⟩ | ⟨-, hsign, hexponent, -⟩
  · exact htext hsign hexponent (by decide) (by decide)
  · exact htext hsign hexponent (by decide) (by decide)

end

/-! ## Shortest whole numbers -/

/-- The whole number is rounded to the word and ends in as many zeros as a number that is.  Of those that
end in as many it is the nearest to the word, and of two that are as near the larger. -/
structure IsShortest (x : Binary64) (n : Int) : Prop where
  rounds : ofInt n = x
  zeros : ∀ m (k : Nat), ofInt m = x → 10 ^ k ∣ m → 10 ^ k ∣ n
  nearest : ∀ m, ofInt m = x → (∀ k : Nat, 10 ^ k ∣ n → 10 ^ k ∣ m) →
    |n - x.value| ≤ |m - x.value| ∧ (|n - x.value| = |m - x.value| → m ≤ n)

theorem IsShortest.unique {x : Binary64} {m n : Int} (hm : x.IsShortest m) (hn : x.IsShortest n) :
    m = n := by
  have hle := hm.nearest n hn.rounds fun k => hn.zeros m k hm.rounds
  have hge := hn.nearest m hm.rounds fun k => hm.zeros n k hn.rounds
  have hsame := le_antisymm hle.1 hge.1
  exact le_antisymm (hge.2 hsame.symm) (hle.2 hsame)

theorem cast_distance (s : RoundingSpan) (n : Nat) :
    |((n : Int) : ℚ) - s.value| = s.distance n := by
  rw [Int.cast_natCast, RoundingSpan.distance]
  rcases Nat.le_total n s.value with h | h
  · rw [Nat.sub_eq_zero_of_le h, Nat.zero_add, Nat.cast_sub h, abs_sub_comm, abs_of_nonneg]
    exact sub_nonneg.mpr (Nat.cast_le.mpr h)
  · rw [Nat.sub_eq_zero_of_le h, Nat.add_zero, Nat.cast_sub h, abs_of_nonneg]
    exact sub_nonneg.mpr (Nat.cast_le.mpr h)

theorem pow_dvd_natCast (k n : Nat) : (10 ^ k ∣ (n : Int)) ↔ tenPow k ∣ n := by
  have hcast : ((tenPow k : Nat) : Int) = 10 ^ k := Nat.cast_pow 10 k
  rw [← hcast, Int.natCast_dvd_natCast]

theorem exists_isShortest (hlow : 2 ^ 63 ≤ n) (hhigh : n < 2 ^ 64) :
    ∃ m : Nat, (ofInt n).IsShortest m ∧ (ofInt n).text .plain = toString m := by
  obtain ⟨order, hwide⟩ := isWide_of_large hlow hhigh
  obtain ⟨m, htext, hholds, hzeros, hnearest⟩ := shortest_of_isWide hwide
  have hsame : ∀ l : Int, ofInt l = ofInt n → ∃ k : Nat, l = k ∧ (ofInt n).span.holds k = true := by
    intro l hl
    have hsign := (ofInt_eq_iff.mp hl).1
    obtain ⟨k, rfl⟩ := Int.eq_ofNat_of_zero_le (show 0 ≤ l by omega)
    exact ⟨k, rfl, (ofInt_eq_iff_holds hlow hhigh).mp hl⟩
  refine ⟨m, ⟨(ofInt_eq_iff_holds hlow hhigh).mpr hholds, ?_, ?_⟩, ?_⟩
  · intro l k hl hdvd
    obtain ⟨l, rfl, hheld⟩ := hsame l hl
    rw [pow_dvd_natCast] at hdvd ⊢
    exact hzeros l k hheld hdvd
  · intro l hl hends
    obtain ⟨l, rfl, hheld⟩ := hsame l hl
    simp only [pow_dvd_natCast] at hends
    have hdistance := hnearest l hheld hends
    rw [value_of_large hlow hhigh, cast_distance, cast_distance, Nat.cast_le, Nat.cast_inj,
      Int.ofNat_le]
    exact hdistance
  · rw [(text_of_large hlow hhigh).2, htext]

end RecordMapper.Binary64
