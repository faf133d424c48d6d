import RecordMapper.Number.Layout
import RecordMapper.Proofs.Number.Rounding

/-!
# The shortest decimals of large words

What a span holds is an interval of whole numbers.  Of the multiples of a power of ten in it, those next to
the value are looked at, so that `shortest` finds the largest power with a multiple in the interval, and
of its multiples the nearest.
-/

namespace RecordMapper

/-! ## Spans -/

namespace RoundingSpan

variable {s : RoundingSpan} {a b c : Nat}

structure Spans (s : RoundingSpan) : Prop where
  den : 0 < s.den
  low : s.low < s.value
  high : s.value < s.high

def distance (s : RoundingSpan) (num : Nat) : Nat :=
  (num - s.value) + (s.value - num)

theorem holds_iff : s.holds a = true ↔
    if s.closed then s.low ≤ a * s.den ∧ a * s.den ≤ s.high
    else s.low < a * s.den ∧ a * s.den < s.high := by
  unfold holds
  split <;> simp

theorem holds_floor (hs : s.Spans) (ha : s.holds a = true) (h : a ≤ s.value / s.den) :
    s.holds (s.value / s.den) = true := by
  have hlow := Nat.mul_le_mul_right s.den h
  have hfloor := Nat.div_mul_le_self s.value s.den
  have hhigh := hs.high
  rw [holds_iff] at ha ⊢
  split_ifs at ha ⊢ <;> omega

theorem holds_next (hs : s.Spans) (ha : s.holds a = true) (h : s.value / s.den < a) :
    s.holds (s.value / s.den + 1) = true := by
  have hhigh := Nat.mul_le_mul_right s.den (Nat.succ_le_of_lt h)
  have hnext : s.value < (s.value / s.den + 1) * s.den :=
    Nat.lt_mul_of_div_lt (Nat.lt_succ_self _) hs.den
  have hlow := hs.low
  rw [Nat.succ_eq_add_one] at hhigh
  rw [holds_iff] at ha ⊢
  split_ifs at ha ⊢ <;> omega

theorem holds_of_nearestHeld {halfway : Halfway} (h : s.nearestHeld halfway = some a) :
    s.holds a = true := by
  simp only [nearestHeld] at h
  split at h
  next hfloor hnext =>
      cases h
      split
      · exact hnext
      · exact hfloor
  next hfloor hnext =>
      cases h
      exact hfloor
  next hfloor hnext =>
      cases h
      exact hnext
  next => cases h

theorem not_holds_of_nearestHeld {halfway : Halfway} (hs : s.Spans)
    (h : s.nearestHeld halfway = none) (a : Nat) : s.holds a = false := by
  simp only [nearestHeld] at h
  split at h
  next => cases h
  next => cases h
  next => cases h
  next hfloor hnext =>
      rw [Bool.eq_false_iff]
      intro ha
      rcases Nat.lt_or_ge (s.value / s.den) a with habove | hbelow
      · exact Bool.eq_false_iff.mp hnext (holds_next hs ha habove)
      · exact Bool.eq_false_iff.mp hfloor (holds_floor hs ha hbelow)

/-- The neighbour that is found is the nearer one, or the other one is not held. -/
theorem nearestHeld_cases (h : s.nearestHeld .up = some a) :
    a = s.value / s.den ∧
        (2 * (s.value % s.den) < s.den ∨ s.holds (s.value / s.den + 1) = false) ∨
      a = s.value / s.den + 1 ∧
        (s.den ≤ 2 * (s.value % s.den) ∨ s.holds (s.value / s.den) = false) := by
  simp only [nearestHeld] at h
  split at h
  next =>
      cases h
      split
      next hup =>
          refine .inr ⟨rfl, .inl ?_⟩
          simp only [Bool.or_eq_true, Bool.and_eq_true, decide_eq_true_eq, beq_iff_eq] at hup
          omega
      next hdown =>
          refine .inl ⟨rfl, .inl ?_⟩
          simp only [Bool.or_eq_true, Bool.and_eq_true, decide_eq_true_eq, beq_iff_eq, eq_self,
            true_or, and_true] at hdown
          omega
  next hnext =>
      cases h
      exact .inl ⟨rfl, .inr hnext⟩
  next hfloor _ =>
      cases h
      exact .inr ⟨rfl, .inr hfloor⟩
  next => cases h

/-- A whole number is one of the two neighbours of the value, or a whole step farther away. -/
theorem neighbour_cases (s : RoundingSpan) (b : Nat) :
    (b < s.value / s.den ∧ b * s.den + s.den ≤ s.value / s.den * s.den) ∨
      b = s.value / s.den ∨ b = s.value / s.den + 1 ∨
      (s.value / s.den + 1 < b ∧ (s.value / s.den + 1) * s.den + s.den ≤ b * s.den) := by
  rcases lt_trichotomy b (s.value / s.den) with h | h | h
  · refine .inl ⟨h, ?_⟩
    rw [← Nat.succ_mul]
    exact Nat.mul_le_mul_right _ h
  · exact .inr (.inl h)
  · rcases eq_or_lt_of_le (Nat.succ_le_of_lt h) with h | h
    · exact .inr (.inr (.inl h.symm))
    · refine .inr (.inr (.inr ⟨h, ?_⟩))
      rw [← Nat.succ_mul]
      exact Nat.mul_le_mul_right _ h

/-- Of what is held the nearest is found, and of two that are as near the larger. -/
theorem nearest_of_nearestHeld (hs : s.Spans) (h : s.nearestHeld .up = some a)
    (hb : s.holds b = true) :
    s.distance (a * s.den) ≤ s.distance (b * s.den) ∧
      (s.distance (a * s.den) = s.distance (b * s.den) → b ≤ a) := by
  have hden := hs.den
  have hsplit := Nat.div_add_mod s.value s.den
  have hrest := Nat.mod_lt s.value hden
  have hnext : (s.value / s.den + 1) * s.den = s.value / s.den * s.den + s.den := Nat.succ_mul _ _
  rw [Nat.mul_comm] at hsplit
  unfold distance
  rcases nearestHeld_cases h with ⟨rfl, hnear⟩ | ⟨rfl, hnear⟩
  · have hside : b ≤ s.value / s.den ∨ 2 * (s.value % s.den) < s.den := by
      refine hnear.symm.imp_left fun hnone => Nat.le_of_not_lt fun habove => ?_
      exact Bool.eq_false_iff.mp hnone (holds_next hs hb habove)
    rcases neighbour_cases s b with hb | rfl | rfl | hb <;> omega
  · have hside : s.value / s.den < b ∨ s.den ≤ 2 * (s.value % s.den) := by
      refine hnear.symm.imp_left fun hnone => Nat.lt_of_not_le fun hbelow => ?_
      exact Bool.eq_false_iff.mp hnone (holds_floor hs hb hbelow)
    rcases neighbour_cases s b with hb | rfl | rfl | hb <;> omega

theorem holds_scale (hden : s.den = 1) (p a : Nat) :
    (s.scale (.ofNat p)).holds a = s.holds (a * tenPow p) := by
  simp only [holds, scale, hden, Nat.one_mul, Nat.mul_one]

theorem spans_scale (hs : s.Spans) (p : Nat) : (s.scale (.ofNat p)).Spans :=
  ⟨Nat.mul_pos hs.den (tenPow_pos p), hs.low, hs.high⟩

end RoundingSpan

/-! ## Digits -/

theorem toDigits_mul_tenPow {n : Nat} (hn : 0 < n) (p : Nat) :
    Nat.toDigits 10 (n * tenPow p) = Nat.toDigits 10 n ++ List.replicate p '0' := by
  induction p with
  | zero => simp [tenPow_zero]
  | succ p ih =>
      have hpos : 0 < n * tenPow p := Nat.mul_pos hn (tenPow_pos p)
      have hzero : Nat.toDigits 10 0 = ['0'] := rfl
      have hdigit := Nat.toDigits_append_toDigits (b := 10) (d := 0) (by decide) hpos (by decide)
      rw [tenPow_succ, ← Nat.mul_assoc, List.replicate_succ', ← List.append_assoc, ← ih, ← hzero,
        hdigit, Nat.add_zero, Nat.mul_comm]

namespace Decimal

theorem positional_ofNat (digits up : Nat) (h : 0 < digits) :
    (Decimal.mk digits (.ofNat up)).positional "" = toString (digits * tenPow up) := by
  rw [Nat.toString_eq_ofList_toDigits, toDigits_mul_tenPow h]
  simp [positional, digitText]

theorem positional_dropZero (digits up : Nat) (h : 0 < digits) :
    (Decimal.mk digits (.ofNat up)).dropZero.positional "" = toString (digits * tenPow up) := by
  unfold dropZero
  split
  next hzero =>
      have hdigits : digits = digits / 10 * 10 := by simp only at hzero; omega
      have hpos : 0 < digits / 10 := by omega
      have hpower : ((Int.ofNat up) + 1 : Int) = Int.ofNat (up + 1) := rfl
      simp only [hpower]
      rw [positional_ofNat _ _ hpos, tenPow_succ, Nat.mul_comm (tenPow up), ← Nat.mul_assoc,
        ← hdigits]
  next => exact positional_ofNat digits up h

end Decimal

/-! ## Shortest decimals -/

theorem tenPow_dvd_tenPow {a b : Nat} (h : a ≤ b) : tenPow a ∣ tenPow b :=
  Nat.pow_dvd_pow 10 h

/-- A span of whole numbers that is narrow beside the power of ten below its value, but has a
multiple of a power which 17 digits reach. -/
structure RoundingSpan.IsWide (s : RoundingSpan) (order : Nat) : Prop extends Spans s where
  den_one : s.den = 1
  order_ge : 18 ≤ order
  order_eq : (Nat.toDigits 10 s.value).length = order
  narrow : s.high < s.low + tenPow 17
  reaches : s.value + tenPow (order - 17) < s.high

namespace RoundingSpan

variable {s : RoundingSpan} {order : Nat}

theorem IsWide.le_value (h : s.IsWide order) : tenPow (order - 1) ≤ s.value := by
  have hge := h.order_ge
  have hlength : ¬ (Nat.toDigits 10 s.value).length ≤ order - 1 := by
    rw [h.order_eq]
    omega
  rw [Nat.length_toDigits_le_iff (by decide) (by omega)] at hlength
  exact Nat.le_of_not_lt hlength

theorem IsWide.value_pos (h : s.IsWide order) : 0 < s.value :=
  Nat.lt_of_lt_of_le (tenPow_pos _) h.le_value

theorem IsWide.low_pos (h : s.IsWide order) : 0 < s.low := by
  have hge := h.order_ge
  have hpower : tenPow 17 ≤ tenPow (order - 1) :=
    Nat.pow_le_pow_right (by decide) (by omega)
  have hvalue := h.le_value
  have hhigh := h.high
  have hnarrow := h.narrow
  omega

theorem IsWide.decimalOrder_eq (h : s.IsWide order) : s.decimalOrder = order := by
  rw [decimalOrder, h.den_one, Nat.div_one, toDigits_mul_tenPow h.value_pos, List.length_append,
    List.length_replicate, h.order_eq]
  omega

theorem IsWide.low_le (h : s.IsWide order) {n : Nat} (hn : s.holds n = true) :
    s.low ≤ n ∧ n ≤ s.high := by
  rw [holds_iff, h.den_one, Nat.mul_one] at hn
  split_ifs at hn <;> omega

/-- At most one multiple of the power below the value is held. -/
theorem IsWide.multiple_unique (h : s.IsWide order) {m n : Nat} (hm : s.holds m = true)
    (hn : s.holds n = true) (hdvdm : tenPow (order - 1) ∣ m) (hdvdn : tenPow (order - 1) ∣ n) :
    m = n := by
  have hge := h.order_ge
  have hpower : tenPow 17 ≤ tenPow (order - 1) :=
    Nat.pow_le_pow_right (by decide) (by omega)
  have hboundsm := h.low_le hm
  have hboundsn := h.low_le hn
  have hnarrow := h.narrow
  rcases lt_trichotomy m n with hlt | heq | hlt
  · have hstep := Nat.le_of_dvd (by omega) (Nat.dvd_sub hdvdn hdvdm)
    omega
  · exact heq
  · have hstep := Nat.le_of_dvd (by omega) (Nat.dvd_sub hdvdm hdvdn)
    omega

/-- The next multiple of a power which 17 digits reach is held. -/
theorem IsWide.holds_reach (h : s.IsWide order) :
    (s.scale (.ofNat (order - 17))).holds (s.value / tenPow (order - 17) + 1) = true := by
  have hpos := tenPow_pos (order - 17)
  have habove : s.value < (s.value / tenPow (order - 17) + 1) * tenPow (order - 17) :=
    Nat.lt_mul_of_div_lt (Nat.lt_succ_self _) hpos
  have hfloor := Nat.div_mul_le_self s.value (tenPow (order - 17))
  have hnext : (s.value / tenPow (order - 17) + 1) * tenPow (order - 17) =
      s.value / tenPow (order - 17) * tenPow (order - 17) + tenPow (order - 17) := Nat.succ_mul _ _
  have hlow := h.low
  have hreaches := h.reaches
  rw [holds_scale h.den_one, holds_iff, h.den_one, Nat.mul_one]
  split <;> omega

theorem IsWide.not_dvd_of_nearestHeld (h : s.IsWide order) {power : Nat}
    (hnone : (s.scale (.ofNat power)).nearestHeld .up = none) {m : Nat} (hm : s.holds m = true) :
    ¬ tenPow power ∣ m := by
  rintro ⟨count, rfl⟩
  have hno := not_holds_of_nearestHeld (spans_scale h.toSpans power) hnone count
  rw [holds_scale h.den_one, Nat.mul_comm, hm] at hno
  cases hno

/-- A multiple of the largest power that has one in the span ends in as many zeros as any number there. -/
theorem IsWide.dvd_of_largest (h : s.IsWide order) {power n : Nat} (hn : s.holds n = true)
    (hdvd : tenPow power ∣ n) (hlarger : ∀ larger, power < larger → larger < order →
      (s.scale (.ofNat larger)).nearestHeld .up = none)
    {m k : Nat} (hm : s.holds m = true) (hk : tenPow k ∣ m) : tenPow k ∣ n := by
  have hge := h.order_ge
  rcases Nat.lt_or_ge power k with hlt | hle
  · rcases Nat.lt_or_ge k order with horder | horder
    · exact absurd hk (h.not_dvd_of_nearestHeld (hlarger k hlt horder) hm)
    · -- Beyond the powers that are tried, a multiple is also one of the largest power tried.
      have hlast : tenPow (order - 1) ∣ m := (tenPow_dvd_tenPow (by omega)).trans hk
      rcases Nat.lt_or_ge power (order - 1) with hsmall | hsmall
      · exact absurd hlast (h.not_dvd_of_nearestHeld (hlarger _ hsmall (by omega)) hm)
      · have hlast' : tenPow (order - 1) ∣ n := (tenPow_dvd_tenPow hsmall).trans hdvd
        rwa [← h.multiple_unique hm hn hlast hlast']
  · exact (tenPow_dvd_tenPow hle).trans hdvd

end RoundingSpan

theorem findSome?_range {β : Type} {f : Nat → Option β} {n : Nat} {b : β}
    (h : (List.range n).findSome? f = some b) : ∃ i < n, f i = some b ∧ ∀ j < i, f j = none := by
  induction n with
  | zero => cases h
  | succ n ih =>
      rw [List.range_succ, List.findSome?_append] at h
      cases hfirst : (List.range n).findSome? f with
      | some c =>
          rw [hfirst] at h
          cases h
          obtain ⟨i, hi, hfound, hearlier⟩ := ih hfirst
          exact ⟨i, Nat.lt_succ_of_lt hi, hfound, hearlier⟩
      | none =>
          rw [hfirst, Option.none_or] at h
          rw [List.findSome?_eq_none_iff] at hfirst
          refine ⟨n, Nat.lt_succ_self n, by simpa using h, fun j hj => hfirst j (List.mem_range.mpr hj)⟩

namespace Binary64

variable {x : Binary64} {order : Nat}

theorem decimalOf?_of_isWide (h : x.span.IsWide order) {count : Nat} (hcount : count ≤ 17) :
    x.decimalOf? .up count = ((x.span.scale (.ofNat (order - count))).nearestHeld .up).map
      fun digits => (Decimal.mk digits (.ofNat (order - count))).dropZero := by
  have hge := h.order_ge
  have hpower : (order : Int) - count = .ofNat (order - count) := by
    rw [Int.ofNat_eq_natCast]
    omega
  simp only [decimalOf?, h.decimalOrder_eq, hpower]

/-- The decimal that is found has the largest power of ten with a multiple in the span. -/
theorem exists_shortest (h : x.span.IsWide order) :
    ∃ power digits,
      x.shortest .up = (Decimal.mk digits (.ofNat power)).dropZero ∧
      (x.span.scale (.ofNat power)).nearestHeld .up = some digits ∧
      ∀ larger, power < larger → larger < order →
        (x.span.scale (.ofNat larger)).nearestHeld .up = none := by
  have hge := h.order_ge
  cases hfound : (List.range 17).findSome? fun count => x.decimalOf? .up (count + 1) with
  | none =>
      -- The last of the powers that are tried has a multiple in the span.
      rw [List.findSome?_eq_none_iff] at hfound
      have hlast := hfound 16 (by decide)
      rw [decimalOf?_of_isWide h (by decide), Option.map_eq_none_iff] at hlast
      have hnone := RoundingSpan.not_holds_of_nearestHeld
        (RoundingSpan.spans_scale h.toSpans _) hlast
      exact absurd h.holds_reach (by rw [hnone]; decide)
  | some d =>
      obtain ⟨i, hi, hd, hearlier⟩ := findSome?_range hfound
      rw [decimalOf?_of_isWide h (by omega)] at hd
      obtain ⟨digits, hdigits, rfl⟩ := Option.map_eq_some_iff.mp hd
      refine ⟨order - (i + 1), digits, ?_, hdigits, fun larger hlarger horder => ?_⟩
      · rw [shortest, hfound, Option.getD_some]
      · have hnone := hearlier (order - 1 - larger) (by omega)
        rw [decimalOf?_of_isWide h (by omega), Option.map_eq_none_iff] at hnone
        rwa [show order - (order - 1 - larger + 1) = larger by omega] at hnone

/-- The whole number of the shortest decimal is held.  It ends in as many zeros as a number there can, and
is the nearest of those that end in as many. -/
theorem shortest_of_isWide (h : x.span.IsWide order) :
    ∃ n, (x.shortest .up).positional "" = toString n ∧ x.span.holds n = true ∧
      (∀ m k, x.span.holds m = true → tenPow k ∣ m → tenPow k ∣ n) ∧
      ∀ m, x.span.holds m = true → (∀ k, tenPow k ∣ n → tenPow k ∣ m) →
        x.span.distance n ≤ x.span.distance m ∧
          (x.span.distance n = x.span.distance m → m ≤ n) := by
  obtain ⟨power, digits, hshortest, hfound, hlarger⟩ := exists_shortest h
  have hspans := RoundingSpan.spans_scale h.toSpans power
  have hholds : x.span.holds (digits * tenPow power) = true := by
    rw [← RoundingSpan.holds_scale h.den_one]
    exact RoundingSpan.holds_of_nearestHeld hfound
  have hpos : 0 < digits := by
    have hlow := h.low_pos
    have hn := (h.low_le hholds).1
    exact Nat.pos_of_mul_pos_right (Nat.lt_of_lt_of_le hlow hn)
  refine ⟨digits * tenPow power, ?_, hholds, ?_, ?_⟩
  · rw [hshortest, Decimal.positional_dropZero digits power hpos]
  · exact fun m k hm hk => h.dvd_of_largest hholds (Nat.dvd_mul_left _ _) hlarger hm hk
  · intro m hm hzeros
    obtain ⟨count, rfl⟩ := hzeros power (Nat.dvd_mul_left _ _)
    rw [Nat.mul_comm (tenPow power)] at hm ⊢
    have hcount : (x.span.scale (.ofNat power)).holds count = true := by
      rwa [RoundingSpan.holds_scale h.den_one]
    have hden : (x.span.scale (.ofNat power)).den = tenPow power := by
      simp only [RoundingSpan.scale, h.den_one, Nat.one_mul]
    have hnearest := RoundingSpan.nearest_of_nearestHeld hspans hfound hcount
    rw [hden] at hnearest
    exact hnearest.imp_right fun himp heq => Nat.mul_le_mul_right _ (himp heq)

end Binary64

end RecordMapper
