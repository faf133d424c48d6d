import RecordMapper.Proofs.Condition.Truth

/-!
# Equal values and equal keys

In memory rows are matched by the keys of their values, in a database by the values.
`agrees_iff_key?_eq` says for which values the two are the same: a number must be finite, and if it
is whole then 64 bits must hold it; an array must not contain null.
-/

namespace RecordMapper

namespace Binary64

theorem eq_zero_of_isZero {x : Binary64} (h : x.bits.toNat % twoPow 63 = 0) :
    x = ⟨0⟩ ∨ x = ⟨9223372036854775808⟩ := by
  obtain ⟨bits⟩ := x
  have hlt : bits.toNat < 18446744073709551616 := bits.toNat_lt
  have hpow : twoPow 63 = 9223372036854775808 := by decide
  rw [hpow] at h
  change bits.toNat % 9223372036854775808 = 0 at h
  have hcases : bits.toNat = 0 ∨ bits.toNat = 9223372036854775808 := by omega
  rcases hcases with hbits | hbits
  · exact .inl (congrArg Binary64.mk (UInt64.toNat_inj.mp hbits))
  · exact .inr (congrArg Binary64.mk (UInt64.toNat_inj.mp hbits))

theorem whole?_of_isZero {x : Binary64} (h : x.bits.toNat % twoPow 63 = 0) :
    x.whole? = some 0 := by
  rcases eq_zero_of_isZero h with rfl | rfl
  · decide +kernel
  · decide +kernel

theorem equals_iff {x y : Binary64} : x.equals y = true ↔ x.isNaN = false ∧ y.isNaN = false ∧
    (x = y ∨ (x.bits.toNat % twoPow 63 = 0 ∧ y.bits.toNat % twoPow 63 = 0)) := by
  have hbits : x.bits = y.bits ↔ x = y :=
    ⟨fun h => by cases x; cases y; exact congrArg Binary64.mk h, fun h => h ▸ rfl⟩
  simp only [equals, Bool.and_eq_true, Bool.or_eq_true, Bool.not_eq_true', beq_iff_eq, hbits,
    and_assoc]

theorem whole?_eq_of_equals {x y : Binary64} (h : x.equals y = true) : x.whole? = y.whole? := by
  obtain ⟨-, -, rfl | ⟨hx, hy⟩⟩ := equals_iff.mp h
  · rfl
  · rw [whole?_of_isZero hx, whole?_of_isZero hy]

theorem equals_iff_eq {x y : Binary64} (hx : x.isFinite = true) (hwhole : x.whole? = none) :
    x.equals y = true ↔ x = y := by
  rw [equals_iff]
  constructor
  · rintro ⟨-, -, rfl | ⟨hzero, -⟩⟩
    · rfl
    · rw [whole?_of_isZero hzero] at hwhole
      cases hwhole
  · rintro rfl
    have hnan := isNaN_of_isFinite hx
    exact ⟨hnan, hnan, .inl rfl⟩

end Binary64

namespace Value

def fitsInt64 (n : Int) : Bool :=
  Int64.minValue.toInt ≤ n && n ≤ Int64.maxValue.toInt

mutual

def isPlain : Value → Bool
  | float x => x.isFinite && x.whole?.all fitsInt64
  | array items => allPlain items
  | _ => true

def allPlain : List Value → Bool
  | [] => true
  | item :: rest => !item.isNull && isPlain item && allPlain rest

end

mutual

theorem written_of_isPlain : (value : Value) → value.isPlain = true → value.written = value
  | float x, h => by rw [written, if_pos (Bool.and_eq_true_iff.mp h).1]
  | array items, h => by rw [written, writtenAll_of_allPlain items h]
  | null, _ | bool _, _ | integer _, _ | text _, _ | binary _, _ => rfl

theorem writtenAll_of_allPlain : (items : List Value) → allPlain items = true →
    writtenAll items = items
  | [], _ => rfl
  | item :: rest, h => by
      simp only [allPlain, Bool.and_eq_true] at h
      rw [writtenAll, written_of_isPlain item h.1.2, writtenAll_of_allPlain rest h.2]

end

/-! ## Keys of plain values -/

theorem key?_of_whole? {value : Value} {n : Int} (h : value.whole? = some n) :
    value.key? = some (.integer (Int64.ofIntClamp n)) := by
  cases value with
  | bool b =>
      cases h
      cases b <;> rfl
  | integer m =>
      cases h
      rw [key?, Int64.ofIntClamp_toInt]
  | float x =>
      change x.whole? = some n at h
      simp only [key?, h]
  | null => cases h
  | text s => cases h
  | binary bytes => cases h
  | array items => cases h

theorem fitsInt64_of_whole? {value : Value} {n : Int} (hplain : value.isPlain = true)
    (h : value.whole? = some n) : fitsInt64 n = true := by
  have hinteger : ∀ m : Int64, fitsInt64 m.toInt = true := by
    intro m
    have hlow := m.le_toInt
    have hhigh := m.toInt_lt
    simp only [fitsInt64, Bool.and_eq_true, decide_eq_true_eq]
    constructor
    · exact hlow
    · have hmax : Int64.maxValue.toInt = 2 ^ 63 - 1 := by decide
      omega
  cases value with
  | bool b =>
      cases h
      cases b <;> decide
  | integer m =>
      cases h
      exact hinteger m
  | float x =>
      change x.whole? = some n at h
      rw [isPlain, h] at hplain
      exact (Bool.and_eq_true_iff.mp hplain).2
  | null => cases h
  | text s => cases h
  | binary bytes => cases h
  | array items => cases h

theorem ofIntClamp_inj {m n : Int} (hm : fitsInt64 m = true) (hn : fitsInt64 n = true) :
    Int64.ofIntClamp m = Int64.ofIntClamp n ↔ m = n := by
  simp only [fitsInt64, Bool.and_eq_true, decide_eq_true_eq] at hm hn
  constructor
  · intro h
    rw [← Int64.toInt_ofIntClamp hm.1 hm.2, ← Int64.toInt_ofIntClamp hn.1 hn.2, h]
  · intro h
    rw [h]

theorem key?_of_fraction {x : Binary64} (h : x.whole? = none) :
    (float x).key? = some (.float x.bits) := by
  simp only [key?, h]

theorem whole?_eq_of_equals {a b : Value} (h : a.equals b = true) : a.whole? = b.whole? := by
  cases a with
  | float x =>
      cases b with
      | float y => exact Binary64.whole?_eq_of_equals h
      | _ => cases h
  | bool p =>
      cases b with
      | bool q => rw [beq_iff_eq.mp h]
      | _ => cases h
  | integer m =>
      cases b with
      | integer n => rw [beq_iff_eq.mp h]
      | _ => cases h
  | null | text _ | binary _ | array _ =>
      cases b with
      | null | text _ | binary _ | array _ => rfl
      | _ => cases h

theorem key?_ne_integer {value : Value} (h : value.whole? = none) (n : Int64) :
    value.key? ≠ some (.integer n) := by
  cases value with
  | float x =>
      rw [key?_of_fraction h]
      simp
  | array items =>
      intro hkey
      rw [key?, Option.map_eq_some_iff] at hkey
      obtain ⟨_, -, hcomposite⟩ := hkey
      cases hcomposite
  | _ => simp [key?] <;> cases h

theorem isSome_key?_of_whole? {value : Value} {n : Int} (h : value.whole? = some n) :
    value.key?.isSome = true := by
  rw [key?_of_whole? h]
  rfl

mutual

theorem isSome_key? : (value : Value) → value.isPlain = true → value.isNull = false →
    value.key?.isSome = true
  | null, _, hnull => by cases hnull
  | bool _, _, _ => rfl
  | integer _, _, _ => rfl
  | float x, _, _ => by
      cases hwhole : x.whole? with
      | none => rw [key?_of_fraction hwhole]; rfl
      | some n => exact isSome_key?_of_whole? (n := n) hwhole
  | text _, _, _ => rfl
  | binary _, _, _ => rfl
  | array items, hplain, _ => by
      rw [key?, Option.isSome_map]
      exact isSome_keys? items hplain

theorem isSome_keys? : (items : List Value) → allPlain items = true → (keys? items).isSome = true
  | [], _ => rfl
  | item :: rest, hplain => by
      simp only [allPlain, Bool.and_eq_true, Bool.not_eq_true'] at hplain
      obtain ⟨key, hkey⟩ := Option.isSome_iff_exists.mp (isSome_key? item hplain.1.2 hplain.1.1)
      obtain ⟨keys, hkeys⟩ := Option.isSome_iff_exists.mp (isSome_keys? rest hplain.2)
      rw [keys?, hkey, hkeys]
      rfl

end

theorem keys?_cons_eq {a b : Value} {as bs : List Value} (ha : a.key?.isSome = true)
    (has : (keys? as).isSome = true) (hb : b.key?.isSome = true)
    (hbs : (keys? bs).isSome = true) :
    keys? (a :: as) = keys? (b :: bs) ↔ a.key? = b.key? ∧ keys? as = keys? bs := by
  obtain ⟨ka, ha⟩ := Option.isSome_iff_exists.mp ha
  obtain ⟨kas, has⟩ := Option.isSome_iff_exists.mp has
  obtain ⟨kb, hb⟩ := Option.isSome_iff_exists.mp hb
  obtain ⟨kbs, hbs⟩ := Option.isSome_iff_exists.mp hbs
  simp [keys?, ha, has, hb, hbs]

/-- Values that are no whole numbers, and not both arrays, have keys of their own. -/
theorem equals_iff_key?_eq {a b : Value} (ha : a.whole? = none) (hb : b.whole? = none)
    (hscalar : ∀ as bs, a = array as → b ≠ array bs) (hplain : a.isPlain = true)
    (hkey : b.key?.isSome = true) : a.equals b = true ↔ a.key? = b.key? := by
  cases b with
  | null => cases hkey
  | bool _ => cases hb
  | integer _ => cases hb
  | array bs =>
      obtain ⟨key, hkey⟩ := Option.isSome_iff_exists.mp hkey
      rw [hkey]
      rw [key?, Option.map_eq_some_iff] at hkey
      obtain ⟨keys, -, rfl⟩ := hkey
      cases a with
      | array as => exact absurd rfl (hscalar as bs rfl)
      | float x => simp [key?_of_fraction ha, equals]
      | null | text _ | binary _ => simp [key?, equals]
      | bool _ | integer _ => cases ha
  | float y =>
      rw [key?_of_fraction hb]
      cases a with
      | float x =>
          have hfinite := (Bool.and_eq_true_iff.mp hplain).1
          rw [key?_of_fraction ha, equals, Binary64.equals_iff_eq hfinite ha]
          cases x
          cases y
          simp
      | null | text _ | binary _ | array _ => simp [key?, equals]
      | bool _ | integer _ => cases ha
  | text t =>
      rw [show (text t).key? = some (.text t) from rfl]
      cases a with
      | float x => simp [key?_of_fraction ha, equals]
      | null | text _ | binary _ | array _ => simp [key?, equals]
      | bool _ | integer _ => cases ha
  | binary bytes =>
      rw [show (binary bytes).key? = some (.binary bytes) from rfl]
      cases a with
      | float x => simp [key?_of_fraction ha, equals]
      | null | text _ | binary _ | array _ => simp [key?, equals]
      | bool _ | integer _ => cases ha

theorem agrees_iff_of_scalar {a b : Value} (hscalar : ∀ as bs, a = array as → b ≠ array bs)
    (ha : a.isPlain = true) (hb : b.isPlain = true) (hnull : b.isNull = false) :
    a.agrees b = true ↔ a.key? = b.key? := by
  have hequals := @whole?_eq_of_equals a b
  rw [agrees.eq_2 a b hscalar]
  cases hwhole : a.whole? with
  | some m =>
      rw [key?_of_whole? hwhole]
      cases hwhole' : b.whole? with
      | some n =>
          rw [key?_of_whole? hwhole', Option.some.injEq, Key.integer.injEq,
            ofIntClamp_inj (fitsInt64_of_whole? ha hwhole) (fitsInt64_of_whole? hb hwhole')]
          exact beq_iff_eq
      | none =>
          refine ⟨fun h => ?_, fun h => absurd h.symm (key?_ne_integer hwhole' _)⟩
          rw [hwhole, hwhole'] at hequals
          cases hequals h
  | none =>
      cases hwhole' : b.whole? with
      | some n =>
          rw [key?_of_whole? hwhole']
          refine ⟨fun h => ?_, fun h => absurd h (key?_ne_integer hwhole _)⟩
          rw [hwhole, hwhole'] at hequals
          cases hequals h
      | none => exact equals_iff_key?_eq hwhole hwhole' hscalar ha (isSome_key? b hb hnull)

theorem keys?_cons_ne_nil (item : Value) (rest : List Value) : keys? (item :: rest) ≠ some [] := by
  rw [keys?]
  split <;> simp

mutual

theorem agrees_iff_key?_eq : (a b : Value) → a.isPlain = true → b.isPlain = true →
    b.isNull = false → (a.agrees b = true ↔ a.key? = b.key?)
  | a, array bs, ha, hb, hnull => by
      cases a with
      | array as =>
          rw [agrees, agreesAll_iff_keys?_eq as bs ha hb, key?, key?]
          constructor
          · intro h
            rw [h]
          · intro h
            exact Option.map_injective (fun _ _ hkey => Key.composite.inj hkey) h
      | _ => exact agrees_iff_of_scalar (by simp) ha hb hnull
  | a, null, ha, hb, hnull => agrees_iff_of_scalar (by simp) ha hb hnull
  | a, bool _, ha, hb, hnull => agrees_iff_of_scalar (by simp) ha hb hnull
  | a, integer _, ha, hb, hnull => agrees_iff_of_scalar (by simp) ha hb hnull
  | a, float _, ha, hb, hnull => agrees_iff_of_scalar (by simp) ha hb hnull
  | a, text _, ha, hb, hnull => agrees_iff_of_scalar (by simp) ha hb hnull
  | a, binary _, ha, hb, hnull => agrees_iff_of_scalar (by simp) ha hb hnull

theorem agreesAll_iff_keys?_eq : (as bs : List Value) → allPlain as = true → allPlain bs = true →
    (agreesAll as bs = true ↔ keys? as = keys? bs)
  | [], [], _, _ => by simp [agreesAll]
  | [], b :: bs, _, _ => by simpa [agreesAll, keys?] using (keys?_cons_ne_nil b bs).symm
  | a :: as, [], _, _ => by simpa [agreesAll, keys?] using keys?_cons_ne_nil a as
  | a :: as, b :: bs, ha, hb => by
      simp only [allPlain, Bool.and_eq_true, Bool.not_eq_true'] at ha hb
      rw [agreesAll, Bool.and_eq_true, agrees_iff_key?_eq a b ha.1.2 hb.1.2 hb.1.1,
        agreesAll_iff_keys?_eq as bs ha.2 hb.2,
        keys?_cons_eq (isSome_key? a ha.1.2 ha.1.1) (isSome_keys? as ha.2)
          (isSome_key? b hb.1.2 hb.1.1) (isSome_keys? bs hb.2)]

end

theorem isNull_iff_key?_eq_none {value : Value} (h : value.isPlain = true) :
    value.isNull = true ↔ value.key? = none := by
  constructor
  · intro hnull
    cases value with
    | null => rfl
    | _ => cases hnull
  · intro hkey
    cases hnull : value.isNull with
    | true => rfl
    | false =>
        have hsome := isSome_key? value h hnull
        rw [hkey] at hsome
        cases hsome

theorem compare_written_iff {stored value : Value} (hstored : stored.isPlain = true)
    (hvalue : value.isPlain = true) (hnull : value.isNull = false) :
    stored.compare value.written = some true ↔ stored.key? = value.key? := by
  rw [written_of_isPlain value hvalue, compare, hnull, Bool.or_false]
  cases hempty : stored.isNull with
  | true =>
      have hkey := isSome_key? value hvalue hnull
      rw [(isNull_iff_key?_eq_none hstored).mp hempty]
      rw [Option.isSome_iff_ne_none] at hkey
      simp [hkey.symm]
  | false => simpa using agrees_iff_key?_eq stored value hstored hvalue hnull

end Value

end RecordMapper
