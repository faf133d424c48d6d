import RecordMapper.Proofs.Failures
import RecordMapper.Proofs.Number.Denoted
import RecordMapper.Proofs.Schema.Forms

/-!
# Casts to integral types

A cast to an integral type leads to the number that the value denotes, or fails.  A floating-point
number that is whole but too large for 64 bits is the one exception: it does not fail, and leads to
the nearest integer that 64 bits hold.
-/

namespace RecordMapper

namespace Value

/-- The number that a value denotes, exactly. -/
def number? : Value → Option ℚ
  | .bool b => some (if b then 1 else 0)
  | .integer n => some n.toInt
  | .float x => if x.isFinite then some x.value else none
  | .text s => readNumber (Text.trimChars s.toList)
  | _ => none

/-- A value was cast to the number that it denotes, if it denotes one. -/
def KeepsNumber (v cast : Value) : Prop :=
  ∀ q, v.number? = some q → ∃ n : Int64, cast = .integer n ∧ (n.toInt : ℚ) = q

/-- A floating-point number that is whole and that 64 bits do not hold. -/
def Overflows (v : Value) : Prop :=
  ∃ x, ∃ n : Int, v = .float x ∧ v.number? = some (n : ℚ) ∧ fitsInt64 n = false

/-- The integer of 64 bits that is nearest to a whole number beyond them. -/
def nearestBound (n : Int) : Int64 :=
  if n < 0 then Int64.minValue else Int64.maxValue

variable {v cast : Value} {x : Binary64} {n : Int}

theorem fitsInt64_iff :
    fitsInt64 n = true ↔ Int64.minValue.toInt ≤ n ∧ n ≤ Int64.maxValue.toInt := by
  rw [fitsInt64, Bool.and_eq_true, decide_eq_true_eq, decide_eq_true_eq]

theorem keepsNumber_of_eq {q : ℚ} {n : Int64} (hnumber : v.number? = some q)
    (h : (n.toInt : ℚ) = q) : v.KeepsNumber (.integer n) := by
  intro q' hq'
  exact ⟨n, rfl, h.trans (Option.some_inj.mp (hnumber.symm.trans hq'))⟩

theorem not_overflows (h : ∀ x, v ≠ .float x) : ¬ v.Overflows :=
  fun ⟨x, _, hv, _⟩ => h x hv

theorem isFinite_of_number? {q : ℚ} (h : (float x).number? = some q) : x.isFinite = true := by
  rw [number?] at h
  split at h
  next hfinite => exact hfinite
  next => cases h

theorem isFinite_of_whole? (h : x.whole? = some n) : x.isFinite = true := by
  rw [Binary64.whole?_eq_map, Option.map_eq_some_iff] at h
  obtain ⟨m, hm, -⟩ := h
  rw [Binary64.wholeMagnitude?] at hm
  split at hm
  next hfinite => exact hfinite
  next => cases hm

theorem number?_float_iff : (float x).number? = some (n : ℚ) ↔ x.whole? = some n := by
  constructor
  · intro h
    have hfinite := isFinite_of_number? h
    rw [number?, if_pos hfinite, Option.some_inj] at h
    exact (Binary64.whole?_eq_some_iff hfinite n).mpr h
  · intro h
    have hfinite := isFinite_of_whole? h
    rw [number?, if_pos hfinite, (Binary64.whole?_eq_some_iff hfinite n).mp h]

theorem overflows_float_iff (h : x.whole? = some n) :
    (float x).Overflows ↔ fitsInt64 n = false := by
  constructor
  · rintro ⟨y, m, hy, hm, hfits⟩
    cases hy
    rw [number?_float_iff, h] at hm
    cases hm
    exact hfits
  · exact fun hfits => ⟨x, n, rfl, number?_float_iff.mpr h, hfits⟩

theorem ofIntClamp_of_not_fits (h : fitsInt64 n = false) : Int64.ofIntClamp n = nearestBound n := by
  rw [← Bool.not_eq_true, fitsInt64_iff] at h
  have hmin := Int64.toInt_minValue
  have hmax := Int64.toInt_maxValue
  rw [Int64.ofIntClamp, nearestBound]
  split
  next hlow =>
      rw [dif_neg (fun hhigh => h ⟨hlow, hhigh⟩), if_neg (by omega)]
  next hlow => rw [if_pos (by omega)]

theorem toInt_ofIntClamp_iff : (Int64.ofIntClamp n).toInt = n ↔ fitsInt64 n = true := by
  rw [fitsInt64_iff]
  constructor
  · intro h
    exact h ▸ bounds_toInt (Int64.ofIntClamp n)
  · exact fun h => Int64.toInt_ofIntClamp h.1 h.2

/-- Only a floating-point number that overflows is cast to another number. -/
theorem keepsNumber_iff_of_castInteger (h : LogicalType.castInteger? v = some cast) :
    v.KeepsNumber cast ↔ ¬ v.Overflows := by
  cases v with
  | bool b =>
      cases h
      refine iff_of_true (keepsNumber_of_eq rfl ?_) (not_overflows (by simp))
      cases b <;> rfl
  | integer n =>
      cases h
      exact iff_of_true (keepsNumber_of_eq rfl rfl) (not_overflows (by simp))
  | float x =>
      obtain ⟨n, hwhole, rfl⟩ := Option.map_eq_some_iff.mp h
      have hnumber := number?_float_iff.mpr hwhole
      rw [overflows_float_iff hwhole, Bool.not_eq_false, ← toInt_ofIntClamp_iff]
      constructor
      · intro hkeeps
        obtain ⟨m, hm, hexact⟩ := hkeeps n hnumber
        cases hm
        exact Int.cast_inj.mp hexact
      · exact fun hexact => keepsNumber_of_eq hnumber (congrArg Int.cast hexact)
  | text s =>
      obtain ⟨n, hread, rfl⟩ := Option.map_eq_some_iff.mp h
      obtain ⟨m, hm, hbounds⟩ := Option.bind_eq_some_iff.mp hread
      split at hbounds
      next hfits =>
          cases hbounds
          refine iff_of_true (keepsNumber_of_eq (readNumber_of_readInt hm) ?_)
            (not_overflows (by simp))
          have hmax := Int64.toInt_maxValue
          rw [Int64.toInt_ofInt_of_le hfits.1 (by omega)]
      next => cases hbounds
  | null | binary _ | array _ => cases h

end Value

namespace LogicalType

theorem cast?_of_isIntegral {type : LogicalType} (h : type.isIntegral = true) :
    type.cast? = castInteger? := by
  cases type with
  | id | serial | integer => rfl
  | _ => cases h

end LogicalType

namespace Schema

variable {s : Schema} {name : String} {field : Field} {type : LogicalType} {v cast : Value}

theorem castScalar_eq_ok_iff (htype : field.logicalType? = some type)
    (hintegral : type.isIntegral = true) :
    s.castScalar field v = .ok cast ↔ LogicalType.castInteger? v = some cast := by
  rw [castScalar, htype]
  simp only [LogicalType.cast?_of_isIntegral hintegral]
  cases LogicalType.castInteger? v with
  | none => simp
  | some w => simp

theorem keepsNumber_iff_of_castItem (htype : field.logicalType? = some type)
    (hintegral : type.isIntegral = true) (h : s.castItem field v = .ok cast) :
    v.KeepsNumber cast ↔ ¬ v.Overflows := by
  rw [castItem] at h
  split at h
  next hnull =>
      cases v with
      | null =>
          refine iff_of_true (fun q hq => ?_) (Value.not_overflows (by simp))
          cases hq
      | _ => cases hnull
  next => exact Value.keepsNumber_iff_of_castInteger ((castScalar_eq_ok_iff htype hintegral).mp h)

theorem cast_of_isArray (hfield : s.field? name = some field) (harray : field.isArray = true)
    {items : List Value} (hitems : s.itemsOf field v = .ok items) (h : s.cast name v = .ok cast) :
    ∃ casts, cast = .array casts ∧
      List.Forall₂ (fun item cast => s.castItem field item = .ok cast) items casts := by
  have hnull : ¬ v.isNull = true := by
    intro hnull
    cases v with
    | null => cases hitems
    | _ => cases hnull
  rw [cast_of_field hfield, if_neg hnull, if_pos harray] at h
  obtain ⟨items', hitems', h⟩ := attempt_bind_eq_ok.mp h
  obtain rfl := Except.ok.inj (hitems'.symm.trans hitems)
  obtain ⟨casts, hcasts, h⟩ := attempt_bind_eq_ok.mp h
  exact ⟨casts, (Except.ok.inj h).symm, attempt_mapM_eq_ok.mp hcasts⟩

theorem cast_of_not_isArray (hfield : s.field? name = some field) (harray : field.isArray = false) :
    s.cast name v = s.castItem field v := by
  rw [cast_of_field hfield, harray, if_neg Bool.false_ne_true, castItem]
  split
  next hnull =>
      cases v with
      | null => rfl
      | _ => cases hnull
  next => rfl

/-- A cast to an integral type that fails is refused for its value; one that succeeds leads to the
number of the value, or of every item of an array, unless it overflows; and then it does not fail,
but leads to the integer nearest to the number. -/
theorem cast_keepsNumber_iff (hfield : s.field? name = some field)
    (htype : field.logicalType? = some type) (hintegral : type.isIntegral = true) :
    (∀ v error, s.cast name v = .error error → error.kind = .mapping) ∧
    (field.isArray = false →
      (∀ v cast, s.cast name v = .ok cast → (v.KeepsNumber cast ↔ ¬ v.Overflows)) ∧
      (∀ x n, (Value.float x).number? = some ((n : Int) : ℚ) → Value.fitsInt64 n = false →
        s.cast name (.float x) = .ok (.integer (Value.nearestBound n)))) ∧
    (field.isArray = true → ∀ v items cast, s.itemsOf field v = .ok items →
      s.cast name v = .ok cast → ∃ casts, cast = .array casts ∧
        List.Forall₂ (fun item cast => item.KeepsNumber cast ↔ ¬ item.Overflows) items casts) := by
  refine ⟨fun v error h => s.fits_cast name v error h, fun harray => ⟨?_, ?_⟩, ?_⟩
  · intro v cast h
    rw [cast_of_not_isArray hfield harray] at h
    exact keepsNumber_iff_of_castItem htype hintegral h
  · intro x n hnumber hfits
    rw [cast_of_not_isArray hfield harray]
    refine (castScalar_eq_ok_iff htype hintegral).mpr ?_
    rw [LogicalType.castInteger?, Value.number?_float_iff.mp hnumber, Option.map_some,
      Value.ofIntClamp_of_not_fits hfits]
  · intro harray v items cast hitems h
    obtain ⟨casts, rfl, hcasts⟩ := cast_of_isArray hfield harray hitems h
    exact ⟨casts, rfl, hcasts.imp fun _ _ hcast =>
      keepsNumber_iff_of_castItem htype hintegral hcast⟩

def number : Field :=
  { name := "id", typeName := "serial" }

def numbered : Schema :=
  (named "Model").addField number

/-- The floating-point number `2 ^ 53` keeps its value as a key. -/
theorem cast_keepsNumber_numbered :
    numbered.field? "id" = some number ∧ number.logicalType? = some .serial ∧
      LogicalType.isIntegral .serial = true ∧ number.isArray = false ∧
      numbered.cast "id" (.float ⟨0x4340000000000000⟩) = .ok (.integer 9007199254740992) ∧
      (Value.float ⟨0x4340000000000000⟩).KeepsNumber (.integer 9007199254740992) := by
  have htype : number.logicalType? = some .serial := by decide
  have hcast : numbered.cast "id" (.float ⟨0x4340000000000000⟩) =
      .ok (.integer 9007199254740992) := rfl
  have hwhole : Binary64.whole? ⟨0x4340000000000000⟩ = some 9007199254740992 := by decide +kernel
  have hfield : numbered.field? "id" = some number := rfl
  obtain ⟨-, hscalar, -⟩ := cast_keepsNumber_iff hfield htype rfl
  refine ⟨hfield, htype, rfl, rfl, hcast, ((hscalar rfl).1 _ _ hcast).mpr ?_⟩
  rw [Value.overflows_float_iff hwhole]
  decide

/-- The floating-point number `2 ^ 63` becomes `2 ^ 63 - 1` as a key. -/
theorem cast_not_keepsNumber_numbered :
    numbered.cast "id" (.float ⟨0x43e0000000000000⟩) = .ok (.integer 9223372036854775807) ∧
      (Value.float ⟨0x43e0000000000000⟩).number? = some 9223372036854775808 ∧
      ¬ (Value.float ⟨0x43e0000000000000⟩).KeepsNumber (.integer 9223372036854775807) := by
  have hwhole : Binary64.whole? ⟨0x43e0000000000000⟩ = some 9223372036854775808 := by
    decide +kernel
  have hnumber := Value.number?_float_iff.mpr hwhole
  refine ⟨rfl, hnumber, fun hkeeps => ?_⟩
  obtain ⟨n, hn, hexact⟩ := hkeeps _ hnumber
  cases hn
  exact absurd (Int.cast_inj.mp hexact) (by decide)

end Schema

end RecordMapper
