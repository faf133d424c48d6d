import RecordMapper.Proofs.Number.Uniqueness
import RecordMapper.Proofs.Schema.IntegralCasts

/-!
# What values have one key

Two values have one key if and only if they are one number, one text, one list of bytes, or arrays whose
items have one key each.  The exceptions are the whole numbers from `2 ^ 63 - 1` on, which all have the key
of the largest integer of 64 bits, and those down from `-2 ^ 63`, which all have the key of the least.
-/

namespace RecordMapper

namespace Value

/-- The exact number that a value is.  A text is none, even if it denotes one. -/
def rational? : Value → Option ℚ
  | .text _ => none
  | v => v.number?

/-- Values that are one number in any form, or that have the same contents. -/
inductive Identical : Value → Value → Prop
  | number {v w : Value} {q : ℚ} (left : v.rational? = some q) (right : w.rational? = some q) :
      Identical v w
  | text (s : String) : Identical (.text s) (.text s)
  | binary (bytes : List UInt8) : Identical (.binary bytes) (.binary bytes)
  | array {as bs : List Value} (items : List.Forall₂ (fun a b => a.key? = b.key?) as bs) :
      Identical (.array as) (.array bs)

/-- Different whole numbers that are both at or beyond the same bound of 64 bits. -/
def Collides (v w : Value) : Prop :=
  ∃ m n : Int, v.rational? = some (m : ℚ) ∧ w.rational? = some (n : ℚ) ∧ m ≠ n ∧
    (2 ^ 63 - 1 ≤ m ∧ 2 ^ 63 - 1 ≤ n ∨ m ≤ -2 ^ 63 ∧ n ≤ -2 ^ 63)

variable {v w : Value} {x y : Binary64} {m n : Int} {q : ℚ}

/-! ## Numbers -/

theorem rational?_eq_iff : v.rational? = some (n : ℚ) ↔ v.whole? = some n := by
  cases v with
  | bool b => cases b <;> simp [rational?, number?, whole?, eq_comm]
  | integer m => simp [rational?, number?, whole?]
  | float x => exact number?_float_iff
  | null | text _ | binary _ | array _ => simp [rational?, number?, whole?]

theorem rational?_of_isFinite (hfinite : x.isFinite = true) :
    (float x).rational? = some x.value :=
  if_pos hfinite

theorem cases_of_rational? (h : v.rational? = some q) :
    (∃ n : Int, v.whole? = some n ∧ q = n) ∨
      ∃ x, v = .float x ∧ x.whole? = none ∧ q = x.value := by
  cases hwhole : v.whole? with
  | some n =>
      rw [rational?_eq_iff.mpr hwhole] at h
      exact .inl ⟨n, rfl, (Option.some.inj h).symm⟩
  | none =>
      cases v with
      | float x =>
          have hfinite := isFinite_of_number? h
          rw [rational?_of_isFinite hfinite] at h
          exact .inr ⟨x, rfl, hwhole, (Option.some.inj h).symm⟩
      | bool b => cases hwhole
      | integer n => cases hwhole
      | null | text _ | binary _ | array _ => cases h

theorem value_ne_of_whole?_eq_none (hfinite : x.isFinite = true) (h : x.whole? = none) :
    x.value ≠ n := by
  intro hvalue
  rw [(Binary64.whole?_eq_some_iff hfinite n).mpr hvalue] at h
  cases h

theorem value_inj_of_fraction (hfinite : x.isFinite = true) (h : x.whole? = none) :
    x.value = y.value ↔ x = y := by
  rw [Binary64.value_eq_iff, or_iff_left]
  rintro ⟨hzero, -⟩
  exact value_ne_of_whole?_eq_none (n := 0) hfinite h (hzero.trans Int.cast_zero.symm)

/-- Different numbers are clamped to one integer only if both are at or beyond the same bound. -/
theorem ofIntClamp_eq_iff : Int64.ofIntClamp m = Int64.ofIntClamp n ↔
    m = n ∨ (2 ^ 63 - 1 ≤ m ∧ 2 ^ 63 - 1 ≤ n ∨ m ≤ -2 ^ 63 ∧ n ≤ -2 ^ 63) := by
  have hclamp : ∀ k : Int, (Int64.ofIntClamp k).toInt = max (-2 ^ 63) (min k (2 ^ 63 - 1)) := by
    intro k
    have hmin : Int64.minValue.toInt = -2 ^ 63 := rfl
    have hmax : Int64.maxValue.toInt = 2 ^ 63 - 1 := rfl
    cases hfits : fitsInt64 k with
    | true =>
        rw [toInt_ofIntClamp_iff.mpr hfits]
        rw [fitsInt64_iff] at hfits
        omega
    | false =>
        rw [ofIntClamp_of_not_fits hfits, nearestBound]
        rw [← Bool.not_eq_true, fitsInt64_iff] at hfits
        split <;> omega
  rw [← Int64.toInt_inj, hclamp, hclamp]
  omega

/-! ## Keys of each form -/

theorem exists_of_key?_integer {k : Int64} (h : v.key? = some (.integer k)) :
    ∃ n, v.whole? = some n ∧ Int64.ofIntClamp n = k := by
  cases hwhole : v.whole? with
  | none => exact absurd h (key?_ne_integer hwhole k)
  | some n =>
      rw [key?_of_whole? hwhole] at h
      cases h
      exact ⟨n, rfl, rfl⟩

theorem exists_of_key?_float {bits : UInt64} (h : v.key? = some (.float bits)) :
    v = .float ⟨bits⟩ ∧ Binary64.whole? ⟨bits⟩ = none := by
  cases v with
  | float x =>
      cases hwhole : x.whole? with
      | none =>
          rw [key?_of_fraction hwhole] at h
          cases h
          exact ⟨rfl, hwhole⟩
      | some n => simp [key?, hwhole] at h
  | _ => simp [key?] at h

theorem eq_of_key?_text {s : String} (h : v.key? = some (.text s)) : v = .text s := by
  cases v with
  | text t => cases h; rfl
  | float x => cases hwhole : x.whole? <;> simp [key?, hwhole] at h
  | _ => simp [key?] at h

theorem eq_of_key?_binary {bytes : List UInt8} (h : v.key? = some (.binary bytes)) :
    v = .binary bytes := by
  cases v with
  | binary others => cases h; rfl
  | float x => cases hwhole : x.whole? <;> simp [key?, hwhole] at h
  | _ => simp [key?] at h

theorem exists_of_key?_composite {parts : List Key} (h : v.key? = some (.composite parts)) :
    ∃ items, v = .array items ∧ keys? items = some parts := by
  cases v with
  | array items =>
      obtain ⟨keys, hkeys, hparts⟩ := Option.map_eq_some_iff.mp h
      cases hparts
      exact ⟨items, rfl, hkeys⟩
  | float x => cases hwhole : x.whole? <;> simp [key?, hwhole] at h
  | _ => simp [key?] at h

theorem keys?_eq_some_iff {items : List Value} {keys : List Key} :
    keys? items = some keys ↔ List.Forall₂ (fun item key => item.key? = some key) items keys := by
  induction items generalizing keys with
  | nil =>
      rw [keys?, List.forall₂_nil_left_iff, Option.some.injEq, eq_comm]
  | cons item rest ih =>
      rw [List.forall₂_cons_left_iff]
      constructor
      · intro h
        rw [keys?] at h
        split at h
        next key keys hkey hkeys =>
            cases h
            exact ⟨key, keys, hkey, ih.mp hkeys, rfl⟩
        next => cases h
      · rintro ⟨key, keys, hkey, hkeys, rfl⟩
        rw [keys?, hkey, ih.mpr hkeys]

/-! ## One key -/

theorem key?_eq_of_identical {key : Key} (hv : v.key? = some key) (h : v.Identical w) :
    w.key? = some key := by
  cases h with
  | number left right =>
      rcases cases_of_rational? left with ⟨m, hm, rfl⟩ | ⟨x, rfl, hx, rfl⟩
      · rw [← hv, key?_of_whole? hm, key?_of_whole? (rational?_eq_iff.mp right)]
      · -- A number with a fraction is not whole, and no other word denotes it.
        have hfinite := isFinite_of_number? left
        rcases cases_of_rational? right with ⟨n, -, hn⟩ | ⟨y, rfl, -, hy⟩
        · exact absurd hn (value_ne_of_whole?_eq_none hfinite hx)
        · rw [← (value_inj_of_fraction hfinite hx).mp hy, hv]
  | text s => exact hv
  | binary bytes => exact hv
  | array items =>
      obtain ⟨keys, hkeys, rfl⟩ := Option.map_eq_some_iff.mp hv
      have hsame := forall₂_comp items.flip (keys?_eq_some_iff.mp hkeys)
        (T := fun b key => b.key? = some key) fun b a key hab ha => hab ▸ ha
      rw [key?, keys?_eq_some_iff.mpr hsame]
      rfl

theorem key?_eq_of_collides (h : v.Collides w) : v.key? = w.key? := by
  obtain ⟨m, n, hm, hn, -, hbounds⟩ := h
  rw [key?_of_whole? (rational?_eq_iff.mp hm), key?_of_whole? (rational?_eq_iff.mp hn),
    ofIntClamp_eq_iff.mpr (.inr hbounds)]

theorem identical_or_collides {key : Key} (hv : v.key? = some key) (hw : w.key? = some key)
    (hfinite : ∀ x, v = .float x → x.isFinite = true) : v.Identical w ∨ v.Collides w := by
  cases key with
  | integer k =>
      obtain ⟨m, hm, hclamp⟩ := exists_of_key?_integer hv
      obtain ⟨n, hn, rfl⟩ := exists_of_key?_integer hw
      rw [← rational?_eq_iff] at hm hn
      by_cases hsame : m = n
      · exact .inl (.number hm (hsame ▸ hn))
      · exact .inr ⟨m, n, hm, hn, hsame, (ofIntClamp_eq_iff.mp hclamp).resolve_left hsame⟩
  | float bits =>
      obtain ⟨rfl, -⟩ := exists_of_key?_float hv
      obtain ⟨rfl, -⟩ := exists_of_key?_float hw
      have hnumber := rational?_of_isFinite (hfinite _ rfl)
      exact .inl (.number hnumber hnumber)
  | text s =>
      obtain rfl := eq_of_key?_text hv
      obtain rfl := eq_of_key?_text hw
      exact .inl (.text s)
  | binary bytes =>
      obtain rfl := eq_of_key?_binary hv
      obtain rfl := eq_of_key?_binary hw
      exact .inl (.binary bytes)
  | composite parts =>
      obtain ⟨as, rfl, has⟩ := exists_of_key?_composite hv
      obtain ⟨bs, rfl, hbs⟩ := exists_of_key?_composite hw
      refine .inl (.array ?_)
      exact forall₂_comp (keys?_eq_some_iff.mp has) (keys?_eq_some_iff.mp hbs).flip
        fun a key b ha hb => ha.trans hb.symm

theorem not_identical_of_collides (h : v.Collides w) : ¬ v.Identical w := by
  obtain ⟨m, n, hm, hn, hne, -⟩ := h
  intro hidentical
  cases hidentical with
  | number left right =>
      rw [hm] at left
      rw [hn] at right
      exact hne (Int.cast_inj.mp (Option.some.inj (left.trans right.symm)))
  | text | binary | array => cases hm

end Value

end RecordMapper
