import Mathlib.Data.List.TakeWhile
import RecordMapper.Number.Reading
import RecordMapper.Text.Blank

/-!
# Reading whole numbers

The decimal text of a whole number is read back as this number, also when blanks are cut off first: a
number has none.
-/

namespace RecordMapper

namespace Text

variable {text : List Char}

theorem trimChars_of_ends {first last : Char} (hfirst : isBlank first = false)
    (hlast : isBlank last = false) (text : List Char) :
    trimChars (first :: text ++ [last]) = first :: text ++ [last] := by
  have hfront : (first :: text ++ [last]).dropWhile isBlank = first :: text ++ [last] := by
    simp [hfirst]
  rw [trimChars, hfront, List.reverse_append, List.reverse_singleton, List.singleton_append,
    List.dropWhile_cons_of_neg (by simp [hlast]), List.reverse_cons, List.reverse_reverse]

theorem dropWhile_isBlank_eq_self (h : ∀ c ∈ text, isBlank c = false) :
    text.dropWhile isBlank = text := by
  cases text with
  | nil => rfl
  | cons c rest => rw [List.dropWhile_cons_of_neg (by simp [h c List.mem_cons_self])]

theorem trimChars_eq_self (h : ∀ c ∈ text, isBlank c = false) : trimChars text = text := by
  rw [trimChars, dropWhile_isBlank_eq_self h, dropWhile_isBlank_eq_self (by simpa using h),
    List.reverse_reverse]

theorem trimChars_ne_nil {c : Char} (hmem : c ∈ text) (hc : isBlank c = false) :
    trimChars text ≠ [] := by
  have hfront : c ∈ text.dropWhile isBlank := by
    rw [← List.takeWhile_append_dropWhile (p := isBlank) (l := text), List.mem_append] at hmem
    cases hmem with
    | inl hblank => cases hc.symm.trans (List.mem_takeWhile_imp hblank)
    | inr hrest => exact hrest
  intro h
  rw [trimChars, List.reverse_eq_nil_iff, List.dropWhile_eq_nil_iff] at h
  cases hc.symm.trans (h c (List.mem_reverse.mpr hfront))

theorem isBlank_of_isDigit {c : Char} (h : c.isDigit = true) : isBlank c = false := by
  obtain ⟨hlow, hhigh⟩ := Char.isDigit_iff_toNat.mp h
  rw [show '0'.toNat = 48 from rfl] at hlow
  rw [show '9'.toNat = 57 from rfl] at hhigh
  rw [isBlank, List.contains_eq_mem, decide_eq_false_iff_not]
  simp only [blankCodes, List.mem_cons, List.not_mem_nil, or_false]
  omega

end Text

/-! ## Whole numbers -/

theorem digitsValue_toDigits (n : Nat) : digitsValue (Nat.toDigits 10 n) = n := by
  have h : Nat.ofDigitChars 10 (Nat.toDigits 10 n) 0 = n :=
    Nat.ofDigitChars_toDigits (by decide) (by decide)
  rw [Nat.ofDigitChars_eq_foldl] at h
  simpa only [digitsValue, Nat.mul_comm] using h

theorem all_isDigit_toDigits (n : Nat) : (Nat.toDigits 10 n).all Char.isDigit = true :=
  List.all_eq_true.mpr fun _ hc => Nat.isDigit_of_mem_toDigits (by decide) (by decide) hc

theorem takeSign_toDigits (n : Nat) : takeSign (Nat.toDigits 10 n) = (false, Nat.toDigits 10 n) := by
  have hdigits := List.all_eq_true.mp (all_isDigit_toDigits n)
  unfold takeSign
  split
  next heq => cases hdigits '-' (heq ▸ List.mem_cons_self)
  next heq => cases hdigits '+' (heq ▸ List.mem_cons_self)
  next => rfl

theorem readInt_toString (n : Int) : readInt (toString n).toList = some n := by
  have hdigits : ∀ m : Nat, (!(Nat.toDigits 10 m).isEmpty &&
      (Nat.toDigits 10 m).all Char.isDigit) = true := by
    intro m
    simp [all_isDigit_toDigits, Nat.toDigits_ne_nil]
  cases n with
  | ofNat m =>
      have htext : (toString (Int.ofNat m)).toList = Nat.toDigits 10 m := Nat.toList_repr
      simp only [htext, readInt, takeSign_toDigits, hdigits, digitsValue_toDigits, if_true]
      rfl
  | negSucc m =>
      have htext : (toString (Int.negSucc m)).toList = '-' :: Nat.toDigits 10 (m + 1) := by
        change ("-" ++ (m + 1).repr).toList = _
        rw [String.toList_append, Nat.toList_repr]
        rfl
      simp only [htext, readInt, takeSign, hdigits, digitsValue_toDigits, if_true]
      rfl

theorem bounds_toInt (n : Int64) :
    Int64.minValue.toInt ≤ n.toInt ∧ n.toInt ≤ Int64.maxValue.toInt := by
  have hhigh := n.toInt_lt
  have hmax : Int64.maxValue.toInt = 2 ^ 63 - 1 := by decide
  exact ⟨n.le_toInt, by omega⟩

theorem readInt64_toString (n : Int64) : readInt64 (toString n.toInt).toList = some n := by
  rw [readInt64, readInt_toString]
  simp only [Option.bind_eq_bind, Option.bind_some, if_pos (bounds_toInt n), Int64.ofInt_toInt]

/-- An integer has only digits behind its sign, so that nothing is cut off. -/
theorem toString_clean (n : Int) : ∀ c ∈ (toString n).toList,
    Text.isBlank c = false ∧ c ≠ '"' ∧ c ≠ ',' := by
  have hdigits : ∀ m : Nat, ∀ c ∈ Nat.toDigits 10 m,
      Text.isBlank c = false ∧ c ≠ '"' ∧ c ≠ ',' := by
    intro m c hc
    have hdigit : c.isDigit = true := Nat.isDigit_of_mem_toDigits (by decide) (by decide) hc
    refine ⟨Text.isBlank_of_isDigit hdigit, ?_, ?_⟩
    · rintro rfl
      cases hdigit
    · rintro rfl
      cases hdigit
  intro c hc
  cases n with
  | ofNat m => exact hdigits m c (Nat.toList_repr ▸ hc)
  | negSucc m =>
      change c ∈ ("-" ++ (m + 1).repr).toList at hc
      rw [String.toList_append, Nat.toList_repr, List.mem_append] at hc
      cases hc with
      | inl hsign =>
          rw [List.mem_singleton.mp hsign]
          decide
      | inr hc => exact hdigits (m + 1) c hc

end RecordMapper
