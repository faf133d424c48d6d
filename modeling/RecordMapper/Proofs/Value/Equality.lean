import RecordMapper.Proofs.Value.Agreement

/-!
# Equality of values

Equality of values is symmetric and transitive, but no number that is undefined equals itself.
Equal values have the same key.
-/

namespace RecordMapper

namespace Binary64

theorem equals_symm {x y : Binary64} (h : x.equals y = true) : y.equals x = true := by
  obtain ⟨hx, hy, rfl | ⟨hxzero, hyzero⟩⟩ := equals_iff.mp h
  · exact h
  · exact equals_iff.mpr ⟨hy, hx, .inr ⟨hyzero, hxzero⟩⟩

theorem equals_trans {x y z : Binary64} (hxy : x.equals y = true) (hyz : y.equals z = true) :
    x.equals z = true := by
  obtain ⟨hx, -, rfl | ⟨hxzero, hyzero⟩⟩ := equals_iff.mp hxy
  · exact hyz
  · obtain ⟨-, hz, rfl | ⟨-, hzzero⟩⟩ := equals_iff.mp hyz
    · exact hxy
    · exact equals_iff.mpr ⟨hx, hz, .inr ⟨hxzero, hzzero⟩⟩

end Binary64

namespace Value

theorem key?_float_eq_of_equals {x y : Binary64} (h : x.equals y = true) :
    (float x).key? = (float y).key? := by
  have hwhole := Binary64.whole?_eq_of_equals h
  cases hy : y.whole? with
  | some n => simp only [key?, hwhole, hy]
  | none =>
      obtain ⟨-, -, rfl | ⟨-, hzero⟩⟩ := Binary64.equals_iff.mp h
      · rfl
      · rw [Binary64.whole?_of_isZero hzero] at hy
        cases hy

theorem eq_of_equals {a b : Value} (hfloat : ∀ x, a ≠ float x) (harray : ∀ items, a ≠ array items)
    (h : a.equals b = true) : a = b := by
  cases a with
  | null => cases b <;> first | rfl | cases h
  | bool p =>
      cases b with
      | bool q => rw [beq_iff_eq.mp h]
      | _ => cases h
  | integer m =>
      cases b with
      | integer n => rw [beq_iff_eq.mp h]
      | _ => cases h
  | float x => exact absurd rfl (hfloat x)
  | text s =>
      cases b with
      | text t => rw [beq_iff_eq.mp h]
      | _ => cases h
  | binary bytes =>
      cases b with
      | binary others => rw [beq_iff_eq.mp h]
      | _ => cases h
  | array items => exact absurd rfl (harray items)

mutual

theorem equals_symm : (a b : Value) → a.equals b = true → b.equals a = true
  | float x, b, h => by
      cases b with
      | float y => exact Binary64.equals_symm h
      | _ => cases h
  | array as, b, h => by
      cases b with
      | array bs => exact equalsAll_symm as bs h
      | _ => cases h
  | null, b, h | bool _, b, h | integer _, b, h | text _, b, h | binary _, b, h => by
      obtain rfl := eq_of_equals (by simp) (by simp) h
      exact h

theorem equalsAll_symm : (as bs : List Value) → equalsAll as bs = true → equalsAll bs as = true
  | [], bs, h => by cases bs <;> first | rfl | cases h
  | a :: as, bs, h => by
      cases bs with
      | nil => cases h
      | cons b bs =>
          obtain ⟨hfirst, hrest⟩ := Bool.and_eq_true_iff.mp h
          exact Bool.and_eq_true_iff.mpr ⟨equals_symm a b hfirst, equalsAll_symm as bs hrest⟩

end

mutual

theorem equals_trans : (a b c : Value) → a.equals b = true → b.equals c = true →
    a.equals c = true
  | float x, b, c, hab, hbc => by
      cases b with
      | float y =>
          cases c with
          | float z => exact Binary64.equals_trans hab hbc
          | _ => cases hbc
      | _ => cases hab
  | array as, b, c, hab, hbc => by
      cases b with
      | array bs =>
          cases c with
          | array cs => exact equalsAll_trans as bs cs hab hbc
          | _ => cases hbc
      | _ => cases hab
  | null, b, c, hab, hbc | bool _, b, c, hab, hbc | integer _, b, c, hab, hbc
  | text _, b, c, hab, hbc | binary _, b, c, hab, hbc => by
      obtain rfl := eq_of_equals (by simp) (by simp) hab
      exact hbc

theorem equalsAll_trans : (as bs cs : List Value) → equalsAll as bs = true →
    equalsAll bs cs = true → equalsAll as cs = true
  | [], bs, cs, hab, hbc => by
      cases bs with
      | nil => exact hbc
      | cons b bs => cases hab
  | a :: as, bs, cs, hab, hbc => by
      cases bs with
      | nil => cases hab
      | cons b bs =>
          cases cs with
          | nil => cases hbc
          | cons c cs =>
              obtain ⟨hab, habs⟩ := Bool.and_eq_true_iff.mp hab
              obtain ⟨hbc, hbcs⟩ := Bool.and_eq_true_iff.mp hbc
              exact Bool.and_eq_true_iff.mpr
                ⟨equals_trans a b c hab hbc, equalsAll_trans as bs cs habs hbcs⟩

end

mutual

theorem key?_eq_of_equals : (a b : Value) → a.equals b = true → a.key? = b.key?
  | float x, b, h => by
      cases b with
      | float y => exact key?_float_eq_of_equals h
      | _ => cases h
  | array as, b, h => by
      cases b with
      | array bs => rw [key?, key?, keys?_eq_of_equalsAll as bs h]
      | _ => cases h
  | null, b, h | bool _, b, h | integer _, b, h | text _, b, h | binary _, b, h => by
      obtain rfl := eq_of_equals (by simp) (by simp) h
      rfl

theorem keys?_eq_of_equalsAll : (as bs : List Value) → equalsAll as bs = true →
    keys? as = keys? bs
  | [], bs, h => by cases bs <;> first | rfl | cases h
  | a :: as, bs, h => by
      cases bs with
      | nil => cases h
      | cons b bs =>
          obtain ⟨hfirst, hrest⟩ := Bool.and_eq_true_iff.mp h
          rw [keys?, keys?, key?_eq_of_equals a b hfirst, keys?_eq_of_equalsAll as bs hrest]

end

end Value

end RecordMapper
