import RecordMapper.Proofs.Condition.Frames
import RecordMapper.Proofs.Number.WholeWords

/-!
# Whole numbers from JSON in SQL

A whole number of 64 bits with a sign is written with its own digits.  One beyond them becomes the nearest
word, which is written as the shortest whole number that is rounded to it: `2 ^ 63 + 1`, for one, is
written as 9223372036854776000.
-/

namespace RecordMapper

namespace Dialect

variable {d : Dialect} {n : Int}

theorem wholeLiteral_of_fits (hlow : -2 ^ 63 ≤ n) (hhigh : n < 2 ^ 63) :
    d.wholeLiteral n = toString n := by
  have hmin : Int64.minValue.toInt = -2 ^ 63 := rfl
  have hmax : Int64.maxValue.toInt = 2 ^ 63 - 1 := rfl
  have hfits : Int64.minValue.toInt ≤ n ∧ n ≤ Int64.maxValue.toInt := by omega
  rw [wholeLiteral, Value.ofInt, if_pos hfits, literal, Int64.toInt_ofInt_of_le (by omega) (by omega)]

/-- A number beyond 64 bits with a sign is written as the shortest one that is rounded alike. -/
theorem exists_wholeLiteral (d : Dialect) (hlow : 2 ^ 63 ≤ n) (hhigh : n < 2 ^ 64) :
    ∃ m, (Binary64.ofInt n).IsShortest m ∧ d.wholeLiteral n = toString m := by
  obtain ⟨k, rfl⟩ := Int.eq_ofNat_of_zero_le (show 0 ≤ n by omega)
  have hmax : Int64.maxValue.toInt = 2 ^ 63 - 1 := rfl
  obtain ⟨m, hshortest, htext⟩ := Binary64.exists_isShortest (n := k) (by omega) (by omega)
  have hfinite := (Binary64.text_of_large (n := k) (by omega) (by omega)).1
  refine ⟨m, hshortest, ?_⟩
  rw [wholeLiteral, Value.ofInt, if_neg (by omega), literal, floatLiteral, if_pos hfinite, htext]
  rfl

theorem wholeLiteral_eq_toString_iff (hlow : -2 ^ 63 ≤ n) (hhigh : n < 2 ^ 64) :
    d.wholeLiteral n = toString n ↔ n < 2 ^ 63 ∨ (Binary64.ofInt n).IsShortest n := by
  rcases Int.lt_or_le n (2 ^ 63) with hfits | hlarge
  · exact iff_of_true (wholeLiteral_of_fits hlow hfits) (.inl hfits)
  · obtain ⟨m, hm, htext⟩ := exists_wholeLiteral d hlarge hhigh
    rw [htext, or_iff_right (by omega)]
    constructor
    · intro h
      have hread := readInt_toString m
      rw [h, readInt_toString, Option.some.injEq] at hread
      exact hread ▸ hm
    · intro hn
      rw [hm.unique hn]

end Dialect

namespace Condition

/--
A document with a whole number in one place has no text for any number, or the texts of all numbers are one
text around the literal.  The literal has the digits of the number if and only if the number has 64 bits with a
sign or is the shortest one that is rounded to its word; it always has the digits of the shortest one.
-/
theorem renders_whole_numbers {json : Int → Json} (h : Json.Carries json) (d : Dialect) :
    ((∃ before after, ∀ n,
        (ofJson (json n) >>= render d) = .ok (before ++ d.literal (Value.ofInt n) ++ after)) ∨
      ∀ n, ∃ error, (ofJson (json n) >>= render d) = .error error) ∧
    ∀ n : Int, -2 ^ 63 ≤ n → n < 2 ^ 64 →
      (d.literal (Value.ofInt n) = toString n ↔
        n < 2 ^ 63 ∨ (Binary64.ofInt n).IsShortest n) ∧
      (2 ^ 63 ≤ n → ∃ m, (Binary64.ofInt n).IsShortest m ∧
        d.literal (Value.ofInt n) = toString m) := by
  refine ⟨?_, fun n hlow hhigh => ⟨Dialect.wholeLiteral_eq_toString_iff hlow hhigh,
    fun hlarge => Dialect.exists_wholeLiteral d hlarge hhigh⟩⟩
  cases uniformly_render d h with
  | succeeds hframed htexts =>
      obtain ⟨before, after, hframed⟩ := hframed
      refine .inl ⟨before, after, fun n => ?_⟩
      rw [htexts n, hframed n]
      rfl
  | fails herrors => exact .inr herrors

def comparedWith (n : Int) : Json :=
  .object [("id", .integer n)]

theorem render_comparedWith (n : Int) :
    (ofJson (comparedWith n) >>= render .generic) =
      .ok ("\"id\" = " ++ Dialect.literal .generic (Value.ofInt n)) := by
  with_unfolding_all rfl

/-- The largest number of 64 bits with a sign has its own digits. -/
theorem renders_largest_signed : Json.Carries comparedWith ∧
    (ofJson (comparedWith 9223372036854775807) >>= render .generic) =
      .ok ("\"id\" = " ++ toString (9223372036854775807 : Int)) := by
  have hcarries : Json.Carries comparedWith := .member [] [] (by decide) .here
  have hliteral := ((renders_whole_numbers hcarries .generic).2 9223372036854775807
    (by decide) (by decide)).1
  exact ⟨hcarries, by rw [render_comparedWith, hliteral.mpr (.inl (by decide))]⟩

/-- A number that 64 bits hold only without a sign is compared with another one. -/
theorem renders_other_number :
    (ofJson (comparedWith 9223372036854775809) >>= render .generic) =
        .ok ("\"id\" = " ++ "9223372036854776000") ∧
      ("9223372036854776000" : String) ≠ toString (9223372036854775809 : Int) := by
  have hliteral : Dialect.literal .generic (Value.ofInt 9223372036854775809) =
      "9223372036854776000" := by decide +kernel
  exact ⟨by rw [render_comparedWith, hliteral], by decide⟩

end Condition

end RecordMapper
