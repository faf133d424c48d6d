/-!
# Powers of two and of ten

The scales of binary and of decimal numbers.
-/

namespace RecordMapper

def twoPow (k : Nat) : Nat :=
  Nat.pow 2 k

def tenPow (k : Nat) : Nat :=
  Nat.pow 10 k

theorem twoPow_zero : twoPow 0 = 1 :=
  rfl

theorem twoPow_succ (k : Nat) : twoPow (k + 1) = twoPow k * 2 :=
  rfl

theorem tenPow_zero : tenPow 0 = 1 :=
  rfl

theorem tenPow_succ (k : Nat) : tenPow (k + 1) = tenPow k * 10 :=
  rfl

theorem twoPow_pos (k : Nat) : 0 < twoPow k := by
  induction k with
  | zero => decide
  | succ k ih => rw [twoPow_succ]; omega

theorem tenPow_pos (k : Nat) : 0 < tenPow k := by
  induction k with
  | zero => decide
  | succ k ih => rw [tenPow_succ]; omega

end RecordMapper
