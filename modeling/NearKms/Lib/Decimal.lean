import Mathlib.Data.List.Basic

/-!
# Decimal literals

Reading a number of a fixed width from its digits: no sign, no fraction, no overflow.
-/

namespace Decimal

/-- The number below `bound` that the literal denotes. -/
def read (bound : Nat) (literal : String) : Option Nat :=
  let n := Nat.ofDigitChars 10 literal.toList 0
  if literal.toList ≠ [] ∧ literal.toList.all Char.isDigit ∧ n < bound then some n else none

theorem repr_ne_nil (n : Nat) : n.repr.toList ≠ [] := by
  rw [Nat.toList_repr]
  exact Nat.toDigits_ne_nil

theorem all_isDigit_repr (n : Nat) : n.repr.toList.all Char.isDigit = true := by
  rw [Nat.toList_repr, List.all_eq_true]
  intro c hc
  exact Nat.isDigit_of_mem_toDigits (by omega) (by omega) hc

/-- A number that was written is read. -/
theorem read_repr {bound n : Nat} (h : n < bound) : read bound n.repr = some n := by
  have hvalue : Nat.ofDigitChars 10 n.repr.toList 0 = n := by
    rw [Nat.toList_repr, Nat.ofDigitChars_ten_toDigits]
  simp only [read, hvalue]
  exact if_pos ⟨repr_ne_nil n, all_isDigit_repr n, h⟩

end Decimal
