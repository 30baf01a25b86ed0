import Mathlib.Algebra.Order.Field.Rat
import Mathlib.Data.Nat.Log

/-! The binary64 numbers nearest to integers, and what every rounding keeps. -/

namespace SparseLab.Library

/-- `float(number)` of a natural number in the range of binary64: the nearest multiple of the unit
in the last of 53 places, the even one of two. -/
def binary64 (number : Nat) : Nat :=
  let unit := 2 ^ (Nat.log2 number - 52)
  let quotient := number / unit
  let remainder := number % unit
  if 2 * remainder < unit ∨ 2 * remainder = unit ∧ quotient % 2 = 0 then quotient * unit
  else (quotient + 1) * unit

def exactLimit : Nat := 2 ^ 53

theorem binary64_of_le {number : Nat} (small : number ≤ exactLimit) : binary64 number = number := by
  rw [exactLimit] at small
  by_cases last : number = 2 ^ 53
  · rw [last]
    decide +kernel
  · have places : Nat.log2 number ≤ 52 := by
      by_cases zero : number = 0
      · rw [zero]
        decide
      · have below : number < 2 ^ 53 := by omega
        have few := (Nat.log2_lt zero).mpr below
        omega
    have unit : 2 ^ (Nat.log2 number - 52) = 1 := by rw [Nat.sub_eq_zero_of_le places, Nat.pow_zero]
    simp [binary64, unit, Nat.mod_one]

structure Rounding where
  round : ℚ → ℚ
  monotone : Monotone round
  zero : round 0 = 0

theorem Rounding.nonpositive (rounding : Rounding) {exact : ℚ} (below : exact ≤ 0) :
    rounding.round exact ≤ 0 :=
  le_of_le_of_eq (rounding.monotone below) rounding.zero

def Rounding.none : Rounding := ⟨id, monotone_id, rfl⟩

example : binary64 (2 ^ 53 + 1) = 2 ^ 53 := by decide +kernel

end SparseLab.Library
