import Mathlib.Data.List.Basic
import Mathlib.Data.Nat.Log
import Mathlib.Tactic.NormNum

/-! Zero-padded decimal numerals and their order as texts. -/

namespace SparseLab.Library

/-- The last `width` decimal digits of a number. -/
def fixedDigits : (width number : Nat) → List Char
  | 0, _ => []
  | width + 1, number => Nat.digitChar (number / 10 ^ width % 10) :: fixedDigits width number

/-- A number with at least `width` digits: wider numbers are written in full. -/
def zeroPadded (width number : Nat) : List Char :=
  fixedDigits (max width (Nat.log 10 number + 1)) number

@[simp] theorem length_fixedDigits (width number : Nat) :
    (fixedDigits width number).length = width := by
  induction width with
  | zero => rfl
  | succ width ih => simp [fixedDigits, ih]

theorem digitChar_lt {first second : Nat} (smaller : first < second) (digit : second < 10) :
    Nat.digitChar first < Nat.digitChar second := by
  have all : ∀ first second : Fin 10, first < second →
      Nat.digitChar first < Nat.digitChar second := by decide
  exact all ⟨first, by omega⟩ ⟨second, digit⟩ smaller

theorem fixedDigits_lt {width first second : Nat}
    (smaller : first % 10 ^ width < second % 10 ^ width) :
    fixedDigits width first < fixedDigits width second := by
  induction width with
  | zero =>
    rw [Nat.pow_zero, Nat.mod_one, Nat.mod_one] at smaller
    omega
  | succ width ih =>
    rw [Nat.mod_pow_succ, Nat.mod_pow_succ] at smaller
    have firstRest := Nat.mod_lt first (Nat.pow_pos (n := width) (by decide : 0 < 10))
    rw [fixedDigits, fixedDigits, List.cons_lt_cons_iff]
    rcases Nat.lt_trichotomy (first / 10 ^ width % 10) (second / 10 ^ width % 10) with
      below | same | above
    · exact .inl (digitChar_lt below (Nat.mod_lt _ (by decide)))
    · refine .inr ⟨by rw [same], ih ?_⟩
      rw [same] at smaller
      omega
    · have secondRest := Nat.mod_lt second (Nat.pow_pos (n := width) (by decide : 0 < 10))
      have gap := Nat.mul_le_mul_left (10 ^ width) above
      rw [Nat.mul_succ] at gap
      omega

theorem lt_pow_log (number : Nat) (width : Nat) :
    number < 10 ^ max width (Nat.log 10 number + 1) := by
  have bound := Nat.lt_pow_succ_log_self (by decide : 1 < 10) number
  exact lt_of_lt_of_le bound (Nat.pow_le_pow_right (by decide) (Nat.le_max_right _ _))

theorem zeroPadded_of_lt {width number : Nat} (positive : 0 < width)
    (narrow : number < 10 ^ width) : zeroPadded width number = fixedDigits width number := by
  have digits : Nat.log 10 number + 1 ≤ width := by
    by_cases zero : number = 0
    · subst zero
      rw [Nat.log_zero_right]
      omega
    · exact Nat.log_lt_of_lt_pow zero narrow
  rw [zeroPadded, Nat.max_eq_left digits]

theorem length_zeroPadded_eq {width number : Nat} (positive : 0 < width) :
    (zeroPadded width number).length = width ↔ number < 10 ^ width := by
  constructor
  · intro exact'
    have bound := lt_pow_log number width
    rw [zeroPadded, length_fixedDigits] at exact'
    rwa [exact'] at bound
  · intro narrow
    rw [zeroPadded_of_lt positive narrow, length_fixedDigits]

theorem zeroPadded_lt {width first second : Nat} (positive : 0 < width) (smaller : first < second)
    (narrow : second < 10 ^ width) : zeroPadded width first < zeroPadded width second := by
  rw [zeroPadded_of_lt positive narrow, zeroPadded_of_lt positive (by omega)]
  apply fixedDigits_lt
  rw [Nat.mod_eq_of_lt narrow, Nat.mod_eq_of_lt (by omega)]
  exact smaller

theorem zeroPadded_injective {width first second : Nat}
    (same : zeroPadded width first = zeroPadded width second) : first = second := by
  have widths := congrArg List.length same
  rw [zeroPadded, zeroPadded, length_fixedDigits, length_fixedDigits] at widths
  rw [zeroPadded, zeroPadded, widths] at same
  have firstBound := lt_pow_log first width
  have secondBound := lt_pow_log second width
  rw [widths] at firstBound
  rcases Nat.lt_trichotomy first second with below | equal | above
  · have ordered : fixedDigits (max width (Nat.log 10 second + 1)) first <
        fixedDigits (max width (Nat.log 10 second + 1)) second := by
      apply fixedDigits_lt
      rwa [Nat.mod_eq_of_lt firstBound, Nat.mod_eq_of_lt secondBound]
    exact absurd (same ▸ ordered) (List.lt_irrefl _)
  · exact equal
  · have ordered : fixedDigits (max width (Nat.log 10 second + 1)) second <
        fixedDigits (max width (Nat.log 10 second + 1)) first := by
      apply fixedDigits_lt
      rwa [Nat.mod_eq_of_lt firstBound, Nat.mod_eq_of_lt secondBound]
    exact absurd (same ▸ ordered) (List.lt_irrefl _)

theorem zeroPadded_million_lt (suffix other : List Char) :
    zeroPadded 6 (10 ^ 6) ++ suffix < zeroPadded 6 (10 ^ 6 - 1) ++ other := by
  have last : zeroPadded 6 (10 ^ 6 - 1) = '9' :: List.replicate 5 '9' := by
    have narrow : 10 ^ 6 - 1 < 10 ^ 6 := by norm_num
    rw [zeroPadded_of_lt (by decide) narrow]
    norm_num [fixedDigits, Nat.digitChar, List.replicate]
  have next : zeroPadded 6 (10 ^ 6) = '1' :: List.replicate 6 '0' := by
    have digits : Nat.log 10 (10 ^ 6) = 6 := Nat.log_pow (by decide) 6
    rw [zeroPadded, digits]
    norm_num [fixedDigits, Nat.digitChar, List.replicate]
  rw [last, next, List.cons_append, List.cons_append, List.cons_lt_cons_iff]
  exact .inl (by decide)

theorem append_lt_append {first second : List Char} (same : first.length = second.length)
    (smaller : first < second) (suffix other : List Char) :
    first ++ suffix < second ++ other := by
  induction first generalizing second with
  | nil =>
    cases second with
    | nil => exact absurd smaller (List.lt_irrefl _)
    | cons _ _ => simp at same
  | cons char first ih =>
    cases second with
    | nil => simp at same
    | cons char' second =>
      rw [List.cons_append, List.cons_append, List.cons_lt_cons_iff]
      rcases List.cons_lt_cons_iff.mp smaller with head | ⟨equal, tail⟩
      · exact .inl head
      · exact .inr ⟨equal, ih (by simpa using same) tail⟩

end SparseLab.Library
