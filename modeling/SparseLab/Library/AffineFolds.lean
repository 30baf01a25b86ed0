import Mathlib.Data.List.Basic
import Mathlib.Data.Nat.ModEq

/-! Folds whose step multiplies the accumulator, adds a value and reduces. -/

namespace SparseLab.Library

variable {multiplier offset modulus : Nat}

def affineStep (multiplier offset modulus accumulator value : Nat) : Nat :=
  (accumulator * multiplier + value + offset) % modulus

theorem affineStep_lt (positive : 0 < modulus) (accumulator value : Nat) :
    affineStep multiplier offset modulus accumulator value < modulus :=
  Nat.mod_lt _ positive

theorem affineStep_modEq_iff (coprime : Nat.Coprime multiplier modulus)
    {first second value : Nat} :
    affineStep multiplier offset modulus first value ≡
        affineStep multiplier offset modulus second value [MOD modulus] ↔
      first ≡ second [MOD modulus] := by
  simp only [affineStep, Nat.add_assoc, Nat.ModEq, Nat.mod_mod]
  constructor
  · intro same
    exact Nat.ModEq.cancel_right_of_coprime coprime.symm (Nat.ModEq.add_right_cancel' _ same)
  · intro same
    exact Nat.ModEq.add_right _ (Nat.ModEq.mul_right _ same)

theorem foldl_affineStep_modEq_iff (coprime : Nat.Coprime multiplier modulus)
    {values : List Nat} {first second : Nat} :
    values.foldl (affineStep multiplier offset modulus) first ≡
        values.foldl (affineStep multiplier offset modulus) second [MOD modulus] ↔
      first ≡ second [MOD modulus] := by
  induction values generalizing first second with
  | nil => rfl
  | cons value values ih => exact ih.trans (affineStep_modEq_iff coprime)

theorem foldl_affineStep_lt (positive : 0 < modulus) {values : List Nat} (filled : values ≠ [])
    (start : Nat) : values.foldl (affineStep multiplier offset modulus) start < modulus := by
  obtain ⟨front, value, rfl⟩ := (List.eq_nil_or_concat' values).resolve_left filled
  rw [List.foldl_append]
  exact affineStep_lt positive _ _

/-- Two sequences that differ in one value meet exactly where the modulus cannot tell the values
apart, whatever stands around them. -/
theorem foldl_affineStep_separates (coprime : Nat.Coprime multiplier modulus)
    (positive : 0 < modulus) {front back : List Nat} {start value other : Nat} :
    (front ++ value :: back).foldl (affineStep multiplier offset modulus) start =
        (front ++ other :: back).foldl (affineStep multiplier offset modulus) start ↔
      value ≡ other [MOD modulus] := by
  have reduced (values : List Nat) (filled : values ≠ []) :
      values.foldl (affineStep multiplier offset modulus) start % modulus =
        values.foldl (affineStep multiplier offset modulus) start :=
    Nat.mod_eq_of_lt (foldl_affineStep_lt positive filled start)
  rw [← reduced _ (by simp), ← reduced (front ++ other :: back) (by simp)]
  simp only [List.foldl_append, List.foldl_cons]
  refine (foldl_affineStep_modEq_iff coprime).trans ?_
  simp only [affineStep, Nat.ModEq, Nat.mod_mod, Nat.add_assoc]
  constructor
  · intro same
    exact Nat.ModEq.add_right_cancel' offset (Nat.ModEq.add_left_cancel' _ same)
  · intro same
    exact Nat.ModEq.add_left _ (Nat.ModEq.add_right _ same)

end SparseLab.Library
