import Mathlib.Algebra.Order.BigOperators.Group.Finset
import Mathlib.Tactic.Ring

/-! A supply in positions of given sizes, and what a reader under a budget takes of it. -/

namespace SparseLab.Library

section

variable (size : Nat → Nat)

/-- What `count` positions from `start` on hold. -/
def stretch (start count : Nat) : Nat :=
  ∑ index ∈ Finset.range count, size (start + index)

def supplied (count : Nat) : Nat :=
  stretch size 0 count

@[simp] theorem stretch_zero (start : Nat) : stretch size start 0 = 0 := rfl

theorem stretch_succ (start count : Nat) :
    stretch size start (count + 1) = stretch size start count + size (start + count) :=
  Finset.sum_range_succ _ _

theorem stretch_cons (start count : Nat) :
    stretch size start (count + 1) = size start + stretch size (start + 1) count := by
  rw [stretch, Finset.sum_range_succ', Nat.add_comm]
  simp only [stretch, Nat.add_zero, Nat.add_right_comm start 1, Nat.add_assoc]

theorem stretch_add (start first more : Nat) :
    stretch size start (first + more) =
      stretch size start first + stretch size (start + first) more := by
  induction more with
  | zero => rfl
  | succ more ih =>
    rw [← Nat.add_assoc, stretch_succ, stretch_succ, ih, Nat.add_assoc, Nat.add_assoc]

theorem stretch_mono (start : Nat) {first last : Nat} (within : first ≤ last) :
    stretch size start first ≤ stretch size start last := by
  obtain ⟨more, rfl⟩ := Nat.exists_eq_add_of_le within
  rw [stretch_add]
  exact Nat.le_add_right _ _

theorem supplied_add (position count : Nat) :
    supplied size (position + count) = supplied size position + stretch size position count := by
  rw [supplied, stretch_add, Nat.zero_add]
  rfl

@[simp] theorem supplied_zero : supplied size 0 = 0 := rfl

theorem supplied_succ (position : Nat) :
    supplied size (position + 1) = supplied size position + size position := by
  rw [supplied_add, stretch_succ, stretch_zero, Nat.zero_add, Nat.add_zero]

theorem supplied_mono {first last : Nat} (within : first ≤ last) :
    supplied size first ≤ supplied size last :=
  stretch_mono size 0 within

theorem supplied_strict (positive : ∀ position, 0 < size position) {first last : Nat}
    (before : first < last) : supplied size first < supplied size last := by
  have next := supplied_mono size before
  have step := positive first
  rw [Nat.succ_eq_add_one, supplied_succ] at next
  omega

theorem supplied_passes {period usable : Nat}
    (whole : ∀ pass, stretch size (pass * period) period = usable) (passes rest : Nat) :
    supplied size (passes * period + rest) =
      passes * usable + stretch size (passes * period) rest := by
  rw [supplied_add]
  congr 1
  induction passes with
  | zero => simp
  | succ passes ih => rw [Nat.add_one_mul, supplied_add, ih, whole, Nat.add_one_mul]

end

/-- A reader at `position` with `taken` of its budget, none of it read past the budget's end. -/
structure Metered (size : Nat → Nat) (budget position taken : Nat) : Prop where
  taken_eq : taken = min budget (supplied size position)
  unspent : ∀ fewer < position, supplied size fewer < budget

namespace Metered

variable {size : Nat → Nat} {budget position taken : Nat}

theorem start : Metered size budget 0 0 := by
  constructor
  · simp
  · intro fewer below
    omega

theorem advance (metered : Metered size budget position taken) {count more : Nat}
    (open' : taken < budget) (counted : more = min (budget - taken) (stretch size position count))
    (within : ∀ fewer < count, stretch size position fewer < budget - taken) :
    Metered size budget (position + count) (taken + more) := by
  have before : taken = supplied size position := by
    have value := metered.taken_eq
    omega
  constructor
  · rw [counted, supplied_add]
    omega
  · intro fewer below
    by_cases earlier : fewer < position
    · exact metered.unspent fewer earlier
    · obtain ⟨rest, rfl⟩ := Nat.exists_eq_add_of_le (Nat.le_of_not_lt earlier)
      have left := within rest (by omega)
      rw [supplied_add]
      omega

theorem taken_le (metered : Metered size budget position taken) : taken ≤ budget := by
  have value := metered.taken_eq
  omega

theorem whole (metered : Metered size budget position taken) (open' : taken < budget) :
    taken = supplied size position := by
  have value := metered.taken_eq
  omega

theorem clipped (metered : Metered size budget position taken) :
    ∃ clipped, taken + clipped = supplied size position ∧
      (0 < clipped → taken = budget ∧ 0 < position ∧ clipped < size (position - 1)) := by
  have value := metered.taken_eq
  refine ⟨supplied size position - taken, by omega, ?_⟩
  intro some
  cases position with
  | zero => simp at some
  | succ position =>
    have left := metered.unspent position (Nat.lt_succ_self position)
    rw [supplied_succ] at value some ⊢
    rw [Nat.add_sub_cancel]
    omega

theorem spent_iff (metered : Metered size budget position taken) {least : Nat}
    (reaches : budget ≤ supplied size least)
    (first : ∀ fewer < least, supplied size fewer < budget) :
    position ≤ least ∧ (taken = budget ↔ position = least) := by
  have value := metered.taken_eq
  have atMost : position ≤ least := by
    by_contra past
    have left := metered.unspent least (by omega)
    omega
  refine ⟨atMost, ?_⟩
  constructor
  · intro spent
    by_contra other
    have left := first position (by omega)
    omega
  · rintro rfl
    omega

end Metered

end SparseLab.Library
