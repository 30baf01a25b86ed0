import Mathlib.Data.List.Basic
import Mathlib.Data.List.TakeWhile
import Mathlib.Order.Lattice

/-! Binary search for the cut of an ordered range. -/

namespace SparseLab.Library

/-- The first index from `left` on, short of `right`, that is not below the cut. -/
def bisect (below : Nat → Bool) (left right : Nat) : Nat :=
  if left < right then
    let middle := (left + right) / 2
    if below middle then bisect below (middle + 1) right else bisect below left middle
  else left
termination_by right - left

theorem bisect_eq {below : Nat → Bool} {cut : Nat} (left right : Nat)
    (partition : ∀ index, left ≤ index → index < right → (below index = true ↔ index < cut))
    (low : left ≤ cut) (high : cut ≤ right) : bisect below left right = cut := by
  induction left, right using bisect.induct below with
  | case1 left right more middle found ih =>
    have before := (partition middle (by omega) (by omega)).mp found
    rw [bisect, if_pos more]
    simp only [middle] at found ih before ⊢
    rw [if_pos found]
    apply ih
    · intro index from_middle to_right
      exact partition index (by omega) to_right
    · omega
    · exact high
  | case2 left right more middle missed ih =>
    have behind : ¬ middle < cut := fun before =>
      missed ((partition middle (by omega) (by omega)).mpr before)
    rw [bisect, if_pos more]
    simp only [middle] at missed ih behind ⊢
    rw [if_neg missed]
    apply ih
    · intro index from_left to_middle
      exact partition index from_left (by omega)
    · exact low
    · omega
  | case3 left right done =>
    rw [bisect, if_neg done]
    omega

section

variable {κ : Type*} [LinearOrder κ]

def keysBelow (keys : List κ) (key : κ) : Nat := (keys.takeWhile fun other => other < key).length

theorem keysBelow_le (keys : List κ) (key : κ) : keysBelow keys key ≤ keys.length :=
  (List.takeWhile_prefix _).length_le

theorem below_iff {keys : List κ} (ordered : keys.Pairwise (· < ·)) {key other : κ} {index : Nat}
    (here : keys[index]? = some other) : other < key ↔ index < keysBelow keys key := by
  unfold keysBelow
  induction keys generalizing index with
  | nil => cases here
  | cons first keys ih =>
    rw [List.pairwise_cons] at ordered
    by_cases smaller : first < key
    · rw [List.takeWhile_cons_of_pos (by simpa using smaller), List.length_cons]
      cases index with
      | zero =>
        have same : first = other := by simpa using here
        rw [← same]
        exact ⟨fun _ => Nat.succ_pos _, fun _ => smaller⟩
      | succ index =>
        rw [ih ordered.2 (by simpa using here)]
        omega
    · rw [List.takeWhile_cons_of_neg (by simpa using smaller), List.length_nil]
      refine ⟨fun less => absurd ?_ smaller, fun none => absurd none (Nat.not_lt_zero _)⟩
      cases index with
      | zero =>
        have same : first = other := by simpa using here
        rw [same]
        exact less
      | succ index =>
        have later := ordered.1 other (List.mem_of_getElem? (by simpa using here))
        exact lt_trans later less

theorem key_at_cut {keys : List κ} (ordered : keys.Pairwise (· < ·)) {key : κ} :
    keys[keysBelow keys key]? = some key ↔ key ∈ keys := by
  constructor
  · exact List.mem_of_getElem?
  · intro member
    obtain ⟨index, here⟩ := List.getElem?_of_mem member
    have notBelow : ¬ index < keysBelow keys key := fun below =>
      lt_irrefl key ((below_iff ordered here).mpr below)
    have inside : index < keys.length := (List.getElem?_eq_some_iff.mp here).1
    cases found : keys[keysBelow keys key]? with
    | none =>
      have past := List.getElem?_eq_none_iff.mp found
      omega
    | some other =>
      have atLeast : ¬ other < key := fun less =>
        Nat.lt_irrefl _ ((below_iff ordered found).mp less)
      by_cases same : index = keysBelow keys key
      · rw [← same, here] at found
        rw [← Option.some.inj found]
      · have less : other < key := by
          have pairs := List.pairwise_iff_getElem.mp ordered
          obtain ⟨short, first⟩ := List.getElem?_eq_some_iff.mp found
          obtain ⟨long, second⟩ := List.getElem?_eq_some_iff.mp here
          have less := pairs _ _ short long (by omega)
          rwa [first, second] at less
        exact absurd less atLeast

end

end SparseLab.Library
