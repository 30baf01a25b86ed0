import Mathlib.Algebra.GroupWithZero.Nat
import Mathlib.Data.List.Basic

/-! Increasing lists of offsets, their steps and running sums. -/

namespace SparseLab.Library

def differences (values : List Nat) : List Nat :=
  List.zipWith (fun first next => next - first) values values.tail

@[simp] theorem differences_nil : differences [] = [] := rfl

@[simp] theorem differences_singleton (value : Nat) : differences [value] = [] := rfl

@[simp] theorem differences_cons (first next : Nat) (rest : List Nat) :
    differences (first :: next :: rest) = (next - first) :: differences (next :: rest) := rfl

theorem length_differences (values : List Nat) :
    (differences values).length = values.length - 1 := by
  simp [differences]

theorem differences_range (value : Nat → Nat) (count : Nat) :
    differences ((List.range (count + 1)).map value) =
      (List.range count).map fun index => value (index + 1) - value index := by
  apply List.ext_getElem
  · simp [differences]
  · intro index _ _
    simp [differences]

theorem take_differences (first : Nat) (rest : List Nat) (count : Nat) :
    (differences (first :: rest)).take count = differences (first :: rest.take count) := by
  induction rest generalizing first count with
  | nil => simp
  | cons next rest ih =>
    cases count with
    | zero => simp
    | succ count => simp [ih]

theorem differences_append (front : List Nat) (middle : Nat) (back : List Nat) :
    differences (front ++ middle :: back) =
      differences (front ++ [middle]) ++ differences (middle :: back) := by
  induction front with
  | nil => simp
  | cons first front ih =>
    cases front with
    | nil => simp
    | cons next front =>
      simp only [List.cons_append, differences_cons, List.cons.injEq, true_and] at ih ⊢
      exact ih

def keysUpTo (keys : List Nat) (bound : Nat) : Nat :=
  (keys.takeWhile fun key => key ≤ bound).length

section

variable {keys : List Nat} (ordered : keys.Pairwise (· < ·))

include ordered

theorem take_keysUpTo (bound : Nat) :
    keys.take (keysUpTo keys bound) = keys.filter fun key => key ≤ bound := by
  unfold keysUpTo
  induction keys with
  | nil => rfl
  | cons first keys ih =>
    rw [List.pairwise_cons] at ordered
    by_cases small : first ≤ bound
    · simp [small, ih ordered.2]
    · have none : ∀ key ∈ keys, ¬ key ≤ bound := by
        intro key member
        have later := ordered.1 key member
        omega
      simpa [small] using none

theorem filter_between {first last : Nat} (within : first ≤ last) :
    (keys.filter fun key => key ≤ first) ++ (keys.filter fun key => first < key ∧ key ≤ last) =
      keys.filter fun key => key ≤ last := by
  induction keys with
  | nil => rfl
  | cons key keys ih =>
    rw [List.pairwise_cons] at ordered
    have rest := ih ordered.2
    by_cases small : key ≤ first
    · have outside : ¬ first < key := by omega
      have below : key ≤ last := by omega
      simpa [small, outside, below] using rest
    · have none : (keys.filter fun key => key ≤ first) = [] := by
        simp only [List.filter_eq_nil_iff, decide_eq_true_eq]
        intro other member
        have later := ordered.1 other member
        omega
      have above : first < key := by omega
      rw [none, List.nil_append] at rest
      by_cases below : key ≤ last <;> simpa [small, above, below, none] using rest

theorem filter_ends_with {kept : Nat → Bool} {last : Nat} (member : last ∈ keys)
    (keeps : kept last = true) (largest : ∀ key ∈ keys, kept key = true → key ≤ last) :
    ∃ front, keys.filter kept = front ++ [last] := by
  induction keys with
  | nil => cases member
  | cons first keys ih =>
    rw [List.pairwise_cons] at ordered
    rcases List.mem_cons.mp member with rfl | later
    · have none : keys.filter kept = [] := by
        rw [List.filter_eq_nil_iff]
        intro key listed keeps'
        have above := ordered.1 key listed
        have below := largest key (List.mem_cons_of_mem _ listed) keeps'
        omega
      exact ⟨[], by rw [List.filter_cons_of_pos keeps, none, List.nil_append]⟩
    · obtain ⟨front, same⟩ := ih ordered.2 later fun key listed =>
        largest key (List.mem_cons_of_mem _ listed)
      by_cases keepsFirst : kept first = true
      · exact ⟨first :: front, by rw [List.filter_cons_of_pos keepsFirst, same, List.cons_append]⟩
      · exact ⟨front, by rw [List.filter_cons_of_neg keepsFirst, same]⟩

end

theorem getElem?_runningSums {values : List Nat} {count : Nat} (within : count ≤ values.length) :
    (values.scanl (· + ·) 0)[count]? = some (values.take count).sum := by
  have general : ∀ start, (values.scanl (· + ·) start)[count]? =
      some (start + (values.take count).sum) := by
    induction values generalizing count with
    | nil =>
      intro start
      have none : count = 0 := Nat.le_zero.mp within
      simp [none]
    | cons value values ih =>
      intro start
      cases count with
      | zero => simp
      | succ count =>
        rw [List.scanl_cons, List.getElem?_cons_succ, ih (Nat.le_of_succ_le_succ within)]
        simp [Nat.add_assoc]
  rw [general 0, Nat.zero_add]

end SparseLab.Library
