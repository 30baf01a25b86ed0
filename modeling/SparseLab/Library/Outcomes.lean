import Mathlib.Data.List.Forall2

/-! Pre- and postconditions for computations that return a value or raise. -/

namespace SparseLab.Library

universe u v

variable {ε : Type u} {α β : Type v}

/-- A returned value satisfies `good`, a raised error satisfies `bad`. -/
def Outcome (good : α → Prop) (bad : ε → Prop) : Except ε α → Prop
  | .ok value => good value
  | .error failure => bad failure

namespace Outcome

variable {good : α → Prop} {bad : ε → Prop} {next : β → Prop}

@[simp] theorem ok_iff {value : α} : Outcome good bad (.ok value) ↔ good value := Iff.rfl

theorem bind {attempt : Except ε α} {continuation : α → Except ε β}
    (first : Outcome good bad attempt)
    (rest : ∀ value, good value → Outcome next bad (continuation value)) :
    Outcome next bad (attempt >>= continuation) := by
  cases attempt with
  | ok value => exact rest value first
  | error failure => exact first

theorem mono {weaker : α → Prop} {attempt : Except ε α} (outcome : Outcome good bad attempt)
    (weaken : ∀ value, good value → weaker value) : Outcome weaker bad attempt := by
  cases attempt with
  | ok value => exact weaken value outcome
  | error failure => exact outcome

theorem mono_error {weaker : ε → Prop} {attempt : Except ε α} (outcome : Outcome good bad attempt)
    (weaken : ∀ failure, bad failure → weaker failure) : Outcome good weaker attempt := by
  cases attempt with
  | ok value => exact outcome
  | error failure => exact weaken failure outcome

theorem ite {condition : Prop} [Decidable condition] {yes no : Except ε α}
    (whenTrue : condition → Outcome good bad yes)
    (whenFalse : ¬ condition → Outcome good bad no) :
    Outcome good bad (if condition then yes else no) := by
  by_cases holds : condition
  · rw [if_pos holds]
    exact whenTrue holds
  · rw [if_neg holds]
    exact whenFalse holds

theorem of_eq_ok {attempt : Except ε α} {value : α} (returned : attempt = .ok value)
    (holds : good value) : Outcome good bad attempt := by
  rw [returned]
  exact holds

end Outcome

theorem bind_eq_ok {attempt : Except ε α} {continuation : α → Except ε β} {result : β}
    (returned : attempt >>= continuation = .ok result) :
    ∃ value, attempt = .ok value ∧ continuation value = .ok result := by
  cases attempt with
  | ok value => exact ⟨value, rfl, returned⟩
  | error failure => cases returned

/-- `if condition: raise failure` -/
def refuseIf (condition : Prop) [Decidable condition] (failure : ε) : Except ε PUnit.{v + 1} :=
  if condition then .error failure else .ok ⟨⟩

section

variable {condition : Prop} [Decidable condition] {failure : ε}

@[simp] theorem refuseIf_ok : refuseIf condition failure = .ok PUnit.unit.{v + 1} ↔ ¬ condition := by
  unfold refuseIf
  by_cases holds : condition <;> simp [holds]

theorem refuseIf_bind {continuation : PUnit.{v + 1} → Except ε β} (passes : ¬ condition) :
    refuseIf condition failure >>= continuation = continuation ⟨⟩ := by
  rw [refuseIf, if_neg passes]
  rfl

theorem refuseIf_raises {continuation : PUnit.{v + 1} → Except ε β} (holds : condition) :
    refuseIf condition failure >>= continuation = .error failure := by
  rw [refuseIf, if_pos holds]
  rfl

@[simp] theorem refuseIf_bind_eq_ok {continuation : PUnit.{v + 1} → Except ε β} {result : β} :
    refuseIf condition failure >>= continuation = .ok result ↔
      ¬ condition ∧ continuation ⟨⟩ = .ok result := by
  by_cases holds : condition
  · rw [refuseIf_raises holds]
    simp [holds]
  · rw [refuseIf_bind holds]
    simp [holds]

end

theorem forM_eq_ok {γ : Type u} {check : γ → Except ε PUnit.{v + 1}} {values : List γ} :
    values.forM check = .ok ⟨⟩ ↔ ∀ value ∈ values, check value = .ok ⟨⟩ := by
  induction values with
  | nil => exact ⟨fun _ => List.forall_mem_nil _, fun _ => rfl⟩
  | cons value values ih =>
    rw [List.forall_mem_cons, ← ih]
    change (check value >>= fun _ => values.forM check) = _ ↔ _
    cases checked : check value with
    | ok result => exact ⟨fun rest => ⟨rfl, rest⟩, And.right⟩
    | error failure =>
      constructor
      · intro raised
        cases raised
      · intro both
        cases both.1

theorem forM_bind_eq_ok {γ : Type u} {check : γ → Except ε PUnit.{v + 1}} {values : List γ}
    {continuation : PUnit.{v + 1} → Except ε β} {result : β} :
    values.forM check >>= continuation = .ok result ↔
      (∀ value ∈ values, check value = .ok ⟨⟩) ∧ continuation ⟨⟩ = .ok result := by
  rw [← forM_eq_ok]
  cases values.forM check with
  | ok _ => exact ⟨fun rest => ⟨rfl, rest⟩, And.right⟩
  | error failure =>
    constructor
    · intro raised
      cases raised
    · intro both
      cases both.1

theorem mapM_ok {γ : Type u} {attempt : γ → Except ε α} {result : γ → α} {values : List γ}
    (each : ∀ value ∈ values, attempt value = .ok (result value)) :
    values.mapM attempt = .ok (values.map result) := by
  induction values with
  | nil => rfl
  | cons value values ih =>
    have rest := ih fun later member => each later (List.mem_cons_of_mem _ member)
    rw [List.mapM_cons, each value List.mem_cons_self, rest]
    rfl

theorem mapM_eq_ok {γ : Type u} {attempt : γ → Except ε α} {values : List γ} {results : List α} :
    values.mapM attempt = .ok results ↔
      List.Forall₂ (fun value result => attempt value = .ok result) values results := by
  induction values generalizing results with
  | nil =>
    rw [List.mapM_nil, List.forall₂_nil_left_iff]
    exact ⟨fun same => (Except.ok.inj same).symm, fun same => congrArg Except.ok same.symm⟩
  | cons value values ih =>
    rw [List.mapM_cons, List.forall₂_cons_left_iff]
    constructor
    · intro returned
      obtain ⟨result, first, returned⟩ := bind_eq_ok returned
      obtain ⟨rest, later, returned⟩ := bind_eq_ok returned
      exact ⟨result, rest, first, ih.mp later, (Except.ok.inj returned).symm⟩
    · rintro ⟨result, rest, first, later, rfl⟩
      rw [first, ih.mpr later]
      rfl

theorem forM_ok {γ : Type u} {check : γ → Except ε PUnit.{v + 1}} {values : List γ}
    (each : ∀ value ∈ values, check value = .ok ⟨⟩) : values.forM check = .ok ⟨⟩ := by
  induction values with
  | nil => rfl
  | cons value values ih =>
    have rest := ih fun later member => each later (List.mem_cons_of_mem _ member)
    rw [List.forM, each value List.mem_cons_self]
    exact rest

end SparseLab.Library
