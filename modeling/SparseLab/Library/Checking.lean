import SparseLab.Library.Outcomes

/-! Checks that pass on a condition and raise where it fails, and how they compose. -/

namespace SparseLab.Library

universe u v

variable {ε : Type u} {bad : ε → Prop} {condition other : Prop}

/-- A check returns exactly where its condition holds, and raises nothing that is not `bad`. -/
def Decides (bad : ε → Prop) (condition : Prop) (check : Except ε PUnit.{v + 1}) : Prop :=
  Outcome (fun _ => condition) (fun failure => ¬ condition ∧ bad failure) check

namespace Decides

theorem pass : Decides bad True (.ok PUnit.unit.{v + 1}) :=
  trivial

theorem congr {check : Except ε PUnit.{v + 1}} (decides : Decides bad condition check)
    (same : condition ↔ other) : Decides bad other check := by
  cases check with
  | ok _ => exact same.mp decides
  | error failure => exact ⟨fun holds => decides.1 (same.mpr holds), decides.2⟩

theorem refuse {refused : Prop} [Decidable refused] {failure : ε} (raised : bad failure) :
    Decides bad (¬ refused) (refuseIf.{u, v} refused failure) := by
  unfold refuseIf
  by_cases holds : refused
  · rw [if_pos holds]
    exact ⟨fun kept => kept holds, raised⟩
  · rw [if_neg holds]
    exact holds

theorem bind {check : Except ε PUnit.{v + 1}} {rest : PUnit.{v + 1} → Except ε PUnit.{v + 1}}
    (first : Decides bad condition check)
    (second : condition → Decides bad other (rest ⟨⟩)) :
    Decides bad (condition ∧ other) (check >>= rest) := by
  cases check with
  | error failure => exact ⟨fun both => first.1 both.1, first.2⟩
  | ok _ =>
    have holds : condition := first
    change Decides bad (condition ∧ other) (rest ⟨⟩)
    exact (second holds).congr ⟨fun later => ⟨holds, later⟩, And.right⟩

theorem forM {γ : Type u} {conditions : γ → Prop} {check : γ → Except ε PUnit.{v + 1}}
    {values : List γ} (each : ∀ value ∈ values, Decides bad (conditions value) (check value)) :
    Decides bad (∀ value ∈ values, conditions value) (values.forM check) := by
  induction values with
  | nil => exact pass.congr ⟨fun _ => List.forall_mem_nil _, fun _ => trivial⟩
  | cons value values ih =>
    have rest := ih fun later member => each later (List.mem_cons_of_mem _ member)
    exact ((each value List.mem_cons_self).bind fun _ => rest).congr List.forall_mem_cons.symm

theorem option {γ : Type u} {conditions : γ → Prop} {check : γ → Except ε PUnit.{v + 1}}
    {value : Option γ} (each : ∀ given ∈ value, Decides bad (conditions given) (check given)) :
    Decides bad (∀ given ∈ value, conditions given) (value.forM check) := by
  cases value with
  | none => exact pass.congr (by simp)
  | some given => exact (each given rfl).congr (by simp)

theorem eq_ok_iff {check : Except ε PUnit.{v + 1}} (decides : Decides bad condition check) :
    check = .ok ⟨⟩ ↔ condition := by
  cases check with
  | ok _ => exact ⟨fun _ => decides, fun _ => rfl⟩
  | error failure => exact ⟨nofun, fun holds => absurd holds decides.1⟩

theorem raises {check : Except ε PUnit.{v + 1}} (decides : Decides bad condition check)
    (fails : ¬ condition) : ∃ failure, check = .error failure ∧ bad failure := by
  cases check with
  | ok _ => exact absurd decides fails
  | error failure => exact ⟨failure, rfl, decides.2⟩

end Decides

theorem all_or_first_failing {γ : Type u} (conditions : γ → Prop) (values : List γ) :
    (∀ value ∈ values, conditions value) ∨ ∃ before value after,
      values = before ++ value :: after ∧ (∀ earlier ∈ before, conditions earlier) ∧
        ¬ conditions value := by
  induction values with
  | nil => exact .inl (List.forall_mem_nil _)
  | cons value values ih =>
    by_cases holds : conditions value
    · rcases ih with all | ⟨before, failing, after, rfl, earlier, fails⟩
      · exact .inl (List.forall_mem_cons.mpr ⟨holds, all⟩)
      · exact .inr ⟨value :: before, failing, after, rfl,
          List.forall_mem_cons.mpr ⟨holds, earlier⟩, fails⟩
    · exact .inr ⟨[], value, values, rfl, List.forall_mem_nil _, holds⟩

theorem forM_raises {γ : Type u} {check : γ → Except ε PUnit.{v + 1}} {before after : List γ}
    {value : γ} {failure : ε} (passed : ∀ earlier ∈ before, check earlier = .ok ⟨⟩)
    (raised : check value = .error failure) :
    (before ++ value :: after).forM check = .error failure := by
  induction before with
  | nil =>
    change (check value >>= fun _ => after.forM check) = _
    rw [raised]
    rfl
  | cons first before ih =>
    have rest := ih fun earlier member => passed earlier (List.mem_cons_of_mem _ member)
    change (check first >>= fun _ => (before ++ value :: after).forM check) = _
    rw [passed first List.mem_cons_self]
    exact rest

end SparseLab.Library
