import Mathlib.Data.List.Perm.Basic
import SparseLab.Library.Outcomes

/-! Batches whose order does not matter to a computation that may fail. -/

namespace SparseLab.Library

universe u

section

variable {ε α β γ : Type u} {first : α → β → Prop} {second : β → γ → Prop}

def Matched (related : α → β → Prop) : Except ε α → Except ε β → Prop
  | .ok value, .ok other => related value other
  | .error _, .error _ => True
  | _, _ => False

namespace Matched

theorem comp {one : Except ε α} {other : Except ε β} {last : Except ε γ}
    (left : Matched first one other) (right : Matched second other last) :
    Matched (Relation.Comp first second) one last := by
  cases one with
  | error failure =>
    cases other with
    | ok value => cases left
    | error failure =>
      cases last with
      | ok value => cases right
      | error failure => trivial
  | ok value =>
    cases other with
    | error failure => cases left
    | ok middle =>
      cases last with
      | error failure => cases right
      | ok final => exact ⟨middle, left, right⟩

theorem mono {weaker : α → β → Prop} {one : Except ε α} {other : Except ε β}
    (alike : Matched first one other) (implies : ∀ value another, first value another →
      weaker value another) : Matched weaker one other := by
  cases one with
  | error failure =>
    cases other with
    | ok value => cases alike
    | error failure => trivial
  | ok value =>
    cases other with
    | error failure => cases alike
    | ok another => exact implies value another alike

theorem of_eq {same : α → α → Prop} (refl : ∀ value, same value value) {one other : Except ε α}
    (equal : one = other) : Matched same one other := by
  rw [equal]
  cases other with
  | error failure => trivial
  | ok value => exact refl value

theorem bind {α' β' : Type u} {later : α' → β' → Prop} {one : Except ε α} {other : Except ε β}
    {continuation : α → Except ε α'} {another : β → Except ε β'} (alike : Matched first one other)
    (each : ∀ value result, first value result →
      Matched later (continuation value) (another result)) :
    Matched later (one >>= continuation) (other >>= another) := by
  cases one with
  | error failure =>
    cases other with
    | ok value => cases alike
    | error failure => trivial
  | ok value =>
    cases other with
    | error failure => cases alike
    | ok result => exact each value result alike

theorem refuseIf {condition another : Prop} [Decidable condition] [Decidable another]
    {failure failed : ε} {one : PUnit.{u + 1} → Except ε α} {other : PUnit.{u + 1} → Except ε β}
    (same : condition ↔ another) (alike : ¬ condition → Matched first (one ⟨⟩) (other ⟨⟩)) :
    Matched first (Library.refuseIf condition failure >>= one)
      (Library.refuseIf another failed >>= other) := by
  by_cases holds : condition
  · rw [refuseIf_raises holds, refuseIf_raises (same.mp holds)]
    trivial
  · rw [refuseIf_bind holds, refuseIf_bind (mt same.mpr holds)]
    exact alike holds

end Matched

end

theorem forall₂_right {α β : Type} {related : α → β → Prop} {values : List α} {others : List β}
    (each : List.Forall₂ related values others) {other : β} (member : other ∈ others) :
    ∃ value ∈ values, related value other := by
  induction each with
  | nil => cases member
  | cons head _ ih =>
    rcases List.mem_cons.mp member with rfl | later
    · exact ⟨_, List.mem_cons_self, head⟩
    · obtain ⟨value, inside, same⟩ := ih later
      exact ⟨value, List.mem_cons_of_mem _ inside, same⟩

theorem forall₂_left {α β : Type} {related : α → β → Prop} {values : List α} {others : List β}
    (each : List.Forall₂ related values others) {value : α} (member : value ∈ values) :
    ∃ other ∈ others, related value other := by
  obtain ⟨other, inside, same⟩ := forall₂_right each.flip member
  exact ⟨other, inside, same⟩

section

variable {ε α β : Type u} {related : α → β → Prop}

def Rearranged {α β : Type*} (related : α → β → Prop) : List α → List β → Prop :=
  Relation.Comp List.Perm (List.Forall₂ related)

namespace Rearranged

section

variable {α β : Type*} {related : α → β → Prop} {values : List α} {others : List β}

theorem length_eq (same : Rearranged related values others) : values.length = others.length := by
  obtain ⟨middle, perm, each⟩ := same
  rw [perm.length_eq, each.length_eq]

section

variable {one : α → Bool} {other : β → Bool}
  (agree : ∀ value another, related value another → one value = other another)

include agree

theorem all_eq (same : Rearranged related values others) : values.all one = others.all other := by
  obtain ⟨middle, perm, each⟩ := same
  rw [perm.all_eq]
  induction each generalizing values with
  | nil => rfl
  | cons head _ ih =>
    rw [List.all_cons, List.all_cons, agree _ _ head, ih (List.Perm.refl _)]

theorem any_eq (same : Rearranged related values others) : values.any one = others.any other := by
  rw [List.any_eq_not_all_not, List.any_eq_not_all_not,
    all_eq (fun _ _ head => by rw [agree _ _ head]) same]

theorem filter (same : Rearranged related values others) :
    Rearranged related (values.filter one) (others.filter other) := by
  obtain ⟨middle, perm, each⟩ := same
  exact ⟨middle.filter one, perm.filter one,
    List.rel_filter (fun _ _ head => by simp [agree _ _ head]) each⟩

end

theorem flatten {γ : Type*} {lists others : List (List γ)}
    (same : Rearranged List.Perm lists others) : lists.flatten.Perm others.flatten := by
  obtain ⟨middle, perm, each⟩ := same
  refine perm.flatten.trans ?_
  clear perm
  induction each with
  | nil => exact List.Perm.nil
  | cons head _ ih =>
    rw [List.flatten_cons, List.flatten_cons]
    exact head.append ih

theorem of_perm {lists others : List α} (perm : lists.Perm others) : Rearranged Eq lists others :=
  ⟨others, perm, List.forall₂_eq_eq_eq ▸ rfl⟩

theorem perm {lists others : List α} (same : Rearranged Eq lists others) : lists.Perm others := by
  obtain ⟨middle, perm, each⟩ := same
  rw [List.forall₂_eq_eq_eq] at each
  rwa [← each]

end

variable {values : List α} {others : List β} {α' β' : Type u} {later : α' → β' → Prop}

theorem mapM_perm {attempt : α → Except ε β} {lists another : List α} (perm : lists.Perm another) :
    Matched List.Perm (lists.mapM attempt) (another.mapM attempt) := by
  have onward : ∀ {one other : List α}, one.Perm other → ∀ results,
      one.mapM attempt = .ok results →
        ∃ rest, other.mapM attempt = .ok rest ∧ results.Perm rest := by
    intro one other perm results returned
    obtain ⟨rest, each, same⟩ := List.perm_comp_forall₂ perm.symm (mapM_eq_ok.mp returned)
    exact ⟨rest, mapM_eq_ok.mpr each, same.symm⟩
  cases returned : lists.mapM attempt with
  | ok results =>
    obtain ⟨rest, other, same⟩ := onward perm results returned
    rw [other]
    exact same
  | error failure =>
    cases other : another.mapM attempt with
    | error failure => trivial
    | ok rest =>
      obtain ⟨results, again, -⟩ := onward perm.symm rest other
      rw [returned] at again
      cases again

theorem mapM_forall₂ {attempt : α → Except ε α'} {other : β → Except ε β'}
    (agree : ∀ value another, related value another →
      Matched later (attempt value) (other another))
    (each : List.Forall₂ related values others) :
    Matched (List.Forall₂ later) (values.mapM attempt) (others.mapM other) := by
  induction each with
  | nil => exact List.Forall₂.nil
  | cons head _ ih =>
    rw [List.mapM_cons, List.mapM_cons]
    refine (agree _ _ head).bind fun result another first => ?_
    exact ih.bind fun rest later => List.Forall₂.cons first

theorem mapM {attempt : α → Except ε α'} {other : β → Except ε β'}
    (agree : ∀ value another, related value another →
      Matched later (attempt value) (other another))
    (same : Rearranged related values others) :
    Matched (Rearranged later) (values.mapM attempt) (others.mapM other) := by
  obtain ⟨middle, perm, each⟩ := same
  exact (mapM_perm perm).comp (mapM_forall₂ agree each)

end Rearranged

end

end SparseLab.Library
