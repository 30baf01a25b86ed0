import Mathlib.Order.MinMax
import SparseLab.Library.Forests

/-! Chains of decreasing links, the ways of compressing them, and forests of least roots. -/

namespace SparseLab.Library

universe u

variable {ι : Type u}

theorem climbs_of_rank {links : ι → ι} {rank : ι → Nat}
    (falls : ∀ start, links start ≠ start → rank (links start) < rank start) (start : ι) :
    ∃ steps ≤ rank start, ∃ top, Climbs links steps start top := by
  induction bound : rank start using Nat.strongRecOn generalizing start with
  | ind level ih =>
    by_cases fixed : links start = start
    · exact ⟨0, Nat.zero_le _, start, Climbs.root fixed⟩
    · have below := falls start fixed
      obtain ⟨steps, few, top, way⟩ := ih (rank (links start)) (by omega) (links start) rfl
      exact ⟨steps + 1, by omega, top, Climbs.step way⟩

theorem Climbs.invariant {links : ι → ι} {steps : Nat} {start top : ι}
    (climbs : Climbs links steps start top) (holds : ι → Prop) (kept : ∀ value, holds value → holds (links value))
    (first : holds start) : holds top := by
  induction climbs with
  | root _ => exact first
  | step _ ih => exact ih (kept _ first)

section

variable [DecidableEq ι] {links : ι → ι} {steps : Nat} {start top middle last : ι}

theorem Climbs.pointed {others : Nat} (reaches : Climbs links others middle top)
    (climbs : Climbs links steps start last) :
    ∃ fewer ≤ steps, Climbs (Function.update links middle top) fewer start last := by
  have stays : Function.update links middle top top = top := by
    by_cases same : top = middle
    · rw [same, Function.update_self]
    · rw [Function.update_of_ne same, reaches.is_root]
  induction climbs with
  | @root last fixed =>
    refine ⟨0, Nat.le_refl 0, Climbs.root ?_⟩
    by_cases here : last = middle
    · subst here
      rw [reaches.of_root fixed, Function.update_self]
    · rw [Function.update_of_ne here, fixed]
  | @step steps start last rest ih =>
    by_cases here : start = middle
    · subst here
      rw [(Climbs.step rest).unique reaches]
      refine ⟨1, by omega, Climbs.step ?_⟩
      rw [Function.update_self]
      exact Climbs.root stays
    · obtain ⟨fewer, bound, way⟩ := ih
      refine ⟨fewer + 1, by omega, Climbs.step ?_⟩
      rwa [Function.update_of_ne here]

theorem Climbs.foldl_halve (values : List ι) (climbs : Climbs links steps start top) :
    ∃ fewer ≤ steps, Climbs (values.foldl halve links) fewer start top := by
  induction values generalizing links steps with
  | nil => exact ⟨steps, Nat.le_refl _, climbs⟩
  | cons value values ih =>
    obtain ⟨few, bound, way⟩ := climbs.halved value
    obtain ⟨fewer, less, whole⟩ := ih way
    exact ⟨fewer, by omega, whole⟩

theorem Climbs.halved_start (climbs : Climbs links steps start top) :
    ∃ fewer, (fewer ≤ 1 ∨ fewer + 1 ≤ steps) ∧ Climbs (halve links start) fewer start top := by
  have jump : halve links start start = links (links start) := by
    simp [halve]
  cases climbs with
  | root fixed =>
    obtain ⟨fewer, bound, way⟩ := (Climbs.root fixed).halved start
    exact ⟨fewer, by omega, way⟩
  | step rest =>
    cases rest with
    | root fixed =>
      obtain ⟨fewer, bound, way⟩ := (Climbs.step (Climbs.root fixed)).halved start
      exact ⟨fewer, by omega, way⟩
    | step rest =>
      obtain ⟨fewer, bound, way⟩ := rest.halved start
      refine ⟨fewer + 1, by omega, Climbs.step ?_⟩
      rwa [jump]

theorem Climbs.foldl_halve_start {values : List ι} (listed : start ∈ values)
    (climbs : Climbs links steps start top) :
    ∃ fewer, (fewer ≤ 1 ∨ fewer + 1 ≤ steps) ∧
      Climbs (values.foldl halve links) fewer start top := by
  obtain ⟨before, after, rfl⟩ := List.append_of_mem listed
  rw [List.foldl_append, List.foldl_cons]
  obtain ⟨first, firstBound, firstWay⟩ := climbs.foldl_halve before
  obtain ⟨second, secondBound, secondWay⟩ := firstWay.halved_start
  obtain ⟨third, thirdBound, thirdWay⟩ := secondWay.foldl_halve after
  exact ⟨third, by omega, thirdWay⟩

end

section

variable [LinearOrder ι] {parents : ι → ι} {depth fuel : Nat} {joined : ι → ι → Prop}

def Falls (parents : ι → ι) : Prop := ∀ value, parents value ≤ value

theorem falls_id : Falls (id : ι → ι) := fun _ => le_refl _

theorem Falls.climbs (falls : Falls parents) {steps : Nat} {start top : ι}
    (climbs : Climbs parents steps start top) : top ≤ start := by
  induction climbs with
  | root _ => exact le_refl _
  | @step _ start _ _ ih => exact le_trans ih (falls start)

theorem Falls.update (falls : Falls parents) {start target : ι} (below : target ≤ start) :
    Falls (Function.update parents start target) := by
  intro value
  by_cases here : value = start
  · rw [here, Function.update_self]
    exact below
  · rw [Function.update_of_ne here]
    exact falls value

theorem Falls.rootLoop (falls : Falls parents) (fuel : Nat) (start : ι) :
    Falls (rootLoop fuel parents start).2 := by
  induction fuel generalizing parents start with
  | zero => exact falls
  | succ fuel ih =>
    rw [Library.rootLoop]
    by_cases fixed : parents start = start
    · rw [if_pos fixed]
      exact falls
    · rw [if_neg fixed]
      exact ih (falls.update (le_trans (falls _) (falls start))) _

/-- `join(first, second)`: the greater root points at the lesser one. -/
def joinLeast (fuel : Nat) (first : ι) (parents : ι → ι) (second : ι) : ι → ι :=
  let (left, parents) := Library.rootLoop fuel parents first
  let (right, parents) := Library.rootLoop fuel parents second
  Function.update parents (max left right) (min left right)

theorem Falls.joinLeast (falls : Falls parents) (fuel : Nat) (first second : ι) :
    Falls (joinLeast fuel first parents second) :=
  ((falls.rootLoop fuel first).rootLoop fuel second).update min_le_max

theorem Represents.joinLeast (represents : Represents parents depth joined)
    (enough : depth ≤ fuel) (first second : ι) :
    Represents (joinLeast fuel first parents second) (depth + 1)
      (fun one other => joined one other ∨ (one = first ∧ other = second)) := by
  obtain ⟨leftSteps, leftBound, left, leftClimbs⟩ := represents.settled first
  obtain ⟨leftFound, leftKept⟩ := rootLoop_spec leftClimbs (Nat.le_trans leftBound enough)
  have once := represents.rootLoop enough first
  obtain ⟨rightSteps, rightBound, right, rightClimbs⟩ := once.settled second
  obtain ⟨rightFound, rightKept⟩ := rootLoop_spec rightClimbs (Nat.le_trans rightBound enough)
  have twice := once.rootLoop enough second
  have result : Library.joinLeast fuel first parents second = Function.update
      (Library.rootLoop fuel (Library.rootLoop fuel parents first).2 second).2
      (max left right) (min left right) := by
    rw [Library.joinLeast, ← leftFound, ← rightFound]
  obtain ⟨_, -, leftOnce⟩ := leftKept first leftSteps left leftClimbs
  obtain ⟨_, -, leftWay⟩ := rightKept first _ left leftOnce
  obtain ⟨_, -, rightWay⟩ := rightKept second rightSteps right rightClimbs
  rw [result]
  generalize (Library.rootLoop fuel (Library.rootLoop fuel parents first).2 second).2 = current
    at twice leftWay rightWay
  have near : ∀ {value last : ι} {steps : Nat}, Climbs current steps value last →
      Relation.EqvGen joined value last := fun way =>
    (twice.same_top way (Climbs.root way.is_root)).mp rfl
  have wider := fun (pair : ι → ι → Prop) {one other : ι}
    (together : Relation.EqvGen joined one other) =>
      together.mono (p := fun one other => joined one other ∨ pair one other)
        fun _ _ related => Or.inl related
  by_cases order : left ≤ right
  · rw [max_eq_right order, min_eq_left order]
    refine (twice.hang rightWay leftWay.is_root).congr ?_
    intro one other
    have leftNear := near leftWay
    constructor
    · refine eqvGen_within ?_
      rintro one other (related | ⟨rfl, rfl⟩)
      · exact Relation.EqvGen.rel _ _ (Or.inl related)
      · exact Relation.EqvGen.trans _ _ _
          (Relation.EqvGen.symm _ _ (Relation.EqvGen.rel _ _ (Or.inr ⟨rfl, rfl⟩)))
          (wider _ leftNear)
    · refine eqvGen_within ?_
      rintro one other (related | ⟨rfl, rfl⟩)
      · exact Relation.EqvGen.rel _ _ (Or.inl related)
      · exact Relation.EqvGen.trans _ _ _ (wider _ leftNear)
          (Relation.EqvGen.symm _ _ (Relation.EqvGen.rel _ _ (Or.inr ⟨rfl, rfl⟩)))
  · have above : right ≤ left := le_of_not_ge order
    rw [max_eq_left above, min_eq_right above]
    refine (twice.hang leftWay rightWay.is_root).congr ?_
    intro one other
    have rightNear := near rightWay
    constructor
    · refine eqvGen_within ?_
      rintro one other (related | ⟨rfl, rfl⟩)
      · exact Relation.EqvGen.rel _ _ (Or.inl related)
      · exact Relation.EqvGen.trans _ _ _ (Relation.EqvGen.rel _ _ (Or.inr ⟨rfl, rfl⟩))
          (wider _ rightNear)
    · refine eqvGen_within ?_
      rintro one other (related | ⟨rfl, rfl⟩)
      · exact Relation.EqvGen.rel _ _ (Or.inl related)
      · exact Relation.EqvGen.trans _ _ _ (Relation.EqvGen.rel _ _ (Or.inr ⟨rfl, rfl⟩))
          (Relation.EqvGen.symm _ _ (wider _ rightNear))

def joinGroup (fuel : Nat) (parents : ι → ι) : List ι → (ι → ι)
  | [] => parents
  | leader :: group => (leader :: group).foldl (Library.joinLeast fuel leader) parents

theorem Falls.joinGroup (falls : Falls parents) (fuel : Nat) (group : List ι) :
    Falls (joinGroup fuel parents group) := by
  cases group with
  | nil => exact falls
  | cons leader group =>
    rw [Library.joinGroup]
    generalize leader :: group = values
    induction values generalizing parents with
    | nil => exact falls
    | cons value values ih => exact ih (falls.joinLeast fuel leader value)

theorem Falls.foldl_joinGroup (falls : Falls parents) (fuel : Nat) (groups : List (List ι)) :
    Falls (groups.foldl (Library.joinGroup fuel) parents) := by
  induction groups generalizing parents with
  | nil => exact falls
  | cons group groups ih => exact ih (falls.joinGroup fuel group)

theorem Represents.foldl_joinLeast (represents : Represents parents depth joined) (leader : ι)
    (values : List ι) (enough : depth + values.length ≤ fuel) :
    Represents (values.foldl (Library.joinLeast fuel leader) parents) (depth + values.length)
      (fun one other => joined one other ∨ (one = leader ∧ other ∈ values)) := by
  induction values generalizing parents depth joined with
  | nil =>
    refine represents.congr fun one other => ?_
    simp only [List.not_mem_nil, and_false, or_false]
  | cons value values ih =>
    rw [List.length_cons] at enough ⊢
    have here : depth ≤ fuel := by omega
    have whole := ih (represents.joinLeast here leader value) (by omega)
    rw [Nat.add_comm values.length 1, ← Nat.add_assoc]
    refine whole.congr fun one other => ?_
    have same : (fun one other => (joined one other ∨ (one = leader ∧ other = value)) ∨
        (one = leader ∧ other ∈ values)) =
        fun one other => joined one other ∨ (one = leader ∧ other ∈ value :: values) := by
      funext one other
      simp only [List.mem_cons, or_assoc, and_or_left]
    rw [same]

theorem Represents.joinGroup (represents : Represents parents depth joined) (group : List ι)
    (enough : depth + group.length ≤ fuel) :
    Represents (Library.joinGroup fuel parents group) (depth + group.length)
      (fun one other => joined one other ∨ (one ∈ group ∧ other ∈ group)) := by
  cases group with
  | nil =>
    refine represents.congr fun one other => ?_
    simp only [List.not_mem_nil, false_and, or_false]
  | cons leader group =>
    refine (represents.foldl_joinLeast leader (leader :: group) enough).congr fun one other => ?_
    constructor
    · refine eqvGen_within ?_
      rintro left right (related | ⟨rfl, member⟩)
      · exact Relation.EqvGen.rel _ _ (Or.inl related)
      · exact Relation.EqvGen.rel _ _ (Or.inr ⟨List.mem_cons_self, member⟩)
    · refine eqvGen_within ?_
      rintro left right (related | ⟨leftIn, rightIn⟩)
      · exact Relation.EqvGen.rel _ _ (Or.inl related)
      · exact Relation.EqvGen.trans _ leader _
          (Relation.EqvGen.symm _ _ (Relation.EqvGen.rel _ _ (Or.inr ⟨rfl, leftIn⟩)))
          (Relation.EqvGen.rel _ _ (Or.inr ⟨rfl, rightIn⟩))

theorem least_after_groups (groups : List (List ι)) (value : ι) :
    ∃ steps ≤ (groups.map List.length).sum, ∃ top,
      Climbs (groups.foldl (Library.joinGroup (groups.map List.length).sum) id) steps value top ∧
      Relation.EqvGen (fun one other => ∃ group ∈ groups, one ∈ group ∧ other ∈ group) value top ∧
      ∀ other, Relation.EqvGen (fun one other => ∃ group ∈ groups, one ∈ group ∧ other ∈ group)
        value other → top ≤ other := by
  have room : 0 + (groups.map List.length).sum ≤ (groups.map List.length).sum := by omega
  have whole := represents_id.foldl_groups (fun group before => before.joinGroup group) groups room
  have falls := falls_id.foldl_joinGroup (groups.map List.length).sum groups
  obtain ⟨steps, bound, top, climbs⟩ := whole.settled value
  have same := fun {one other : ι} {oneSteps otherSteps : Nat} {oneTop otherTop : ι}
    (oneWay : Climbs _ oneSteps one oneTop) (otherWay : Climbs _ otherSteps other otherTop) =>
      whole.same_top oneWay otherWay
  simp only [false_or] at same
  refine ⟨steps, by omega, top, climbs, (same climbs (Climbs.root climbs.is_root)).mp rfl, ?_⟩
  intro other together
  obtain ⟨others, -, last, way⟩ := whole.settled other
  rw [(same climbs way).mpr together]
  exact falls.climbs way

end

end SparseLab.Library
