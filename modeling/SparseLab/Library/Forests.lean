import Mathlib.Algebra.BigOperators.Group.List.Basic
import Mathlib.Algebra.GroupWithZero.Nat

/-! Union-find by parent pointers and path halving, without ranks. -/

namespace SparseLab.Library

universe u

variable {ι : Type u}

/-- From `start`, `steps` parent pointers end at `top`, its own parent. -/
inductive Climbs (parents : ι → ι) : Nat → ι → ι → Prop
  | root {top : ι} : parents top = top → Climbs parents 0 top top
  | step {steps : Nat} {start top : ι} :
      Climbs parents steps (parents start) top → Climbs parents (steps + 1) start top

namespace Climbs

variable {parents : ι → ι} {steps : Nat} {start top : ι}

theorem is_root (climbs : Climbs parents steps start top) : parents top = top := by
  induction climbs with
  | root fixed => exact fixed
  | step _ ih => exact ih

theorem of_root (climbs : Climbs parents steps start top) (fixed : parents start = start) :
    top = start := by
  induction climbs with
  | root _ => rfl
  | step _ ih =>
    rw [fixed] at ih
    exact ih fixed

theorem unique {others : Nat} {other : ι} (climbs : Climbs parents steps start top)
    (again : Climbs parents others start other) : top = other := by
  induction climbs generalizing others with
  | root fixed => exact (again.of_root fixed).symm
  | step rest ih =>
    cases again with
    | root fixed =>
      rw [fixed] at rest
      exact rest.of_root fixed
    | step again => exact ih again

end Climbs

/-- Every value ends at a root, after at most `depth` steps. -/
def Settled (parents : ι → ι) (depth : Nat) : Prop :=
  ∀ start, ∃ steps ≤ depth, ∃ top, Climbs parents steps start top

theorem settled_id : Settled (id : ι → ι) 0 :=
  fun start => ⟨0, Nat.le_refl 0, start, Climbs.root rfl⟩

structure Represents (parents : ι → ι) (depth : Nat) (joined : ι → ι → Prop) : Prop where
  settled : Settled parents depth
  same_top : ∀ {one other oneTop otherTop : ι} {oneSteps otherSteps : Nat},
    Climbs parents oneSteps one oneTop → Climbs parents otherSteps other otherTop →
      (oneTop = otherTop ↔ Relation.EqvGen joined one other)

theorem represents_id : Represents (id : ι → ι) 0 (fun _ _ => False) where
  settled := settled_id
  same_top := by
    intro one other oneTop otherTop oneSteps otherSteps oneWay otherWay
    rw [oneWay.of_root rfl, otherWay.of_root rfl]
    constructor
    · rintro rfl
      exact Relation.EqvGen.refl _
    · intro together
      clear oneWay otherWay
      induction together with
      | rel _ _ never => exact never.elim
      | refl _ => rfl
      | symm _ _ _ ih => exact ih.symm
      | trans _ _ _ _ _ left right => exact left.trans right

theorem Represents.congr {parents : ι → ι} {depth : Nat} {joined other : ι → ι → Prop}
    (represents : Represents parents depth joined)
    (same : ∀ one another, Relation.EqvGen joined one another ↔ Relation.EqvGen other one another) :
    Represents parents depth other where
  settled := represents.settled
  same_top := by
    intro one another oneTop anotherTop oneSteps anotherSteps oneWay anotherWay
    rw [represents.same_top oneWay anotherWay, same]

theorem Represents.foldl_groups {parents : ι → ι} {depth fuel : Nat} {joined : ι → ι → Prop}
    {unite : (ι → ι) → List ι → ι → ι}
    (joins : ∀ {parents : ι → ι} {depth : Nat} {joined : ι → ι → Prop} (group : List ι),
      Represents parents depth joined → depth + group.length ≤ fuel →
        Represents (unite parents group) (depth + group.length)
          (fun one other => joined one other ∨ (one ∈ group ∧ other ∈ group)))
    (represents : Represents parents depth joined) (groups : List (List ι))
    (enough : depth + (groups.map List.length).sum ≤ fuel) :
    Represents (groups.foldl unite parents) (depth + (groups.map List.length).sum)
      (fun one other => joined one other ∨ ∃ group ∈ groups, one ∈ group ∧ other ∈ group) := by
  induction groups generalizing parents depth joined with
  | nil =>
    refine represents.congr fun one other => ?_
    simp only [List.not_mem_nil, false_and, exists_false, or_false]
  | cons group groups ih =>
    simp only [List.map_cons, List.sum_cons] at enough ⊢
    have here : depth + group.length ≤ fuel := by omega
    have whole := ih (joins group represents here) (by omega)
    rw [← Nat.add_assoc]
    refine whole.congr fun one other => ?_
    have same : (fun one other => (joined one other ∨ (one ∈ group ∧ other ∈ group)) ∨
        ∃ later ∈ groups, one ∈ later ∧ other ∈ later) =
        fun one other => joined one other ∨
          ∃ any ∈ group :: groups, one ∈ any ∧ other ∈ any := by
      funext one other
      simp only [List.mem_cons, exists_eq_or_imp, or_assoc]
    rw [same]

theorem eqvGen_within {joined wider : ι → ι → Prop}
    (within : ∀ one other, joined one other → Relation.EqvGen wider one other) {one other : ι}
    (together : Relation.EqvGen joined one other) : Relation.EqvGen wider one other := by
  induction together with
  | rel one other related => exact within one other related
  | refl _ => exact Relation.EqvGen.refl _
  | symm _ _ _ ih => exact Relation.EqvGen.symm _ _ ih
  | trans _ _ _ _ _ left right => exact Relation.EqvGen.trans _ _ _ left right

section

variable {α : Type u} {name : α → ι} {values : List α} {joined : ι → ι → Prop}
  {related : α → α → Prop}

theorem named_of_eqvGen (injective : ∀ one ∈ values, ∀ other ∈ values,
      name one = name other → one = other)
    (down : ∀ left right, joined left right → ∃ one ∈ values, ∃ other ∈ values,
      left = name one ∧ right = name other ∧ related one other) {left right : ι}
    (together : Relation.EqvGen joined left right) :
    left = right ∨ ∃ one ∈ values, ∃ other ∈ values, left = name one ∧ right = name other ∧
      Relation.EqvGen (fun one other => one ∈ values ∧ other ∈ values ∧ related one other)
        one other := by
  induction together with
  | rel left right linked =>
    obtain ⟨one, oneIn, other, otherIn, leftName, rightName, holds⟩ := down left right linked
    exact Or.inr ⟨one, oneIn, other, otherIn, leftName, rightName,
      Relation.EqvGen.rel _ _ ⟨oneIn, otherIn, holds⟩⟩
  | refl _ => exact Or.inl rfl
  | symm _ _ _ ih =>
    rcases ih with same | ⟨one, oneIn, other, otherIn, leftName, rightName, way⟩
    · exact Or.inl same.symm
    · exact Or.inr ⟨other, otherIn, one, oneIn, rightName, leftName,
        Relation.EqvGen.symm _ _ way⟩
  | trans _ _ _ _ _ first second =>
    rcases first with rfl | ⟨one, oneIn, middle, middleIn, leftName, middleName, way⟩
    · exact second
    · rcases second with rfl | ⟨again, againIn, other, otherIn, againName, rightName, further⟩
      · exact Or.inr ⟨one, oneIn, middle, middleIn, leftName, middleName, way⟩
      · have same := injective middle middleIn again againIn (middleName.symm.trans againName)
        subst same
        exact Or.inr ⟨one, oneIn, other, otherIn, leftName, rightName,
          Relation.EqvGen.trans _ _ _ way further⟩

theorem eqvGen_named (injective : ∀ one ∈ values, ∀ other ∈ values,
      name one = name other → one = other)
    (down : ∀ left right, joined left right → ∃ one ∈ values, ∃ other ∈ values,
      left = name one ∧ right = name other ∧ related one other)
    (up : ∀ one ∈ values, ∀ other ∈ values, related one other →
      one = other ∨ joined (name one) (name other))
    {one other : α} (oneIn : one ∈ values) (otherIn : other ∈ values) :
    Relation.EqvGen joined (name one) (name other) ↔
      Relation.EqvGen (fun one other => one ∈ values ∧ other ∈ values ∧ related one other)
        one other := by
  constructor
  · intro together
    rcases named_of_eqvGen injective down together with
      same | ⟨first, firstIn, second, secondIn, firstName, secondName, way⟩
    · rw [injective one oneIn other otherIn same]
      exact Relation.EqvGen.refl _
    · rw [injective one oneIn first firstIn firstName,
        injective other otherIn second secondIn secondName]
      exact way
  · intro together
    clear oneIn otherIn
    induction together with
    | rel left right linked =>
      rcases up left linked.1 right linked.2.1 linked.2.2 with rfl | joins
      · exact Relation.EqvGen.refl _
      · exact Relation.EqvGen.rel _ _ joins
    | refl _ => exact Relation.EqvGen.refl _
    | symm _ _ _ ih => exact Relation.EqvGen.symm _ _ ih
    | trans _ _ _ _ _ first second => exact Relation.EqvGen.trans _ _ _ first second

end

variable [DecidableEq ι]

/-- `parents[start] = parents[parents[start]]` -/
def halve (parents : ι → ι) (start : ι) : ι → ι :=
  Function.update parents start (parents (parents start))

/-- `root(start)` and the pointers it leaves, within `fuel` turns of its loop. -/
def rootLoop : (fuel : Nat) → (ι → ι) → ι → ι × (ι → ι)
  | 0, parents, start => (start, parents)
  | fuel + 1, parents, start =>
    if parents start = start then (start, parents)
    else rootLoop fuel (halve parents start) (halve parents start start)

section

variable {parents : ι → ι} {steps : Nat} {start top other : ι}

theorem Climbs.halved (middle : ι) (climbs : Climbs parents steps start top) :
    ∃ fewer ≤ steps, Climbs (halve parents middle) fewer start top := by
  induction steps using Nat.strongRecOn generalizing start with
  | ind steps ih =>
    by_cases here : start = middle
    · subst here
      have jump : halve parents start start = parents (parents start) := by
        simp [halve]
      cases climbs with
      | root fixed =>
        refine ⟨0, Nat.le_refl 0, Climbs.root ?_⟩
        rw [jump, fixed, fixed]
      | step rest =>
        cases rest with
        | root fixed =>
          refine ⟨1, Nat.le_refl 1, Climbs.step ?_⟩
          rw [jump, fixed]
          refine Climbs.root ?_
          by_cases same : parents start = start
          · rw [same, jump, same, same]
          · rw [halve, Function.update_of_ne same, fixed]
        | step rest =>
          rename_i steps
          obtain ⟨fewer, bound, shorter⟩ := ih steps (by omega) rest
          refine ⟨fewer + 1, by omega, Climbs.step ?_⟩
          rw [jump]
          exact shorter
    · have kept : halve parents middle start = parents start := by
        rw [halve, Function.update_of_ne here]
      cases climbs with
      | root fixed => exact ⟨0, Nat.le_refl 0, Climbs.root (kept.trans fixed)⟩
      | step rest =>
        rename_i steps
        obtain ⟨fewer, bound, shorter⟩ := ih steps (by omega) rest
        refine ⟨fewer + 1, by omega, Climbs.step ?_⟩
        rw [kept]
        exact shorter

theorem rootLoop_spec {fuel : Nat} (climbs : Climbs parents steps start top)
    (enough : steps ≤ fuel) :
    (rootLoop fuel parents start).1 = top ∧
      ∀ other others last, Climbs parents others other last →
        ∃ fewer ≤ others, Climbs (rootLoop fuel parents start).2 fewer other last := by
  induction fuel generalizing parents start steps with
  | zero =>
    cases climbs with
    | root fixed => exact ⟨rfl, fun other others last way => ⟨others, Nat.le_refl _, way⟩⟩
    | step rest => omega
  | succ fuel ih =>
    rw [rootLoop]
    by_cases fixed : parents start = start
    · rw [if_pos fixed]
      exact ⟨(climbs.of_root fixed).symm,
        fun other others last way => ⟨others, Nat.le_refl _, way⟩⟩
    · rw [if_neg fixed]
      have jump : halve parents start start = parents (parents start) := by
        simp [halve]
      have shorter : ∃ fewer ≤ fuel, Climbs (halve parents start) fewer
          (halve parents start start) top := by
        rw [jump]
        cases climbs with
        | root same => exact absurd same fixed
        | step rest =>
          cases rest with
          | root same =>
            obtain ⟨fewer, bound, way⟩ := (Climbs.root same).halved start
            rw [same]
            exact ⟨fewer, by omega, way⟩
          | step rest =>
            obtain ⟨fewer, bound, way⟩ := rest.halved start
            exact ⟨fewer, by omega, way⟩
      obtain ⟨fewer, bound, way⟩ := shorter
      obtain ⟨found, kept⟩ := ih way bound
      refine ⟨found, ?_⟩
      intro other others last climbsOther
      obtain ⟨once, onceBound, halvedWay⟩ := climbsOther.halved start
      obtain ⟨twice, twiceBound, finalWay⟩ := kept other once last halvedWay
      exact ⟨twice, by omega, finalWay⟩

theorem Settled.rootLoop {depth fuel : Nat} (settled : Settled parents depth)
    (enough : depth ≤ fuel) (start : ι) : Settled (rootLoop fuel parents start).2 depth := by
  obtain ⟨steps, bound, top, climbs⟩ := settled start
  intro other
  obtain ⟨others, otherBound, last, way⟩ := settled other
  obtain ⟨fewer, fewerBound, kept⟩ :=
    (rootLoop_spec climbs (Nat.le_trans bound enough)).2 other others last way
  exact ⟨fewer, by omega, last, kept⟩

end

/-- `parents[root(value)] = first` -/
def unite (fuel : Nat) (first : ι) (parents : ι → ι) (value : ι) : ι → ι :=
  let (top, parents) := rootLoop fuel parents value
  Function.update parents top first

def uniteGroup (fuel : Nat) (parents : ι → ι) : List ι → (ι → ι)
  | [] => parents
  | leader :: group =>
    let (first, parents) := rootLoop fuel parents leader
    group.foldl (unite fuel first) parents

section

variable {parents : ι → ι} {depth fuel : Nat} {joined : ι → ι → Prop} {first top : ι}

theorem climbs_update {steps : Nat} {start last : ι} (fixed : parents top = top)
    (leads : parents first = first) (climbs : Climbs parents steps start last) :
    ∃ more ≤ steps + 1, Climbs (Function.update parents top first) more start
      (if last = top then first else last) := by
  have firstRoot : Climbs (Function.update parents top first) 0 first first := by
    refine Climbs.root ?_
    by_cases same : first = top
    · rw [same, Function.update_self]
    · rw [Function.update_of_ne same, leads]
  have fromTop : Climbs (Function.update parents top first) 1 top first := by
    refine Climbs.step ?_
    rwa [Function.update_self]
  induction climbs with
  | @root last stays =>
    by_cases here : last = top
    · subst here
      rw [if_pos rfl]
      exact ⟨1, Nat.le_refl 1, fromTop⟩
    · rw [if_neg here]
      refine ⟨0, Nat.zero_le _, Climbs.root ?_⟩
      rw [Function.update_of_ne here, stays]
  | @step steps start last rest ih =>
    by_cases here : start = top
    · subst here
      rw [fixed] at rest
      rw [rest.of_root fixed, if_pos rfl]
      exact ⟨1, by omega, fromTop⟩
    · obtain ⟨more, bound, way⟩ := ih
      refine ⟨more + 1, by omega, Climbs.step ?_⟩
      rwa [Function.update_of_ne here]

theorem Represents.rootLoop (represents : Represents parents depth joined) (enough : depth ≤ fuel)
    (start : ι) : Represents (rootLoop fuel parents start).2 depth joined where
  settled := represents.settled.rootLoop enough start
  same_top := by
    intro one other oneTop otherTop oneSteps otherSteps oneWay otherWay
    obtain ⟨steps, bound, top, climbs⟩ := represents.settled start
    obtain ⟨-, kept⟩ := rootLoop_spec climbs (Nat.le_trans bound enough)
    obtain ⟨oneOld, -, oneLast, oneClimbs⟩ := represents.settled one
    obtain ⟨otherOld, -, otherLast, otherClimbs⟩ := represents.settled other
    obtain ⟨_, -, oneKept⟩ := kept one oneOld oneLast oneClimbs
    obtain ⟨_, -, otherKept⟩ := kept other otherOld otherLast otherClimbs
    rw [oneWay.unique oneKept, otherWay.unique otherKept]
    exact represents.same_top oneClimbs otherClimbs

theorem moved_same_top {value one other oneLast otherLast : ι}
    {valueSteps firstSteps oneSteps otherSteps : Nat} (represents : Represents parents depth joined)
    (valueWay : Climbs parents valueSteps value top) (firstWay : Climbs parents firstSteps first first)
    (oneWay : Climbs parents oneSteps one oneLast)
    (otherWay : Climbs parents otherSteps other otherLast) :
    ((if oneLast = top then first else oneLast) =
        (if otherLast = top then first else otherLast)) ↔
      Relation.EqvGen (fun one other => joined one other ∨ (one = value ∧ other = first))
        one other := by
  have wider := fun {left right : ι} (together : Relation.EqvGen joined left right) =>
    together.mono (p := fun one other => joined one other ∨ (one = value ∧ other = first))
      fun _ _ related => Or.inl related
  have near : ∀ {start last : ι} {steps : Nat}, Climbs parents steps start last →
      Relation.EqvGen (fun one other => joined one other ∨ (one = value ∧ other = first)) start
        (if last = top then first else last) := by
    intro start last steps way
    by_cases here : last = top
    · rw [if_pos here]
      have together := wider ((represents.same_top way valueWay).mp here)
      exact Relation.EqvGen.trans _ _ _ together (Relation.EqvGen.rel _ _ (Or.inr ⟨rfl, rfl⟩))
    · rw [if_neg here]
      exact wider ((represents.same_top way (Climbs.root way.is_root)).mp rfl)
  constructor
  · intro same
    have left := near oneWay
    rw [same] at left
    exact Relation.EqvGen.trans _ _ _ left (Relation.EqvGen.symm _ _ (near otherWay))
  · intro together
    induction together generalizing oneLast otherLast oneSteps otherSteps with
    | rel left right related =>
      rcases related with related | ⟨rfl, rfl⟩
      · rw [(represents.same_top oneWay otherWay).mpr (Relation.EqvGen.rel _ _ related)]
      · rw [oneWay.unique valueWay, otherWay.unique firstWay, if_pos rfl]
        split <;> rfl
    | refl _ => rw [oneWay.unique otherWay]
    | symm _ _ _ ih => exact (ih otherWay oneWay).symm
    | trans _ middle _ _ _ left right =>
      obtain ⟨steps, -, last, way⟩ := represents.settled middle
      exact (left oneWay way).trans (right way otherWay)

theorem Represents.hang {steps : Nat} {value : ι} (represents : Represents parents depth joined)
    (climbs : Climbs parents steps value top) (leads : parents first = first) :
    Represents (Function.update parents top first) (depth + 1)
      (fun one other => joined one other ∨ (one = value ∧ other = first)) where
  settled := by
    intro start
    obtain ⟨steps, bound, last, way⟩ := represents.settled start
    obtain ⟨more, moreBound, newWay⟩ := climbs_update climbs.is_root leads way
    exact ⟨more, by omega, _, newWay⟩
  same_top := by
    intro one other oneTop otherTop oneSteps otherSteps oneWay otherWay
    obtain ⟨_, -, oneLast, oneClimbs⟩ := represents.settled one
    obtain ⟨_, -, otherLast, otherClimbs⟩ := represents.settled other
    obtain ⟨_, -, oneNew⟩ := climbs_update climbs.is_root leads oneClimbs
    obtain ⟨_, -, otherNew⟩ := climbs_update climbs.is_root leads otherClimbs
    rw [oneWay.unique oneNew, otherWay.unique otherNew]
    exact moved_same_top represents climbs (Climbs.root leads) oneClimbs otherClimbs

theorem Represents.unite (represents : Represents parents depth joined) (enough : depth ≤ fuel)
    (leads : parents first = first) (value : ι) :
    Represents (unite fuel first parents value) (depth + 1)
        (fun one other => joined one other ∨ (one = value ∧ other = first)) ∧
      unite fuel first parents value first = first := by
  obtain ⟨steps, bound, top, climbs⟩ := represents.settled value
  obtain ⟨found, kept⟩ := rootLoop_spec climbs (Nat.le_trans bound enough)
  have halved := represents.rootLoop enough value
  have united : Library.unite fuel first parents value =
      Function.update (Library.rootLoop fuel parents value).2 top first := by
    rw [Library.unite, ← found]
  generalize (Library.rootLoop fuel parents value).2 = current at united halved kept
  obtain ⟨_, -, valueWay⟩ := kept value steps top climbs
  obtain ⟨firstSteps, firstBound, firstWay⟩ := kept first 0 first (Climbs.root leads)
  have currentLeads : current first = first := firstWay.is_root
  rw [united]
  refine ⟨halved.hang valueWay currentLeads, ?_⟩
  by_cases same : first = top
  · rw [same, Function.update_self]
  · rw [Function.update_of_ne same, currentLeads]

theorem Represents.foldl_unite (represents : Represents parents depth joined)
    (leads : parents first = first) (group : List ι) (enough : depth + group.length ≤ fuel) :
    Represents (group.foldl (Library.unite fuel first) parents) (depth + group.length)
        (fun one other => joined one other ∨ (one ∈ group ∧ other = first)) ∧
      group.foldl (Library.unite fuel first) parents first = first := by
  induction group generalizing parents depth joined with
  | nil =>
    refine ⟨⟨represents.settled, ?_⟩, leads⟩
    intro one other oneTop otherTop oneSteps otherSteps oneWay otherWay
    simpa using represents.same_top oneWay otherWay
  | cons value group ih =>
    rw [List.length_cons] at enough
    obtain ⟨next, nextLeads⟩ := represents.unite (by omega : depth ≤ fuel) leads value
    obtain ⟨whole, wholeLeads⟩ := ih next nextLeads (by omega)
    refine ⟨⟨?_, ?_⟩, wholeLeads⟩
    · have settled := whole.settled
      rwa [List.length_cons, Nat.add_comm group.length 1, ← Nat.add_assoc]
    · intro one other oneTop otherTop oneSteps otherSteps oneWay otherWay
      rw [whole.same_top oneWay otherWay]
      have same : (fun one other => (joined one other ∨ (one = value ∧ other = first)) ∨
          (one ∈ group ∧ other = first)) =
          fun one other => joined one other ∨ (one ∈ value :: group ∧ other = first) := by
        funext one other
        simp only [List.mem_cons, or_and_right, or_assoc]
      rw [same]

theorem Represents.uniteGroup (represents : Represents parents depth joined) (group : List ι)
    (enough : depth + group.length ≤ fuel) :
    Represents (Library.uniteGroup fuel parents group) (depth + group.length)
      (fun one other => joined one other ∨ (one ∈ group ∧ other ∈ group)) := by
  cases group with
  | nil =>
    refine ⟨represents.settled, ?_⟩
    intro one other oneTop otherTop oneSteps otherSteps oneWay otherWay
    simpa using represents.same_top oneWay otherWay
  | cons leader group =>
    rw [List.length_cons] at enough ⊢
    obtain ⟨steps, bound, first, climbs⟩ := represents.settled leader
    obtain ⟨found, kept⟩ := rootLoop_spec climbs (by omega : steps ≤ fuel)
    have halved := represents.rootLoop (by omega : depth ≤ fuel) leader
    obtain ⟨_, -, leaderWay⟩ := kept leader steps first climbs
    have room : depth + group.length ≤ fuel := by omega
    obtain ⟨united, -⟩ := halved.foldl_unite leaderWay.is_root group room
    have leader_first : Relation.EqvGen joined leader first :=
      (halved.same_top leaderWay (Climbs.root leaderWay.is_root)).mp rfl
    have result : Library.uniteGroup fuel parents (leader :: group) =
        group.foldl (Library.unite fuel first) (Library.rootLoop fuel parents leader).2 := by
      rw [Library.uniteGroup, ← found]
    rw [result]
    refine ⟨?_, ?_⟩
    · intro start
      obtain ⟨steps, bound, last, way⟩ := united.settled start
      exact ⟨steps, by omega, last, way⟩
    · intro one other oneTop otherTop oneSteps otherSteps oneWay otherWay
      rw [united.same_top oneWay otherWay]
      constructor
      · refine eqvGen_within ?_
        rintro left right (related | ⟨member, rfl⟩)
        · exact Relation.EqvGen.rel _ _ (Or.inl related)
        · have inside : Relation.EqvGen (fun one other => joined one other ∨
              (one ∈ leader :: group ∧ other ∈ leader :: group)) left leader :=
            Relation.EqvGen.rel _ _ (Or.inr ⟨List.mem_cons_of_mem _ member, List.mem_cons_self⟩)
          exact Relation.EqvGen.trans _ _ _ inside
            (leader_first.mono fun _ _ related => Or.inl related)
      · have near : ∀ value ∈ leader :: group, Relation.EqvGen (fun one other =>
            joined one other ∨ (one ∈ group ∧ other = first)) value first := by
          intro value member
          rcases List.mem_cons.mp member with rfl | later
          · exact leader_first.mono fun _ _ related => Or.inl related
          · exact Relation.EqvGen.rel _ _ (Or.inr ⟨later, rfl⟩)
        refine eqvGen_within ?_
        rintro left right (related | ⟨leftIn, rightIn⟩)
        · exact Relation.EqvGen.rel _ _ (Or.inl related)
        · exact Relation.EqvGen.trans _ _ _ (near left leftIn)
            (Relation.EqvGen.symm _ _ (near right rightIn))

end

def rootAfter (groups : List (List ι)) (value : ι) : ι :=
  let fuel := (groups.map List.length).sum
  (rootLoop fuel (groups.foldl (uniteGroup fuel) id) value).1

theorem rootAfter_eq_iff (groups : List (List ι)) (one other : ι) :
    rootAfter groups one = rootAfter groups other ↔
      Relation.EqvGen (fun left right => ∃ group ∈ groups, left ∈ group ∧ right ∈ group)
        one other := by
  have room : 0 + (groups.map List.length).sum ≤ (groups.map List.length).sum := by omega
  have whole := represents_id.foldl_groups (fun group before => before.uniteGroup group) groups room
  obtain ⟨oneSteps, oneBound, oneTop, oneWay⟩ := whole.settled one
  obtain ⟨otherSteps, otherBound, otherTop, otherWay⟩ := whole.settled other
  have oneFound := (rootLoop_spec oneWay (Nat.le_trans oneBound room)).1
  have otherFound := (rootLoop_spec otherWay (Nat.le_trans otherBound room)).1
  rw [rootAfter, rootAfter, oneFound, otherFound, whole.same_top oneWay otherWay]
  simp only [false_or]

end SparseLab.Library
