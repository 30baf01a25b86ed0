import Mathlib.Data.Set.Insert
import SparseLab.Library.Outcomes

/-! Computations by named steps, each a function of the values of all earlier steps. -/

namespace SparseLab.Library

inductive Procedure (ι ε β α : Type)
  | done (result : α)
  | fail (failure : ε)
  | step (name : ι) (value : Except ε β) (next : β → Procedure ι ε β α)

namespace Procedure

variable {ι ε β α γ : Type}

def run : Procedure ι ε β α → Except ε α
  | done result => .ok result
  | fail failure => .error failure
  | step _ value next => value >>= fun given => (next given).run

def after : Procedure ι ε β α → List β → Procedure ι ε β α
  | procedure, [] => procedure
  | done result, _ :: _ => done result
  | fail failure, _ :: _ => fail failure
  | step _ _ next, value :: values => (next value).after values

def bind : Procedure ι ε β α → (α → Procedure ι ε β γ) → Procedure ι ε β γ
  | done result, continuation => continuation result
  | fail failure, _ => fail failure
  | step name value next, continuation =>
    step name value fun given => (next given).bind continuation

instance : Monad (Procedure ι ε β) where
  pure := done
  bind := bind

def stage (name : ι) (value : Except ε β) : Procedure ι ε β β := step name value done

def Distinct : Procedure ι ε β α → Set ι → Prop
  | done _, _ => True
  | fail _, _ => True
  | step name _ next, used => name ∉ used ∧ ∀ value, (next value).Distinct (insert name used)

def Within : Procedure ι ε β α → Set ι → Prop
  | done _, _ => True
  | fail _, _ => True
  | step name _ next, names => name ∈ names ∧ ∀ value, (next value).Within names

def Traced : Procedure ι ε β α → List (ι × β) → Prop
  | _, [] => True
  | done _, _ :: _ => False
  | fail _, _ :: _ => False
  | step name value next, entry :: rest =>
    entry.1 = name ∧ value = .ok entry.2 ∧ (next entry.2).Traced rest

theorem run_bind (procedure : Procedure ι ε β α) (continuation : α → Procedure ι ε β γ) :
    (procedure >>= continuation).run = procedure.run >>= fun result => (continuation result).run := by
  change (procedure.bind continuation).run = _
  induction procedure with
  | done result => rfl
  | fail failure => rfl
  | step name value next ih =>
    rw [bind, run, run]
    cases value with
    | error failure => rfl
    | ok given => exact ih given

@[simp] theorem run_stage (name : ι) (value : Except ε β) :
    (stage name value : Procedure ι ε β β).run = value := by
  cases value <;> rfl

theorem Distinct.mono {procedure : Procedure ι ε β α} {used more : Set ι} (subset : used ⊆ more)
    (distinct : procedure.Distinct more) : procedure.Distinct used := by
  induction procedure generalizing used more with
  | done result => trivial
  | fail failure => trivial
  | step name value next ih =>
    refine ⟨fun member => distinct.1 (subset member), fun given => ?_⟩
    exact ih given (Set.insert_subset_insert subset) (distinct.2 given)

theorem Within.mono {procedure : Procedure ι ε β α} {names more : Set ι}
    (within : procedure.Within names) (subset : names ⊆ more) : procedure.Within more := by
  induction procedure with
  | done result => trivial
  | fail failure => trivial
  | step name value next ih => exact ⟨subset within.1, fun given => ih given (within.2 given)⟩

theorem Distinct.bind {procedure : Procedure ι ε β α} {continuation : α → Procedure ι ε β γ}
    {used names : Set ι} (distinct : procedure.Distinct used) (within : procedure.Within names)
    (rest : ∀ result, (continuation result).Distinct (used ∪ names)) :
    (procedure >>= continuation).Distinct used := by
  change (procedure.bind continuation).Distinct used
  induction procedure generalizing used with
  | done result => exact (rest result).mono Set.subset_union_left
  | fail failure => trivial
  | step name value next ih =>
    refine ⟨distinct.1, fun given => ih given (distinct.2 given) (within.2 given) fun result => ?_⟩
    rw [Set.insert_union, Set.insert_eq_of_mem (Set.mem_union_right used within.1)]
    exact rest result

theorem Within.bind {procedure : Procedure ι ε β α} {continuation : α → Procedure ι ε β γ}
    {names : Set ι} (within : procedure.Within names)
    (rest : ∀ result, (continuation result).Within names) :
    (procedure >>= continuation).Within names := by
  change (procedure.bind continuation).Within names
  induction procedure with
  | done result => exact rest result
  | fail failure => trivial
  | step name value next ih => exact ⟨within.1, fun given => ih given (within.2 given)⟩

theorem distinct_stage {name : ι} {value : Except ε β} {used : Set ι} (fresh : name ∉ used) :
    (stage name value : Procedure ι ε β β).Distinct used :=
  ⟨fresh, fun _ => trivial⟩

theorem within_stage {name : ι} {value : Except ε β} {names : Set ι} (member : name ∈ names) :
    (stage name value : Procedure ι ε β β).Within names :=
  ⟨member, fun _ => trivial⟩

section

variable {procedure : Procedure ι ε β α} {trace rest : List (ι × β)}

@[simp] theorem traced_nil : procedure.Traced [] := by
  cases procedure <;> trivial

theorem Traced.left (traced : procedure.Traced (trace ++ rest)) : procedure.Traced trace := by
  induction trace generalizing procedure with
  | nil => exact traced_nil
  | cons entry trace ih =>
    cases procedure with
    | step name value next => exact ⟨traced.1, traced.2.1, ih traced.2.2⟩
    | _ => cases traced

theorem Traced.right (traced : procedure.Traced (trace ++ rest)) :
    (procedure.after (trace.map Prod.snd)).Traced rest := by
  induction trace generalizing procedure with
  | nil => cases procedure <;> exact traced
  | cons entry trace ih =>
    cases procedure with
    | step name value next => exact ih traced.2.2
    | _ => cases traced

theorem Traced.append (traced : procedure.Traced trace)
    (continued : (procedure.after (trace.map Prod.snd)).Traced rest) :
    procedure.Traced (trace ++ rest) := by
  induction trace generalizing procedure with
  | nil => cases procedure <;> exact continued
  | cons entry trace ih =>
    cases procedure with
    | step name value next => exact ⟨traced.1, traced.2.1, ih traced.2.2 continued⟩
    | _ => cases traced

theorem Traced.run_after (traced : procedure.Traced trace) :
    (procedure.after (trace.map Prod.snd)).run = procedure.run := by
  induction trace generalizing procedure with
  | nil => cases procedure <;> rfl
  | cons entry trace ih =>
    cases procedure with
    | step name value next =>
      obtain ⟨_, returned, traced⟩ := traced
      rw [run, returned]
      exact ih traced
    | _ => cases traced

theorem after_append (procedure : Procedure ι ε β α) (values more : List β) :
    procedure.after (values ++ more) = (procedure.after values).after more := by
  induction values generalizing procedure with
  | nil => cases procedure <;> rfl
  | cons value values ih =>
    cases procedure with
    | step name given next => exact ih (next value)
    | done result => cases more <;> rfl
    | fail failure => cases more <;> rfl

theorem Traced.bind_done {first : Procedure ι ε β γ} {continuation : γ → Procedure ι ε β α}
    (traced : (first >>= continuation).Traced trace) {result : α}
    (finished : (first >>= continuation).after (trace.map Prod.snd) = done result) :
    ∃ between before later, trace = before ++ later ∧ first.Traced before ∧
      first.after (before.map Prod.snd) = done between ∧ (continuation between).Traced later ∧
        (continuation between).after (later.map Prod.snd) = done result := by
  change (first.bind continuation).Traced trace at traced
  change (first.bind continuation).after (trace.map Prod.snd) = done result at finished
  induction first generalizing trace with
  | done between => exact ⟨between, [], trace, rfl, traced_nil, rfl, traced, finished⟩
  | fail failure =>
    cases trace with
    | nil => cases finished
    | cons entry trace => cases traced
  | step name value next ih =>
    cases trace with
    | nil => cases finished
    | cons entry trace =>
      obtain ⟨named, returned, traced⟩ := traced
      obtain ⟨between, before, later, rfl, traced', finished', rest⟩ :=
        ih entry.2 traced finished
      exact ⟨between, entry :: before, later, rfl, ⟨named, returned, traced'⟩, finished', rest⟩

theorem Traced.stage_done {name : ι} {value : Except ε β} {trace : List (ι × β)} {result : β}
    (traced : (stage name value).Traced trace)
    (finished : (stage name value).after (trace.map Prod.snd) = done result) :
    trace = [(name, result)] := by
  cases trace with
  | nil => cases finished
  | cons entry trace =>
    obtain ⟨named, _, rest⟩ := traced
    cases trace with
    | nil =>
      cases finished
      rw [← named]
    | cons other trace => cases rest

theorem Traced.distinct {used : Set ι} (traced : procedure.Traced trace)
    (distinct : procedure.Distinct used) : (trace.map Prod.fst).Nodup ∧
      (∀ name ∈ trace.map Prod.fst, name ∉ used) ∧
        (procedure.after (trace.map Prod.snd)).Distinct (used ∪ {name | name ∈ trace.map Prod.fst}) := by
  induction trace generalizing procedure used with
  | nil =>
    refine ⟨List.nodup_nil, fun _ member => absurd member List.not_mem_nil, ?_⟩
    have same : used ∪ {name | name ∈ ([] : List (ι × β)).map Prod.fst} = used := by simp
    rw [same]
    cases procedure <;> exact distinct
  | cons entry trace ih =>
    cases procedure with
    | step name value next =>
      obtain ⟨rfl, _, traced⟩ := traced
      obtain ⟨unique, fresh, left⟩ := ih traced (distinct.2 entry.2)
      refine ⟨List.nodup_cons.mpr ⟨fun member => fresh _ member (Set.mem_insert _ _), unique⟩,
        fun other member => ?_, ?_⟩
      · obtain rfl | member := List.mem_cons.mp member
        · exact distinct.1
        · exact fun taken => fresh other member (Set.mem_insert_of_mem _ taken)
      · refine left.mono ?_
        rintro other (taken | member)
        · exact Or.inl (Set.mem_insert_of_mem _ taken)
        · obtain rfl | member := List.mem_cons.mp member
          · exact Or.inl (Set.mem_insert _ _)
          · exact Or.inr member
    | _ => cases traced

end

end Procedure

end SparseLab.Library
