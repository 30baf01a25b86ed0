import Mathlib.Logic.Function.Iterate
import Mathlib.Tactic.Common

/-! Runs of machines and of transition relations: invariants, and halting by a falling measure. -/

namespace SparseLab.Library

section

variable {σ : Type*} {step : σ → σ}

theorem iterate_invariant {invariant guard : σ → Prop}
    (preserved : ∀ state, invariant state → guard state → invariant (step state))
    {start : σ} (initial : invariant start) :
    ∀ count, (∀ index < count, guard (step^[index] start)) → invariant (step^[count] start) := by
  intro count
  induction count with
  | zero => exact fun _ => initial
  | succ count ih =>
    intro guarded
    rw [Function.iterate_succ_apply']
    exact preserved _ (ih fun index below => guarded index (by omega))
      (guarded count (by omega))

theorem iterate_halts {invariant halted : σ → Prop} (measure : σ → Nat)
    (preserved : ∀ state, invariant state → invariant (step state))
    (falls : ∀ state, invariant state → ¬ halted state → measure (step state) < measure state)
    {start : σ} (initial : invariant start) :
    ∃ count, count ≤ measure start ∧ halted (step^[count] start) := by
  generalize bound : measure start = fuel
  induction fuel using Nat.strongRecOn generalizing start with
  | ind fuel ih =>
    by_cases done : halted start
    · exact ⟨0, Nat.zero_le _, done⟩
    · have smaller := falls start initial done
      obtain ⟨count, within, reached⟩ :=
        ih (measure (step start)) (by omega) (preserved start initial) rfl
      exact ⟨count + 1, by omega, reached⟩

end

section

variable {σ : Type*} {move : σ → σ → Prop}

/-- `count` moves from one state to another. -/
inductive Moves (move : σ → σ → Prop) : Nat → σ → σ → Prop
  | none (state : σ) : Moves move 0 state state
  | more {count : Nat} {first middle last : σ} (earlier : Moves move count first middle)
      (moved : move middle last) : Moves move (count + 1) first last

def Stuck (move : σ → σ → Prop) (state : σ) : Prop :=
  ∀ next, ¬ move state next

namespace Moves

variable {count : Nat} {first last : σ}

theorem invariant {holds : σ → Prop} (run : Moves move count first last)
    (preserved : ∀ state next, holds state → move state next → holds next)
    (initial : holds first) : holds last := by
  induction run with
  | none => exact initial
  | more _ moved ih => exact preserved _ _ (ih initial) moved

theorem count_le {holds : σ → Prop} (measure : σ → Nat) (run : Moves move count first last)
    (preserved : ∀ state next, holds state → move state next → holds next)
    (falls : ∀ state next, holds state → move state next → measure next < measure state)
    (initial : holds first) : count + measure last ≤ measure first := by
  induction run with
  | none => omega
  | more earlier moved ih =>
    have smaller := falls _ _ (earlier.invariant preserved initial) moved
    have before := ih initial
    omega

end Moves

end

end SparseLab.Library
