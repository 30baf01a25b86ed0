import Mathlib.Tactic.Common

/-! Computations that may raise or crash after any write. `Survives` has rules for all endings. -/

namespace SparseLab.Library

universe u

class Writes (σ : Type u) (ω : outParam (Type u)) where
  perform : σ → ω → σ

def performAll {σ ω : Type u} [Writes σ ω] (state : σ) (writes : List ω) : σ :=
  writes.foldl Writes.perform state

def Journal (σ ω ε α : Type u) : Type u :=
  σ → List ω × Except ε α

variable {σ ω ε α β : Type u}

namespace Journal

def run (body : Journal σ ω ε α) (state : σ) : List ω × Except ε α :=
  body state

def look : Journal σ ω ε σ :=
  fun state => ([], .ok state)

def raise (failure : ε) : Journal σ ω ε α :=
  fun _ => ([], .error failure)

def emitAll (writes : List ω) : Journal σ ω ε PUnit :=
  fun _ => (writes, .ok ⟨⟩)

def emit (write : ω) : Journal σ ω ε PUnit :=
  emitAll [write]

instance [Writes σ ω] : Monad (Journal σ ω ε) where
  pure value := fun _ => ([], .ok value)
  bind first rest := fun state =>
    match first state with
    | (writes, .error failure) => (writes, .error failure)
    | (writes, .ok value) =>
      let (later, outcome) := rest value (performAll state writes)
      (writes ++ later, outcome)

end Journal

section

variable [Writes σ ω]

@[simp] theorem performAll_nil (state : σ) : performAll state ([] : List ω) = state := rfl

@[simp] theorem performAll_cons (state : σ) (write : ω) (writes : List ω) :
    performAll state (write :: writes) = performAll (Writes.perform state write) writes := rfl

theorem performAll_append (state : σ) (first second : List ω) :
    performAll state (first ++ second) = performAll (performAll state first) second :=
  List.foldl_append

theorem performAll_take {invariant : σ → Prop} {writes : List ω}
    (preserved : ∀ write ∈ writes, ∀ state, invariant state →
      invariant (Writes.perform state write)) {state : σ} (holds : invariant state) (cut : Nat) :
    invariant (performAll state (writes.take cut)) := by
  induction writes generalizing state cut with
  | nil => simpa using holds
  | cons write writes ih =>
    cases cut with
    | zero => exact holds
    | succ cut =>
      exact ih (fun later member => preserved later (List.mem_cons_of_mem _ member))
        (preserved write List.mem_cons_self state holds) cut

theorem performAll_preserved {invariant : σ → Prop} {writes : List ω}
    (preserved : ∀ write ∈ writes, ∀ state, invariant state →
      invariant (Writes.perform state write)) {state : σ} (holds : invariant state) :
    invariant (performAll state writes) := by
  have whole := performAll_take preserved holds writes.length
  rwa [List.take_length] at whole

structure Survives (body : Journal σ ω ε α) (state : σ) (crashed : σ → Prop)
    (failed : ε → σ → Prop) (done : α → σ → Prop) : Prop where
  crashed : ∀ cut, crashed (performAll state ((body.run state).1.take cut))
  failed : ∀ failure, (body.run state).2 = .error failure →
    failed failure (performAll state (body.run state).1)
  done : ∀ value, (body.run state).2 = .ok value →
    done value (performAll state (body.run state).1)

variable {state : σ} {crashed : σ → Prop} {failed : ε → σ → Prop} {done : α → σ → Prop}

theorem Survives.mono {body : Journal σ ω ε α} {crashed' : σ → Prop} {failed' : ε → σ → Prop}
    {done' : α → σ → Prop} (survives : Survives body state crashed failed done)
    (crash : ∀ state, crashed state → crashed' state)
    (fail : ∀ failure state, failed failure state → failed' failure state)
    (finish : ∀ value state, done value state → done' value state) :
    Survives body state crashed' failed' done' where
  crashed cut := crash _ (survives.crashed cut)
  failed failure raised := fail _ _ (survives.failed failure raised)
  done value returned := finish _ _ (survives.done value returned)

theorem survives_pure {value : α} (crash : crashed state) (finish : done value state) :
    Survives (pure value : Journal σ ω ε α) state crashed failed done where
  crashed cut := by
    change crashed (performAll state (([] : List ω).take cut))
    simpa using crash
  failed failure raised := by cases raised
  done value' returned := by
    cases returned
    exact finish

theorem survives_raise {failure : ε} (crash : crashed state) (fail : failed failure state) :
    Survives (Journal.raise failure : Journal σ ω ε α) state crashed failed done where
  crashed cut := by
    change crashed (performAll state (([] : List ω).take cut))
    simpa using crash
  failed failure' raised := by
    cases raised
    exact fail
  done value returned := by cases returned

theorem survives_look {done : σ → σ → Prop} (crash : crashed state) (finish : done state state) :
    Survives (Journal.look : Journal σ ω ε σ) state crashed failed done where
  crashed cut := by
    change crashed (performAll state (([] : List ω).take cut))
    simpa using crash
  failed failure raised := by cases raised
  done value returned := by
    cases returned
    exact finish

theorem survives_emitAll {writes : List ω} {done : PUnit → σ → Prop}
    (crash : ∀ cut, crashed (performAll state (writes.take cut)))
    (finish : done ⟨⟩ (performAll state writes)) :
    Survives (Journal.emitAll writes : Journal σ ω ε PUnit) state crashed failed done where
  crashed := crash
  failed failure raised := by cases raised
  done value returned := finish

theorem survives_emit {write : ω} {done : PUnit → σ → Prop} (before : crashed state)
    (after : crashed (Writes.perform state write)) (finish : done ⟨⟩ (Writes.perform state write)) :
    Survives (Journal.emit write : Journal σ ω ε PUnit) state crashed failed done := by
  refine survives_emitAll ?_ finish
  intro cut
  cases cut with
  | zero => exact before
  | succ cut => simpa using after

theorem run_bind (first : Journal σ ω ε β) (rest : β → Journal σ ω ε α) (state : σ) :
    Journal.run (first >>= rest) state =
      match first.run state with
      | (writes, .error failure) => (writes, .error failure)
      | (writes, .ok value) =>
        (writes ++ ((rest value).run (performAll state writes)).1,
          ((rest value).run (performAll state writes)).2) := rfl

theorem survives_bind {first : Journal σ ω ε β} {rest : β → Journal σ ω ε α}
    (survives : Survives first state crashed failed fun value state' =>
      Survives (rest value) state' crashed failed done) :
    Survives (first >>= rest) state crashed failed done := by
  obtain ⟨crash, fail, finish⟩ := survives
  have unfolded := run_bind first rest state
  rcases ended : first.run state with ⟨writes, outcome⟩
  rw [ended] at crash fail finish unfolded
  cases outcome with
  | error failure =>
    refine ⟨?_, ?_, ?_⟩ <;> rw [unfolded]
    · exact crash
    · intro failure' raised
      cases raised
      exact fail failure rfl
    · intro value returned
      cases returned
  | ok value =>
    obtain ⟨crash', fail', finish'⟩ := finish value rfl
    refine ⟨?_, ?_, ?_⟩ <;> rw [unfolded]
    · intro cut
      dsimp only
      rw [List.take_append, performAll_append]
      by_cases inside : cut ≤ writes.length
      · rw [Nat.sub_eq_zero_of_le inside]
        simpa using crash cut
      · rw [List.take_of_length_le (by omega)]
        exact crash' (cut - writes.length)
    · intro failure raised
      dsimp only
      rw [performAll_append]
      exact fail' failure raised
    · intro value' returned
      dsimp only
      rw [performAll_append]
      exact finish' value' returned

theorem survives_ite {condition : Prop} [Decidable condition] {yes no : Journal σ ω ε α}
    (ifYes : condition → Survives yes state crashed failed done)
    (ifNo : ¬ condition → Survives no state crashed failed done) :
    Survives (if condition then yes else no) state crashed failed done := by
  split
  · exact ifYes ‹_›
  · exact ifNo ‹_›

def Returns (body : Journal σ ω ε α) (state : σ) (done : α → σ → Prop) : Prop :=
  ∃ value, (body.run state).2 = .ok value ∧ done value (performAll state (body.run state).1)

theorem Survives.returns {body : Journal σ ω ε α} {promised : α → σ → Prop}
    (survives : Survives body state crashed failed done) (returns : Returns body state promised) :
    Returns body state done := by
  obtain ⟨value, returned, _⟩ := returns
  exact ⟨value, returned, survives.done value returned⟩

theorem Returns.mono {body : Journal σ ω ε α} {done' : α → σ → Prop}
    (returns : Returns body state done) (finish : ∀ value state, done value state → done' value state) :
    Returns body state done' := by
  obtain ⟨value, returned, ended⟩ := returns
  exact ⟨value, returned, finish _ _ ended⟩

theorem returns_pure {value : α} (finish : done value state) :
    Returns (pure value : Journal σ ω ε α) state done :=
  ⟨value, rfl, finish⟩

theorem returns_look {done : σ → σ → Prop} (finish : done state state) :
    Returns (Journal.look : Journal σ ω ε σ) state done :=
  ⟨state, rfl, finish⟩

theorem returns_emitAll {writes : List ω} {done : PUnit → σ → Prop}
    (finish : done ⟨⟩ (performAll state writes)) :
    Returns (Journal.emitAll writes : Journal σ ω ε PUnit) state done :=
  ⟨⟨⟩, rfl, finish⟩

theorem returns_bind {first : Journal σ ω ε β} {rest : β → Journal σ ω ε α}
    (returns : Returns first state fun value state' => Returns (rest value) state' done) :
    Returns (first >>= rest) state done := by
  obtain ⟨value, returned, value', returned', finish⟩ := returns
  have unfolded := run_bind first rest state
  rcases ended : first.run state with ⟨writes, outcome⟩
  rw [ended] at returned returned' finish unfolded
  cases returned
  refine ⟨value', ?_, ?_⟩ <;> rw [unfolded]
  · exact returned'
  · dsimp only
    rw [performAll_append]
    exact finish

end

end SparseLab.Library
