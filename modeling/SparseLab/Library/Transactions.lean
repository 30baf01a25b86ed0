import Mathlib.Tactic.Common

/-! Database transactions. `Commits` is the weakest precondition of a commit. -/

namespace SparseLab.Library

universe u

variable {σ ε α β : Type u}

def transact (body : EStateM ε σ α) (state : σ) : Except ε α × σ :=
  match body state with
  | .ok value written => (.ok value, written)
  | .error failure _ => (.error failure, state)

/-- `if condition: raise failure` -/
def raiseIf (condition : Prop) [Decidable condition] (failure : ε) : EStateM ε σ PUnit :=
  if condition then throw failure else pure ⟨⟩

def orRaise : Except ε α → EStateM ε σ α
  | .ok value => pure value
  | .error failure => throw failure

def raiseIfNone (failure : ε) : Option α → EStateM ε σ α
  | some value => pure value
  | none => throw failure

/-- Wherever the body commits from `state`, its value and its writes satisfy `good`. -/
def Commits (body : EStateM ε σ α) (state : σ) (good : α → σ → Prop) : Prop :=
  ∀ value written, body state = .ok value written → good value written

section

variable {state : σ} {good : α → σ → Prop}

@[simp] theorem commits_pure {value : α} :
    Commits (pure value : EStateM ε σ α) state good ↔ good value state := by
  constructor
  · intro commits
    exact commits value state rfl
  · intro holds value' written committed
    cases committed
    exact holds

@[simp] theorem commits_throw {failure : ε} :
    Commits (throw failure : EStateM ε σ α) state good := by
  intro value written committed
  cases committed

@[simp] theorem commits_get {good : σ → σ → Prop} :
    Commits (get : EStateM ε σ σ) state good ↔ good state state := by
  constructor
  · intro commits
    exact commits state state rfl
  · intro holds value written committed
    cases committed
    exact holds

@[simp] theorem commits_set {good : PUnit → σ → Prop} {written : σ} :
    Commits (set written : EStateM ε σ PUnit) state good ↔ good ⟨⟩ written := by
  constructor
  · intro commits
    exact commits ⟨⟩ written rfl
  · intro holds value written' committed
    cases committed
    exact holds

@[simp] theorem commits_modify {good : PUnit → σ → Prop} {write : σ → σ} :
    Commits (modify write : EStateM ε σ PUnit) state good ↔ good ⟨⟩ (write state) := by
  constructor
  · intro commits
    exact commits ⟨⟩ (write state) rfl
  · intro holds value written committed
    cases committed
    exact holds

@[simp] theorem commits_bind {first : EStateM ε σ β} {rest : β → EStateM ε σ α} :
    Commits (first >>= rest) state good ↔
      Commits first state fun value written => Commits (rest value) written good := by
  constructor
  · intro commits value written firstCommitted result final restCommitted
    apply commits result final
    change EStateM.bind first rest state = _
    rw [EStateM.bind, firstCommitted]
    exact restCommitted
  · intro commits result final committed
    change EStateM.bind first rest state = _ at committed
    unfold EStateM.bind at committed
    split at committed
    next value written firstCommitted =>
      exact commits value written firstCommitted result final committed
    next => cases committed

@[simp] theorem commits_raiseIf {condition : Prop} [Decidable condition] {failure : ε}
    {good : PUnit → σ → Prop} :
    Commits (raiseIf condition failure : EStateM ε σ PUnit) state good ↔
      (¬ condition → good ⟨⟩ state) := by
  unfold raiseIf
  by_cases raised : condition
  · rw [if_pos raised]
    simp [raised]
  · rw [if_neg raised]
    simp [raised]

@[simp] theorem commits_orRaise {attempt : Except ε α} :
    Commits (orRaise attempt : EStateM ε σ α) state good ↔
      ∀ value, attempt = .ok value → good value state := by
  cases attempt <;> simp [orRaise]

@[simp] theorem commits_raiseIfNone {failure : ε} {found : Option α} :
    Commits (raiseIfNone failure found : EStateM ε σ α) state good ↔
      ∀ value, found = some value → good value state := by
  cases found <;> simp [raiseIfNone]

theorem commits_ite {condition : Prop} [Decidable condition] {yes no : EStateM ε σ α} :
    Commits (if condition then yes else no) state good ↔
      (condition → Commits yes state good) ∧ (¬ condition → Commits no state good) := by
  by_cases holds : condition
  · rw [if_pos holds]
    simp [holds]
  · rw [if_neg holds]
    simp [holds]

theorem Commits.mono {weaker : α → σ → Prop} {body : EStateM ε σ α}
    (commits : Commits body state good)
    (weaken : ∀ value written, good value written → weaker value written) :
    Commits body state weaker := by
  intro value written committed
  exact weaken value written (commits value written committed)

end

section

variable {state written : σ} {value : α} {failure : ε}

@[simp] theorem transact_pure :
    transact (pure value : EStateM ε σ α) state = (.ok value, state) := rfl

@[simp] theorem transact_set :
    transact (set written : EStateM ε σ PUnit) state = (.ok ⟨⟩, written) := rfl

@[simp] theorem transact_get_bind {rest : σ → EStateM ε σ α} :
    transact (get >>= rest) state = transact (rest state) state := rfl

@[simp] theorem transact_set_pure :
    transact (set written >>= fun _ => pure value : EStateM ε σ α) state = (.ok value, written) :=
  rfl

@[simp] theorem transact_some_bind {found : β} {rest : β → EStateM ε σ α} :
    transact (raiseIfNone failure (some found) >>= rest) state = transact (rest found) state := rfl

@[simp] theorem transact_none_bind {rest : β → EStateM ε σ α} :
    transact (raiseIfNone failure none >>= rest) state = (.error failure, state) := rfl

theorem transact_raiseIf_bind {condition : Prop} [Decidable condition]
    {rest : PUnit → EStateM ε σ α} :
    transact (raiseIf condition failure >>= rest) state =
      if condition then (.error failure, state) else transact (rest ⟨⟩) state := by
  unfold raiseIf
  by_cases holds : condition
  · rw [if_pos holds, if_pos holds]
    rfl
  · rw [if_neg holds, if_neg holds]
    rfl

theorem transact_ite {condition : Prop} [Decidable condition] {yes no : EStateM ε σ α} :
    transact (if condition then yes else no) state =
      if condition then transact yes state else transact no state := by
  split <;> rfl

end

section

variable {body : EStateM ε σ α} {state : σ}

theorem transact_error {failure : ε} (raised : (transact body state).1 = .error failure) :
    (transact body state).2 = state := by
  unfold transact at raised ⊢
  split at raised
  next => cases raised
  next => rfl

theorem transact_ok {good : α → σ → Prop} {value : α} (commits : Commits body state good)
    (returned : (transact body state).1 = .ok value) : good value (transact body state).2 := by
  unfold transact at returned ⊢
  split at returned
  next written ended =>
    cases returned
    exact commits value written ended
  next => cases returned

theorem transact_related {related : σ → Prop} (commits : Commits body state fun _ => related)
    (kept : related state) : related (transact body state).2 := by
  cases returned : (transact body state).1 with
  | ok value => exact transact_ok commits returned
  | error failure =>
    rw [transact_error returned]
    exact kept

end

end SparseLab.Library
