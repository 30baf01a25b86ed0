import SparseLab.Library.Transactions

/-! Routines, whose writes stay when they raise: `Keeps` for one, `Alike` for two. -/

namespace SparseLab.Library

universe u

variable {σ ε α β γ δ : Type u}

/-- `try: body except caught: handler` -/
def attempting (caught : ε → Prop) [DecidablePred caught] (body : EStateM ε σ α)
    (handler : ε → EStateM ε σ α) : EStateM ε σ α :=
  tryCatch body fun failure => if caught failure then handler failure else throw failure

/-- `try: body finally: cleanup`, where a failing cleanup raises in place of the body's end. -/
def ensuring (body : EStateM ε σ α) (cleanup : EStateM ε σ PUnit) : EStateM ε σ α := fun state =>
  match body state with
  | .ok value written =>
    match cleanup written with
    | .ok _ cleaned => .ok value cleaned
    | .error failure cleaned => .error failure cleaned
  | .error failure written =>
    match cleanup written with
    | .ok _ cleaned => .error failure cleaned
    | .error later cleaned => .error later cleaned

def Ends (body : EStateM ε σ α) (state : σ) (good : α → σ → Prop) (bad : ε → σ → Prop) : Prop :=
  match body state with
  | .ok value written => good value written
  | .error failure written => bad failure written

section

variable {state : σ} {good : α → σ → Prop} {bad : ε → σ → Prop} {body : EStateM ε σ α}

@[simp] theorem ends_pure {value : α} :
    Ends (pure value : EStateM ε σ α) state good bad ↔ good value state := Iff.rfl

@[simp] theorem ends_throw {failure : ε} :
    Ends (throw failure : EStateM ε σ α) state good bad ↔ bad failure state := Iff.rfl

@[simp] theorem ends_get {good : σ → σ → Prop} :
    Ends (get : EStateM ε σ σ) state good bad ↔ good state state := Iff.rfl

@[simp] theorem ends_modify {good : PUnit → σ → Prop} {write : σ → σ} :
    Ends (modify write : EStateM ε σ PUnit) state good bad ↔ good ⟨⟩ (write state) := Iff.rfl

theorem ends_bind {first : EStateM ε σ β} {rest : β → EStateM ε σ α} :
    Ends (first >>= rest) state good bad ↔
      Ends first state (fun value written => Ends (rest value) written good bad) bad := by
  change Ends (EStateM.bind first rest) state good bad ↔ _
  unfold Ends EStateM.bind
  cases first state <;> rfl

theorem ends_raiseIf_bind {condition : Prop} [Decidable condition] {failure : ε}
    {rest : PUnit → EStateM ε σ α} (passes : ¬ condition) :
    Ends (raiseIf condition failure >>= rest) state good bad ↔ Ends (rest ⟨⟩) state good bad := by
  unfold raiseIf
  rw [if_neg passes]
  rfl

theorem ends_raiseIfNone_bind {failure : ε} {found : Option β} {value : β}
    {rest : β → EStateM ε σ α} (stored : found = some value) :
    Ends (raiseIfNone failure found >>= rest) state good bad ↔ Ends (rest value) state good bad := by
  rw [stored]
  rfl

theorem ends_orRaise_bind {attempt : Except ε β} {value : β} {rest : β → EStateM ε σ α}
    (returned : attempt = .ok value) :
    Ends (orRaise attempt >>= rest) state good bad ↔ Ends (rest value) state good bad := by
  rw [returned]
  rfl

theorem ends_attempting {caught : ε → Prop} [DecidablePred caught]
    {handler : ε → EStateM ε σ α} :
    Ends (attempting caught body handler) state good bad ↔
      Ends body state good fun failure written =>
        if caught failure then Ends (handler failure) written good bad else bad failure written := by
  change Ends (EStateM.tryCatch body _) state good bad ↔ _
  unfold Ends EStateM.tryCatch
  cases body state with
  | ok value written => rfl
  | error failure written =>
    by_cases handled : caught failure
    · simp only [if_pos handled]
      rfl
    · simp only [if_neg handled]
      rfl

theorem ends_ensuring {cleanup : EStateM ε σ PUnit} :
    Ends (ensuring body cleanup) state good bad ↔
      Ends body state (fun value written => Ends cleanup written (fun _ => good value) bad)
        fun failure written => Ends cleanup written (fun _ => bad failure) bad := by
  unfold Ends ensuring
  cases body state with
  | ok value written =>
    dsimp only
    cases cleanup written <;> rfl
  | error failure written =>
    dsimp only
    cases cleanup written <;> rfl

theorem Ends.mono {good' : α → σ → Prop} {bad' : ε → σ → Prop}
    (ends : Ends body state good bad) (weaken : ∀ value written, good value written → good' value written)
    (weaken' : ∀ failure written, bad failure written → bad' failure written) :
    Ends body state good' bad' := by
  unfold Ends at ends ⊢
  cases ended : body state with
  | ok value written =>
    rw [ended] at ends
    exact weaken value written ends
  | error failure written =>
    rw [ended] at ends
    exact weaken' failure written ends

end

def Keeps (invariant : σ → Prop) (allowed : ε → Prop) (body : EStateM ε σ α) : Prop :=
  ∀ state, invariant state →
    Ends body state (fun _ => invariant) fun failure written => allowed failure ∧ invariant written

namespace Keeps

variable {invariant : σ → Prop} {allowed : ε → Prop} {body : EStateM ε σ α}

theorem pure (value : α) : Keeps invariant allowed (pure value : EStateM ε σ α) :=
  fun _ holds => holds

theorem throw {failure : ε} (raises : allowed failure) :
    Keeps invariant allowed (throw failure : EStateM ε σ α) :=
  fun _ holds => ⟨raises, holds⟩

theorem get : Keeps invariant allowed (get : EStateM ε σ σ) := fun _ holds => holds

theorem bind {first : EStateM ε σ β} {rest : β → EStateM ε σ α}
    (earlier : Keeps invariant allowed first) (later : ∀ value, Keeps invariant allowed (rest value)) :
    Keeps invariant allowed (first >>= rest) := by
  intro state holds
  refine ends_bind.mpr ((earlier state holds).mono ?_ fun _ _ => id)
  exact fun value written kept => later value written kept

theorem attempting {caught raised : ε → Prop} [DecidablePred caught]
    {handler : ε → EStateM ε σ α} (tried : Keeps invariant raised body)
    (handled : ∀ failure, raised failure → caught failure →
      Keeps invariant allowed (handler failure))
    (escapes : ∀ failure, raised failure → ¬ caught failure → allowed failure) :
    Keeps invariant allowed (attempting caught body handler) := by
  intro state holds
  refine ends_attempting.mpr ((tried state holds).mono (fun _ _ => id) ?_)
  rintro failure written ⟨raises, kept⟩
  by_cases catches : caught failure
  · rw [if_pos catches]
    exact handled failure raises catches written kept
  · rw [if_neg catches]
    exact ⟨escapes failure raises catches, kept⟩

theorem ite {condition : Prop} [Decidable condition] {yes no : EStateM ε σ α}
    (whenTrue : condition → Keeps invariant allowed yes)
    (whenFalse : ¬ condition → Keeps invariant allowed no) :
    Keeps invariant allowed (if condition then yes else no) := by
  by_cases holds : condition
  · rw [if_pos holds]
    exact whenTrue holds
  · rw [if_neg holds]
    exact whenFalse holds

theorem raiseIf {condition : Prop} [Decidable condition] {failure : ε}
    (raises : condition → allowed failure) :
    Keeps invariant allowed (raiseIf condition failure : EStateM ε σ PUnit) :=
  ite (fun holds => throw (raises holds)) fun _ => pure _

theorem after {first : EStateM ε σ β} {rest : β → EStateM ε σ α} {good : β → Prop}
    (earlier : ∀ state, invariant state →
      Ends first state (fun value written => good value ∧ invariant written)
        fun failure written => allowed failure ∧ invariant written)
    (later : ∀ value, good value → Keeps invariant allowed (rest value)) :
    Keeps invariant allowed (first >>= rest) := by
  intro state holds
  refine ends_bind.mpr ((earlier state holds).mono ?_ fun _ _ => id)
  exact fun value written kept => later value kept.1 written kept.2

theorem orRaise {attempt : Except ε α} (raises : ∀ failure, attempt = .error failure → allowed failure) :
    Keeps invariant allowed (orRaise attempt : EStateM ε σ α) := by
  cases attempt with
  | ok value => exact pure value
  | error failure => exact throw (raises failure rfl)

theorem orRaise_bind {attempt : Except ε β} {rest : β → EStateM ε σ α}
    (raises : ∀ failure, attempt = .error failure → allowed failure)
    (later : ∀ value, attempt = .ok value → Keeps invariant allowed (rest value)) :
    Keeps invariant allowed (Library.orRaise attempt >>= rest) := by
  cases attempt with
  | ok value => exact later value rfl
  | error failure => exact throw (raises failure rfl)

theorem caught_bind {caught : ε → Prop} [DecidablePred caught] {answer : Except ε β}
    {rest : Option β → EStateM ε σ α}
    (escapes : ∀ failure, answer = .error failure → ¬ caught failure → allowed failure)
    (answered : ∀ value, answer = .ok value → Keeps invariant allowed (rest (some value)))
    (failed : Keeps invariant allowed (rest none)) :
    Keeps invariant allowed
      (Library.attempting caught (do return some (← Library.orRaise answer)) (fun _ => return none) >>=
        rest) := by
  intro state holds
  refine ends_bind.mpr (ends_attempting.mpr ?_)
  cases answer with
  | ok value => exact answered value rfl state holds
  | error failure =>
    change if caught failure then Ends (rest none) state _ _ else _
    by_cases catches : caught failure
    · rw [if_pos catches]
      exact failed state holds
    · rw [if_neg catches]
      exact ⟨escapes failure rfl catches, holds⟩

theorem raiseIf_bind {condition : Prop} [Decidable condition] {failure : ε}
    {rest : PUnit → EStateM ε σ α} (raises : condition → allowed failure)
    (later : ¬ condition → Keeps invariant allowed (rest ⟨⟩)) :
    Keeps invariant allowed (Library.raiseIf condition failure >>= rest) := by
  unfold Library.raiseIf
  by_cases holds : condition
  · rw [if_pos holds]
    exact throw (raises holds)
  · rw [if_neg holds]
    exact later holds

theorem raiseIfNone_bind {failure : ε} {found : Option β} {rest : β → EStateM ε σ α}
    (raises : found = none → allowed failure)
    (later : ∀ value, found = some value → Keeps invariant allowed (rest value)) :
    Keeps invariant allowed (Library.raiseIfNone failure found >>= rest) := by
  cases found with
  | some value => exact later value rfl
  | none => exact throw (raises rfl)

theorem forM {γ : Type u} {values : List γ} {process : γ → EStateM ε σ PUnit}
    (each : ∀ value ∈ values, Keeps invariant allowed (process value)) :
    Keeps invariant allowed (values.forM process) := by
  induction values with
  | nil => exact pure _
  | cons value values ih =>
    exact (each value List.mem_cons_self).bind fun _ =>
      ih fun later member => each later (List.mem_cons_of_mem _ member)

end Keeps

inductive Matches (related : σ → σ → Prop) (agree : α → β → Prop) :
    EStateM.Result ε σ α → EStateM.Result ε σ β → Prop
  | ok {value : α} {value' : β} {written written' : σ} (same : agree value value')
      (kept : related written written') :
      Matches related agree (.ok value written) (.ok value' written')
  | error {failure : ε} {written written' : σ} (kept : related written written') :
      Matches related agree (.error failure written) (.error failure written')

theorem Matches.bind {related related' : σ → σ → Prop} {agree : α → β → Prop}
    {agree' : γ → δ → Prop} {first : EStateM ε σ α} {second : EStateM ε σ β}
    {rest : α → EStateM ε σ γ} {rest' : β → EStateM ε σ δ} {state state' : σ}
    (earlier : Matches related agree (first state) (second state'))
    (later : ∀ value value' written written', agree value value' → related written written' →
      Matches related' agree' (rest value written) (rest' value' written'))
    (weaken : ∀ written written', related written written' → related' written written') :
    Matches related' agree' ((first >>= rest) state) ((second >>= rest') state') := by
  change Matches related' agree' (EStateM.bind first rest state) (EStateM.bind second rest' state')
  unfold EStateM.bind
  generalize first state = result at earlier ⊢
  generalize second state' = result' at earlier ⊢
  cases earlier with
  | ok same kept => exact later _ _ _ _ same kept
  | error kept => exact .error (weaken _ _ kept)

theorem Matches.skip {related related' : σ → σ → Prop} {agree : β → δ → Prop}
    {first : EStateM ε σ α} {rest : α → EStateM ε σ β} {second : EStateM ε σ δ} {state state' : σ}
    {good : α → Prop}
    (earlier : Ends first state (fun value written => good value ∧ related written state')
      fun _ _ => False)
    (later : ∀ value written, good value → related written state' →
      Matches related' agree (rest value written) (second state')) :
    Matches related' agree ((first >>= rest) state) (second state') := by
  change Matches related' agree (EStateM.bind first rest state) _
  unfold Ends at earlier
  unfold EStateM.bind
  generalize first state = result at earlier ⊢
  cases result with
  | ok value written => exact later value written earlier.1 earlier.2
  | error failure written => exact earlier.elim

def lastState : EStateM.Result ε σ α → σ
  | .ok _ state => state
  | .error _ state => state

theorem ensuring_raises {body : EStateM ε σ α} {state written : σ} {failure : ε}
    (cleanup : EStateM ε σ PUnit) (raised : body state = .error failure written) :
    ∃ later, ensuring body cleanup state = .error later (lastState (cleanup written)) := by
  unfold ensuring
  rw [raised]
  dsimp only
  cases cleanup written with
  | ok _ cleaned => exact ⟨failure, rfl⟩
  | error later cleaned => exact ⟨later, rfl⟩

theorem Ends.last (holds : σ → Prop) {body : EStateM ε σ α} {state : σ}
    (ends : Ends body state (fun _ => holds) fun _ => holds) : holds (lastState (body state)) := by
  unfold Ends at ends
  cases ended : body state with
  | ok value written =>
    rw [ended] at ends
    exact ends
  | error failure written =>
    rw [ended] at ends
    exact ends

theorem Matches.states {related : σ → σ → Prop} {agree : α → β → Prop}
    {result : EStateM.Result ε σ α} {result' : EStateM.Result ε σ β}
    (matching : Matches related agree result result') :
    related (lastState result) (lastState result') := by
  cases matching with
  | ok same kept => exact kept
  | error kept => exact kept

def Alike (related : σ → σ → Prop) (agree : α → β → Prop) (first : EStateM ε σ α)
    (second : EStateM ε σ β) : Prop :=
  ∀ state state', related state state' → Matches related agree (first state) (second state')

namespace Alike

variable {related : σ → σ → Prop} {agree : α → β → Prop} {first : EStateM ε σ α}
  {second : EStateM ε σ β}

theorem pure {value : α} {value' : β} (same : agree value value') :
    Alike related agree (pure value : EStateM ε σ α) (pure value' : EStateM ε σ β) :=
  fun _ _ holds => .ok same holds

theorem throw (failure : ε) :
    Alike related agree (throw failure : EStateM ε σ α) (throw failure : EStateM ε σ β) :=
  fun _ _ holds => .error holds

theorem orRaise (attempt : Except ε α) :
    Alike related (· = ·) (orRaise attempt : EStateM ε σ α) (orRaise attempt) := by
  cases attempt with
  | ok value => exact pure rfl
  | error failure => exact throw failure

theorem bind {agree' : γ → δ → Prop} {rest : α → EStateM ε σ γ} {rest' : β → EStateM ε σ δ}
    (earlier : Alike related agree first second)
    (later : ∀ value value', agree value value' →
      Alike related agree' (rest value) (rest' value')) :
    Alike related agree' (first >>= rest) (second >>= rest') := by
  intro state state' holds
  have ended := earlier state state' holds
  change Matches related agree' (EStateM.bind first rest state) (EStateM.bind second rest' state')
  unfold EStateM.bind
  generalize first state = result at ended ⊢
  generalize second state' = result' at ended ⊢
  cases ended with
  | ok same kept => exact later _ _ same _ _ kept
  | error kept => exact .error kept

theorem bind_same {agree' : γ → δ → Prop} {first second : EStateM ε σ α}
    {rest : α → EStateM ε σ γ} {rest' : α → EStateM ε σ δ}
    (earlier : Alike related (· = ·) first second)
    (later : ∀ value, Alike related agree' (rest value) (rest' value)) :
    Alike related agree' (first >>= rest) (second >>= rest') :=
  earlier.bind fun value _ same => same ▸ later value

theorem attempting {caught : ε → Prop} [DecidablePred caught]
    {handler : ε → EStateM ε σ α} {handler' : ε → EStateM ε σ β}
    (tried : Alike related agree first second)
    (handled : ∀ failure, caught failure → Alike related agree (handler failure) (handler' failure)) :
    Alike related agree (attempting caught first handler) (attempting caught second handler') := by
  intro state state' holds
  have ended := tried state state' holds
  change Matches related agree (EStateM.tryCatch first _ state) (EStateM.tryCatch second _ state')
  unfold EStateM.tryCatch
  generalize first state = result at ended ⊢
  generalize second state' = result' at ended ⊢
  cases ended with
  | ok same kept => exact .ok same kept
  | @error failure written written' kept =>
    by_cases catches : caught failure
    · simp only [if_pos catches]
      exact handled failure catches written written' kept
    · simp only [if_neg catches]
      exact .error kept

theorem ite {condition : Prop} [Decidable condition] {yes no : EStateM ε σ α}
    {yes' no' : EStateM ε σ β} (whenTrue : condition → Alike related agree yes yes')
    (whenFalse : ¬ condition → Alike related agree no no') :
    Alike related agree (if condition then yes else no) (if condition then yes' else no') := by
  by_cases holds : condition
  · rw [if_pos holds, if_pos holds]
    exact whenTrue holds
  · rw [if_neg holds, if_neg holds]
    exact whenFalse holds

theorem raiseIf (condition : Prop) [Decidable condition] (failure : ε) :
    Alike related (· = ·) (raiseIf condition failure : EStateM ε σ PUnit)
      (raiseIf condition failure) :=
  ite (fun _ => throw failure) fun _ => pure rfl

theorem raiseIfNone (failure : ε) (found : Option α) :
    Alike related (· = ·) (raiseIfNone failure found : EStateM ε σ α)
      (raiseIfNone failure found) := by
  cases found with
  | some value => exact pure rfl
  | none => exact throw failure

theorem forM {process : γ → EStateM ε σ PUnit} {values : List γ}
    (each : ∀ value, Alike related (· = ·) (process value) (process value)) :
    Alike related (· = ·) (values.forM process) (values.forM process) := by
  induction values with
  | nil => exact pure rfl
  | cons value values ih => exact (each value).bind_same fun _ => ih

end Alike

end SparseLab.Library
