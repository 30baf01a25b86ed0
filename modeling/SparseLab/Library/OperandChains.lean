import SparseLab.Library.Outcomes

/-! Operands with a keyword between them, read from a list of tokens by a loop. -/

namespace SparseLab.Library

variable {τ ρ σ ε : Type}

abbrev Reader (τ ρ ε : Type) := List τ → Except ε (ρ × List τ)

inductive OperandChain (keyword : τ) (holds : List τ → σ → Prop) (combine : σ → σ → σ) :
    List τ → σ → Prop
  | one {part : List τ} {found : σ} : holds part found →
      OperandChain keyword holds combine part found
  | more {before part : List τ} {earlier found : σ} :
      OperandChain keyword holds combine before earlier → holds part found →
      OperandChain keyword holds combine (before ++ keyword :: part) (combine earlier found)

theorem OperandChain.within {keyword : τ} {holds good : List τ → σ → Prop} {join : σ → σ → σ}
    {bound : Nat}
    (base : ∀ part found, part.length ≤ bound → holds part found → good part found)
    (step : ∀ before earlier part found, good before earlier → good part found →
      good (before ++ keyword :: part) (join earlier found))
    {part : List τ} {found : σ} (chained : OperandChain keyword holds join part found)
    (small : part.length ≤ bound) : good part found := by
  induction chained with
  | one holdsPart => exact base _ _ small holdsPart
  | more _ holdsPart ih =>
    rw [List.length_append, List.length_cons] at small
    exact step _ _ _ _ (ih (by omega)) (base _ _ (by omega) holdsPart)

section

variable [DecidableEq τ] (operand : Reader τ ρ ε) (keyword : τ) (combine : ρ → ρ → ρ)

def repeated : Nat → ρ → List τ → Except ε (ρ × List τ)
  | 0, result, tokens => .ok (result, tokens)
  | _ + 1, result, [] => .ok (result, [])
  | rounds + 1, result, token :: tokens =>
    if token = keyword then do
      let (found, rest) ← operand tokens
      repeated rounds (combine result found) rest
    else .ok (result, token :: tokens)

def chain : Reader τ ρ ε := fun tokens => do
  let (result, rest) ← operand tokens
  repeated operand keyword combine rest.length result rest

end

def Sound (operand : Reader τ ρ ε) (holds : List τ → σ → Prop) (meaning : σ → ρ) : Prop :=
  ∀ tokens result rest, operand tokens = .ok (result, rest) →
    ∃ part found, tokens = part ++ rest ∧ part ≠ [] ∧ holds part found ∧ meaning found = result

def Complete (operand : Reader τ ρ ε) (holds : List τ → σ → Prop) (meaning : σ → ρ)
    (follows : List τ → Prop) (bound : Nat) : Prop :=
  ∀ part found, part.length ≤ bound → holds part found → ∀ rest, follows rest →
    operand (part ++ rest) = .ok (meaning found, rest)

theorem Sound.shorter {operand : Reader τ ρ ε} {holds : List τ → σ → Prop}
    {meaning : σ → ρ} (sound : Sound operand holds meaning) {tokens rest : List τ} {result : ρ}
    (returned : operand tokens = .ok (result, rest)) : rest.length < tokens.length := by
  obtain ⟨part, found, rfl, nonempty, _, _⟩ := sound tokens result rest returned
  have some := List.length_pos_iff.mpr nonempty
  rw [List.length_append]
  omega

section

variable [DecidableEq τ] {operand : Reader τ ρ ε} (keyword : τ) {combine : ρ → ρ → ρ}
  {holds : List τ → σ → Prop} {meaning : σ → ρ} {join : σ → σ → σ} {follows : List τ → Prop}
  {bound : Nat}

theorem Sound.rounds {keyword : τ} (sound : Sound operand holds meaning) {first second : Nat} {tokens : List τ}
    {result : ρ} (enough : tokens.length ≤ first) (enough' : tokens.length ≤ second) :
    repeated operand keyword combine first result tokens =
      repeated operand keyword combine second result tokens := by
  induction first generalizing second tokens result with
  | zero =>
    rw [List.length_eq_zero_iff.mp (Nat.le_zero.mp enough)]
    cases second <;> rfl
  | succ first ih =>
    cases tokens with
    | nil => cases second <;> rfl
    | cons token tokens =>
      cases second with
      | zero => simp at enough'
      | succ second =>
        by_cases here : token = keyword
        · rw [repeated, repeated, if_pos here, if_pos here]
          cases run : operand tokens with
          | error raised => rfl
          | ok returned =>
            obtain ⟨found, rest⟩ := returned
            have shorter := sound.shorter run
            rw [List.length_cons] at enough enough'
            exact ih (by omega) (by omega)
        · rw [repeated, repeated, if_neg here, if_neg here]

theorem Sound.repeated {keyword : τ} (sound : Sound operand holds meaning)
    (combines : ∀ first second, meaning (join first second) = combine (meaning first) (meaning second))
    {before : List τ} {earlier : σ} {rounds : Nat} {tokens rest : List τ} {result : ρ}
    (chained : OperandChain keyword holds join before earlier)
    (returned : Library.repeated operand keyword combine rounds (meaning earlier) tokens =
      .ok (result, rest)) :
    ∃ part found, tokens = part ++ rest ∧ OperandChain keyword holds join (before ++ part) found ∧
      meaning found = result := by
  induction rounds generalizing before earlier tokens with
  | zero =>
    cases returned
    exact ⟨[], earlier, rfl, by rwa [List.append_nil], rfl⟩
  | succ rounds ih =>
    cases tokens with
    | nil =>
      cases returned
      exact ⟨[], earlier, rfl, by rwa [List.append_nil], rfl⟩
    | cons token tokens =>
      by_cases here : token = keyword
      · rw [Library.repeated, if_pos here] at returned
        obtain ⟨⟨found, later⟩, run, returned⟩ := bind_eq_ok returned
        obtain ⟨part, last, rfl, _, holdsPart, rfl⟩ := sound tokens found later run
        simp only [← combines] at returned
        obtain ⟨others, whole, rfl, chained', same⟩ := ih (chained.more holdsPart) returned
        refine ⟨token :: part ++ others, whole, by simp, ?_, same⟩
        rw [here]
        simpa using chained'
      · rw [Library.repeated, if_neg here] at returned
        cases returned
        exact ⟨[], earlier, rfl, by rwa [List.append_nil], rfl⟩

theorem Sound.chain (sound : Sound operand holds meaning)
    (combines : ∀ first second,
      meaning (join first second) = combine (meaning first) (meaning second)) :
    Sound (chain operand keyword combine) (OperandChain keyword holds join) meaning := by
  intro tokens result rest returned
  obtain ⟨⟨first, later⟩, run, returned⟩ := bind_eq_ok returned
  obtain ⟨part, found, rfl, nonempty, holdsPart, rfl⟩ := sound tokens first later run
  obtain ⟨others, whole, rfl, chained, same⟩ :=
    sound.repeated combines (.one holdsPart) returned
  exact ⟨part ++ others, whole, by simp, by simp [nonempty], chained, same⟩

theorem Complete.reaches {keyword : τ} (complete : Complete operand holds meaning follows bound)
    (sound : Sound operand holds meaning)
    (combines : ∀ first second, meaning (join first second) = combine (meaning first) (meaning second))
    (keywordFollows : ∀ rest, follows (keyword :: rest)) {part : List τ} {found : σ}
    (chained : OperandChain keyword holds join part found) (small : part.length ≤ bound) {rest : List τ}
    (after : follows rest) :
    Library.chain operand keyword combine (part ++ rest) =
      Library.repeated operand keyword combine rest.length (meaning found) rest := by
  induction chained generalizing rest with
  | one holdsPart =>
    rw [Library.chain, complete _ _ small holdsPart rest after]
    rfl
  | @more before part earlier found _ holdsPart ih =>
    rw [List.length_append, List.length_cons] at small
    rw [List.append_assoc, List.cons_append, ih (by omega) (keywordFollows _), List.length_cons,
      Library.repeated, if_pos rfl, complete part found (by omega) holdsPart rest after, combines]
    exact sound.rounds (by simp) (Nat.le_refl _)

theorem Complete.chain (complete : Complete operand holds meaning follows bound)
    (sound : Sound operand holds meaning)
    (combines : ∀ first second,
      meaning (join first second) = combine (meaning first) (meaning second))
    (keywordFollows : ∀ rest, follows (keyword :: rest)) :
    Complete (chain operand keyword combine) (OperandChain keyword holds join) meaning
      (fun rest => follows rest ∧ rest.head? ≠ some keyword) bound := by
  intro part found small chained rest after
  rw [complete.reaches sound combines keywordFollows chained small after.1]
  cases rest with
  | nil => rfl
  | cons token rest =>
    have other : token ≠ keyword := fun same => after.2 (by rw [List.head?_cons, same])
    rw [List.length_cons, Library.repeated, if_neg other]

end

end SparseLab.Library
