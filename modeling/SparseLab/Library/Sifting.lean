import Mathlib.Data.List.Basic

/-! Loops that keep or turn away every item or raise, and two of them made one. -/

namespace SparseLab.Library

universe u v

variable {ε : Type u} {α β γ ρ : Type v}

def Raises (attempt : Except ε α) : Prop := ∃ failure, attempt = .error failure

@[simp] theorem raises_error (failure : ε) : Raises (.error failure : Except ε α) := ⟨failure, rfl⟩

@[simp] theorem not_raises_ok (value : α) : ¬ Raises (.ok value : Except ε α) := by
  rintro ⟨failure, raised⟩
  cases raised

@[simp] theorem raises_map (attempt : Except ε α) (change : α → β) :
    Raises (attempt.map change) ↔ Raises attempt := by
  cases attempt with
  | error failure => exact ⟨fun _ => raises_error failure, fun _ => raises_error failure⟩
  | ok value => exact ⟨fun raised => absurd raised (not_raises_ok _),
      fun raised => absurd raised (not_raises_ok _)⟩

theorem not_raises_iff {attempt : Except ε α} : ¬ Raises attempt ↔ ∃ value, attempt = .ok value := by
  cases attempt with
  | error failure => simp
  | ok value => simp

def sift (step : α → Except ε (ρ ⊕ β)) : List α → List ρ × Except ε (List β)
  | [] => ([], .ok [])
  | item :: items =>
    match step item with
    | .error failure => ([], .error failure)
    | .ok (.inl turned) => (turned :: (sift step items).1, (sift step items).2)
    | .ok (.inr value) =>
      ((sift step items).1, (sift step items).2.map fun values => value :: values)

def turnedAway (results : List (ρ ⊕ β)) : List ρ := results.filterMap Sum.getLeft?

def kept (results : List (ρ ⊕ β)) : List β := results.filterMap Sum.getRight?

@[simp] theorem turnedAway_nil : turnedAway ([] : List (ρ ⊕ β)) = [] := rfl

@[simp] theorem turnedAway_inl (turned : ρ) (results : List (ρ ⊕ β)) :
    turnedAway (.inl turned :: results) = turned :: turnedAway results := rfl

@[simp] theorem turnedAway_inr (value : β) (results : List (ρ ⊕ β)) :
    turnedAway (.inr value :: results) = turnedAway results := rfl

@[simp] theorem kept_nil : kept ([] : List (ρ ⊕ β)) = [] := rfl

@[simp] theorem kept_inl (turned : ρ) (results : List (ρ ⊕ β)) :
    kept (.inl turned :: results) = kept results := rfl

@[simp] theorem kept_inr (value : β) (results : List (ρ ⊕ β)) :
    kept (.inr value :: results) = value :: kept results := rfl

section

variable {step : α → Except ε (ρ ⊕ β)} {items : List α}

theorem sift_ok {results : List (ρ ⊕ β)} (steps : items.map step = results.map Except.ok) :
    sift step items = (turnedAway results, .ok (kept results)) := by
  induction items generalizing results with
  | nil =>
    cases results with
    | nil => rfl
    | cons result results => cases steps
  | cons item items ih =>
    cases results with
    | nil => cases steps
    | cons result results =>
      rw [List.map_cons, List.map_cons] at steps
      injection steps with first rest
      have later := ih rest
      cases result with
      | inl turned => simp [sift, first, later]
      | inr value => simp [sift, first, later, Except.map]

theorem sift_raises : Raises (sift step items).2 ↔ ∃ item ∈ items, Raises (step item) := by
  induction items with
  | nil => simp [sift]
  | cons item items ih =>
    cases found : step item with
    | error failure => simp [sift, found]
    | ok result =>
      cases result with
      | inl turned => simp [sift, found, ih]
      | inr value => simp [sift, found, ih]

theorem map_ok (quiet : ¬ ∃ item ∈ items, Raises (step item)) :
    ∃ results : List (ρ ⊕ β), items.map step = results.map Except.ok := by
  induction items with
  | nil => exact ⟨[], rfl⟩
  | cons item items ih =>
    obtain ⟨results, rest⟩ := ih fun ⟨other, member, raised⟩ =>
      quiet ⟨other, List.mem_cons_of_mem item member, raised⟩
    obtain ⟨result, first⟩ := not_raises_iff.mp fun raised =>
      quiet ⟨item, List.mem_cons_self, raised⟩
    exact ⟨result :: results, by rw [List.map_cons, List.map_cons, first, rest]⟩

end

section

variable (first : α → Except ε (ρ ⊕ β)) (second : β → Except ε (ρ ⊕ γ))

def bothSteps (item : α) : Except ε (ρ ⊕ (ρ ⊕ γ)) :=
  match first item with
  | .error failure => .error failure
  | .ok (.inl turned) => .ok (.inl turned)
  | .ok (.inr value) => (second value).map Sum.inr

def siftTwice (items : List α) : List ρ × Except ε (List γ) :=
  match sift first items with
  | (turned, .error failure) => (turned, .error failure)
  | (turned, .ok values) => (turned ++ (sift second values).1, (sift second values).2)

variable {first second} {items : List α}

theorem bothSteps_map {outcomes : List (ρ ⊕ (ρ ⊕ γ))}
    (steps : items.map (bothSteps first second) = outcomes.map Except.ok) :
    ∃ results : List (ρ ⊕ β), items.map first = results.map Except.ok ∧
      turnedAway results = turnedAway outcomes ∧
      (kept results).map second = (kept outcomes).map Except.ok := by
  induction items generalizing outcomes with
  | nil =>
    cases outcomes with
    | nil => exact ⟨[], rfl, rfl, rfl⟩
    | cons outcome outcomes => cases steps
  | cons item items ih =>
    cases outcomes with
    | nil => cases steps
    | cons outcome outcomes =>
      rw [List.map_cons, List.map_cons] at steps
      injection steps with here rest
      obtain ⟨results, same, turned, values⟩ := ih rest
      unfold bothSteps at here
      cases found : first item with
      | error failure =>
        rw [found] at here
        cases here
      | ok result =>
        rw [found] at here
        cases result with
        | inl away =>
          cases here
          refine ⟨.inl away :: results, ?_, ?_, values⟩
          · rw [List.map_cons, List.map_cons, found, same]
          · rw [turnedAway_inl, turnedAway_inl, turned]
        | inr value =>
          cases later : second value with
          | error failure =>
            simp only [later] at here
            cases here
          | ok result =>
            simp only [later] at here
            cases here
            refine ⟨.inr value :: results, ?_, turned, ?_⟩
            · rw [List.map_cons, List.map_cons, found, same]
            · rw [kept_inr, kept_inr, List.map_cons, List.map_cons, later, values]

theorem siftTwice_ok {outcomes : List (ρ ⊕ (ρ ⊕ γ))}
    (steps : items.map (bothSteps first second) = outcomes.map Except.ok) :
    siftTwice first second items =
      (turnedAway outcomes ++ turnedAway (kept outcomes), .ok (kept (kept outcomes))) := by
  obtain ⟨results, same, turned, values⟩ := bothSteps_map steps
  unfold siftTwice
  rw [sift_ok same]
  dsimp only
  rw [sift_ok values, turned]

theorem bothSteps_raises {item : α} : Raises (bothSteps first second item) ↔
    Raises (first item) ∨ ∃ value, first item = .ok (.inr value) ∧ Raises (second value) := by
  unfold bothSteps
  cases first item with
  | error failure => simp
  | ok result =>
    cases result with
    | inl turned => simp
    | inr value => simp

theorem siftTwice_raises : Raises (siftTwice first second items).2 ↔
    ∃ item ∈ items, Raises (bothSteps first second item) := by
  by_cases quiet : ∃ item ∈ items, Raises (bothSteps first second item)
  · refine ⟨fun _ => quiet, fun _ => ?_⟩
    unfold siftTwice
    by_cases early : ∃ item ∈ items, Raises (first item)
    · obtain ⟨failure, raised⟩ := sift_raises.mpr early
      generalize sift first items = attempt at raised
      obtain ⟨turned, values⟩ := attempt
      cases raised
      exact raises_error failure
    · obtain ⟨results, same⟩ := map_ok early
      obtain ⟨item, member, raised⟩ := quiet
      rw [sift_ok same]
      rcases bothSteps_raises.mp raised with fails | ⟨value, found, fails⟩
      · exact absurd ⟨item, member, fails⟩ early
      · apply sift_raises.mpr
        refine ⟨value, ?_, fails⟩
        have listed : first item ∈ results.map Except.ok := by
          rw [← same]
          exact List.mem_map_of_mem member
        obtain ⟨result, inside, equal⟩ := List.mem_map.mp listed
        rw [found] at equal
        rw [Except.ok.inj equal] at inside
        exact List.mem_filterMap.mpr ⟨.inr value, inside, rfl⟩
  · obtain ⟨outcomes, same⟩ := map_ok quiet
    rw [siftTwice_ok same]
    exact ⟨fun raised => absurd raised (not_raises_ok _), fun raised => absurd raised quiet⟩

end

section

def oneLoop : ρ ⊕ (ρ ⊕ γ) → ρ ⊕ γ
  | .inl turned => .inl turned
  | .inr result => result

theorem kept_oneLoop (outcomes : List (ρ ⊕ (ρ ⊕ γ))) :
    kept (outcomes.map oneLoop) = kept (kept outcomes) := by
  induction outcomes with
  | nil => rfl
  | cons outcome outcomes ih =>
    rcases outcome with turned | turned | value
    · simpa [oneLoop] using ih
    · simpa [oneLoop] using ih
    · simpa [oneLoop] using ih

theorem turnedAway_oneLoop {early : ρ → Prop} {outcomes : List (ρ ⊕ (ρ ⊕ γ))}
    (atFirst : ∀ turned, .inl turned ∈ outcomes → early turned)
    (atSecond : ∀ turned, .inr (.inl turned) ∈ outcomes → ¬ early turned) :
    turnedAway (outcomes.map oneLoop) = turnedAway outcomes ++ turnedAway (kept outcomes) ↔
      outcomes.Pairwise fun before after =>
        ¬ ((∃ turned, before = .inr (.inl turned)) ∧ ∃ turned, after = .inl turned) := by
  induction outcomes with
  | nil => simp
  | cons outcome outcomes ih =>
    have rest := ih (fun turned member => atFirst turned (List.mem_cons_of_mem _ member))
      fun turned member => atSecond turned (List.mem_cons_of_mem _ member)
    rw [List.pairwise_cons, ← rest]
    rcases outcome with turned | turned | value
    · simp [oneLoop]
    · have late := atSecond turned List.mem_cons_self
      cases first : turnedAway outcomes with
      | nil =>
        have none : ∀ after ∈ outcomes, ¬ ∃ turned, after = .inl turned := by
          rintro after member ⟨away, same⟩
          have listed : away ∈ turnedAway outcomes :=
            List.mem_filterMap.mpr ⟨after, member, by rw [same]; rfl⟩
          rw [first] at listed
          cases listed
        simp only [List.map_cons, oneLoop, turnedAway_inl, turnedAway_inr, kept_inr, first,
          List.nil_append, List.cons.injEq, true_and]
        constructor
        · intro same
          exact ⟨fun after member both => none after member both.2, same⟩
        · exact fun both => both.2
      | cons away others =>
        have listed : away ∈ turnedAway outcomes := by
          rw [first]
          exact List.mem_cons_self
        obtain ⟨after, member, same⟩ := List.mem_filterMap.mp listed
        cases after with
        | inr other => cases same
        | inl other =>
          have equal : other = away := Option.some.inj same
          subst equal
          constructor
          · intro order
            simp only [List.map_cons, oneLoop, turnedAway_inl, turnedAway_inr, kept_inr,
              first, List.cons_append, List.cons.injEq] at order
            rw [order.1] at late
            exact absurd (atFirst other (List.mem_cons_of_mem _ member)) late
          · rintro ⟨none, -⟩
            exact absurd ⟨⟨turned, rfl⟩, other, rfl⟩ (none (.inl other) member)
    · simp [oneLoop]

end

end SparseLab.Library
