import Mathlib.Data.List.MinMax

/-! The earliest of the least elements of a list. -/

namespace SparseLab.Library

universe u v

variable {α : Type u} {β : Type v} [LinearOrder β] (key : α → β)

def keepBetter : Option α → Option α → Option α
  | none, candidate => candidate
  | some current, none => some current
  | some current, some candidate =>
    if key candidate < key current then some candidate else some current

@[simp] theorem keepBetter_none_right (current : Option α) :
    keepBetter key current none = current := by
  cases current <;> rfl

theorem keepBetter_assoc (first second third : Option α) :
    keepBetter key (keepBetter key first second) third =
      keepBetter key first (keepBetter key second third) := by
  cases first with
  | none => rfl
  | some first =>
    cases second with
    | none => rfl
    | some second =>
      cases third with
      | none => simp
      | some third =>
        by_cases better : key second < key first
        · by_cases best : key third < key second
          · simp [keepBetter, better, best, best.trans better]
          · simp [keepBetter, better, best]
        · by_cases best : key third < key second
          · simp [keepBetter, better, best]
          · have worse : ¬ key third < key first := by
              rw [not_lt] at better best ⊢
              exact better.trans best
            simp [keepBetter, better, best, worse]

theorem keepBetter_keepBetter (first second : Option α) :
    keepBetter key first (keepBetter key first second) = keepBetter key first second := by
  cases first with
  | none => rfl
  | some first =>
    cases second with
    | none => simp [keepBetter]
    | some second =>
      by_cases better : key second < key first <;> simp [keepBetter, better]

theorem keepBetter_absorbs (first second : Option α) :
    keepBetter key (keepBetter key first second) first = keepBetter key first second := by
  cases first with
  | none => simp
  | some first =>
    cases second with
    | none => simp [keepBetter]
    | some second =>
      by_cases better : key second < key first
      · simp [keepBetter, better, better.le]
      · simp [keepBetter, better]

theorem argmin_concat_eq (list : List α) (element : α) :
    (list ++ [element]).argmin key = keepBetter key (list.argmin key) (some element) := by
  rw [List.argmin_concat]
  cases list.argmin key <;> rfl

theorem argmin_append (first second : List α) :
    (first ++ second).argmin key = keepBetter key (first.argmin key) (second.argmin key) := by
  induction second using List.reverseRecOn with
  | nil => simp
  | append_singleton second element ih =>
    rw [← List.append_assoc, argmin_concat_eq, argmin_concat_eq, ih, keepBetter_assoc]

theorem keepBetter_prefix {list first second : List α} (isPrefix : first <+: list)
    (isPrefix' : second <+: list) :
    ∃ longer, longer <+: list ∧
      keepBetter key (first.argmin key) (second.argmin key) = longer.argmin key := by
  obtain ⟨rest, rfl⟩ | ⟨rest, rfl⟩ := List.prefix_or_prefix_of_prefix isPrefix isPrefix'
  · exact ⟨_, isPrefix', by rw [argmin_append, keepBetter_keepBetter]⟩
  · exact ⟨_, isPrefix, by rw [argmin_append, keepBetter_absorbs]⟩

theorem keepBetter_whole {list shorter : List α} (isPrefix : shorter <+: list) :
    keepBetter key (shorter.argmin key) (list.argmin key) = list.argmin key ∧
      keepBetter key (list.argmin key) (shorter.argmin key) = list.argmin key := by
  obtain ⟨rest, rfl⟩ := isPrefix
  rw [argmin_append, keepBetter_keepBetter, keepBetter_absorbs]
  exact ⟨rfl, rfl⟩

theorem foldl_keepBetter_prefixes {γ : Type v} {items : List γ} {value : γ → Option α}
    {list start : List α} (isPrefix : start <+: list)
    (prefixes : ∀ item ∈ items, ∃ shorter, shorter <+: list ∧ value item = shorter.argmin key)
    (whole : start.argmin key = list.argmin key ∨ ∃ item ∈ items, value item = list.argmin key) :
    items.foldl (fun current item => keepBetter key current (value item)) (start.argmin key) =
      list.argmin key := by
  induction items generalizing start with
  | nil => simpa using whole
  | cons item items ih =>
    obtain ⟨shorter, isPrefix', same⟩ := prefixes item List.mem_cons_self
    obtain ⟨longer, isPrefix'', kept⟩ := keepBetter_prefix key isPrefix isPrefix'
    rw [List.foldl_cons, same, kept]
    refine ih isPrefix'' (fun later member => prefixes later (List.mem_cons_of_mem _ member)) ?_
    rw [← kept, ← same]
    obtain already | ⟨found, member, last⟩ := whole
    · rw [already, same]
      exact .inl (keepBetter_whole key isPrefix').2
    · obtain rfl | later := List.mem_cons.mp member
      · rw [last]
        exact .inl (keepBetter_whole key isPrefix).1
      · exact .inr ⟨found, later, last⟩

end SparseLab.Library
