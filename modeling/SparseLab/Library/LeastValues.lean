import Mathlib.Data.List.AList
import Mathlib.Data.List.Lex
import Mathlib.Data.List.MinMax
import Mathlib.Order.Bounds.Basic

/-! Dictionaries that keep the least value offered for each key, and the order of sequences. -/

namespace SparseLab.Library

section

variable {κ α : Type} [DecidableEq κ] [LinearOrder α]

def offer (table : AList fun _ : κ => α) (key : κ) (value : α) : AList fun _ : κ => α :=
  match table.lookup key with
  | none => table.insert key value
  | some current => if value < current then table.insert key value else table

def offerAll (table : AList fun _ : κ => α) (offers : List (κ × α)) : AList fun _ : κ => α :=
  offers.foldl (fun table entry => offer table entry.1 entry.2) table

def LeastOf (values : Set α) : Option α → Prop
  | none => values = ∅
  | some least => IsLeast values least

variable {table : AList fun _ : κ => α} {values : Set α}

theorem LeastOf.congr {others : Set α} {kept : Option α} (least : LeastOf values kept)
    (same : ∀ value, value ∈ values ↔ value ∈ others) : LeastOf others kept := by
  rwa [← Set.ext same]

theorem LeastOf.more {others : Set α} {kept : Option α} (least : LeastOf values kept)
    (within : values ⊆ others) (above : ∀ value ∈ others, ∃ smaller ∈ values, smaller ≤ value) :
    LeastOf others kept := by
  cases kept with
  | none =>
    change values = ∅ at least
    refine Set.eq_empty_of_forall_notMem fun value member => ?_
    obtain ⟨smaller, inside, _⟩ := above value member
    rw [least] at inside
    exact inside
  | some kept =>
    refine ⟨within least.1, fun value member => ?_⟩
    obtain ⟨smaller, inside, below⟩ := above value member
    exact (least.2 inside).trans below

theorem LeastOf.of_mem {kept : Option α} (least : LeastOf values kept) (value : α)
    (member : value ∈ values) : ∃ smaller, kept = some smaller ∧ smaller ∈ values ∧
      smaller ≤ value := by
  cases kept with
  | none =>
    change values = ∅ at least
    rw [least] at member
    exact absurd member (Set.notMem_empty value)
  | some smaller => exact ⟨smaller, rfl, least.1, least.2 member⟩

theorem lookup_offer_other {key other : κ} (different : other ≠ key) (value : α) :
    (offer table key value).lookup other = table.lookup other := by
  unfold offer
  cases table.lookup key with
  | none => rw [AList.lookup_insert_ne different]
  | some current =>
    by_cases smaller : value < current
    · simp only [if_pos smaller]
      rw [AList.lookup_insert_ne different]
    · simp only [if_neg smaller]

theorem leastOf_offer {key : κ} (least : LeastOf values (table.lookup key)) (value : α) :
    LeastOf (insert value values) ((offer table key value).lookup key) := by
  unfold offer
  cases found : table.lookup key with
  | none =>
    rw [found] at least
    change values = ∅ at least
    rw [AList.lookup_insert, least]
    exact ⟨by simp, by simp [lowerBounds]⟩
  | some current =>
    rw [found] at least
    by_cases smaller : value < current
    · simp only [if_pos smaller]
      rw [AList.lookup_insert]
      refine ⟨Set.mem_insert _ _, ?_⟩
      rintro other (rfl | member)
      · exact le_refl _
      · exact smaller.le.trans (least.2 member)
    · simp only [if_neg smaller]
      rw [found]
      refine ⟨Set.mem_insert_of_mem _ least.1, ?_⟩
      rintro other (rfl | member)
      · exact not_lt.mp smaller
      · exact least.2 member

theorem leastOf_offerAll {kept : κ → Set α} (least : ∀ key, LeastOf (kept key) (table.lookup key))
    (offers : List (κ × α)) (key : κ) :
    LeastOf { value | value ∈ kept key ∨ (key, value) ∈ offers }
      ((offerAll table offers).lookup key) := by
  induction offers generalizing table kept with
  | nil => exact (least key).congr fun value => by simp
  | cons entry offers ih =>
    have step : ∀ other, LeastOf { value | value ∈ kept other ∨ (other, value) = entry }
        ((offer table entry.1 entry.2).lookup other) := by
      intro other
      by_cases same : other = entry.1
      · subst same
        refine (leastOf_offer (least entry.1) entry.2).congr fun value => ?_
        simp only [Set.mem_insert_iff, Set.mem_ofPred_eq, Prod.ext_iff, true_and, or_comm]
      · rw [lookup_offer_other same]
        refine (least other).congr fun value => ?_
        simp only [Set.mem_ofPred_eq, Prod.ext_iff, same, false_and, or_false]
    refine (ih step).congr fun value => ?_
    simp only [Set.mem_ofPred_eq, List.mem_cons, or_assoc]

end

section

variable {α : Type} [LinearOrder α] {first second : List α}

theorem append_lt_append_of_lt (smaller : first < second) (ends : ¬ first <+: second)
    (after later : List α) : first ++ after < second ++ later := by
  induction first generalizing second with
  | nil => exact absurd List.nil_prefix ends
  | cons letter first ih =>
    cases second with
    | nil => exact absurd smaller (List.not_lt_nil _)
    | cons other second =>
      rw [List.cons_lt_cons_iff] at smaller
      rw [List.cons_append, List.cons_append, List.cons_lt_cons_iff]
      rcases smaller with below | ⟨same, smaller⟩
      · exact .inl below
      · subst same
        refine .inr ⟨rfl, ih smaller fun starts => ends ?_⟩
        exact (List.cons_prefix_cons).mpr ⟨rfl, starts⟩

theorem append_le_append_left (letters : List α) (smaller : first ≤ second) :
    letters ++ first ≤ letters ++ second := by
  induction letters with
  | nil => exact smaller
  | cons letter letters ih =>
    rw [List.cons_append, List.cons_append, le_iff_lt_or_eq, List.cons_lt_cons_iff]
    rcases le_iff_lt_or_eq.mp ih with below | same
    · exact .inl (.inr ⟨rfl, below⟩)
    · exact .inr (by rw [same])

theorem append_le_append_of_le (smaller : first ≤ second) (ends : first <+: second → first = second)
    {after later : List α} (following : first = second → after ≤ later) :
    first ++ after ≤ second ++ later := by
  by_cases same : first = second
  · rw [same]
    exact append_le_append_left second (following same)
  · have below := lt_of_le_of_ne smaller same
    exact (append_lt_append_of_lt below (fun starts => same (ends starts)) after later).le

end

end SparseLab.Library
