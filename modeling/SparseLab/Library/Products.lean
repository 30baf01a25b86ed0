import Mathlib.Algebra.BigOperators.Group.List.Basic
import Mathlib.Data.List.Nodup

/-! Products of lists of choices, where the last choice varies first. -/

namespace SparseLab.Library

variable {α β : Type}

def product : List (List α) → List (List α)
  | [] => [[]]
  | choices :: later => choices.flatMap fun choice => (product later).map (choice :: ·)

theorem mem_product {lists : List (List α)} {selected : List α} :
    selected ∈ product lists ↔ List.Forall₂ (· ∈ ·) selected lists := by
  induction lists generalizing selected with
  | nil => simp [product]
  | cons choices later ih =>
    rw [product, List.mem_flatMap, List.forall₂_cons_right_iff]
    constructor
    · rintro ⟨choice, member, inside⟩
      obtain ⟨rest, below, rfl⟩ := List.mem_map.mp inside
      exact ⟨choice, rest, member, ih.mp below, rfl⟩
    · rintro ⟨choice, rest, member, below, rfl⟩
      exact ⟨choice, member, List.mem_map.mpr ⟨rest, ih.mpr below, rfl⟩⟩

theorem length_product (lists : List (List α)) :
    (product lists).length = (lists.map List.length).prod := by
  induction lists with
  | nil => rfl
  | cons choices later ih =>
    rw [product, List.length_flatMap, List.map_cons, List.prod_cons, ← ih]
    simp

theorem map_product (change : α → β) (lists : List (List α)) :
    (product lists).map (List.map change) = product (lists.map (List.map change)) := by
  induction lists with
  | nil => rfl
  | cons choices later ih =>
    rw [List.map_cons, product, product, ← ih, List.map_flatMap, List.flatMap_map]
    simp [List.map_map, Function.comp_def]

theorem nodup_product {lists : List (List α)} (distinct : ∀ choices ∈ lists, choices.Nodup) :
    (product lists).Nodup := by
  induction lists with
  | nil => exact List.nodup_singleton _
  | cons choices later ih =>
    rw [List.forall_mem_cons] at distinct
    rw [product, List.nodup_flatMap]
    refine ⟨fun choice _ => (ih distinct.2).map (List.cons_injective), ?_⟩
    refine distinct.1.imp ?_
    intro first second differ selected inside inside'
    obtain ⟨_, -, rfl⟩ := List.mem_map.mp inside
    obtain ⟨_, -, same⟩ := List.mem_map.mp inside'
    cases same
    exact differ rfl

end SparseLab.Library
