import Mathlib.Data.List.Infix
import SparseLab.Library.Outcomes

/-! Posting lists: the positions of the items that have a key. -/

namespace SparseLab.Library

abbrev Postings (κ : Type) := κ → List Nat

variable {κ ε α : Type}

def Indexes (postings : Postings κ) (keysOf : α → List κ) (items : List α) : Prop :=
  ∀ key position, position ∈ postings key ↔ ∃ item, items[position]? = some item ∧ key ∈ keysOf item

theorem indexes_empty (keysOf : α → List κ) : Indexes (fun _ => []) keysOf [] := by
  simp [Indexes]

section

variable [DecidableEq κ]

def post (cap : Int) (failure : ε) (position : Nat) : List κ → Postings κ → Except ε (Postings κ)
  | [], postings => .ok postings
  | key :: keys, postings => do
      let next := Function.update postings key (postings key ++ [position])
      refuseIf ((next key).length > cap) failure
      post cap failure position keys next

variable {cap : Int} {failure : ε} {position : Nat} {keys : List κ} {postings next : Postings κ}
  {keysOf : α → List κ} {items : List α} {item : α}

theorem mem_post (posted : post cap failure position keys postings = .ok next) (key : κ)
    (other : Nat) : other ∈ next key ↔ other ∈ postings key ∨ (other = position ∧ key ∈ keys) := by
  induction keys generalizing postings with
  | nil =>
    cases posted
    simp
  | cons first keys ih =>
    rw [post] at posted
    by_cases full : ((Function.update postings first (postings first ++ [position])) first).length
        > cap
    · rw [refuseIf_raises full] at posted
      cases posted
    · rw [refuseIf_bind full] at posted
      rw [ih posted]
      by_cases same : key = first
      · subst same
        rw [Function.update_self, List.mem_append, List.mem_singleton]
        simp only [List.mem_cons, true_or, and_true]
        grind
      · rw [Function.update_of_ne same]
        simp [same]

theorem Indexes.post (indexes : Indexes postings keysOf items)
    (posted : Library.post cap failure items.length (keysOf item) postings = .ok next) :
    Indexes next keysOf (items ++ [item]) := by
  intro key position
  rw [mem_post posted, indexes key position]
  constructor
  · rintro (⟨other, found, member⟩ | ⟨rfl, member⟩)
    · have below := (List.getElem?_eq_some_iff.mp found).1
      exact ⟨other, by rw [List.getElem?_append_left below, found], member⟩
    · exact ⟨item, by simp, member⟩
  · rintro ⟨other, found, member⟩
    rcases Nat.lt_trichotomy position items.length with below | same | above
    · rw [List.getElem?_append_left below] at found
      exact .inl ⟨other, found, member⟩
    · subst same
      rw [List.getElem?_concat_length] at found
      cases found
      exact .inr ⟨rfl, member⟩
    · rw [List.getElem?_eq_none (by simp; omega)] at found
      cases found

end

end SparseLab.Library
