import Mathlib.Data.Set.Finite.List

/-! An order in which every value comes after what it requires. -/

namespace SparseLab.Library

section

variable {α κ : Type*} (key : α → κ) (requires : α → List κ)

def Ready (completed : List κ) (value : α) : Prop :=
  ∀ needed ∈ requires value, needed ∈ completed

instance [DecidableEq κ] (completed : List κ) (value : α) :
    Decidable (Ready requires completed value) :=
  inferInstanceAs (Decidable (∀ _ ∈ _, _))

def Requires (values : List α) (above below : κ) : Prop :=
  ∃ value ∈ values, key value = above ∧ below ∈ requires value

def Acyclic (relation : κ → κ → Prop) : Prop :=
  ∀ node, ¬ Relation.TransGen relation node node

def readyOrder [DecidableEq α] [DecidableEq κ] (completed : List κ) (remaining : List α) :
    Option (List α) :=
  if remaining = [] then some []
  else
    match _found : remaining.find? (Ready requires completed ·) with
    | none => none
    | some available =>
      (readyOrder (completed ++ [key available]) (remaining.erase available)).map
        (available :: ·)
termination_by remaining.length
decreasing_by
  have member := List.mem_of_find?_eq_some _found
  have some := List.length_pos_of_mem member
  rw [List.length_erase_of_mem member]
  omega

variable {key requires}

theorem cyclic_of_stuck {relation : κ → κ → Prop} {keys : List κ} (some : keys ≠ [])
    (stuck : ∀ above ∈ keys, ∃ below ∈ keys, relation above below) : ¬ Acyclic relation := by
  intro acyclic
  let order : {node // node ∈ keys} → {node // node ∈ keys} → Prop :=
    fun below above => Relation.TransGen relation above.1 below.1
  have transitive : IsTrans _ order := ⟨fun _ _ _ first second => second.trans first⟩
  have irreflexive : Std.Irrefl order := ⟨fun node => acyclic node.1⟩
  have finite : Finite {node // node ∈ keys} := (List.finite_toSet keys).to_subtype
  have founded := Finite.wellFounded_of_trans_of_irrefl order
  obtain ⟨first, listed⟩ := List.exists_mem_of_ne_nil keys some
  have none : ∀ node : {node // node ∈ keys}, False := by
    intro node
    induction node using founded.induction with
    | h node smaller =>
      obtain ⟨below, member, edge⟩ := stuck node.1 node.2
      exact smaller ⟨below, member⟩ (.single edge)
  exact none ⟨first, listed⟩

section

variable [DecidableEq α] [DecidableEq κ]

structure Orders (key : α → κ) (requires : α → List κ) (completed : List κ)
    (remaining ordered : List α) : Prop where
  perm : ordered.Perm remaining
  after : ∀ before value rest, ordered = before ++ value :: rest →
    Ready requires (completed ++ before.map key) value
  stable : ∀ before value rest other, ordered = before ++ value :: rest → other ∈ rest →
    Ready requires (completed ++ before.map key) other → [value, other].Sublist remaining

omit [DecidableEq α] [DecidableEq κ] in
theorem orders_nil (completed : List κ) : Orders key requires completed [] [] := by
  constructor
  · exact .refl _
  · intro before value rest same
    simp at same
  · intro before value rest other same
    simp at same

theorem orders_cons {completed : List κ} {remaining ordered : List α} {available : α}
    (found : remaining.find? (Ready requires completed ·) = some available)
    (orders : Orders key requires (completed ++ [key available]) (remaining.erase available)
      ordered) : Orders key requires completed remaining (available :: ordered) := by
  have member := List.mem_of_find?_eq_some found
  have ready : Ready requires completed available := by
    simpa using List.find?_some found
  constructor
  · exact (orders.perm.cons available).trans (List.perm_cons_erase member).symm
  · intro before value rest same
    cases before with
    | nil =>
      cases same
      simpa using ready
    | cons first before =>
      cases same
      have later := orders.after before value rest rfl
      simpa using later
  · intro before value rest other same listed others
    cases before with
    | nil =>
      cases same
      rw [List.find?_eq_some_iff_append] at found
      obtain ⟨_, front, back, split, unready⟩ := found
      have absent : available ∉ front := fun inside => by
        have refused := unready available inside
        simp [ready] at refused
      have waiting : other ∈ front ++ back := by
        have inside := orders.perm.mem_iff.mp listed
        rwa [split, List.erase_append_right _ absent, List.erase_cons_head] at inside
      have behind : other ∈ back := by
        rcases List.mem_append.mp waiting with inside | inside
        · have refused := unready other inside
          simp only [List.map_nil, List.append_nil] at others
          simp [others] at refused
        · exact inside
      rw [split]
      exact (((List.singleton_sublist.mpr behind).cons_cons available)).trans
        (List.sublist_append_right front _)
    | cons first before =>
      cases same
      have later := orders.stable before value rest other rfl listed (by simpa using others)
      exact later.trans List.erase_sublist

theorem readyOrder_orders {completed : List κ} {remaining ordered : List α}
    (found : readyOrder key requires completed remaining = some ordered) :
    Orders key requires completed remaining ordered := by
  induction completed, remaining using readyOrder.induct key requires generalizing ordered with
  | case1 completed =>
    rw [readyOrder, if_pos rfl] at found
    cases found
    exact orders_nil completed
  | case2 completed remaining some' stuck =>
    rw [readyOrder, if_neg some', stuck] at found
    cases found
  | case3 completed remaining some' available ready ih =>
    rw [readyOrder, if_neg some', ready] at found
    obtain ⟨rest, later, rfl⟩ := Option.map_eq_some_iff.mp found
    exact orders_cons ready (ih later)

theorem readyOrder_exists {relation : κ → κ → Prop} (acyclic : Acyclic relation)
    {completed : List κ} {remaining : List α}
    (related : ∀ value ∈ remaining, ∀ needed ∈ requires value, relation (key value) needed)
    (known : ∀ value ∈ remaining, ∀ needed ∈ requires value,
      needed ∈ completed ∨ needed ∈ remaining.map key) :
    ∃ ordered, readyOrder key requires completed remaining = some ordered := by
  induction completed, remaining using readyOrder.induct key requires with
  | case1 completed =>
    rw [readyOrder, if_pos rfl]
    exact ⟨[], rfl⟩
  | case2 completed remaining some' stuck =>
    exfalso
    rw [List.find?_eq_none] at stuck
    have nonempty : remaining.map key ≠ [] := by simpa using some'
    refine cyclic_of_stuck nonempty ?_ acyclic
    intro above listed
    obtain ⟨value, member, rfl⟩ := List.mem_map.mp listed
    have unready : ¬ Ready requires completed value := by simpa using stuck value member
    simp only [Ready, not_forall] at unready
    obtain ⟨needed, need, open'⟩ := unready
    exact ⟨needed, (known value member needed need).resolve_left open',
      related value member needed need⟩
  | case3 completed remaining some' available ready ih =>
    rw [readyOrder, if_neg some', ready]
    have member := List.mem_of_find?_eq_some ready
    obtain ⟨ordered, later⟩ := ih
      (fun value listed => related value (List.mem_of_mem_erase listed))
      (fun value listed needed need => by
        rcases known value (List.mem_of_mem_erase listed) needed need with old | waiting
        · exact .inl (List.mem_append_left _ old)
        · obtain ⟨other, inside, rfl⟩ := List.mem_map.mp waiting
          by_cases same : other = available
          · rw [same]
            exact .inl (List.mem_append_right _ (List.mem_singleton_self _))
          · exact .inr (List.mem_map_of_mem ((List.mem_erase_of_ne same).mpr inside)))
    exact ⟨available :: ordered, by simp only [later, Option.map_some]⟩

omit [DecidableEq α] in
theorem acyclic_of_orders {values ordered : List α} (unique : (values.map key).Nodup)
    (orders : Orders key requires [] values ordered) : Acyclic (Requires key requires values) := by
  have keys : (ordered.map key).Nodup := (orders.perm.map key).nodup_iff.mpr unique
  have edge : ∀ {above below}, Requires key requires values above below →
      (ordered.map key).idxOf below < (ordered.map key).idxOf above := by
    rintro above below ⟨value, member, rfl, need⟩
    obtain ⟨before, rest, split⟩ := List.append_of_mem (orders.perm.mem_iff.mpr member)
    have earlier := orders.after before value rest split below need
    rw [List.nil_append] at earlier
    rw [split, List.map_append, List.map_cons] at keys ⊢
    have absent : key value ∉ before.map key := fun inside =>
      (List.nodup_append.mp keys).2.2 _ inside _ List.mem_cons_self rfl
    rw [List.idxOf_append_of_mem earlier, List.idxOf_append_of_notMem absent,
      List.idxOf_cons_self, Nat.add_zero]
    exact List.idxOf_lt_length_iff.mpr earlier
  have path : ∀ {above below}, Relation.TransGen (Requires key requires values) above below →
      (ordered.map key).idxOf below < (ordered.map key).idxOf above := by
    intro above below steps
    induction steps with
    | single step => exact edge step
    | tail _ step ih => exact Nat.lt_trans (edge step) ih
  intro node cycle
  exact Nat.lt_irrefl _ (path cycle)

end

end

end SparseLab.Library
