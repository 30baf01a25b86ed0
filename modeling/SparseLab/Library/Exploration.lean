import Mathlib.Data.List.Basic
import Mathlib.Logic.Relation

/-! Everything reachable in a graph whose nodes may be undeclared. -/

namespace SparseLab.Library

section

variable {κ : Type*} [DecidableEq κ]

def Edge (edges : κ → Option (List κ)) (source target : κ) : Prop :=
  ∃ found, edges source = some found ∧ target ∈ found

def visitNode (state : List κ × List κ) (node : κ) : List κ × List κ :=
  if node ∈ state.1 then state else (node :: state.1, node :: state.2)

def unseen (names seen : List κ) : Nat :=
  (names.filter fun name => name ∉ seen).length

theorem unseen_cons {names seen : List κ} {node : κ} (listed : node ∈ names)
    (fresh : node ∉ seen) : unseen names (node :: seen) < unseen names seen := by
  unfold unseen
  induction names with
  | nil => cases listed
  | cons name names ih =>
    have atMost : (names.filter fun name => name ∉ node :: seen).length ≤
        (names.filter fun name => name ∉ seen).length := by
      apply List.Sublist.length_le
      apply List.monotone_filter_right
      intro name kept
      simp only [decide_eq_true_eq, List.mem_cons, not_or] at kept ⊢
      exact kept.2
    by_cases same : name = node
    · subst same
      rw [List.filter_cons_of_neg (by simp), List.filter_cons_of_pos (by simpa using fresh),
        List.length_cons]
      omega
    · have later := ih ((List.mem_cons.mp listed).resolve_left (Ne.symm same))
      by_cases seen' : name ∈ seen
      · rw [List.filter_cons_of_neg (by simp [seen']), List.filter_cons_of_neg (by simp [seen'])]
        exact later
      · rw [List.filter_cons_of_pos (by simp [seen', same]),
          List.filter_cons_of_pos (by simp [seen']), List.length_cons, List.length_cons]
        omega

theorem visit_bound {names found : List κ} (listed : ∀ node ∈ found, node ∈ names)
    (state : List κ × List κ) :
    2 * unseen names (found.foldl visitNode state).1 + (found.foldl visitNode state).2.length ≤
      2 * unseen names state.1 + state.2.length := by
  induction found generalizing state with
  | nil => exact Nat.le_refl _
  | cons node found ih =>
    have rest := ih (fun other member => listed other (List.mem_cons_of_mem _ member))
      (visitNode state node)
    rw [List.foldl_cons]
    by_cases seen : node ∈ state.1
    · rw [visitNode, if_pos seen] at rest ⊢
      exact rest
    · rw [visitNode, if_neg seen] at rest ⊢
      have fewer := unseen_cons (listed node List.mem_cons_self) seen
      dsimp only at rest
      rw [List.length_cons] at rest
      omega

def explore (edges : κ → Option (List κ)) (names : List κ)
    (closed : ∀ node found, edges node = some found → ∀ next ∈ found, next ∈ names)
    (seen pending : List κ) : Except κ (List κ) :=
  match pending with
  | [] => .ok seen
  | parent :: pending =>
    match _known : edges parent with
    | none => .error parent
    | some found =>
      let next := found.foldl visitNode (seen, pending)
      explore edges names closed next.1 next.2
termination_by 2 * unseen names seen + pending.length
decreasing_by
  have bound := visit_bound (closed parent found _known) (seen, pending)
  dsimp only at bound ⊢
  rw [List.length_cons]
  omega

structure Exploring (edges : κ → Option (List κ)) (roots seen pending : List κ) : Prop where
  rooted : ∀ node ∈ roots, node ∈ seen
  queued : ∀ node ∈ pending, node ∈ seen
  reached : ∀ node ∈ seen, ∃ root ∈ roots, Relation.ReflTransGen (Edge edges) root node
  done : ∀ node ∈ seen, node ∈ pending ∨
    ∃ found, edges node = some found ∧ ∀ next ∈ found, next ∈ seen

variable {edges : κ → Option (List κ)} {names : List κ}
  (closed : ∀ node found, edges node = some found → ∀ next ∈ found, next ∈ names)

omit [DecidableEq κ] in
theorem exploring_start {roots pending : List κ} (same : ∀ node, node ∈ pending ↔ node ∈ roots) :
    Exploring edges roots roots pending := by
  constructor
  · exact fun _ member => member
  · exact fun node member => (same node).mp member
  · exact fun node member => ⟨node, member, .refl⟩
  · exact fun node member => .inl ((same node).mpr member)

theorem visit_seen (found : List κ) (state : List κ × List κ) (node : κ) :
    (node ∈ (found.foldl visitNode state).1 ↔ node ∈ state.1 ∨ node ∈ found) ∧
      (node ∈ state.2 → node ∈ (found.foldl visitNode state).2) ∧
      (node ∈ (found.foldl visitNode state).2 → node ∈ state.2 ∨ node ∈ found) ∧
      (node ∈ found → node ∈ state.1 ∨ node ∈ (found.foldl visitNode state).2) := by
  induction found generalizing state with
  | nil => simp
  | cons first found ih =>
    obtain ⟨seen, kept, added, queued⟩ := ih (visitNode state first)
    rw [List.foldl_cons, seen]
    by_cases known : first ∈ state.1
    · rw [visitNode, if_pos known] at *
      refine ⟨?_, kept, ?_, ?_⟩
      · constructor
        · rintro (old | later)
          · exact .inl old
          · exact .inr (List.mem_cons_of_mem _ later)
        · rintro (old | listed)
          · exact .inl old
          · rcases List.mem_cons.mp listed with rfl | later
            · exact .inl known
            · exact .inr later
      · intro member
        exact (added member).imp id (List.mem_cons_of_mem _)
      · intro listed
        rcases List.mem_cons.mp listed with rfl | later
        · exact .inl known
        · exact queued later
    · rw [visitNode, if_neg known] at *
      refine ⟨?_, fun member => kept (List.mem_cons_of_mem _ member), ?_, ?_⟩
      · simp only [List.mem_cons]
        tauto
      · intro member
        rcases added member with old | later
        · rcases List.mem_cons.mp old with rfl | before
          · exact .inr List.mem_cons_self
          · exact .inl before
        · exact .inr (List.mem_cons_of_mem _ later)
      · intro listed
        rcases List.mem_cons.mp listed with rfl | later
        · exact .inr (kept List.mem_cons_self)
        · rcases queued later with old | member
          · rcases List.mem_cons.mp old with rfl | before
            · exact .inr (kept List.mem_cons_self)
            · exact .inl before
          · exact .inr member

theorem Exploring.step {roots seen pending found : List κ} {parent : κ}
    (exploring : Exploring edges roots seen (parent :: pending)) (known : edges parent = some found) :
    Exploring edges roots (found.foldl visitNode (seen, pending)).1
      (found.foldl visitNode (seen, pending)).2 := by
  have visited := visit_seen found (seen, pending)
  constructor
  · intro node member
    exact (visited node).1.mpr (.inl (exploring.rooted node member))
  · intro node member
    apply (visited node).1.mpr
    exact ((visited node).2.2.1 member).imp
      (fun old => exploring.queued node (List.mem_cons_of_mem _ old)) id
  · intro node member
    rcases (visited node).1.mp member with old | new
    · exact exploring.reached node old
    · obtain ⟨root, listed, path⟩ :=
        exploring.reached parent (exploring.queued parent List.mem_cons_self)
      exact ⟨root, listed, path.tail ⟨found, known, new⟩⟩
  · intro node member
    have settled : node ∈ seen → node ∈ (found.foldl visitNode (seen, pending)).2 ∨
        ∃ found', edges node = some found' ∧
          ∀ next ∈ found', next ∈ (found.foldl visitNode (seen, pending)).1 := by
      intro old
      rcases exploring.done node old with waiting | ⟨found', same, all⟩
      · rcases List.mem_cons.mp waiting with rfl | later
        · exact .inr ⟨found, known, fun next listed => (visited next).1.mpr (.inr listed)⟩
        · exact .inl ((visited node).2.1 later)
      · exact .inr ⟨found', same, fun next listed => (visited next).1.mpr (.inl (all next listed))⟩
    rcases (visited node).1.mp member with old | new
    · exact settled old
    · rcases (visited node).2.2.2 new with old | waiting
      · exact settled old
      · exact .inl waiting

inductive Explored (edges : κ → Option (List κ)) (roots : List κ) : Except κ (List κ) → Prop
  | all {seen : List κ}
      (reached : ∀ node, node ∈ seen ↔
        ∃ root ∈ roots, Relation.ReflTransGen (Edge edges) root node)
      (declared : ∀ node ∈ seen, edges node ≠ none) : Explored edges roots (.ok seen)
  | missing {node : κ} (reached : ∃ root ∈ roots, Relation.ReflTransGen (Edge edges) root node)
      (undeclared : edges node = none) : Explored edges roots (.error node)

theorem explore_missing {seen pending : List κ} {parent : κ} (unknown : edges parent = none) :
    explore edges names closed seen (parent :: pending) = .error parent := by
  rw [explore, unknown]

theorem explore_found {seen pending found : List κ} {parent : κ}
    (known : edges parent = some found) :
    explore edges names closed seen (parent :: pending) =
      explore edges names closed (found.foldl visitNode (seen, pending)).1
        (found.foldl visitNode (seen, pending)).2 := by
  rw [explore, known]

theorem explore_explored {roots seen pending : List κ}
    (exploring : Exploring edges roots seen pending) :
    Explored edges roots (explore edges names closed seen pending) := by
  induction seen, pending using explore.induct edges names closed with
  | case1 seen =>
    rw [explore]
    have full : ∀ node ∈ seen, ∃ found, edges node = some found ∧ ∀ next ∈ found, next ∈ seen := by
      intro node member
      exact (exploring.done node member).resolve_left (by simp)
    constructor
    · intro node
      constructor
      · exact exploring.reached node
      · rintro ⟨root, listed, path⟩
        induction path with
        | refl => exact exploring.rooted root listed
        | tail _ edge ih =>
          obtain ⟨found, known, next⟩ := edge
          obtain ⟨found', same, all⟩ := full _ ih
          rw [known] at same
          cases same
          exact all _ next
    · intro node member none
      obtain ⟨found, known, _⟩ := full node member
      rw [none] at known
      cases known
  | case2 seen parent pending unknown =>
    rw [explore_missing closed unknown]
    exact .missing (exploring.reached parent (exploring.queued parent List.mem_cons_self)) unknown
  | case3 seen parent pending found known next ih =>
    rw [explore_found closed known]
    exact ih (exploring.step known)

end

end SparseLab.Library
