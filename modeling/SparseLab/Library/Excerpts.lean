import SparseLab.Library.Slices

/-! Excerpts of a list of pieces: runs of chosen pieces and where they lie in the content. -/

namespace SparseLab.Library

variable {α : Type*}

theorem slice_append_of_le {values : List α} (later : List α) (start : Nat) {stop : Nat}
    (within : stop ≤ values.length) : slice (values ++ later) start stop = slice values start stop := by
  rw [slice, List.take_append_of_le_length within, slice]

theorem slice_append_end {values : List α} (later : List α) {start : Nat}
    (within : start ≤ values.length) :
    slice (values ++ later) start (values.length + later.length) = values.drop start ++ later := by
  have whole : (values ++ later).take (values.length + later.length) = values ++ later := by
    apply List.take_of_length_le
    simp
  rw [slice, whole, List.drop_append_of_le_length within]

theorem slice_end {values : List α} (start : Nat) : slice values start values.length = values.drop start := by
  simp [slice]

theorem slice_succ {values : List α} {start stop : Nat} {value : α} (ordered : start ≤ stop)
    (found : values[stop]? = some value) :
    slice values start (stop + 1) = slice values start stop ++ [value] := by
  have inside : stop < values.length := (List.getElem?_eq_some_iff.mp found).1
  have length : (values.take stop).length = stop := by simp; omega
  rw [slice, List.take_add_one, found, slice, List.drop_append_of_le_length (by omega)]
  rfl

theorem slice_flatten {pieces : List (List α)} {piece : List α} {index : Nat}
    (here : pieces[index]? = some piece) :
    slice pieces.flatten (pieces.take index).flatten.length
      (pieces.take (index + 1)).flatten.length = piece := by
  have next : pieces.take (index + 1) = pieces.take index ++ [piece] := by
    rw [List.take_add_one, here]
    rfl
  have whole : pieces.flatten =
      (pieces.take index).flatten ++ piece ++ (pieces.drop (index + 1)).flatten := by
    conv_lhs => rw [← List.take_append_drop (index + 1) pieces]
    rw [List.flatten_append, next, List.flatten_append, List.flatten_singleton]
  rw [next, List.flatten_append, List.flatten_singleton, whole, slice_append_of_le _ _ (by simp),
    List.length_append, slice_append_end _ (Nat.le_refl _), List.drop_length, List.nil_append]

/-- The pieces at `start ≤ position < stop` are the content at `first ≤ offset < last`. -/
structure Excerpt where
  start : Nat
  stop : Nat
  first : Nat
  last : Nat

def Excerpt.passage (pieces : List (List α)) (excerpt : Excerpt) : List α :=
  (slice pieces excerpt.start excerpt.stop).flatten

/-- The excerpts are the chosen ones of the first `count` pieces, and the content is theirs. -/
structure Excerpts (pieces : List (List α)) (chosen : Nat → Prop) (count : Nat) (content : List α)
    (excerpts : List Excerpt) : Prop where
  covered : ∀ position < count,
    chosen position ↔ ∃ excerpt ∈ excerpts, excerpt.start ≤ position ∧ position < excerpt.stop
  within : ∀ excerpt ∈ excerpts, excerpt.start < excerpt.stop ∧ excerpt.stop ≤ count
  ordered : excerpts.Pairwise fun earlier later => earlier.stop ≤ later.start
  whole : content = (excerpts.map (Excerpt.passage pieces)).flatten
  sliced : ∀ excerpt ∈ excerpts, excerpt.first ≤ excerpt.last ∧ excerpt.last ≤ content.length ∧
    slice content excerpt.first excerpt.last = excerpt.passage pieces

namespace Excerpts

variable {pieces : List (List α)} {chosen : Nat → Prop} {count : Nat} {content piece : List α}
  {excerpts : List Excerpt} {final : Excerpt}

theorem start (pieces : List (List α)) (chosen : Nat → Prop) : Excerpts pieces chosen 0 [] [] where
  covered position inside := by omega
  within excerpt member := by cases member
  ordered := List.Pairwise.nil
  whole := rfl
  sliced excerpt member := by cases member

theorem skip (taken : Excerpts pieces chosen count content excerpts) (dropped : ¬ chosen count) :
    Excerpts pieces chosen (count + 1) content excerpts where
  covered position inside := by
    by_cases earlier : position < count
    · exact taken.covered position earlier
    · have here : position = count := by omega
      subst here
      constructor
      · intro kept
        exact absurd kept dropped
      · rintro ⟨excerpt, member, -, before⟩
        have bound := (taken.within excerpt member).2
        omega
  within excerpt member := by
    have bound := taken.within excerpt member
    omega
  ordered := taken.ordered
  whole := taken.whole
  sliced := taken.sliced

theorem append (taken : Excerpts pieces chosen count content excerpts) (kept : chosen count)
    (found : pieces[count]? = some piece) :
    Excerpts pieces chosen (count + 1) (content ++ piece)
      (excerpts ++ [⟨count, count + 1, content.length, content.length + piece.length⟩]) := by
  have passage : Excerpt.passage pieces
      ⟨count, count + 1, content.length, content.length + piece.length⟩ = piece := by
    rw [Excerpt.passage, slice_succ (Nat.le_refl count) found, slice_same]
    simp
  constructor
  · intro position inside
    by_cases earlier : position < count
    · rw [taken.covered position earlier]
      simp only [List.mem_append, List.mem_singleton, or_and_right, exists_or, exists_eq_left]
      constructor
      · exact Or.inl
      · rintro (old | ⟨low, -⟩)
        · exact old
        · omega
    · have here : position = count := by omega
      subst here
      exact ⟨fun _ => ⟨_, List.mem_append_right _ List.mem_cons_self, by simp⟩, fun _ => kept⟩
  · intro excerpt member
    rcases List.mem_append.mp member with old | new
    · have bound := taken.within excerpt old
      omega
    · rw [List.mem_singleton.mp new]
      exact ⟨Nat.lt_succ_self count, Nat.le_refl _⟩
  · rw [List.pairwise_append]
    refine ⟨taken.ordered, List.pairwise_singleton _ _, ?_⟩
    intro earlier old later new
    rw [List.mem_singleton.mp new]
    exact (taken.within earlier old).2
  · rw [List.map_append, List.flatten_append, ← taken.whole, List.map_singleton,
      List.flatten_singleton, passage]
  · intro excerpt member
    rcases List.mem_append.mp member with old | new
    · obtain ⟨ordered, bound, same⟩ := taken.sliced excerpt old
      refine ⟨ordered, ?_, ?_⟩
      · rw [List.length_append]
        omega
      · rw [slice_append_of_le piece _ bound, same]
    · rw [List.mem_singleton.mp new, passage]
      refine ⟨Nat.le_add_right _ _, by simp, ?_⟩
      rw [slice_append_end piece (Nat.le_refl content.length), List.drop_length, List.nil_append]

theorem extend (taken : Excerpts pieces chosen count content (excerpts ++ [final]))
    (kept : chosen count) (found : pieces[count]? = some piece) (open' : final.stop = count)
    (reached : final.last = content.length) :
    Excerpts pieces chosen (count + 1) (content ++ piece)
      (excerpts ++ [⟨final.start, count + 1, final.first, content.length + piece.length⟩]) := by
  have last : final ∈ excerpts ++ [final] := List.mem_append_right _ List.mem_cons_self
  have bound := taken.within final last
  obtain ⟨ordered, -, same⟩ := taken.sliced final last
  have passage : Excerpt.passage pieces
      ⟨final.start, count + 1, final.first, content.length + piece.length⟩ =
        final.passage pieces ++ piece := by
    have low : final.start ≤ count := by omega
    rw [Excerpt.passage, slice_succ low found, List.flatten_append, List.flatten_singleton,
      Excerpt.passage, open']
  have apart := List.pairwise_append.mp taken.ordered
  constructor
  · intro position inside
    by_cases earlier : position < count
    · rw [taken.covered position earlier]
      simp only [List.mem_append, List.mem_singleton, or_and_right, exists_or, exists_eq_left]
      rw [open']
      constructor
      · rintro (old | ⟨low, -⟩)
        · exact Or.inl old
        · exact Or.inr ⟨low, inside⟩
      · rintro (old | ⟨low, -⟩)
        · exact Or.inl old
        · exact Or.inr ⟨low, earlier⟩
    · have here : position = count := by omega
      subst here
      refine ⟨fun _ => ⟨_, List.mem_append_right _ List.mem_cons_self, ?_⟩, fun _ => kept⟩
      constructor
      · show final.start ≤ position
        omega
      · exact Nat.lt_succ_self position
  · intro excerpt member
    rcases List.mem_append.mp member with old | new
    · have inside := taken.within excerpt (List.mem_append_left _ old)
      omega
    · rw [List.mem_singleton.mp new]
      constructor
      · show final.start < count + 1
        omega
      · exact Nat.le_refl _
  · rw [List.pairwise_append]
    refine ⟨apart.1, List.pairwise_singleton _ _, ?_⟩
    intro earlier old later new
    rw [List.mem_singleton.mp new]
    exact apart.2.2 earlier old final List.mem_cons_self
  · have whole := taken.whole
    rw [List.map_append, List.flatten_append, List.map_singleton, List.flatten_singleton] at whole ⊢
    rw [passage, ← List.append_assoc, ← whole]
  · intro excerpt member
    rcases List.mem_append.mp member with old | new
    · obtain ⟨ordered, bound, same⟩ := taken.sliced excerpt (List.mem_append_left _ old)
      refine ⟨ordered, ?_, ?_⟩
      · rw [List.length_append]
        omega
      · rw [slice_append_of_le piece _ bound, same]
    · rw [List.mem_singleton.mp new, passage]
      have inside : final.first ≤ content.length := by omega
      refine ⟨?_, by simp, ?_⟩
      · show final.first ≤ content.length + piece.length
        omega
      · rw [slice_append_end piece inside, ← slice_end, ← reached, same]

end Excerpts

end SparseLab.Library
