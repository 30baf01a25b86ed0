import SparseLab.Data.StoryLayouts

/-! The rows of an update of matched stories: their labels are the targets of the update. -/

namespace SparseLab.Data

open Library

def rowLabels (rows : List Microblock) : List Int :=
  rows.flatMap fun row => supervised row.targets

def paddedSlots (rows : List Microblock) : Nat :=
  (rows.map fun row => row.targets.count ignored).sum

@[simp] theorem rowLabels_append (rows others : List Microblock) :
    rowLabels (rows ++ others) = rowLabels rows ++ rowLabels others :=
  List.flatMap_append

theorem supervised_natural {labels : List Int} (natural : ∀ label ∈ labels, 0 ≤ label) :
    supervised labels = labels := by
  rw [supervised, List.filter_eq_self]
  intro label member
  have real := natural label member
  have other : label ≠ ignored := by
    rw [ignored]
    omega
  exact decide_eq_true other

theorem count_supervised (labels : List Int) :
    labels.count ignored + (supervised labels).length = labels.length := by
  induction labels with
  | nil => rfl
  | cons label labels ih =>
    by_cases skipped : label = ignored
    · rw [skipped, supervised_ignored, List.count_cons_self, List.length_cons]
      omega
    · rw [supervised_cons skipped, List.count_cons_of_ne skipped, List.length_cons,
        List.length_cons]
      omega

theorem paddedSlots_eq {rows : List Microblock} {width : Nat}
    (wide : ∀ row ∈ rows, row.targets.length = width) :
    paddedSlots rows = rows.length * width - (rowLabels rows).length := by
  have total : paddedSlots rows + (rowLabels rows).length = rows.length * width := by
    induction rows with
    | nil => simp [paddedSlots, rowLabels]
    | cons row rows ih =>
      have rest := ih fun other member => wide other (List.mem_cons_of_mem _ member)
      have first := count_supervised row.targets
      rw [wide row List.mem_cons_self] at first
      simp only [paddedSlots, rowLabels, List.map_cons, List.sum_cons, List.flatMap_cons,
        List.length_append, List.length_cons, Nat.add_one_mul] at rest ⊢
      omega
  omega

namespace MatchedStoryDataset

variable {dataset : MatchedStoryDataset}

theorem rowsFor_zero : dataset.rowsFor 0 = 0 := by
  have positive := dataset.positive
  rw [rowsFor, Nat.div_eq_of_lt]
  omega

theorem rowsFor_next {targets : Nat} (some : 0 < targets) :
    dataset.rowsFor targets = dataset.rowsFor (targets - dataset.seqLen) + 1 := by
  have positive := dataset.positive
  by_cases small : targets ≤ dataset.seqLen
  · rw [Nat.sub_eq_zero_of_le small, rowsFor_zero, rowsFor]
    apply Nat.div_eq_of_lt_le
    · omega
    · omega
  · have split : targets + dataset.seqLen - 1 =
        targets - dataset.seqLen + dataset.seqLen - 1 + dataset.seqLen := by omega
    rw [rowsFor, split, Nat.add_div_right _ positive, rowsFor]

theorem length_segment (start boundary : Nat) :
    (dataset.segment start boundary).length = dataset.rowsFor (boundary - start) := by
  induction start using segment.induct dataset boundary with
  | case1 start before stop ih =>
    have rest : boundary - stop = boundary - start - dataset.seqLen := by omega
    rw [segment, dif_pos before, List.length_cons, ih, rest, ← rowsFor_next]
    omega
  | case2 start done =>
    rw [segment, dif_neg done, Nat.sub_eq_zero_of_le (by omega), rowsFor_zero, List.length_nil]

theorem length_segments (start : Nat) (boundaries : List Nat)
    (ordered : (start :: boundaries).Pairwise (· ≤ ·)) :
    (dataset.segments start boundaries).length =
      ((differences (start :: boundaries)).map dataset.rowsFor).sum := by
  induction boundaries generalizing start with
  | nil => simp [segments]
  | cons boundary boundaries ih =>
    have parts := List.pairwise_cons.mp ordered
    have within := parts.1 boundary List.mem_cons_self
    rw [segments, List.length_append, length_segment, Nat.max_eq_right within,
      ih boundary parts.2, differences_cons, List.map_cons, List.sum_cons]

section

variable (natural : ∀ id ∈ dataset.ids, 0 ≤ id)

theorem targets_storyRow {start stop : Nat} (within : stop ≤ dataset.ids.length)
    (fits : stop ≤ start + dataset.seqLen) :
    (dataset.storyRow start stop).targets.length = dataset.seqLen := by
  simp only [storyRow, List.length_append, length_slice, List.length_replicate]
  omega

theorem targets_segment {start boundary : Nat} (within : boundary ≤ dataset.ids.length) :
    ∀ row ∈ dataset.segment start boundary, row.targets.length = dataset.seqLen := by
  induction start using segment.induct dataset boundary with
  | case1 start before stop ih =>
    intro row member
    rw [segment, dif_pos before] at member
    rcases List.mem_cons.mp member with rfl | later
    · exact targets_storyRow (by omega) (Nat.min_le_left _ _)
    · exact ih row later
  | case2 start done =>
    intro row member
    rw [segment, dif_neg done] at member
    cases member

theorem targets_segments {start : Nat} {boundaries : List Nat}
    (within : ∀ boundary ∈ boundaries, boundary ≤ dataset.ids.length) :
    ∀ row ∈ dataset.segments start boundaries, row.targets.length = dataset.seqLen := by
  induction boundaries generalizing start with
  | nil => simp [segments]
  | cons boundary boundaries ih =>
    intro row member
    rcases List.mem_append.mp member with first | later
    · exact targets_segment (within boundary List.mem_cons_self) row first
    · exact ih (fun other listed => within other (List.mem_cons_of_mem _ listed)) row later

include natural

theorem supervised_storyRow (start stop : Nat) :
    supervised (dataset.storyRow start stop).targets = slice dataset.ids start stop := by
  have real : supervised (slice dataset.ids start stop) = slice dataset.ids start stop := by
    apply supervised_natural
    intro label member
    exact natural label (List.mem_of_mem_take (List.mem_of_mem_drop member))
  have none : supervised (List.replicate (dataset.seqLen - (stop - start)) ignored) = [] := by
    simp [supervised]
  rw [storyRow, supervised, List.filter_append]
  rw [supervised] at real none
  rw [real, none, List.append_nil]

theorem labels_segment {start boundary : Nat} (before : start ≤ boundary) :
    rowLabels (dataset.segment start boundary) = slice dataset.ids start boundary := by
  induction start using segment.induct dataset boundary with
  | case1 start more stop ih =>
    have rest := ih (Nat.min_le_right _ _)
    rw [segment, dif_pos more, rowLabels, List.flatMap_cons, supervised_storyRow natural]
    rw [rowLabels] at rest
    rw [rest]
    apply slice_append_slice
    · omega
    · exact Nat.min_le_right _ _
  | case2 start done =>
    have same : start = boundary := by omega
    rw [segment, dif_neg done, same, slice_same]
    rfl

theorem labels_segments {start stop : Nat} {boundaries : List Nat}
    (ordered : (start :: (boundaries ++ [stop])).Pairwise (· ≤ ·)) :
    rowLabels (dataset.segments start (boundaries ++ [stop])) = slice dataset.ids start stop := by
  induction boundaries generalizing start with
  | nil =>
    have before := (List.pairwise_cons.mp ordered).1 stop (by simp)
    simp [segments, labels_segment natural before]
  | cons boundary boundaries ih =>
    have parts := List.pairwise_cons.mp ordered
    have before := parts.1 boundary (by simp)
    have after := (List.pairwise_cons.mp parts.2).1 stop (by simp)
    rw [List.cons_append, segments, rowLabels_append, labels_segment natural before,
      Nat.max_eq_right before, ih parts.2]
    exact slice_append_slice _ before after

end

def updateEnd (dataset : MatchedStoryDataset) (group remaining : Nat) : Nat :=
  min (dataset.offset (group + 1)) (dataset.offset group + remaining)

def innerEnds (dataset : MatchedStoryDataset) (layout : StoryLayout) (start stop : Nat) :
    List Nat :=
  match layout with
  | .story => dataset.documentEnds.filter fun documentEnd =>
    start < documentEnd ∧ documentEnd ≤ stop
  | .contiguous => []

theorem innerEnds_ordered (layout : StoryLayout) {start stop : Nat} (before : start ≤ stop) :
    (start :: (dataset.innerEnds layout start stop ++ [stop])).Pairwise (· ≤ ·) := by
  have bounds : ∀ inner ∈ dataset.innerEnds layout start stop, start ≤ inner ∧ inner ≤ stop := by
    intro inner member
    cases layout with
    | contiguous => cases member
    | story =>
      have kept := (List.mem_filter.mp member).2
      rw [decide_eq_true_eq] at kept
      omega
  have ordered : (dataset.innerEnds layout start stop).Pairwise (· ≤ ·) := by
    cases layout with
    | contiguous => exact List.Pairwise.nil
    | story => exact (documentEnds_ordered.imp Nat.le_of_lt).filter _
  rw [List.pairwise_cons, List.pairwise_append]
  refine ⟨?_, ordered, List.pairwise_singleton _ _, ?_⟩
  · intro other member
    rcases List.mem_append.mp member with inner | last
    · exact (bounds other inner).1
    · rw [List.mem_singleton.mp last]
      exact before
  · intro inner member other last
    rw [List.mem_singleton.mp last]
    exact (bounds inner member).2

theorem updateRows_ok {group remaining : Nat} (inside : group < dataset.length)
    (some : remaining ≠ 0) :
    dataset.updateRows group remaining = .ok (dataset.segments (dataset.offset group)
      (dataset.innerEnds dataset.layout (dataset.offset group)
        (dataset.updateEnd group remaining) ++ [dataset.updateEnd group remaining])) := by
  have accepted : ¬ (dataset.length ≤ group ∨ remaining = 0) := by omega
  rw [updateRows, if_neg accepted]
  cases layout : dataset.layout <;> simp [innerEnds, updateEnd, offset]

theorem updateEnd_bounds {group : Nat} (inside : group < dataset.length) (remaining : Nat) :
    dataset.offset group ≤ dataset.updateEnd group remaining ∧
      dataset.updateEnd group remaining ≤ dataset.ids.length := by
  have within : group + 1 ≤ dataset.length := inside
  have next := dataset.offset_mono (Nat.le_add_right group 1) within
  have last := dataset.offset_mono within (Nat.le_refl _)
  rw [offset_length] at last
  rw [updateEnd]
  omega

theorem updateRows_width {group remaining : Nat} {rows : List Microblock}
    (inside : group < dataset.length) (some : remaining ≠ 0)
    (updated : dataset.updateRows group remaining = .ok rows) :
    ∀ row ∈ rows, row.targets.length = dataset.seqLen := by
  rw [updateRows_ok inside some] at updated
  cases updated
  have bounds := dataset.updateEnd_bounds inside remaining
  apply targets_segments
  intro boundary member
  have ordered := dataset.innerEnds_ordered dataset.layout bounds.1
  rcases List.mem_append.mp member with inner | last
  · have before := (List.pairwise_append.mp (List.pairwise_cons.mp ordered).2).2.2 boundary inner
      _ (List.mem_singleton_self _)
    exact Nat.le_trans before bounds.2
  · rw [List.mem_singleton.mp last]
    exact bounds.2

theorem updateRows_labels (natural : ∀ id ∈ dataset.ids, 0 ≤ id) {group remaining : Nat}
    {rows : List Microblock} (inside : group < dataset.length) (some : remaining ≠ 0)
    (updated : dataset.updateRows group remaining = .ok rows) :
    rowLabels rows =
      slice dataset.ids (dataset.offset group) (dataset.updateEnd group remaining) := by
  rw [updateRows_ok inside some] at updated
  cases updated
  exact labels_segments natural (innerEnds_ordered _ (updateEnd_bounds inside remaining).1)

abbrev inLayout (dataset : MatchedStoryDataset) (layout : StoryLayout) : MatchedStoryDataset :=
  { dataset with layout }

def fullRows (dataset : MatchedStoryDataset) (layout : StoryLayout) (group : Nat) :
    List Microblock :=
  match (dataset.inLayout layout).updateRows group dataset.ids.length with
  | .ok rows => rows
  | .error _ => []

section

variable {group : Nat} (inside : group < dataset.length)

include inside

theorem updateEnd_full :
    dataset.updateEnd group dataset.ids.length = dataset.offset (group + 1) := by
  have within : group + 1 ≤ dataset.length := inside
  have last := dataset.offset_mono within (Nat.le_refl _)
  rw [offset_length] at last
  rw [updateEnd]
  omega

theorem fullRows_ok (layout : StoryLayout) :
    (dataset.inLayout layout).updateRows group dataset.ids.length =
      .ok (dataset.fullRows layout group) := by
  have nonempty : dataset.ids.length ≠ 0 := Nat.ne_of_gt dataset.ids_nonempty
  have updated := (dataset.inLayout layout).updateRows_ok inside nonempty
  rw [fullRows, updated]

theorem length_fullRows (layout : StoryLayout) :
    (dataset.fullRows layout group).length =
      ((differences (dataset.offset group :: (dataset.innerEnds layout (dataset.offset group)
        (dataset.offset (group + 1)) ++ [dataset.offset (group + 1)]))).map
          dataset.rowsFor).sum := by
  have nonempty : dataset.ids.length ≠ 0 := Nat.ne_of_gt dataset.ids_nonempty
  have updated := (dataset.inLayout layout).updateRows_ok inside nonempty
  rw [fullRows_ok inside] at updated
  have stop : (dataset.inLayout layout).updateEnd group dataset.ids.length =
      dataset.offset (group + 1) := updateEnd_full inside
  rw [stop] at updated
  rw [Except.ok.inj updated]
  have before := dataset.offset_mono (Nat.le_succ group) inside
  exact length_segments _ _ (innerEnds_ordered layout before)

theorem rows_contiguous : (dataset.fullRows .contiguous group).length =
    dataset.rowsFor (dataset.offset (group + 1) - dataset.offset group) := by
  rw [length_fullRows inside]
  simp [innerEnds]

omit inside in
theorem cumulativeRows_eq (bound : Nat) :
    dataset.cumulativeRows.getD (keysUpTo dataset.documentEnds bound) 0 =
      ((differences (0 :: dataset.documentEnds.filter fun documentEnd => documentEnd ≤ bound)).map
        dataset.rowsFor).sum := by
  have within : keysUpTo dataset.documentEnds bound ≤
      (dataset.storyLengths.map dataset.rowsFor).length := by
    have few := (List.takeWhile_prefix (l := dataset.documentEnds)
      fun documentEnd => documentEnd ≤ bound).length_le
    simpa [storyLengths, length_differences, keysUpTo] using few
  rw [List.getD_eq_getElem?_getD, cumulativeRows, getElem?_runningSums within, Option.getD_some,
    ← List.map_take, storyLengths, take_differences, take_keysUpTo documentEnds_ordered]

theorem rows_story : (dataset.fullRows .story group).length =
    dataset.cumulativeRows.getD (keysUpTo dataset.documentEnds (dataset.offset (group + 1))) 0 -
      dataset.cumulativeRows.getD (keysUpTo dataset.documentEnds (dataset.offset group)) 0 := by
  have before := dataset.offset_strict (Nat.lt_add_one group) inside
  obtain ⟨front, upTo⟩ : ∃ front, 0 :: (dataset.documentEnds.filter fun documentEnd =>
      documentEnd ≤ dataset.offset group) = front ++ [dataset.offset group] := by
    rcases dataset.offset_end (Nat.le_of_lt inside) with zero | listed
    · have none : (dataset.documentEnds.filter fun documentEnd => documentEnd ≤ 0) = [] := by
        simp only [List.filter_eq_nil_iff, decide_eq_true_eq]
        intro documentEnd member
        have within := documentEnds_within member
        omega
      exact ⟨[], by rw [zero, none, List.nil_append]⟩
    · obtain ⟨front, same⟩ : ∃ front, (dataset.documentEnds.filter fun documentEnd =>
          documentEnd ≤ dataset.offset group) = front ++ [dataset.offset group] := by
        apply filter_ends_with documentEnds_ordered listed <;> simp
      exact ⟨0 :: front, by rw [same, List.cons_append]⟩
  obtain ⟨middle, between⟩ : ∃ middle, dataset.innerEnds .story (dataset.offset group)
      (dataset.offset (group + 1)) = middle ++ [dataset.offset (group + 1)] := by
    have listed : dataset.offset (group + 1) ∈ dataset.documentEnds := by
      have within : group + 1 ≤ dataset.length := inside
      rcases dataset.offset_end within with zero | listed
      · omega
      · exact listed
    apply filter_ends_with documentEnds_ordered listed
    · rw [decide_eq_true_eq]
      omega
    · intro documentEnd _ kept
      rw [decide_eq_true_eq] at kept
      exact kept.2
  have all := filter_between dataset.documentEnds_ordered (Nat.le_of_lt before)
  have inner : (dataset.documentEnds.filter fun documentEnd =>
      dataset.offset group < documentEnd ∧ documentEnd ≤ dataset.offset (group + 1)) =
        dataset.innerEnds .story (dataset.offset group) (dataset.offset (group + 1)) := rfl
  rw [inner] at all
  rw [between] at all
  have joined : 0 :: (dataset.documentEnds.filter fun documentEnd =>
      documentEnd ≤ dataset.offset (group + 1)) =
        front ++ dataset.offset group :: (middle ++ [dataset.offset (group + 1)]) := by
    rw [← all, ← List.cons_append, upTo, List.append_assoc, List.singleton_append]
  rw [length_fullRows inside, cumulativeRows_eq, cumulativeRows_eq, joined, upTo, between]
  generalize dataset.offset group = start
  generalize dataset.offset (group + 1) = stop
  have last : differences (start :: (middle ++ [stop] ++ [stop])) =
      differences (start :: (middle ++ [stop])) ++ [0] := by
    have apart := differences_append (start :: middle) stop [stop]
    simpa using apart
  rw [differences_append front start, List.map_append, List.sum_append, Nat.add_sub_cancel_left,
    last]
  simp [rowsFor_zero]

theorem paddedSlots_fullRows (natural : ∀ id ∈ dataset.ids, 0 ≤ id) (layout : StoryLayout) :
    paddedSlots (dataset.fullRows layout group) =
      (dataset.fullRows layout group).length * dataset.seqLen -
        (dataset.offset (group + 1) - dataset.offset group) := by
  have nonempty : dataset.ids.length ≠ 0 := Nat.ne_of_gt dataset.ids_nonempty
  have updated := fullRows_ok inside layout
  have wide : ∀ row ∈ dataset.fullRows layout group, row.targets.length = dataset.seqLen :=
    @updateRows_width (dataset.inLayout layout) _ _ _ inside nonempty updated
  have labels : rowLabels (dataset.fullRows layout group) = slice dataset.ids
      (dataset.offset group) ((dataset.inLayout layout).updateEnd group dataset.ids.length) :=
    @updateRows_labels (dataset.inLayout layout) natural _ _ _ inside nonempty updated
  have stop : (dataset.inLayout layout).updateEnd group dataset.ids.length =
      dataset.offset (group + 1) := updateEnd_full inside
  have within : group + 1 ≤ dataset.length := inside
  have last := dataset.offset_mono within (Nat.le_refl _)
  rw [offset_length] at last
  rw [paddedSlots_eq wide, labels, stop, length_slice, Nat.min_eq_left last]

end

theorem layoutCosts_eq (natural : ∀ id ∈ dataset.ids, 0 ≤ id) (layout : StoryLayout) :
    dataset.layoutCosts layout = .count
      ((List.range dataset.length).map fun group => (dataset.fullRows layout group).length)
      ((List.range dataset.length).map fun group =>
        paddedSlots (dataset.fullRows layout group)) := by
  have offsets : dataset.groupOffsets = (List.range (dataset.length + 1)).map dataset.offset := by
    apply List.ext_getElem
    · simp [length_groupOffsets]
    · intro group inside _
      simp [offset, inside]
  have rows : dataset.layoutRows layout =
      (List.range dataset.length).map fun group => (dataset.fullRows layout group).length := by
    cases layout with
    | contiguous =>
      rw [layoutRows, offsets, differences_range, List.map_map]
      apply List.map_congr_left
      intro group member
      exact (rows_contiguous (List.mem_range.mp member)).symm
    | story =>
      rw [layoutRows, offsets, List.map_map, differences_range]
      apply List.map_congr_left
      intro group member
      exact (rows_story (List.mem_range.mp member)).symm
  have padded : List.zipWith (fun rows targets => rows * dataset.seqLen - targets)
      (dataset.layoutRows layout) (differences dataset.groupOffsets) =
        (List.range dataset.length).map fun group =>
          paddedSlots (dataset.fullRows layout group) := by
    rw [rows, offsets, differences_range, List.zipWith_map, List.zipWith_self]
    apply List.map_congr_left
    intro group member
    exact (paddedSlots_fullRows (List.mem_range.mp member) natural layout).symm
  rw [layoutCosts, padded, rows]

end MatchedStoryDataset

end SparseLab.Data
