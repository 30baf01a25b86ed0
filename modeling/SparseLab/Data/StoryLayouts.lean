import SparseLab.Data.TokenBlocks
import SparseLab.Library.Bisection
import SparseLab.Library.Increments
import SparseLab.Library.Metering

/-!
Matched stories and what their rows cost, from `MatchedStoryDataset` in `data/story_packing.py`.
-/

namespace SparseLab.Data

open Library

inductive StoryLayout
  | story | contiguous
deriving DecidableEq

structure MatchedStoryDataset where
  ids : List Int
  seqLen : Nat
  eos : Int
  layout : StoryLayout
  targetsPerUpdate : Nat
  positive : 0 < seqLen
  bounded : 0 < targetsPerUpdate
  terminal : ids.getLast? = some eos

namespace MatchedStoryDataset

variable (dataset : MatchedStoryDataset)

def documentEnds : List Nat :=
  ((List.range dataset.ids.length).filter fun position =>
    dataset.ids[position]? = some dataset.eos).map (· + 1)

/-- One more end of a story: `groups` is kept with its last offset first. -/
def closeGroup (groups : List Nat) (documentEnd : Nat) : List Nat :=
  if dataset.targetsPerUpdate ≤ documentEnd - groups.headD 0 then documentEnd :: groups else groups

def groupOffsets : List Nat :=
  let groups := dataset.documentEnds.foldl dataset.closeGroup [0]
  (if groups.headD 0 ≠ dataset.ids.length then dataset.ids.length :: groups else groups).reverse

/-- `__len__` -/
def length : Nat :=
  dataset.groupOffsets.length - 1

/-- The row of the targets from `start` to `stop`, padded to the sequence length. -/
def storyRow (start stop : Nat) : Microblock where
  inputs :=
    let first := if start = 0 then dataset.eos else dataset.ids.getD (start - 1) dataset.eos
    let inputs := first :: slice dataset.ids start (stop - 1)
    inputs ++ List.replicate (dataset.seqLen - inputs.length) dataset.eos
  targets :=
    slice dataset.ids start stop ++ List.replicate (dataset.seqLen - (stop - start)) ignored
  byteAddresses := none
  ownerIds := none

/-- `while start < boundary` -/
def segment (start boundary : Nat) : List Microblock :=
  if _before : start < boundary then
    let stop := min (start + dataset.seqLen) boundary
    dataset.storyRow start stop :: segment stop boundary
  else []
termination_by boundary - start
decreasing_by
  have positive := dataset.positive
  omega

def segments : Nat → List Nat → List Microblock
  | _, [] => []
  | start, boundary :: boundaries =>
    dataset.segment start boundary ++ segments (max start boundary) boundaries

def updateRows (group remaining : Nat) : Except String (List Microblock) :=
  if dataset.length ≤ group ∨ remaining = 0 then
    .error "invalid group cursor or remaining budget"
  else
    let start := dataset.groupOffsets.getD group 0
    let stop := min (dataset.groupOffsets.getD (group + 1) 0) (start + remaining)
    let boundaries := match dataset.layout with
      | .story =>
        dataset.documentEnds.filter (fun documentEnd => start < documentEnd ∧ documentEnd ≤ stop) ++
          [stop]
      | .contiguous => [stop]
    .ok (dataset.segments start boundaries)

end MatchedStoryDataset

structure LayoutCosts where
  rowsPerPass : Nat
  maxRowsPerUpdate : Nat
  maxRowsGroupIndex : Nat
  paddedSlotsPerPass : Nat
  maxPaddedSlotsPerUpdate : Nat
deriving DecidableEq

def largest (values : List Nat) : Nat :=
  values.foldl max 0

def LayoutCosts.count (rows padded : List Nat) : LayoutCosts where
  rowsPerPass := rows.sum
  maxRowsPerUpdate := largest rows
  maxRowsGroupIndex := rows.idxOf (largest rows)
  paddedSlotsPerPass := padded.sum
  maxPaddedSlotsPerUpdate := largest padded

/-- `exposure_supply` of either kind of dataset. -/
structure ExposureSupply where
  rawPackedPositions : Nat
  fullBlocks : Nat
  eligibleBlocks : Nat
  zeroTargetBlocksSkipped : Nat
  trailingTargetPositions : Nat
  usableSupervisedTargetsPerPass : Nat
deriving DecidableEq

namespace MatchedStoryDataset

variable (dataset : MatchedStoryDataset)

def horizon (budget : Nat) : Except String Nat :=
  if budget = 0 then .error "budget must be positive"
  else
    let passes := budget / dataset.ids.length
    let tail := budget % dataset.ids.length
    .ok (passes * dataset.length +
      if tail ≠ 0 then keysBelow dataset.groupOffsets tail else 0)

def targetsForUpdates (updates : Nat) : Except String Nat :=
  if updates = 0 then .error "updates must be positive"
  else
    let passes := updates / dataset.length
    let groups := updates % dataset.length
    .ok (passes * dataset.ids.length + dataset.groupOffsets.getD groups 0)

def rowsFor (targets : Nat) : Nat :=
  (targets + dataset.seqLen - 1) / dataset.seqLen

def storyLengths : List Nat :=
  differences (0 :: dataset.documentEnds)

def cumulativeRows : List Nat :=
  (dataset.storyLengths.map dataset.rowsFor).scanl (· + ·) 0

def layoutRows : StoryLayout → List Nat
  | .contiguous => (differences dataset.groupOffsets).map dataset.rowsFor
  | .story => differences (dataset.groupOffsets.map fun offset =>
    dataset.cumulativeRows.getD (keysUpTo dataset.documentEnds offset) 0)

def layoutCosts (layout : StoryLayout) : LayoutCosts :=
  let rows := dataset.layoutRows layout
  let targets := differences dataset.groupOffsets
  let padded := List.zipWith (fun rows targets => rows * dataset.seqLen - targets) rows targets
  .count rows padded

def exposureSupply : ExposureSupply where
  rawPackedPositions := dataset.ids.length
  fullBlocks := dataset.length
  eligibleBlocks := dataset.length
  zeroTargetBlocksSkipped := 0
  trailingTargetPositions := 0
  usableSupervisedTargetsPerPass := dataset.ids.length

def offset (group : Nat) : Nat :=
  dataset.groupOffsets.getD group 0

def groupSize (update : Nat) : Nat :=
  dataset.offset (update % dataset.length + 1) - dataset.offset (update % dataset.length)

variable {dataset}

theorem ids_nonempty : 0 < dataset.ids.length := by
  have terminal := dataset.terminal
  cases same : dataset.ids with
  | nil => simp [same] at terminal
  | cons first rest => simp

theorem documentEnds_ordered : dataset.documentEnds.Pairwise (· < ·) := by
  have positions := List.Pairwise.filter
    (fun position => dataset.ids[position]? = some dataset.eos)
    (List.pairwise_lt_range (n := dataset.ids.length))
  exact List.Pairwise.map _ (fun _ _ before => Nat.succ_lt_succ before) positions

theorem documentEnds_within {documentEnd : Nat} (listed : documentEnd ∈ dataset.documentEnds) :
    0 < documentEnd ∧ documentEnd ≤ dataset.ids.length := by
  obtain ⟨position, here, rfl⟩ := List.mem_map.mp listed
  have inside := List.mem_range.mp (List.mem_filter.mp here).1
  exact ⟨Nat.succ_pos _, inside⟩

theorem length_listed : dataset.ids.length ∈ dataset.documentEnds := by
  have nonempty := dataset.ids_nonempty
  have terminal := dataset.terminal
  rw [List.getLast?_eq_getElem?] at terminal
  apply List.mem_map.mpr
  refine ⟨dataset.ids.length - 1, List.mem_filter.mpr ⟨?_, ?_⟩, ?_⟩
  · rw [List.mem_range]
    omega
  · simpa using terminal
  · omega

structure Grouped (dataset : MatchedStoryDataset) (ends groups : List Nat) : Prop where
  ordered : groups.Pairwise (· > ·)
  start : groups.getLast? = some 0
  listed : ∀ offset ∈ groups, offset = 0 ∨ offset ∈ ends

theorem Grouped.nonempty {ends groups : List Nat} (grouped : dataset.Grouped ends groups) :
    groups ≠ [] := by
  rintro rfl
  simpa using grouped.start

theorem Grouped.add {ends groups : List Nat} (grouped : dataset.Grouped ends groups)
    {next : Nat} (later : ∀ offset ∈ groups, offset < next) :
    dataset.Grouped (ends ++ [next]) (next :: groups) := by
  constructor
  · exact List.pairwise_cons.mpr ⟨later, grouped.ordered⟩
  · rw [List.getLast?_cons, grouped.start]
    rfl
  · intro offset member
    rcases List.mem_cons.mp member with rfl | earlier
    · exact .inr (by simp)
    · rcases grouped.listed offset earlier with zero | found
      · exact .inl zero
      · exact .inr (List.mem_append_left _ found)

theorem Grouped.skip {ends groups : List Nat} (grouped : dataset.Grouped ends groups)
    (next : Nat) : dataset.Grouped (ends ++ [next]) groups := by
  refine ⟨grouped.ordered, grouped.start, ?_⟩
  intro offset member
  rcases grouped.listed offset member with zero | found
  · exact .inl zero
  · exact .inr (List.mem_append_left _ found)

theorem grouped_fold {rest : List Nat} : ∀ {ends groups : List Nat}, dataset.Grouped ends groups →
    (ends ++ rest).Pairwise (· < ·) → (∀ next ∈ rest, 0 < next) →
      dataset.Grouped (ends ++ rest) (rest.foldl dataset.closeGroup groups) := by
  induction rest with
  | nil =>
    intro ends groups grouped _ _
    rw [List.append_nil]
    exact grouped
  | cons next rest ih =>
    intro ends groups grouped ordered positive
    have later : ∀ offset ∈ groups, offset < next := by
      intro offset member
      rcases grouped.listed offset member with rfl | found
      · exact positive next List.mem_cons_self
      · exact (List.pairwise_append.mp ordered).2.2 offset found next List.mem_cons_self
    have split : ends ++ next :: rest = ends ++ [next] ++ rest := by simp
    rw [split] at ordered ⊢
    rw [List.foldl_cons]
    apply ih _ ordered fun other member => positive other (List.mem_cons_of_mem _ member)
    unfold closeGroup
    split
    · exact grouped.add later
    · exact grouped.skip next

theorem grouped_ends :
    dataset.Grouped dataset.documentEnds (dataset.documentEnds.foldl dataset.closeGroup [0]) := by
  have start : dataset.Grouped [] [0] := by
    constructor <;> simp
  exact grouped_fold start documentEnds_ordered fun next member => (documentEnds_within member).1

theorem groupOffsets_grouped : ∃ groups, dataset.groupOffsets = groups.reverse ∧
    dataset.Grouped dataset.documentEnds groups ∧ groups.head? = some dataset.ids.length := by
  have grouped := dataset.grouped_ends
  refine ⟨_, rfl, ?_⟩
  generalize dataset.documentEnds.foldl dataset.closeGroup [0] = groups at grouped ⊢
  cases groups with
  | nil => exact absurd rfl grouped.nonempty
  | cons last groups =>
    rw [List.headD_cons]
    by_cases complete : last = dataset.ids.length
    · rw [if_neg (not_not.mpr complete)]
      exact ⟨grouped, by rw [List.head?_cons, complete]⟩
    · rw [if_pos complete]
      refine ⟨?_, rfl⟩
      have nonempty := dataset.ids_nonempty
      have before : ∀ offset ∈ last :: groups, offset < dataset.ids.length := by
        have first : last < dataset.ids.length := by
          rcases grouped.listed last List.mem_cons_self with zero | found
          · omega
          · have within := documentEnds_within found
            omega
        intro offset member
        rcases List.mem_cons.mp member with rfl | earlier
        · exact first
        · have smaller := (List.pairwise_cons.mp grouped.ordered).1 offset earlier
          omega
      have added := grouped.add before
      refine ⟨added.ordered, added.start, ?_⟩
      intro offset member
      rcases List.mem_cons.mp member with rfl | earlier
      · exact .inr length_listed
      · exact grouped.listed offset earlier

theorem groupOffsets_ordered : dataset.groupOffsets.Pairwise (· < ·) := by
  obtain ⟨groups, same, grouped, _⟩ := dataset.groupOffsets_grouped
  rw [same, List.pairwise_reverse]
  exact grouped.ordered

theorem groupOffsets_listed {offset : Nat} (member : offset ∈ dataset.groupOffsets) :
    offset = 0 ∨ offset ∈ dataset.documentEnds := by
  obtain ⟨groups, same, grouped, _⟩ := dataset.groupOffsets_grouped
  rw [same, List.mem_reverse] at member
  exact grouped.listed offset member

theorem length_groupOffsets : dataset.groupOffsets.length = dataset.length + 1 := by
  obtain ⟨groups, same, grouped, _⟩ := dataset.groupOffsets_grouped
  have some := List.length_pos_of_ne_nil grouped.nonempty
  rw [length, same, List.length_reverse]
  omega

theorem offset_listed {group : Nat} (within : group ≤ dataset.length) :
    dataset.groupOffsets[group]? = some (dataset.offset group) := by
  have inside : group < dataset.groupOffsets.length := by
    rw [length_groupOffsets]
    omega
  simp [offset, inside]

@[simp] theorem offset_zero : dataset.offset 0 = 0 := by
  obtain ⟨groups, same, grouped, _⟩ := dataset.groupOffsets_grouped
  have start := grouped.start
  rw [← List.head?_reverse, ← same] at start
  have here := dataset.offset_listed (Nat.zero_le _)
  rw [← List.head?_eq_getElem?, start] at here
  exact (Option.some.inj here).symm

@[simp] theorem offset_length : dataset.offset dataset.length = dataset.ids.length := by
  obtain ⟨groups, same, _, last⟩ := dataset.groupOffsets_grouped
  rw [← List.getLast?_reverse, ← same, List.getLast?_eq_getElem?, length_groupOffsets,
    Nat.add_sub_cancel, dataset.offset_listed (Nat.le_refl _)] at last
  exact Option.some.inj last

theorem offset_strict {first last : Nat} (before : first < last) (within : last ≤ dataset.length) :
    dataset.offset first < dataset.offset last := by
  have ordered := List.pairwise_iff_getElem.mp dataset.groupOffsets_ordered
  have inside : last < dataset.groupOffsets.length := by
    rw [length_groupOffsets]
    omega
  have smaller := ordered first last (by omega) inside before
  simpa [offset, List.getD_eq_getElem?_getD, Nat.lt_trans before inside, inside] using smaller

theorem offset_mono {first last : Nat} (before : first ≤ last) (within : last ≤ dataset.length) :
    dataset.offset first ≤ dataset.offset last := by
  rcases Nat.eq_or_lt_of_le before with rfl | less
  · exact Nat.le_refl _
  · exact Nat.le_of_lt (offset_strict less within)

theorem length_pos : 0 < dataset.length := by
  by_contra none
  have zero : dataset.length = 0 := by omega
  have last := dataset.offset_length
  rw [zero, offset_zero] at last
  exact absurd last (Nat.ne_of_lt dataset.ids_nonempty)

theorem offset_end {group : Nat} (within : group ≤ dataset.length) :
    dataset.offset group = 0 ∨ dataset.offset group ∈ dataset.documentEnds :=
  groupOffsets_listed (List.mem_of_getElem? (offset_listed within))

theorem groupSize_pos (update : Nat) : 0 < dataset.groupSize update := by
  have inside := Nat.mod_lt update dataset.length_pos
  have step := dataset.offset_strict (Nat.lt_add_one (update % dataset.length)) inside
  rw [groupSize]
  omega

theorem stretch_groupSize (pass : Nat) {updates : Nat} (within : updates ≤ dataset.length) :
    stretch dataset.groupSize (pass * dataset.length) updates = dataset.offset updates := by
  induction updates with
  | zero => simp
  | succ updates ih =>
    have here : (pass * dataset.length + updates) % dataset.length = updates := by
      rw [Nat.mul_comm, Nat.mul_add_mod, Nat.mod_eq_of_lt within]
    have step := dataset.offset_mono (Nat.le_succ updates) within
    rw [stretch_succ, ih (Nat.le_of_succ_le within), groupSize, here]
    exact Nat.add_sub_of_le step

theorem supplied_updates (passes : Nat) {updates : Nat} (within : updates ≤ dataset.length) :
    supplied dataset.groupSize (passes * dataset.length + updates) =
      passes * dataset.ids.length + dataset.offset updates := by
  have whole : ∀ pass, stretch dataset.groupSize (pass * dataset.length) dataset.length =
      dataset.ids.length := by
    intro pass
    rw [stretch_groupSize pass (Nat.le_refl _), offset_length]
  rw [supplied_passes _ whole, stretch_groupSize passes within]

theorem targetsForUpdates_eq {updates : Nat} (some : updates ≠ 0) :
    dataset.targetsForUpdates updates = .ok (supplied dataset.groupSize updates) := by
  have inside := Nat.mod_lt updates dataset.length_pos
  have divided := Nat.div_add_mod updates dataset.length
  rw [Nat.mul_comm] at divided
  conv_rhs => rw [← divided, supplied_updates _ (Nat.le_of_lt inside)]
  rw [targetsForUpdates, if_neg some]
  rfl

theorem horizon_eq {budget : Nat} (some : budget ≠ 0) : ∃ least,
    dataset.horizon budget = .ok least ∧ budget ≤ supplied dataset.groupSize least ∧
      ∀ fewer < least, supplied dataset.groupSize fewer < budget := by
  have nonempty := dataset.ids_nonempty
  have divided := Nat.div_add_mod budget dataset.ids.length
  have small := Nat.mod_lt budget nonempty
  rw [horizon, if_neg some]
  generalize budget / dataset.ids.length = passes at divided ⊢
  generalize budget % dataset.ids.length = tail at divided small ⊢
  rw [Nat.mul_comm] at divided
  refine ⟨_, rfl, ?_⟩
  have strict : ∀ {least}, budget ≤ supplied dataset.groupSize least →
      (∀ last, least = last + 1 → supplied dataset.groupSize last < budget) →
        budget ≤ supplied dataset.groupSize least ∧
          ∀ fewer < least, supplied dataset.groupSize fewer < budget := by
    intro least reaches last
    refine ⟨reaches, fun fewer below => ?_⟩
    obtain ⟨before, rfl⟩ := Nat.exists_eq_succ_of_ne_zero (Nat.ne_zero_of_lt below)
    have bound := supplied_mono dataset.groupSize (Nat.le_of_lt_succ below)
    have short := last before rfl
    omega
  by_cases clipped : tail ≠ 0
  · rw [if_pos clipped]
    have cut : ∀ {group}, group ≤ dataset.length →
        (dataset.offset group < tail ↔ group < keysBelow dataset.groupOffsets tail) :=
      fun within => below_iff groupOffsets_ordered (offset_listed within)
    have first := (cut (Nat.zero_le _)).mp (by rw [offset_zero]; omega)
    have atMost : keysBelow dataset.groupOffsets tail ≤ dataset.length := by
      by_contra past
      have last := (cut (Nat.le_refl _)).mpr (by omega)
      rw [offset_length] at last
      omega
    apply strict
    · have reached : ¬ dataset.offset (keysBelow dataset.groupOffsets tail) < tail := by
        rw [cut atMost]
        exact Nat.lt_irrefl _
      rw [supplied_updates _ atMost]
      omega
    · intro last same
      have inside : last - passes * dataset.length < keysBelow dataset.groupOffsets tail := by omega
      have within : passes * dataset.length ≤ last := by omega
      obtain ⟨group, rfl⟩ := Nat.exists_eq_add_of_le within
      rw [Nat.add_sub_cancel_left] at inside
      have short := (cut (by omega)).mpr inside
      rw [supplied_updates _ (by omega)]
      omega
  · rw [if_neg clipped]
    have positive := dataset.length_pos
    apply strict
    · have counted := dataset.supplied_updates passes (Nat.zero_le _)
      rw [offset_zero] at counted
      omega
    · intro last same
      have before := supplied_strict dataset.groupSize groupSize_pos (Nat.lt_succ_self last)
      have counted := dataset.supplied_updates passes (Nat.zero_le _)
      rw [offset_zero] at counted
      rw [Nat.succ_eq_add_one, ← same, counted] at before
      omega

end MatchedStoryDataset

end SparseLab.Data
