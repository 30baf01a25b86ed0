import SparseLab.Data.StoryRows
import SparseLab.Training.ResumeEquivalence

/-! What the windows of a run take from its data. -/

namespace SparseLab.Training

open Library Data

def TrainingDataset.Natural : TrainingDataset → Prop
  | .blocks dataset => ∀ id ∈ dataset.ids, 0 ≤ id
  | .stories dataset => ∀ id ∈ dataset.ids, 0 ≤ id

def Source.targetsAt : Source → Nat → Nat
  | ⟨framework, .blocks dataset, seed, nonempty⟩, ordinal =>
    let data : TrainingData := ⟨framework, dataset, seed, nonempty⟩
    (data.whole (data.blockAt ordinal)).targets
  | ⟨_, .stories dataset, _, _⟩, ordinal => dataset.groupSize ordinal

structure Supplies (size : Nat → Nat) (remaining start : Nat) {numBlocks : Nat}
    (window : Window numBlocks) (count : Nat) : Prop where
  position : window.2.2.ordinal = start + count
  targets : window.2.1 = min remaining (stretch size start count)
  counted : window.2.1 = countTargets window.1
  within : ∀ fewer < count, stretch size start fewer < remaining

theorem TrainingData.countTargets_walk (data : TrainingData) (budget start count : Nat) :
    countTargets (data.walk budget start count) =
      min budget (stretch (fun ordinal => (data.whole (data.blockAt ordinal)).targets) start
        count) := by
  induction count generalizing budget start with
  | zero => simp [walk]
  | succ count ih =>
    have first := data.targets_readRecord (data.blockAt start) budget
    rw [walk, countTargets_cons, ih, first, stretch_cons]
    omega

theorem blockWindow_supplies (data : TrainingData) (windowSize : Nat)
    (cursor : BatchCursor data.numBlocks) {remaining : Nat} (left : 0 < remaining) :
    ∃ count, Supplies (fun ordinal => (data.whole (data.blockAt ordinal)).targets) remaining
      cursor.ordinal
      (data.takeRecords remaining (data.fillWindow windowSize [] cursor) [] 0 cursor) count := by
  have filled := data.fillWindow_eq windowSize [] cursor
  rw [List.nil_append, List.length_nil, Nat.sub_zero] at filled
  obtain ⟨count, taken⟩ := data.takeRecords_taken remaining cursor.ordinal windowSize [] 0 cursor
    left rfl
  rw [← filled] at taken
  have targets := taken.targets
  have records := taken.records
  rw [Nat.sub_zero, Nat.zero_add] at targets
  rw [List.nil_append, Nat.sub_zero] at records
  refine ⟨count, taken.cursor, ?_, ?_, ?_⟩
  · rw [targets, data.countTargets_walk]
  · rw [targets, records]
  · intro fewer below
    have unspent := taken.unspent fewer below
    rw [Nat.sub_zero, data.countTargets_walk] at unspent
    omega

section

variable {dataset : MatchedStoryDataset} (nonempty : 0 < dataset.length)

theorem nextGroup_ordinal (cursor : BatchCursor dataset.length) :
    (nextGroup nonempty cursor).2.val = cursor.ordinal % dataset.length ∧
      (nextGroup nonempty cursor).1 * dataset.length + (nextGroup nonempty cursor).2.val =
        cursor.ordinal := by
  have within := cursor.within
  rw [BatchCursor.ordinal, Nat.mul_comm cursor.epoch, Nat.mul_add_mod]
  unfold nextGroup
  split
  case isTrue finished =>
    rw [finished, Nat.mod_self]
    exact ⟨rfl, by rw [Nat.add_zero, Nat.add_one_mul, Nat.mul_comm]⟩
  case isFalse more =>
    rw [Nat.mod_eq_of_lt (by omega)]
    exact ⟨rfl, by rw [Nat.mul_comm]⟩

theorem countTargets_rows (group : Fin dataset.length) (rows : List Microblock) :
    countTargets (rows.map fun row => { block := group, row }) = (rowLabels rows).length := by
  induction rows with
  | nil => rfl
  | cons row rows ih =>
    rw [List.map_cons, countTargets_cons, ih]
    simp [rowLabels, WindowRecord.targets]

theorem storyWindow_supplies (natural : ∀ id ∈ dataset.ids, 0 ≤ id)
    (cursor : BatchCursor dataset.length) {remaining : Nat} (left : 0 < remaining) :
    ∃ window, storyWindow dataset nonempty cursor remaining = .ok window ∧
      Supplies dataset.groupSize remaining cursor.ordinal window 1 ∧
      rowLabels (window.1.map WindowRecord.row) = slice dataset.ids
        (dataset.offset (cursor.ordinal % dataset.length))
        (dataset.updateEnd (cursor.ordinal % dataset.length) remaining) := by
  obtain ⟨place, position⟩ := nextGroup_ordinal nonempty cursor
  unfold storyWindow
  generalize nextGroup nonempty cursor = next at place position ⊢
  obtain ⟨epoch, group⟩ := next
  dsimp only at place position ⊢
  have some : remaining ≠ 0 := Nat.ne_of_gt left
  have updated := dataset.updateRows_ok group.isLt some
  have labels := MatchedStoryDataset.updateRows_labels natural group.isLt some updated
  have bounds := dataset.updateEnd_bounds group.isLt remaining
  rw [updated]
  have step := dataset.offset_mono (Nat.le_add_right group 1) group.isLt
  have size : dataset.groupSize cursor.ordinal =
      dataset.offset (group + 1) - dataset.offset group := by
    rw [MatchedStoryDataset.groupSize, ← place]
  refine ⟨_, rfl, ⟨?_, ?_, rfl, ?_⟩, ?_⟩
  · change epoch * dataset.length + (group.val + 1) = cursor.ordinal + 1
    rw [← position, Nat.add_assoc]
  · dsimp only
    rw [countTargets_rows, labels, length_slice, Nat.min_eq_left bounds.2,
      MatchedStoryDataset.updateEnd]
    simp only [stretch_succ, stretch_zero, Nat.add_zero, Nat.zero_add, size]
    omega
  · intro fewer below
    have none : fewer = 0 := by omega
    rw [none, stretch_zero]
    exact left
  · rw [← place, ← labels, List.map_map]
    exact congrArg rowLabels (List.map_id _)

end

theorem Source.window_supplies (source : Source) (natural : source.dataset.Natural)
    {windowSize remaining : Nat} {cursor : BatchCursor source.numBlocks}
    {window : Window source.numBlocks} (left : 0 < remaining)
    (chosen : source.window windowSize cursor remaining = .ok window) :
    ∃ count, Supplies source.targetsAt remaining cursor.ordinal window count := by
  obtain ⟨framework, dataset, seed, nonempty⟩ := source
  cases dataset with
  | blocks dataset =>
    cases chosen
    exact blockWindow_supplies ⟨framework, dataset, seed, nonempty⟩ windowSize cursor left
  | stories dataset =>
    obtain ⟨found, same, supplies, _⟩ := storyWindow_supplies nonempty natural cursor left
    have chosen' : storyWindow dataset nonempty cursor remaining = .ok window := chosen
    rw [same] at chosen'
    cases chosen'
    exact ⟨1, supplies⟩

namespace Run

variable {run : Run}

def Supplied (run : Run) (state : run.State) : Prop :=
  Metered run.source.targetsAt run.config.maxTokens state.cursor.ordinal state.tokens

theorem advance_supplied (natural : run.dataset.Natural) {state next : run.State}
    (supplied : run.Supplied state) (advanced : run.advance state = .ok next) :
    run.Supplied next := by
  unfold advance at advanced
  by_cases running : run.Running state
  · rw [if_pos running] at advanced
    unfold update at advanced
    obtain ⟨window, chosen, trained⟩ := bind_eq_ok advanced
    rw [trainWindow_ok trained]
    have left : 0 < run.config.maxTokens - state.tokens := Nat.sub_pos_of_lt running.2
    obtain ⟨count, supplies⟩ := run.source.window_supplies natural left chosen
    have position : (run.committed state window).cursor.ordinal = state.cursor.ordinal + count :=
      supplies.position
    rw [Supplied, position]
    exact supplied.advance running.2 supplies.targets supplies.within
  · rw [if_neg running] at advanced
    cases advanced
    exact supplied

theorem advances_supplied (natural : run.dataset.Natural) {count : Nat} {state final : run.State}
    (supplied : run.Supplied state) (advanced : run.advances count state = .ok final) :
    run.Supplied final := by
  induction count generalizing final with
  | zero =>
    cases advanced
    exact supplied
  | succ count ih =>
    obtain ⟨reached, earlier, last⟩ := bind_eq_ok advanced
    exact advance_supplied natural (ih earlier) last

end Run

end SparseLab.Training
