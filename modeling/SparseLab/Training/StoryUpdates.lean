import SparseLab.Training.SupplyWindows

/-! Runs on matched stories: the layout changes neither labels nor updates. -/

namespace SparseLab.Training

open Library Data

def admitStories (dataset : MatchedStoryDataset) (config : RunConfig) : Except String Unit := do
  let horizon ← dataset.horizon config.maxTokens
  if config.maxSteps ≠ horizon then
    .error "matched story max_steps must equal the exact shared budget horizon"
  else .ok ()

abbrev storyRun (dataset : MatchedStoryDataset) (framework : Framework) (config : RunConfig)
    (attempts : Nat → Nat → EngineAttempt) (boundaries : Nat → Option Boundary) : Run where
  framework := framework
  dataset := .stories dataset
  nonempty := dataset.length_pos
  config := config
  attempts := attempts
  boundaries := boundaries

theorem Run.advance_running {run : Run} {state : run.State} (running : run.Running state) :
    run.advance state = run.update state :=
  if_pos running

theorem Run.advance_stopped {run : Run} {state : run.State} (stopped : ¬ run.Running state) :
    run.advance state = .ok state :=
  if_neg stopped

theorem Run.trainWindow_applied {run : Run} {state : run.State} {window : Window run.numBlocks}
    (counted : window.2.1 = countTargets window.1) (some : window.2.1 ≠ 0)
    (applied : run.attempts (state.step + 1) 0 = .applied) :
    run.trainWindow state window = .ok (run.committed state window) := by
  obtain ⟨records, validTargets, committedCursor⟩ := window
  dsimp only at counted some
  have observed : ((pieces records run.config.windows.microBatchSize).map countTargets).sum =
      validTargets := by
    rw [← countTargets_flatten, flatten_pieces _ run.config.windows.microBatchSizePos, counted]
  have trained : trainUpdate (run.attempts (state.step + 1) 0)
      (pieces records run.config.windows.microBatchSize) validTargets =
        .ok { applied := true, validTargets, committedTargets := validTargets } := by
    simp [trainUpdate, observed, some, applied]
  have retried : retryUpdate (run.attempts (state.step + 1))
      (pieces records run.config.windows.microBatchSize) validTargets (List.range 3) =
        .ok { applied := true, validTargets, committedTargets := validTargets } := by
    change (trainUpdate (run.attempts (state.step + 1) 0) _ _ >>= _) = _
    rw [trained]
    rfl
  simp only [Run.trainWindow, if_neg some, retried]
  rfl

section

variable {dataset : MatchedStoryDataset} (natural : ∀ id ∈ dataset.ids, 0 ≤ id)
  {framework : Framework} {config : RunConfig} {attempts : Nat → Nat → EngineAttempt}
  {boundaries : Nat → Option Boundary}

def updateLabels (dataset : MatchedStoryDataset) (budget update : Nat) : List Int :=
  slice dataset.ids (dataset.offset (update % dataset.length))
    (dataset.updateEnd (update % dataset.length) (budget - supplied dataset.groupSize update))

def labelsOf {numBlocks : Nat} (update : CommittedUpdate numBlocks) : List Int :=
  rowLabels (update.records.map WindowRecord.row)

theorem labels_committed {numBlocks step : Nat} {updates : List (CommittedUpdate numBlocks)}
    {update : CommittedUpdate numBlocks} {labels : Nat → List Int}
    (earlier : updates.map labelsOf = (List.range step).map labels)
    (last : labelsOf update = labels step) :
    (updates ++ [update]).map labelsOf = (List.range (step + 1)).map labels := by
  simp [List.range_succ, earlier, last]

structure Updated (dataset : MatchedStoryDataset) (budget : Nat)
    (state : TrainingState dataset.length) : Prop where
  position : state.cursor.ordinal = state.step
  metered : Metered dataset.groupSize budget state.step state.tokens
  labels : state.updates.map labelsOf = (List.range state.step).map (updateLabels dataset budget)

include natural

theorem story_window (state : TrainingState dataset.length)
    (left : state.tokens < config.maxTokens) :
    ∃ window, (storyRun dataset framework config attempts boundaries).window state = .ok window ∧
      Supplies dataset.groupSize (config.maxTokens - state.tokens) state.cursor.ordinal window 1 ∧
      rowLabels (window.1.map WindowRecord.row) = slice dataset.ids
        (dataset.offset (state.cursor.ordinal % dataset.length))
        (dataset.updateEnd (state.cursor.ordinal % dataset.length)
          (config.maxTokens - state.tokens)) :=
  storyWindow_supplies dataset.length_pos natural state.cursor (Nat.sub_pos_of_lt left)

theorem advance_updated {state next : TrainingState dataset.length}
    (updated : Updated dataset config.maxTokens state)
    (advanced : (storyRun dataset framework config attempts boundaries).advance state = .ok next) :
    Updated dataset config.maxTokens next ∧
      (state.step < config.maxSteps ∧ state.tokens < config.maxTokens →
        next.step = state.step + 1) ∧
      (¬ (state.step < config.maxSteps ∧ state.tokens < config.maxTokens) → next = state) := by
  by_cases running : state.step < config.maxSteps ∧ state.tokens < config.maxTokens
  · have same := @Run.advance_running (storyRun dataset framework config attempts boundaries) state
      running
    obtain ⟨window, chosen, trained⟩ := bind_eq_ok (same.symm.trans advanced)
    obtain ⟨found, same, supplies, labels⟩ := story_window natural state running.2
    rw [chosen] at same
    cases same
    rw [Run.trainWindow_ok trained]
    have position := supplies.position
    rw [updated.position] at position
    have within := supplies.within
    have targets := supplies.targets
    rw [updated.position] at within targets
    refine ⟨⟨position, ?_, ?_⟩, fun _ => rfl, fun stopped => absurd running stopped⟩
    · exact updated.metered.advance running.2 targets within
    · have next : labelsOf { records := window.1, committedTargets := window.2.1 } =
          updateLabels dataset config.maxTokens state.step := by
        rw [labelsOf, labels, updated.position, updateLabels, updated.metered.whole running.2]
      exact labels_committed updated.labels next
  · have same := @Run.advance_stopped (storyRun dataset framework config attempts boundaries) state
      running
    cases same.symm.trans advanced
    exact ⟨updated, fun more => absurd more running, fun _ => rfl⟩

theorem advances_updated {least count : Nat} {final : TrainingState dataset.length}
    (reaches : config.maxTokens ≤ supplied dataset.groupSize least)
    (first : ∀ fewer < least, supplied dataset.groupSize fewer < config.maxTokens)
    (enough : least ≤ config.maxSteps)
    (advanced : (storyRun dataset framework config attempts boundaries).advances count
      { cursor := ⟨0, 0, Nat.zero_le _⟩ } = .ok final) :
    Updated dataset config.maxTokens final ∧ final.step = min count least := by
  induction count generalizing final with
  | zero =>
    cases advanced
    refine ⟨⟨?_, Metered.start, rfl⟩, (Nat.zero_min _).symm⟩
    simp [BatchCursor.ordinal]
  | succ count ih =>
    obtain ⟨reached, earlier, last⟩ := bind_eq_ok advanced
    obtain ⟨updated, steps⟩ := ih earlier
    obtain ⟨next, more, stopped⟩ := advance_updated natural updated last
    obtain ⟨atMost, spent⟩ := updated.metered.spent_iff reaches first
    have bounded := updated.metered.taken_le
    refine ⟨next, ?_⟩
    by_cases running : reached.step < config.maxSteps ∧ reached.tokens < config.maxTokens
    · rw [more running]
      have unspent : reached.step ≠ least := fun same => by
        have all := spent.mpr same
        omega
      omega
    · rw [stopped running]
      have all : reached.step = least := by
        by_contra other
        have unspent : reached.tokens ≠ config.maxTokens := fun same => other (spent.mp same)
        omega
      omega

theorem advances_applied (applied : ∀ index, attempts index 0 = .applied) (count : Nat) :
    ∃ final, (storyRun dataset framework config attempts boundaries).advances count
      { cursor := ⟨0, 0, Nat.zero_le _⟩ } = .ok final := by
  induction count with
  | zero => exact ⟨_, rfl⟩
  | succ count ih =>
    obtain ⟨reached, earlier⟩ := ih
    rw [Run.advances, earlier]
    change ∃ final, (storyRun dataset framework config attempts boundaries).advance reached =
      .ok final
    by_cases running : (storyRun dataset framework config attempts boundaries).Running reached
    · rw [Run.advance_running running]
      obtain ⟨window, chosen, supplies, _⟩ := story_window natural reached running.2
      have left : reached.tokens < config.maxTokens := running.2
      have some : window.2.1 ≠ 0 := by
        have positive := dataset.groupSize_pos reached.cursor.ordinal
        have targets : window.2.1 = min (config.maxTokens - reached.tokens)
            (stretch dataset.groupSize reached.cursor.ordinal 1) := supplies.targets
        rw [stretch_succ, stretch_zero, Nat.add_zero, Nat.zero_add] at targets
        omega
      have trained := Run.trainWindow_applied supplies.counted some (applied (reached.step + 1))
      exact ⟨_, by rw [Run.update, chosen]; exact trained⟩
    · exact ⟨reached, Run.advance_stopped running⟩

end

structure Matched (dataset : MatchedStoryDataset) : Prop where
  labels : ∀ layout group remaining, group < dataset.length → remaining ≠ 0 →
    ∃ rows, (dataset.inLayout layout).updateRows group remaining = .ok rows ∧
      rowLabels rows = slice dataset.ids (dataset.offset group)
        (min (dataset.offset (group + 1)) (dataset.offset group + remaining)) ∧
      ∀ row ∈ rows, row.targets.length = dataset.seqLen
  inverse : ∀ updates, updates ≠ 0 →
    dataset.targetsForUpdates updates >>= dataset.horizon = .ok updates
  costs : ∀ layout, dataset.layoutCosts layout = .count
    ((List.range dataset.length).map fun group => (dataset.fullRows layout group).length)
    ((List.range dataset.length).map fun group => paddedSlots (dataset.fullRows layout group))
  updates : ∀ layout framework config attempts boundaries, admitStories dataset config = .ok () →
    let run := storyRun (dataset.inLayout layout) framework config attempts boundaries
    (∀ count progress, run.passes count run.fresh = .ok progress →
      progress.training.step = min count config.maxSteps ∧
        (progress.training.tokens = config.maxTokens ↔ config.maxSteps ≤ count) ∧
        progress.training.updates.map labelsOf =
          (List.range progress.training.step).map (updateLabels dataset config.maxTokens)) ∧
    ((∀ index, attempts index 0 = .applied) →
      ∀ count, ∃ progress, run.passes count run.fresh = .ok progress)

theorem horizon_targets {dataset : MatchedStoryDataset} {updates : Nat} (some : updates ≠ 0) :
    dataset.targetsForUpdates updates >>= dataset.horizon = .ok updates := by
  have strict := fun first last (before : first < last) =>
    supplied_strict dataset.groupSize MatchedStoryDataset.groupSize_pos before
  have reached : supplied dataset.groupSize updates ≠ 0 := by
    have positive := strict 0 updates (Nat.pos_of_ne_zero some)
    omega
  obtain ⟨least, horizon, reaches, first⟩ := dataset.horizon_eq reached
  rw [MatchedStoryDataset.targetsForUpdates_eq some]
  change dataset.horizon (supplied dataset.groupSize updates) = .ok updates
  rw [horizon]
  rcases Nat.lt_trichotomy least updates with less | same | more
  · have short := strict least updates less
    omega
  · rw [same]
  · have short := first updates more
    omega

theorem admitStories_ok {dataset : MatchedStoryDataset} {config : RunConfig}
    (admitted : admitStories dataset config = .ok ()) :
    config.maxTokens ≤ supplied dataset.groupSize config.maxSteps ∧
      ∀ fewer < config.maxSteps, supplied dataset.groupSize fewer < config.maxTokens := by
  obtain ⟨horizon, counted, same⟩ := bind_eq_ok admitted
  have some : config.maxTokens ≠ 0 := by
    intro none
    rw [MatchedStoryDataset.horizon, if_pos none] at counted
    cases counted
  obtain ⟨least, found, reaches, first⟩ := dataset.horizon_eq some
  rw [found] at counted
  have exact' : config.maxSteps = horizon := by
    by_contra other
    rw [if_pos other] at same
    cases same
  rw [exact', ← Except.ok.inj counted]
  exact ⟨reaches, first⟩

theorem matched_stories (dataset : MatchedStoryDataset) (natural : ∀ id ∈ dataset.ids, 0 ≤ id) :
    Matched dataset := by
  constructor
  · intro layout group remaining inside some
    have updated := (dataset.inLayout layout).updateRows_ok inside some
    refine ⟨_, updated, ?_, ?_⟩
    · exact @MatchedStoryDataset.updateRows_labels (dataset.inLayout layout) natural _ _ _ inside
        some updated
    · exact @MatchedStoryDataset.updateRows_width (dataset.inLayout layout) _ _ _ inside some
        updated
  · exact fun updates some => horizon_targets some
  · exact fun layout => MatchedStoryDataset.layoutCosts_eq natural layout
  · intro layout framework config attempts boundaries admitted run
    obtain ⟨reaches, first⟩ := admitStories_ok admitted
    have training := run.passes_training
    constructor
    · intro count progress passed
      have trained := training count run.fresh
      rw [passed] at trained
      obtain ⟨updated, steps⟩ := @advances_updated (dataset.inLayout layout) natural framework
        config attempts boundaries config.maxSteps count progress.training reaches first
        (Nat.le_refl _) trained.symm
      obtain ⟨_, spent⟩ := updated.metered.spent_iff reaches first
      refine ⟨steps, spent.trans ?_, updated.labels⟩
      rw [steps]
      omega
    · intro applied count
      obtain ⟨final, trained⟩ := @advances_applied (dataset.inLayout layout) natural framework
        config attempts boundaries applied count
      have same := training count run.fresh
      cases passed : run.passes count run.fresh with
      | ok progress => exact ⟨progress, rfl⟩
      | error reason =>
        rw [passed] at same
        exact absurd (same.trans trained) (by simp [Except.map])

def sampleStories : MatchedStoryDataset where
  ids := [7, 2, 8, 9, 2]
  seqLen := 2
  eos := 2
  layout := .story
  targetsPerUpdate := 2
  positive := Nat.two_pos
  bounded := Nat.two_pos
  terminal := rfl

theorem matched_stories_pair : Matched sampleStories :=
  matched_stories sampleStories (by decide)

end SparseLab.Training
