import SparseLab.Training.SupplyWindows

/-! What a checkpoint says of its run's data, from `training/exposure.py`. -/

namespace SparseLab.Data

open Library

namespace TokenBlockDataset

variable (dataset : TokenBlockDataset)

def exposureSupply : ExposureSupply where
  rawPackedPositions := dataset.ids.length
  fullBlocks := dataset.candidates
  eligibleBlocks := dataset.length
  zeroTargetBlocksSkipped := dataset.candidates - dataset.length
  trailingTargetPositions := dataset.ids.length - (1 + dataset.candidates * dataset.seqLen)
  usableSupervisedTargetsPerPass :=
    match dataset.supervision with
    | none => dataset.candidates * dataset.seqLen
    | some mask => (slice mask 1 (1 + dataset.candidates * dataset.seqLen)).count true

def blockTargets (index : Fin dataset.length) : Nat :=
  (supervised (dataset.numpyMicroblock index).targets).length

end TokenBlockDataset

end SparseLab.Data

namespace SparseLab.Training

open Library Data

def TrainingDataset.exposureSupply : TrainingDataset → ExposureSupply
  | .blocks dataset => dataset.exposureSupply
  | .stories dataset => dataset.exposureSupply

def TrainingDataset.blockTargets : TrainingDataset → List Nat
  | .blocks dataset => (List.finRange dataset.length).map dataset.blockTargets
  | .stories dataset => (List.range dataset.length).map dataset.groupSize

def Source.passTargets : Source → Nat → List Nat
  | ⟨framework, .blocks dataset, seed, nonempty⟩, epoch =>
    let data : TrainingData := ⟨framework, dataset, seed, nonempty⟩
    (data.order epoch).map dataset.blockTargets
  | ⟨_, .stories dataset, _, _⟩, _ => (List.range dataset.length).map dataset.groupSize

structure Timing where
  updateSeconds : ℚ
  wallSeconds : ℚ
  invocationSeconds : ℚ
  updatesComplete : Bool
  wallComplete : Bool

structure Exposure where
  supply : ExposureSupply
  committedSupervisedTargets : Nat
  effectivePasses : ℚ
  epoch : Nat
  nextBlock : Nat
  completedLoaderPasses : Nat
  nextEligibleBlock : Nat
  optimizerUpdateSeconds : Option ℚ
  trainingLoopElapsedSeconds : Option ℚ
  invocationElapsedSeconds : ℚ

def checkpointExposure {numBlocks : Nat} (supply : ExposureSupply) (tokens : Nat)
    (cursor : BatchCursor numBlocks) (timing : Timing) : Except String Exposure :=
  let blocks := supply.eligibleBlocks
  let targets := supply.usableSupervisedTargetsPerPass
  if blocks = 0 ∨ targets = 0 ∨ ¬ cursor.nextBlock ≤ blocks then
    .error "invalid exposure supply or cursor"
  else .ok {
    supply
    committedSupervisedTargets := tokens
    effectivePasses := tokens / targets
    epoch := cursor.epoch
    nextBlock := cursor.nextBlock
    completedLoaderPasses := cursor.epoch + cursor.nextBlock / blocks
    nextEligibleBlock := cursor.nextBlock % blocks
    optimizerUpdateSeconds := if timing.updatesComplete then some timing.updateSeconds else none
    trainingLoopElapsedSeconds := if timing.wallComplete then some timing.wallSeconds else none
    invocationElapsedSeconds := timing.invocationSeconds }

section

variable {dataset : TokenBlockDataset}

theorem supervised_kept {ids : List Int} {mask : List Bool} (natural : ∀ id ∈ ids, 0 ≤ id)
    (aligned : mask.length = ids.length) :
    (supervised (TokenBlockDataset.maskedLabels ids mask)).length = mask.count true := by
  induction ids generalizing mask with
  | nil =>
    have none := List.length_eq_zero_iff.mp aligned
    simp [TokenBlockDataset.maskedLabels, supervised, none]
  | cons id ids ih =>
    cases mask with
    | nil => cases aligned
    | cons kept mask =>
      have rest := ih (fun other member => natural other (List.mem_cons_of_mem _ member))
        (Nat.succ.inj aligned)
      rw [TokenBlockDataset.maskedLabels] at rest ⊢
      have real : id ≠ ignored := by
        have bound := natural id List.mem_cons_self
        rw [ignored]
        omega
      cases kept with
      | false => simp [rest]
      | true => simp [supervised_cons real, rest]

theorem natural_slice {ids : List Int} (natural : ∀ id ∈ ids, 0 ≤ id) (start stop : Nat) :
    ∀ id ∈ slice ids start stop, 0 ≤ id :=
  fun id member => natural id (List.mem_of_mem_take (List.mem_of_mem_drop member))

variable (natural : ∀ id ∈ dataset.ids, 0 ≤ id)

include natural

theorem blockTargets_unmasked (unmasked : dataset.supervision = none)
    (index : Fin dataset.length) : dataset.blockTargets index = dataset.seqLen := by
  have inside := (TokenBlockDataset.block_inside (List.get_mem _ index)).2
  have real := supervised_natural (natural_slice natural
    (dataset.blockIndices.get index * dataset.seqLen + 1)
    (dataset.blockIndices.get index * dataset.seqLen + dataset.seqLen + 1))
  have labels : (dataset.numpyMicroblock index).targets =
      slice dataset.ids (dataset.blockIndices.get index * dataset.seqLen + 1)
        (dataset.blockIndices.get index * dataset.seqLen + dataset.seqLen + 1) := by
    simp only [TokenBlockDataset.numpyMicroblock, TokenBlockDataset.numpyBlock, unmasked,
      tail_slice]
  rw [TokenBlockDataset.blockTargets, labels, real, length_slice]
  omega

theorem blockTargets_masked {mask : List Bool} (masked : dataset.supervision = some mask)
    (index : Fin dataset.length) : dataset.blockTargets index =
      (slice mask (dataset.blockIndices.get index * dataset.seqLen + 1)
        (dataset.blockIndices.get index * dataset.seqLen + dataset.seqLen + 1)).count true := by
  have aligned := dataset.supervisionAligned mask masked
  have labels : (dataset.numpyMicroblock index).targets = _ :=
    TokenBlockDataset.targets_eq masked index
  rw [TokenBlockDataset.blockTargets, labels, TokenBlockDataset.maskedLabels, slice_zipWith]
  apply supervised_kept (natural_slice natural _ _)
  rw [length_slice, length_slice, aligned]

theorem blockTargets_pos (index : Fin dataset.length) : 0 < dataset.blockTargets index := by
  have kept := (List.mem_filter.mp (List.get_mem dataset.blockIndices index)).2
  cases same : dataset.supervision with
  | none =>
    rw [blockTargets_unmasked natural same]
    exact dataset.positive
  | some mask =>
    rw [blockTargets_masked natural same, List.count_pos_iff]
    rw [TokenBlockDataset.eligible, same, Nat.succ_mul] at kept
    obtain ⟨value, member, true'⟩ := List.any_eq_true.mp kept
    rw [id_eq] at true'
    rw [true'] at member
    exact member

theorem usable_blocks : dataset.exposureSupply.usableSupervisedTargetsPerPass =
    ((List.finRange dataset.length).map dataset.blockTargets).sum := by
  cases same : dataset.supervision with
  | none =>
    have all : dataset.blockIndices = List.range dataset.candidates := by
      rw [TokenBlockDataset.blockIndices, List.filter_eq_self]
      simp [TokenBlockDataset.eligible, same]
    have constant : (List.finRange dataset.length).map dataset.blockTargets =
        List.replicate dataset.length dataset.seqLen := by
      rw [List.eq_replicate_iff]
      refine ⟨by simp, ?_⟩
      intro targets member
      obtain ⟨index, _, rfl⟩ := List.mem_map.mp member
      exact blockTargets_unmasked natural same index
    rw [constant, List.sum_replicate_nat, TokenBlockDataset.length, all,
      List.length_range]
    simp [TokenBlockDataset.exposureSupply, same]
  | some mask =>
    have total := congrArg List.length (TokenBlockDataset.supervised_targets same)
    have aligned := dataset.supervisionAligned mask same
    rw [List.length_flatMap, TokenBlockDataset.maskedLabels, slice_zipWith] at total
    have same' : (slice mask 1 (1 + dataset.candidates * dataset.seqLen)).length =
        (slice dataset.ids 1 (1 + dataset.candidates * dataset.seqLen)).length := by
      rw [length_slice, length_slice, aligned]
    have kept := supervised_kept (natural_slice natural 1 _) same'
    rw [TokenBlockDataset.maskedLabels] at kept
    rw [kept] at total
    simp only [TokenBlockDataset.exposureSupply, same]
    exact total.symm

end

section

variable {source : Source}

theorem passTargets_eq (source : Source) (pass : Nat) : source.passTargets pass =
    (List.range' (pass * source.numBlocks) source.numBlocks).map source.targetsAt := by
  obtain ⟨framework, dataset, seed, nonempty⟩ := source
  cases dataset with
  | blocks dataset =>
    have order := TrainingData.order_eq ⟨framework, dataset, seed, nonempty⟩ pass
    simp only [Source.passTargets, order, List.map_map]
    rfl
  | stories dataset =>
    simp only [Source.passTargets, Source.numBlocks, TrainingDataset.length,
      List.range'_eq_map_range, List.map_map]
    apply List.map_congr_left
    intro group member
    have inside := List.mem_range.mp member
    simp only [Function.comp_apply, Source.targetsAt, MatchedStoryDataset.groupSize]
    rw [Nat.mul_comm pass, Nat.mul_add_mod]

theorem stretch_eq_sum (size : Nat → Nat) (start count : Nat) :
    stretch size start count = ((List.range' start count).map size).sum := by
  induction count generalizing start with
  | zero => rfl
  | succ count ih => rw [stretch_cons, ih, List.range'_succ, List.map_cons, List.sum_cons]

theorem stretch_pass (source : Source) (pass : Nat) {count : Nat}
    (within : count ≤ source.numBlocks) :
    stretch source.targetsAt (pass * source.numBlocks) count =
      ((source.passTargets pass).take count).sum := by
  rw [passTargets_eq, ← List.map_take, List.take_range'_of_length_ge within, stretch_eq_sum]

theorem passTargets_perm (source : Source) (pass : Nat) :
    (source.passTargets pass).Perm source.dataset.blockTargets := by
  obtain ⟨framework, dataset, seed, nonempty⟩ := source
  cases dataset with
  | blocks dataset => exact (framework.permutes dataset.length (seed + pass)).map _
  | stories dataset => exact List.Perm.refl _

end

structure SupplyTotals (dataset : TrainingDataset) : Prop where
  eligible : dataset.exposureSupply.eligibleBlocks = dataset.blockTargets.length
  usable : dataset.exposureSupply.usableSupervisedTargetsPerPass = dataset.blockTargets.sum
  supervised : ∀ targets ∈ dataset.blockTargets, 0 < targets
  skipped : dataset.exposureSupply.fullBlocks =
    dataset.exposureSupply.eligibleBlocks + dataset.exposureSupply.zeroTargetBlocksSkipped

theorem supplyTotals (dataset : TrainingDataset) (natural : dataset.Natural) :
    SupplyTotals dataset := by
  cases dataset with
  | blocks dataset =>
    constructor
    · simp [TrainingDataset.exposureSupply, TrainingDataset.blockTargets,
        TokenBlockDataset.exposureSupply]
    · exact usable_blocks natural
    · intro targets member
      obtain ⟨index, _, rfl⟩ := List.mem_map.mp member
      exact blockTargets_pos natural index
    · have few : dataset.length ≤ dataset.candidates := by
        have kept := List.length_filter_le dataset.eligible (List.range dataset.candidates)
        rwa [List.length_range] at kept
      exact (Nat.add_sub_of_le few).symm
  | stories dataset =>
    constructor
    · simp [TrainingDataset.exposureSupply, TrainingDataset.blockTargets,
        MatchedStoryDataset.exposureSupply]
    · have whole := dataset.stretch_groupSize 0 (Nat.le_refl _)
      rw [Nat.zero_mul, MatchedStoryDataset.offset_length, stretch_eq_sum,
        ← List.range_eq_range'] at whole
      exact whole.symm
    · intro targets member
      obtain ⟨group, _, rfl⟩ := List.mem_map.mp member
      exact dataset.groupSize_pos group
    · rfl

inductive SavedCheckpoint : (run : Run) → Checkpoint run.numBlocks → Prop
  | fresh {run : Run} {elapsed : ℚ} {count : Nat} {final : Progress run.numBlocks}
      {checkpoint : Checkpoint run.numBlocks}
      (executed : run.execute run.fresh elapsed count = .ok final)
      (saved : checkpoint ∈ final.checkpoints) : SavedCheckpoint run checkpoint
  | resumed {run : Run} {earlier : Checkpoint run.numBlocks} (before : SavedCheckpoint run earlier)
      {allowRuntimeOptimization : Bool} {config : RunConfig}
      (admitted : admitContinuation allowRuntimeOptimization run.config config = .ok ())
      {attempts : Nat → Nat → EngineAttempt} {boundaries : Nat → Option Boundary}
      {start final : Progress run.numBlocks} {elapsed : ℚ} {count : Nat}
      {checkpoint : Checkpoint run.numBlocks}
      (restored : (run.continued config attempts boundaries).restore earlier = .ok start)
      (executed : (run.continued config attempts boundaries).execute start elapsed count =
        .ok final)
      (saved : checkpoint ∈ final.checkpoints) :
      SavedCheckpoint (run.continued config attempts boundaries) checkpoint

def Run.SuppliedAt (run : Run) (checkpoint : Checkpoint run.numBlocks) : Prop :=
  Metered run.source.targetsAt run.config.maxTokens checkpoint.cursor.ordinal checkpoint.tokensSeen

theorem executed_supplied {run : Run} (natural : run.dataset.Natural)
    {start final : Progress run.numBlocks} (first : run.First start)
    (supplied : run.Supplied start.training) {elapsed : ℚ} {count : Nat}
    (executed : run.execute start elapsed count = .ok final)
    {checkpoint : Checkpoint run.numBlocks} (saved : checkpoint ∈ final.checkpoints) :
    run.SuppliedAt checkpoint := by
  obtain ⟨passed, _, reached, ended, marks⟩ := Run.execute_checkpoints first executed saved
  have after := Run.advances_supplied natural supplied (Run.execute_ok ended)
  rw [Run.SuppliedAt, marks.cursor, marks.tokens]
  exact after

theorem saved_supplied {run : Run} {checkpoint : Checkpoint run.numBlocks}
    (saved : SavedCheckpoint run checkpoint) (natural : run.dataset.Natural) :
    run.SuppliedAt checkpoint := by
  induction saved with
  | @fresh run _ _ _ _ executed saved =>
    have start : run.Supplied run.fresh.training := by
      have origin : run.fresh.training.cursor.ordinal = 0 := by
        simp [Run.fresh, BatchCursor.ordinal]
      rw [Run.Supplied, origin]
      exact Metered.start
    exact executed_supplied natural (.inl rfl) start executed saved
  | @resumed run earlier before _ config admitted attempts boundaries start _ _ _ _ restored
      executed saved ih =>
      have same := admitContinuation_same admitted
      have supplied : (run.continued config attempts boundaries).SuppliedAt earlier := by
        have before := ih natural
        simp only [Run.SuppliedAt, Run.source] at before ⊢
        rw [same.seed, same.maxTokens]
        exact before
      have opened : (run.continued config attempts boundaries).Supplied start.training := by
        unfold Run.restore at restored
        split at restored
        · cases restored
        · cases restored
          exact supplied
      exact executed_supplied natural (.inr ⟨earlier, restored⟩) opened executed saved

structure Accounted (run : Run) (checkpoint : Checkpoint run.numBlocks) (exposure : Exposure) :
    Prop where
  supply : exposure.supply = run.dataset.exposureSupply
  committed : exposure.committedSupervisedTargets = checkpoint.tokensSeen
  place : exposure.completedLoaderPasses * run.numBlocks + exposure.nextEligibleBlock =
    checkpoint.cursor.ordinal ∧ exposure.nextEligibleBlock < run.numBlocks
  targets : ∃ clipped, exposure.committedSupervisedTargets + clipped =
      exposure.completedLoaderPasses * exposure.supply.usableSupervisedTargetsPerPass +
        ((run.source.passTargets exposure.completedLoaderPasses).take
          exposure.nextEligibleBlock).sum ∧
    (0 < clipped → exposure.committedSupervisedTargets = run.config.maxTokens ∧
      0 < checkpoint.cursor.ordinal ∧
      clipped < run.source.targetsAt (checkpoint.cursor.ordinal - 1))

theorem metered_passes {source : Source} (totals : SupplyTotals source.dataset)
    {budget position taken : Nat} (metered : Metered source.targetsAt budget position taken) :
    ∃ clipped, taken + clipped =
        position / source.numBlocks *
            source.dataset.exposureSupply.usableSupervisedTargetsPerPass +
          ((source.passTargets (position / source.numBlocks)).take
            (position % source.numBlocks)).sum ∧
      (0 < clipped →
        taken = budget ∧ 0 < position ∧ clipped < source.targetsAt (position - 1)) := by
  have whole : ∀ pass, stretch source.targetsAt (pass * source.numBlocks) source.numBlocks =
      source.dataset.exposureSupply.usableSupervisedTargetsPerPass := by
    intro pass
    have all : (source.passTargets pass).length ≤ source.numBlocks := by simp [passTargets_eq]
    rw [stretch_pass source pass (Nat.le_refl _), List.take_of_length_le all, totals.usable]
    exact (passTargets_perm source pass).sum_eq
  have inside := Nat.mod_lt position source.nonempty
  have divided := Nat.div_add_mod position source.numBlocks
  obtain ⟨clipped, total, last⟩ := metered.clipped
  refine ⟨clipped, ?_, last⟩
  rw [total, ← stretch_pass source _ (Nat.le_of_lt inside), ← supplied_passes _ whole,
    Nat.mul_comm, divided]

theorem blocks_pos {dataset : TrainingDataset} (totals : SupplyTotals dataset)
    (nonempty : 0 < dataset.length) :
    dataset.exposureSupply.eligibleBlocks = dataset.length ∧
      0 < dataset.exposureSupply.usableSupervisedTargetsPerPass := by
  have listed : dataset.blockTargets.length = dataset.length := by
    cases dataset <;> simp [TrainingDataset.blockTargets, TrainingDataset.length]
  refine ⟨totals.eligible.trans listed, ?_⟩
  rw [totals.usable]
  have some := totals.supervised
  generalize dataset.blockTargets = targets at listed some
  cases targets with
  | nil =>
    rw [List.length_nil] at listed
    omega
  | cons first rest =>
    have positive := some first List.mem_cons_self
    rw [List.sum_cons]
    omega

theorem exposure_accounting {run : Run} (natural : run.dataset.Natural)
    {checkpoint : Checkpoint run.numBlocks} (saved : SavedCheckpoint run checkpoint)
    (timing : Timing) :
    SupplyTotals run.dataset ∧ ∃ exposure, checkpointExposure run.dataset.exposureSupply
      checkpoint.tokensSeen checkpoint.cursor timing = .ok exposure ∧
        Accounted run checkpoint exposure := by
  have totals := supplyTotals run.dataset natural
  obtain ⟨blocks, usable⟩ := blocks_pos totals run.nonempty
  have nonempty : 0 < run.numBlocks := run.nonempty
  have within := checkpoint.cursor.within
  obtain ⟨clipped, accounted, last⟩ := metered_passes totals (saved_supplied saved natural)
  have position : checkpoint.cursor.ordinal =
      run.numBlocks * checkpoint.cursor.epoch + checkpoint.cursor.nextBlock := by
    rw [BatchCursor.ordinal, Nat.mul_comm]
  have passes : checkpoint.cursor.ordinal / run.numBlocks =
      checkpoint.cursor.epoch + checkpoint.cursor.nextBlock / run.numBlocks := by
    rw [position, Nat.mul_add_div nonempty]
  have rest : checkpoint.cursor.ordinal % run.numBlocks =
      checkpoint.cursor.nextBlock % run.numBlocks := by
    rw [position, Nat.mul_add_mod]
  have accepted : ¬ (run.dataset.exposureSupply.eligibleBlocks = 0 ∨
      run.dataset.exposureSupply.usableSupervisedTargetsPerPass = 0 ∨
        ¬ checkpoint.cursor.nextBlock ≤ run.dataset.exposureSupply.eligibleBlocks) := by
    rw [blocks]
    change ¬ (run.numBlocks = 0 ∨ _ ∨ ¬ checkpoint.cursor.nextBlock ≤ run.numBlocks)
    omega
  refine ⟨totals, _, if_neg accepted, ?_⟩
  constructor
  · rfl
  · rfl
  · dsimp only
    rw [blocks]
    change (_ + _ / run.numBlocks) * _ + _ % run.numBlocks = _ ∧ _ % run.numBlocks < _
    rw [← passes, ← rest, Nat.mul_comm]
    exact ⟨Nat.div_add_mod _ _, Nat.mod_lt _ nonempty⟩
  · refine ⟨clipped, ?_, last⟩
    dsimp only
    rw [blocks]
    change _ = (_ + _ / run.numBlocks) * _ + ((run.source.passTargets (_ + _ / run.numBlocks)).take
      (_ % run.numBlocks)).sum
    rw [← passes, ← rest]
    exact accounted

theorem exposure_accounting_sample :
    SupplyTotals Run.sampleRun.dataset ∧ ∃ exposure,
      checkpointExposure Run.sampleRun.dataset.exposureSupply 2
        (⟨0, 2, by decide⟩ : BatchCursor Run.sampleRun.numBlocks) ⟨1, 2, 2, true, true⟩ =
          .ok exposure ∧
        Accounted Run.sampleRun ⟨1, 2, ⟨0, 2, by decide⟩, some ⟨1, 2, 1⟩⟩ exposure := by
  have natural : Run.sampleRun.dataset.Natural := by
    change ∀ id ∈ [1, 2, 3, 4, 5, 6], (0 : Int) ≤ id
    decide
  exact exposure_accounting natural (.fresh Run.sampleRun_execute
    (List.mem_append_right _ (List.mem_singleton.mpr rfl))) _

end SparseLab.Training
