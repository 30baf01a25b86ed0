import Mathlib.Algebra.GroupWithZero.Nat
import SparseLab.Data.TokenBlocks

/-!
The training loop's windows, budget and cursor, from `training/trainer.py`. An engine is an oracle.
-/

namespace SparseLab.Training

open Library Data

/-- `torch.randperm` under `torch.Generator().manual_seed`. -/
structure Framework where
  randperm : (numBlocks : Nat) → (seed : Int) → List (Fin numBlocks)
  permutes : ∀ numBlocks seed, (randperm numBlocks seed).Perm (List.finRange numBlocks)

def epochOrder (framework : Framework) (numBlocks : Nat) (seed : Int) (epoch : Nat) :
    List (Fin numBlocks) :=
  framework.randperm numBlocks (seed + epoch)

@[simp] theorem length_epochOrder (framework : Framework) (numBlocks : Nat) (seed : Int)
    (epoch : Nat) : (epochOrder framework numBlocks seed epoch).length = numBlocks := by
  have permuted := (framework.permutes numBlocks (seed + epoch)).length_eq
  simpa [epochOrder] using permuted

structure TrainingData where
  framework : Framework
  dataset : TokenBlockDataset
  seed : Int
  nonempty : 0 < dataset.length

namespace TrainingData

variable (data : TrainingData)

abbrev numBlocks : Nat := data.dataset.length

def order (epoch : Nat) : List (Fin data.numBlocks) :=
  epochOrder data.framework data.numBlocks data.seed epoch

@[simp] theorem length_order (epoch : Nat) : (data.order epoch).length = data.numBlocks :=
  length_epochOrder _ _ _ _

end TrainingData

@[ext] structure BatchCursor (numBlocks : Nat) where
  epoch : Nat := 0
  nextBlock : Nat := 0
  within : nextBlock ≤ numBlocks := by omega

def BatchCursor.ordinal {numBlocks : Nat} (cursor : BatchCursor numBlocks) : Nat :=
  cursor.epoch * numBlocks + cursor.nextBlock

structure Windows where
  microBatchSize : Nat
  gradientAccumulation : Nat
  microBatchSizePos : 0 < microBatchSize
  gradientAccumulationPos : 0 < gradientAccumulation

structure TrainingConfig extends Windows where
  maxSteps : Nat
  maxTokens : Nat

inductive EngineAttempt
  | applied | overflow | raised (error : String)
  deriving DecidableEq

inductive TrainingError
  | emptyWindow | noTargets | targetCount | overflowPersisted | engine (error : String)
  deriving DecidableEq

def TrainingError.text : TrainingError → String
  | emptyWindow => "selected training window has no supervised targets"
  | noTargets => "update needs at least one supervised target"
  | targetCount => "update valid-target count differs from the supplied microbatches"
  | overflowPersisted => "GradScaler overflow persisted after three attempts"
  | engine error => error

structure WindowRecord (numBlocks : Nat) where
  block : Fin numBlocks
  row : Microblock
  deriving DecidableEq

/-- `np.count_nonzero(labels != -100)` of a record's labels. -/
def WindowRecord.targets {numBlocks : Nat} (record : WindowRecord numBlocks) : Nat :=
  (supervised record.row.targets).length

def countTargets {numBlocks : Nat} (records : List (WindowRecord numBlocks)) : Nat :=
  (records.map WindowRecord.targets).sum

@[simp] theorem countTargets_nil {numBlocks : Nat} :
    countTargets ([] : List (WindowRecord numBlocks)) = 0 := rfl

@[simp] theorem countTargets_cons {numBlocks : Nat} (record : WindowRecord numBlocks)
    (records : List (WindowRecord numBlocks)) :
    countTargets (record :: records) = record.targets + countTargets records := by
  simp [countTargets]

@[simp] theorem countTargets_append {numBlocks : Nat}
    (records others : List (WindowRecord numBlocks)) :
    countTargets (records ++ others) = countTargets records + countTargets others := by
  simp [countTargets]

theorem countTargets_flatten {numBlocks : Nat} (batches : List (List (WindowRecord numBlocks))) :
    countTargets batches.flatten = (batches.map countTargets).sum := by
  induction batches with
  | nil => rfl
  | cons batch batches ih => simp [ih]

structure UpdateResult where
  applied : Bool
  validTargets : Nat
  committedTargets : Nat
  deriving DecidableEq

structure CommittedUpdate (numBlocks : Nat) where
  records : List (WindowRecord numBlocks)
  committedTargets : Nat
  deriving DecidableEq

structure TrainingState (numBlocks : Nat) where
  step : Nat := 0
  tokens : Nat := 0
  cursor : BatchCursor numBlocks
  updates : List (CommittedUpdate numBlocks) := []

/-- One run's data, configuration and engine: `attempts` decides each optimizer attempt. -/
structure Trainer extends TrainingData where
  config : TrainingConfig
  attempts : (updateIndex : Nat) → (retries : Nat) → EngineAttempt

namespace TrainingData

variable (data : TrainingData)

abbrev Candidate := Fin data.numBlocks × BatchCursor data.numBlocks

/-- The next `count` blocks of the cursor's epoch, each with the cursor that commits it. -/
def epochCandidates (cursor : BatchCursor data.numBlocks) (count : Nat)
    (fits : cursor.nextBlock + count ≤ data.numBlocks) : List data.Candidate :=
  (List.finRange count).map fun (offset : Fin count) =>
    have inside := offset.isLt
    ((data.order cursor.epoch).get ⟨cursor.nextBlock + offset, by rw [length_order]; omega⟩,
      ⟨cursor.epoch, cursor.nextBlock + offset + 1, by omega⟩)

@[simp] theorem length_epochCandidates (cursor : BatchCursor data.numBlocks) (count : Nat)
    (fits : cursor.nextBlock + count ≤ data.numBlocks) :
    (data.epochCandidates cursor count fits).length = count := by
  simp [epochCandidates]

/-- The loop that fills `candidates`, over as many epochs as the window needs. -/
def fillWindow (windowSize : Nat) (candidates : List data.Candidate)
    (nextCursor : BatchCursor data.numBlocks) : List data.Candidate :=
  if short : candidates.length < windowSize then
    let count := min (windowSize - candidates.length)
      ((data.order nextCursor.epoch).length - nextCursor.nextBlock)
    have within := nextCursor.within
    have counted : count = min (windowSize - candidates.length)
        (data.numBlocks - nextCursor.nextBlock) := by
      simp only [count, length_order]
    if exhausted : count = 0 then
      fillWindow windowSize candidates ⟨nextCursor.epoch + 1, 0, Nat.zero_le _⟩
    else
      have fits : nextCursor.nextBlock + count ≤ data.numBlocks := by omega
      fillWindow windowSize (candidates ++ data.epochCandidates nextCursor count fits)
        ⟨nextCursor.epoch, nextCursor.nextBlock + count, fits⟩
  else
    candidates
termination_by (windowSize - candidates.length,
  if nextCursor.nextBlock = data.numBlocks then 1 else 0)
decreasing_by
  · have blocks := data.nonempty
    have finished : nextCursor.nextBlock = data.numBlocks := by omega
    rw [if_pos finished, if_neg (Nat.ne_of_lt blocks)]
    exact Prod.Lex.right _ Nat.zero_lt_one
  · apply Prod.Lex.left
    rw [List.length_append, length_epochCandidates]
    omega

/-- A record that keeps at most `allowed` of its block's supervised targets. -/
def readRecord (block : Fin data.numBlocks) (remaining : Nat) : WindowRecord data.numBlocks :=
  let row := data.dataset.numpyMicroblock block
  let available := (supervised row.targets).length
  let allowed := min remaining available
  { block
    row := if allowed < available then { row with targets := clip allowed row.targets } else row }

def takeRecords (remaining : Nat) : List data.Candidate → List (WindowRecord data.numBlocks) →
    Nat → BatchCursor data.numBlocks →
    List (WindowRecord data.numBlocks) × Nat × BatchCursor data.numBlocks
  | [], records, validTargets, committedCursor => (records, validTargets, committedCursor)
  | (index, candidateCursor) :: candidates, records, validTargets, _ =>
    let record := data.readRecord index (remaining - validTargets)
    let available := (supervised (data.dataset.numpyMicroblock index).targets).length
    let counted := validTargets + min (remaining - validTargets) available
    if counted = remaining then
      (records ++ [record], counted, candidateCursor)
    else
      takeRecords remaining candidates (records ++ [record]) counted candidateCursor

end TrainingData

/-- An engine's `train_update`: its target checks, then one optimizer attempt. -/
def trainUpdate {numBlocks : Nat} (attempt : EngineAttempt)
    (microbatches : List (List (WindowRecord numBlocks))) (validTargets : Nat) :
    Except TrainingError UpdateResult :=
  let observed := (microbatches.map countTargets).sum
  if observed = 0 then
    .error .noTargets
  else if validTargets ≠ observed then
    .error .targetCount
  else
    match attempt with
    | .applied => .ok { applied := true, validTargets, committedTargets := validTargets }
    | .overflow => .ok { applied := false, validTargets, committedTargets := 0 }
    | .raised error => .error (.engine error)

/-- `for retries in range(3)`: the first applied attempt ends the loop. -/
def retryUpdate {numBlocks : Nat} (attempts : Nat → EngineAttempt)
    (microbatches : List (List (WindowRecord numBlocks))) (validTargets : Nat) :
    List Nat → Except TrainingError UpdateResult
  | [] => .error .overflowPersisted
  | retries :: rest => do
      let update ← trainUpdate (attempts retries) microbatches validTargets
      if update.applied then
        pure update
      else
        retryUpdate attempts microbatches validTargets rest

namespace Trainer

variable (trainer : Trainer)

abbrev State := TrainingState trainer.numBlocks

def Running (state : trainer.State) : Prop :=
  state.step < trainer.config.maxSteps ∧ state.tokens < trainer.config.maxTokens

instance (state : trainer.State) : Decidable (trainer.Running state) :=
  inferInstanceAs (Decidable (_ ∧ _))

def update (state : trainer.State) : Except TrainingError trainer.State := do
  let remaining := trainer.config.maxTokens - state.tokens
  let windowSize := trainer.config.microBatchSize * trainer.config.gradientAccumulation
  let candidates := trainer.fillWindow windowSize [] state.cursor
  let (records, validTargets, committedCursor) :=
    trainer.takeRecords remaining candidates [] 0 state.cursor
  if validTargets = 0 then
    .error .emptyWindow
  else
    let microbatches := pieces records trainer.config.microBatchSize
    let update ← retryUpdate (trainer.attempts (state.step + 1)) microbatches validTargets
      (List.range 3)
    pure {
      step := state.step + 1
      tokens := state.tokens + update.committedTargets
      cursor := committedCursor
      updates := state.updates ++ [{ records, committedTargets := update.committedTargets }] }

/-- `count` passes of the loop head; a run that cancellation or a deadline stops is shorter. -/
def trainingLoop : Nat → trainer.State → Except TrainingError trainer.State
  | 0, state => pure state
  | count + 1, state => do
      let state ← trainingLoop count state
      if trainer.Running state then
        trainer.update state
      else
        pure state

end Trainer

end SparseLab.Training
