import SparseLab.Data.StoryLayouts
import SparseLab.Training.Targets

/-!
Checkpoints and the runs that continue them, from `training/continuation.py` and
`training/trainer.py`.
-/

namespace SparseLab.Training

open Library Data

inductive TrainingDataset
  | blocks (dataset : TokenBlockDataset)
  | stories (dataset : MatchedStoryDataset)

def TrainingDataset.length : TrainingDataset → Nat
  | .blocks dataset => dataset.length
  | .stories dataset => dataset.length

structure Source where
  framework : Framework
  dataset : TrainingDataset
  seed : Int
  nonempty : 0 < dataset.length

abbrev Source.numBlocks (source : Source) : Nat :=
  source.dataset.length

abbrev Window (numBlocks : Nat) :=
  List (WindowRecord numBlocks) × Nat × BatchCursor numBlocks

def nextGroup {numBlocks : Nat} (nonempty : 0 < numBlocks) (cursor : BatchCursor numBlocks) :
    Nat × Fin numBlocks :=
  if finished : cursor.nextBlock = numBlocks then
    (cursor.epoch + 1, ⟨0, nonempty⟩)
  else
    (cursor.epoch, ⟨cursor.nextBlock, by have within := cursor.within; omega⟩)

def storyWindow (dataset : MatchedStoryDataset) (nonempty : 0 < dataset.length)
    (cursor : BatchCursor dataset.length) (remaining : Nat) :
    Except TrainingError (Window dataset.length) :=
  let (epoch, group) := nextGroup nonempty cursor
  match dataset.updateRows group remaining with
  | .error reason => .error (.engine reason)
  | .ok rows =>
    let records := rows.map fun row => { block := group, row }
    .ok (records, countTargets records, ⟨epoch, group + 1, group.isLt⟩)

def Source.window (source : Source) (windowSize : Nat) (cursor : BatchCursor source.numBlocks)
    (remaining : Nat) : Except TrainingError (Window source.numBlocks) :=
  match source, cursor with
  | ⟨framework, .blocks dataset, seed, nonempty⟩, cursor =>
    let data : TrainingData := ⟨framework, dataset, seed, nonempty⟩
    .ok (data.takeRecords remaining (data.fillWindow windowSize [] cursor) [] 0 cursor)
  | ⟨_, .stories dataset, _, nonempty⟩, cursor => storyWindow dataset nonempty cursor remaining

/-- The settings of a run. `name`, `logging`, `checkpoint` and `deviceIndex` do not bind a
resumed run; `others` is everything else that does. -/
structure RunConfig where
  name : String
  logging : String
  checkpoint : String
  deviceIndex : Nat
  engine : String
  attentionKind : String
  attentionImplementation : Option String
  seed : Int
  windows : Windows
  maxSteps : Nat
  maxTokens : Nat
  deterministic : Bool
  panels : List String
  evaluationBatchSize : Option Nat
  activationCheckpointing : Bool
  compileTransformerBlocks : Bool
  compileOutputHeadLoss : Bool
  others : String

namespace RunConfig

def effectiveBatch (config : RunConfig) : Nat :=
  config.windows.microBatchSize * config.windows.gradientAccumulation

/-- `_resume_settings`, before they are hashed. -/
def resumeSettings (config : RunConfig) : RunConfig :=
  { config with
    name := ""
    logging := ""
    checkpoint := ""
    deviceIndex := 0 }

def comparable (source target : RunConfig) : RunConfig :=
  { target with
    attentionImplementation := source.attentionImplementation
    deterministic := source.deterministic
    windows := source.windows
    evaluationBatchSize := source.evaluationBatchSize
    activationCheckpointing := source.activationCheckpointing
    compileTransformerBlocks := source.compileTransformerBlocks
    compileOutputHeadLoss := source.compileOutputHeadLoss }

end RunConfig

instance instDecidableEqWindows : DecidableEq Windows := fun first second =>
  decidable_of_iff (first.microBatchSize = second.microBatchSize ∧
      first.gradientAccumulation = second.gradientAccumulation) <| by
    cases first
    cases second
    simp only [Windows.mk.injEq]

deriving instance DecidableEq for RunConfig

def runtimeOptimizationTransition (source target : RunConfig) : Except String Unit :=
  if source.engine ≠ "pytorch" ∨ target.engine ≠ "pytorch" then
    .error "runtime optimization transition requires PyTorch"
  else if source.attentionKind ≠ "dense" ∨ target.attentionKind ≠ "dense" then
    .error "runtime optimization transition requires dense attention"
  else if source.effectiveBatch ≠ target.effectiveBatch then
    .error "runtime optimization transition must preserve effective batch"
  else if source.panels = [] ∧
      source.evaluationBatchSize.getD source.windows.microBatchSize ≠
        target.evaluationBatchSize.getD target.windows.microBatchSize then
    .error "runtime optimization transition must preserve ordinary validation batch size"
  else if source.resumeSettings ≠ (source.comparable target).resumeSettings then
    .error "runtime optimization transition changes scientific or unsupported settings"
  else .ok ()

def admitContinuation (allowRuntimeOptimization : Bool) (saved config : RunConfig) :
    Except String Unit :=
  if allowRuntimeOptimization then runtimeOptimizationTransition saved config
  else if saved.resumeSettings ≠ config.resumeSettings then
    .error "resume configuration differs from checkpoint; use promotion for changed scientific settings"
  else .ok ()

/-- `cadence` of a snapshot. -/
structure Watermarks where
  step : Nat
  tokens : Nat
  minutes : ℚ
deriving DecidableEq

def checkpointWatermarks (step tokens : Nat) (elapsed : ℚ) (previous : Option Watermarks)
    (operationalOnly : Bool) : Option Watermarks :=
  if operationalOnly then previous else some ⟨step, tokens, elapsed⟩

structure Checkpoint (numBlocks : Nat) where
  step : Nat
  tokensSeen : Nat
  cursor : BatchCursor numBlocks
  cadence : Option Watermarks

structure Boundary where
  elapsed : ℚ
  operationalOnly : Bool

/-- A run: `attempts` decides its optimizer attempts, `boundaries` after which steps it saves. -/
structure Run where
  framework : Framework
  dataset : TrainingDataset
  nonempty : 0 < dataset.length
  config : RunConfig
  attempts : (updateIndex : Nat) → (retries : Nat) → EngineAttempt
  boundaries : (step : Nat) → Option Boundary

structure Progress (numBlocks : Nat) where
  training : TrainingState numBlocks
  cadence : Option Watermarks
  checkpoints : List (Checkpoint numBlocks)

namespace Run

variable (run : Run)

def source : Source :=
  ⟨run.framework, run.dataset, run.config.seed, run.nonempty⟩

abbrev numBlocks : Nat := run.dataset.length

abbrev State := TrainingState run.numBlocks

def Running (state : run.State) : Prop :=
  state.step < run.config.maxSteps ∧ state.tokens < run.config.maxTokens

instance (state : run.State) : Decidable (run.Running state) :=
  inferInstanceAs (Decidable (_ ∧ _))

def window (state : run.State) : Except TrainingError (Window run.numBlocks) :=
  run.source.window run.config.effectiveBatch state.cursor (run.config.maxTokens - state.tokens)

def trainWindow (state : run.State) (window : Window run.numBlocks) :
    Except TrainingError run.State :=
  let (records, validTargets, committedCursor) := window
  if validTargets = 0 then
    .error .emptyWindow
  else do
    let microbatches := pieces records run.config.windows.microBatchSize
    let update ← retryUpdate (run.attempts (state.step + 1)) microbatches validTargets
      (List.range 3)
    pure {
      step := state.step + 1
      tokens := state.tokens + update.committedTargets
      cursor := committedCursor
      updates := state.updates ++ [{ records, committedTargets := update.committedTargets }] }

def update (state : run.State) : Except TrainingError run.State := do
  let window ← run.window state
  run.trainWindow state window

def saveBoundary (progress : Progress run.numBlocks) (boundary : Boundary) :
    Progress run.numBlocks :=
  let state := progress.training
  let cadence := checkpointWatermarks state.step state.tokens boundary.elapsed progress.cadence
    boundary.operationalOnly
  { progress with
    cadence
    checkpoints := progress.checkpoints ++ [⟨state.step, state.tokens, state.cursor, cadence⟩] }

def pass (progress : Progress run.numBlocks) : Except TrainingError (Progress run.numBlocks) :=
  if run.Running progress.training then do
    let training ← run.update progress.training
    let progress := { progress with training }
    match run.boundaries training.step with
    | none => pure progress
    | some boundary => pure (run.saveBoundary progress boundary)
  else pure progress

def passes : Nat → Progress run.numBlocks → Except TrainingError (Progress run.numBlocks)
  | 0, progress => pure progress
  | count + 1, progress => do
      let progress ← passes count progress
      run.pass progress

def execute (start : Progress run.numBlocks) (elapsed : ℚ) (count : Nat) :
    Except TrainingError (Progress run.numBlocks) :=
  run.passes count (run.saveBoundary start ⟨elapsed, false⟩)

def fresh : Progress run.numBlocks where
  training := { cursor := ⟨0, 0, Nat.zero_le _⟩ }
  cadence := none
  checkpoints := []

def restore (checkpoint : Checkpoint run.numBlocks) :
    Except String (Progress run.numBlocks) :=
  if run.config.maxSteps ≤ checkpoint.step ∨ run.config.maxTokens ≤ checkpoint.tokensSeen then
    .error "cannot resume a completed training budget"
  else
    .ok {
      training := {
        step := checkpoint.step
        tokens := checkpoint.tokensSeen
        cursor := checkpoint.cursor }
      cadence := checkpoint.cadence
      checkpoints := [] }

abbrev continued (config : RunConfig) (attempts : Nat → Nat → EngineAttempt)
    (boundaries : Nat → Option Boundary) : Run :=
  { run with config, attempts, boundaries }

end Run

end SparseLab.Training
