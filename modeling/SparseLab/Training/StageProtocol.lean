import SparseLab.Library.Runs
import SparseLab.Training.Stages

/-!
The stage protocol of `training/trainer.py`. The environment decides every clock reading, signal,
cancellation and failure.
-/

namespace SparseLab.Training

inductive RunStatus
  | completed | interrupted | failed
  deriving DecidableEq

namespace RunStatus

def stage : RunStatus → ExperimentStage
  | completed => .complete
  | interrupted => .interrupted
  | failed => .failed

def stageStatus : RunStatus → StageStatus
  | completed => .complete
  | interrupted => .interrupted
  | failed => .failed

end RunStatus

/-- Stage refusals are `StageHistory` errors; every other error is a training failure. -/
inductive TrainerError
  | stage (message : String)
  | training (message : String)
  deriving DecidableEq

def TrainerError.message : TrainerError → String
  | stage message => message
  | training message => message

inductive UpdateOutcome
  | applied (committedTargets : Nat)
  | raises (message : String)

/-- What the process observes, by the number of observations made before. The deadline is
compared with a monotonic clock, so once it is seen expired it stays so. -/
structure Environment where
  expired : Nat → Bool
  expired_mono : ∀ earlier later, earlier ≤ later → expired earlier = true → expired later = true
  cancelled : Nat → Bool
  signalled : Nat → Bool
  evaluationBatches : Nat
  evaluationError : Nat → Option String
  capacityError : Nat → Option String
  saveError : Nat → Option String
  committedError : Nat → Option String
  auditError : Nat → Option String
  update : Nat → UpdateOutcome
  scientificDue : Nat → Bool
  operationalDue : Nat → Bool

structure TrainingLimits where
  maxSteps : Nat
  maxTokens : Nat
  everySteps : Nat
  stopAfterStep : Option Nat := none

structure TrainerState where
  history : StageHistory
  step : Nat
  tokens : Nat
  initialStep : Nat
  interrupted : Bool := false
  latestRecord : Option Nat := none
  reported : Option RunStatus := none
  observations : Nat := 0
  deriving DecidableEq

abbrev Attempt (α : Type) := Except (TrainerError × TrainerState) α

namespace TrainerState

def observed (state : TrainerState) (count : Nat := 1) : TrainerState :=
  { state with observations := state.observations + count }

def observedUntil (state : TrainerState) (now : Nat) : TrainerState :=
  { state with observations := now }

def withHistory (state : TrainerState) : Except String StageHistory → Attempt TrainerState
  | .ok history => .ok { state with history }
  | .error message => .error (.stage message, state)

def finishStage (state : TrainerState) (status : StageStatus := .complete)
    (reason : Option String := none) : Attempt TrainerState :=
  state.withHistory (state.history.finish status reason (some state.step) (some state.tokens))

def finishActive (state : TrainerState) : Attempt TrainerState :=
  if state.history.current.isSome then state.finishStage else .ok state

def enterStage (state : TrainerState) (stage : ExperimentStage) : Attempt TrainerState := do
  let state ← state.finishActive
  state.withHistory (state.history.start stage state.step state.tokens)

def raiseIf (state : TrainerState) : Option String → Attempt TrainerState
  | some message => .error (.training message, state.observed)
  | none => .ok state.observed

def saveBoundary (environment : Environment) (state : TrainerState) : Attempt TrainerState := do
  let state ← state.raiseIf (environment.capacityError state.observations)
  let state ← state.enterStage .checkpointed
  let state ← state.raiseIf (environment.saveError state.observations)
  let state := { state with latestRecord := some state.step }
  state.raiseIf (environment.committedError state.observations)

def audited (environment : Environment) (state : TrainerState) (status : RunStatus)
    (reason : Option String) : RunStatus × Option String :=
  match environment.auditError state.observations with
  | some message => (.failed, some s!"portability integrity audit failed: {message}")
  | none => (status, reason)

def failActive (state : TrainerState) (status : RunStatus) (reason : Option String) :
    Attempt TrainerState :=
  if status = .failed ∧ state.history.current.isSome then state.finishStage .failed reason
  else .ok state

def finishRun (environment : Environment) (state : TrainerState) (status : RunStatus)
    (reason : Option String := none) : Attempt TrainerState := do
  let ending := audited environment state status reason
  let state ← state.observed.failActive ending.1 ending.2
  let state ← state.enterStage ending.1.stage
  let state ← state.finishStage ending.1.stageStatus ending.2
  .ok { state with reported := some ending.1 }

/-- `interrupted` as the signal handler may have left it by now. -/
def stopRequested (environment : Environment) (state : TrainerState) : Bool :=
  state.interrupted || environment.signalled state.observations

end TrainerState

inductive PassOutcome
  | completed
  | wallTimeExpired
  | failed (message : String)
  deriving DecidableEq

def evaluationPass (environment : Environment) : Nat → Nat → PassOutcome × Nat
  | 0, now =>
    match environment.evaluationError now with
    | some message => (.failed message, now + 1)
    | none => (.completed, now + 1)
  | batches + 1, now =>
    if environment.expired now then (.wallTimeExpired, now + 1)
    else match environment.evaluationError (now + 1) with
      | some message => (.failed message, now + 2)
      | none => evaluationPass environment batches (now + 2)

def evaluateAndRecord (environment : Environment) (state : TrainerState) :
    Attempt (Bool × TrainerState) := do
  if environment.expired state.observations then
    return (false, state.observed)
  let state ← state.observed.enterStage .evaluating
  let pass := evaluationPass environment environment.evaluationBatches state.observations
  let state := state.observedUntil pass.2
  match pass.1 with
  | .completed => return (true, state)
  | .wallTimeExpired =>
    let state ← state.finishStage .interrupted (some "wall_time_limit")
    return (false, state)
  | .failed message => .error (.training message, state)

/-- The three calls of `evaluate_and_record`: before the loop, at its head for an interrupted
run, and after an update that may already be the last one. -/
inductive Site
  | initial
  | loopHead
  | boundary (terminal : Bool)
  deriving DecidableEq

inductive Location
  | start
  | evaluate (site : Site)
  | evaluated (site : Site) (validation : Bool)
  | loopHead
  | update
  | returned
  | raised (error : TrainerError)
  deriving DecidableEq

structure Config where
  location : Location
  state : TrainerState
  deriving DecidableEq

namespace Config

variable (environment : Environment) (limits : TrainingLimits)

def exhausted (state : TrainerState) : Bool :=
  limits.maxSteps ≤ state.step || limits.maxTokens ≤ state.tokens

/-- The `reason` of an interrupted ending, after the two conditions it asks for. -/
def stopReason (state : TrainerState) : String :=
  if environment.expired state.observations then "wall_time_limit"
  else if environment.cancelled (state.observations + 1) then "cancelled"
  else "signal"

def finished (status : RunStatus) (reason : Option String) (state : TrainerState) :
    Attempt Config := do
  let state ← state.finishRun environment status reason
  return { location := .returned, state }

def atStart (state : TrainerState) : Attempt Config :=
  if state.stopRequested environment || environment.cancelled state.observations then
    let reason := if environment.cancelled (state.observations + 1) then "cancelled" else "signal"
    finished environment .interrupted (some reason) (state.observed 2)
  else
    .ok { location := .evaluate .initial, state := state.observed }

def atEvaluate (site : Site) (state : TrainerState) : Attempt Config := do
  let (validation, state) ← evaluateAndRecord environment state
  return { location := .evaluated site validation, state }

def afterInitial (state : TrainerState) : Attempt Config := do
  let state ← state.saveBoundary environment
  if environment.expired state.observations then
    finished environment .interrupted (some "wall_time_limit") state.observed
  else
    let state ← state.observed.enterStage .training
    return { location := .loopHead, state }

def atLoopHead (state : TrainerState) : Attempt Config :=
  if exhausted limits state then
    .error (.training "training stopped without completing a valid target window", state)
  else
    let interrupted := state.stopRequested environment
      || environment.cancelled state.observations || environment.expired (state.observations + 1)
    let state : TrainerState := { state.observed 2 with interrupted }
    if interrupted then
      if state.latestRecord = some state.step then
        finished environment .interrupted (some (stopReason environment state)) (state.observed 2)
      else
        .ok { location := .evaluate .loopHead, state }
    else
      .ok { location := .update, state }

/-- `validation is None and wall_expired() and history.current is not None`. -/
def cutActive (validation : Bool) (state : TrainerState) : Attempt TrainerState :=
  if !validation && environment.expired state.observations && state.history.current.isSome then
    state.observed.finishStage .interrupted (some "wall_time_limit")
  else .ok state.observed

def afterLoopHead (validation : Bool) (state : TrainerState) : Attempt Config := do
  let state ← cutActive environment validation state
  let state ← state.saveBoundary environment
  finished environment .interrupted (some (stopReason environment state)) (state.observed 2)

def atUpdate (state : TrainerState) : Attempt Config :=
  match environment.update state.observations with
  | .raises message => .error (.training message, state.observed)
  | .applied committedTargets =>
    let state : TrainerState := { state.observed with
      step := state.step + 1, tokens := state.tokens + committedTargets }
    let interrupted := state.stopRequested environment || environment.cancelled state.observations
    let state : TrainerState := { state.observed with interrupted }
    let terminal := exhausted limits state || limits.stopAfterStep == some state.step || interrupted
    let deadlineStopping := environment.expired state.observations
    let state := state.observed
    if !deadlineStopping && (terminal || state.step % limits.everySteps == 0) then
      .ok { location := .evaluate (.boundary terminal), state }
    else
      .ok { location := .evaluated (.boundary terminal) false, state }

def completionReason (state : TrainerState) : String :=
  if environment.expired state.observations then "wall_time_limit"
  else if environment.cancelled (state.observations + 1) then "cancelled"
  else if state.stopRequested environment then "signal"
  else "stop_after_step"

def saveIf (due : Bool) (state : TrainerState) : Attempt TrainerState :=
  if due then state.saveBoundary environment else .ok state

def backToTraining (state : TrainerState) : Attempt TrainerState :=
  if state.history.current.any (·.stage ≠ .training) then state.enterStage .training
  else .ok state

def afterBoundary (terminal : Bool) (state : TrainerState) : Attempt Config := do
  let terminal := terminal || environment.expired state.observations
  let scientific := environment.scientificDue state.observations || terminal
  let operational := environment.operationalDue state.observations
  let state ← saveIf environment (scientific || operational) state.observed
  if terminal then
    if exhausted limits state then
      finished environment .completed none state
    else
      finished environment .interrupted (some (completionReason environment state))
        (state.observed 3)
  else
    let state ← backToTraining state
    return { location := .loopHead, state }

/-- One segment of the `try` block, from one call of the environment's to the next. -/
def segment (config : Config) : Attempt Config :=
  match config.location with
  | .start => atStart environment config.state
  | .evaluate site => atEvaluate environment site config.state
  | .evaluated .initial _ => afterInitial environment config.state
  | .evaluated .loopHead validation => afterLoopHead environment validation config.state
  | .evaluated (.boundary terminal) _ => afterBoundary environment limits terminal config.state
  | .loopHead => atLoopHead environment limits config.state
  | .update => atUpdate environment limits config.state
  | .returned => .ok config
  | .raised _ => .ok config

/-- `except BaseException`: record the failure, then let the exception out. -/
def handle (failure : TrainerError × TrainerState) : Config :=
  match failure.2.finishRun environment .failed (some failure.1.message) with
  | .ok state => { location := .raised failure.1, state }
  | .error second => { location := .raised second.1, state := second.2 }

def step (config : Config) : Config :=
  match segment environment limits config with
  | .ok next => next
  | .error failure => handle environment failure

/-- The run after `count` segments. -/
def run (start : Config) (count : Nat) : Config :=
  (step environment limits)^[count] start

end Config

/-- The history the trainer has built when it enters its `try` block. -/
def initialHistory (step tokens : Nat) : Except String StageHistory := do
  let history ← StageHistory.start {} .configured
  let history ← history.finish
  let history ← history.start .inspected
  let history ← history.finish
  let history ← history.start .validated
  let history ← history.finish
  history.start .training step tokens

/-- A run from `step` and `tokens`, at the head of the `try` block. -/
def Config.begin (step tokens : Nat) : Config :=
  match initialHistory step tokens with
  | .ok history => { location := .start, state := { history, step, tokens, initialStep := step } }
  | .error message => {
      location := .raised (.stage message)
      state := { history := {}, step, tokens, initialStep := step } }

end SparseLab.Training
