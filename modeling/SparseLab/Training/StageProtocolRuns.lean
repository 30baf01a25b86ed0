import Mathlib.Data.Nat.Find
import SparseLab.Library.Outcomes
import SparseLab.Training.StageProtocol

/-! Runs of the stage protocol, and the interval that stops one. -/

namespace SparseLab.Training

open Library

/-- An interval of `stage` is running and no terminal stage was recorded before it. -/
structure Active (state : TrainerState) (stage : ExperimentStage) : Prop where
  current : ∃ record, state.history.current = some record ∧ record.stage = stage ∧
    record.step ≤ state.step ∧ record.tokensSeen ≤ state.tokens
  clean : ∀ record ∈ state.history.records, ¬ record.stage.Terminal
  ongoing : ¬ stage.Terminal

structure EndsIn (state : TrainerState) (status : RunStatus) : Prop where
  idle : state.history.current = none
  reported : state.reported = some status
  terminal : ∃ earlier record, state.history.records = earlier ++ [record] ∧
    record.stage = status.stage ∧ record.status = status.stageStatus ∧
    ∀ record ∈ earlier, ¬ record.stage.Terminal

namespace TrainerState

def closed (state : TrainerState) (stage : ExperimentStage) (status : StageStatus)
    (reason : Option String) : TrainerState :=
  { state with history := {
      records := state.history.records ++
        [{ stage, status, step := state.step, tokensSeen := state.tokens, reason }]
      current := none } }

def opened (state : TrainerState) (stage : ExperimentStage) : TrainerState :=
  { state with history := { state.history with current := some {
      stage, status := .running, step := state.step, tokensSeen := state.tokens } } }

end TrainerState

theorem opened_observations (state : TrainerState) (stage next : ExperimentStage)
    (status : StageStatus) (reason : Option String) :
    ((state.observed.closed stage status reason).opened next).observations =
      state.observations + 1 := rfl

variable {environment : Environment} {limits : TrainingLimits} {state : TrainerState}
  {stage next : ExperimentStage} {status : RunStatus} {reason : Option String}

theorem Active.observed (active : Active state stage) (count : Nat) :
    Active (state.observed count) stage :=
  ⟨active.current, active.clean, active.ongoing⟩

theorem Active.observedUntil (active : Active state stage) (now : Nat) :
    Active (state.observedUntil now) stage :=
  ⟨active.current, active.clean, active.ongoing⟩

theorem finishStage_active (active : Active state stage) {ended : StageStatus}
    (final : ended ≠ .running) :
    state.finishStage ended reason = .ok (state.closed stage ended reason) := by
  obtain ⟨record, running, same, stepBound, tokensBound⟩ := active.current
  subst same
  simp only [TrainerState.finishStage,
    StageHistory.finish_active running final stepBound tokensBound]
  rfl

theorem start_closed {ended : StageStatus}
    (legal : next ∈ StageHistory.restrict ended (StageHistory.allowedAfter (some stage))) :
    (state.closed stage ended reason).withHistory
        ((state.closed stage ended reason).history.start next state.step state.tokens) =
      .ok ((state.closed stage ended reason).opened next) := by
  have last : (state.closed stage ended reason).history.records.getLast? = some {
      stage, status := ended, step := state.step, tokensSeen := state.tokens, reason } := by
    simp [TrainerState.closed]
  rw [StageHistory.start_after rfl last (Int.le_refl _) (Int.le_refl _) (by simp) (by simp)]
  rw [if_pos legal]
  rfl

theorem enterStage_closed {ended : StageStatus}
    (legal : next ∈ StageHistory.restrict ended (StageHistory.allowedAfter (some stage))) :
    (state.closed stage ended reason).enterStage next =
      .ok ((state.closed stage ended reason).opened next) :=
  start_closed legal

theorem enterStage_active (active : Active state stage)
    (legal : next ∈ StageHistory.allowedAfter (some stage)) :
    state.enterStage next = .ok ((state.closed stage .complete none).opened next) := by
  obtain ⟨record, running, -⟩ := active.current
  simp only [TrainerState.enterStage, TrainerState.finishActive, running, Option.isSome_some, if_true,
    finishStage_active active (show StageStatus.complete ≠ .running by decide)]
  exact start_closed legal

theorem Active.clean_closed (active : Active state stage) {ended : StageStatus} :
    ∀ record ∈ (state.closed stage ended reason).history.records, ¬ record.stage.Terminal := by
  intro record member
  simp only [TrainerState.closed, List.mem_append, List.mem_singleton] at member
  rcases member with earlier | rfl
  · exact active.clean record earlier
  · exact active.ongoing

theorem Active.enter (active : Active state stage) (next : ExperimentStage)
    (ongoing : ¬ next.Terminal) :
    Active ((state.closed stage .complete none).opened next) next where
  current := ⟨_, rfl, rfl, Int.le_refl _, Int.le_refl _⟩
  clean := active.clean_closed
  ongoing := ongoing

theorem endsIn_finish {base : TrainerState}
    (clean : ∀ record ∈ base.history.records, ¬ record.stage.Terminal) :
    EndsIn { (base.opened status.stage).closed status.stage status.stageStatus reason with
      reported := some status } status where
  idle := rfl
  reported := rfl
  terminal := ⟨base.history.records, _, rfl, rfl, rfl, clean⟩

theorem finishStage_opened {base : TrainerState} {ended : StageStatus}
    (final : ended ≠ .running) :
    (base.opened stage).finishStage ended reason =
      .ok ((base.opened stage).closed stage ended reason) := by
  have running : (base.opened stage).history.current = some {
      stage, status := .running, step := base.step, tokensSeen := base.tokens } := rfl
  change TrainerState.withHistory _
    (StageHistory.finish _ ended reason (some base.step) (some base.tokens)) = _
  rw [StageHistory.finish_active running final (Int.le_refl _) (Int.le_refl _)]
  rfl

theorem RunStatus.stageStatus_ne_running (status : RunStatus) :
    status.stageStatus ≠ .running := by
  cases status <;> decide

/-- What `finish_run` leaves as it was. -/
def SameProgress (before after : TrainerState) : Prop :=
  after.step = before.step ∧ after.tokens = before.tokens ∧
    after.initialStep = before.initialStep ∧ after.latestRecord = before.latestRecord

/-- The ending `finish_run` records: the one asked for, or a failed one after a bad audit. -/
def Records (environment : Environment) (asked recorded : RunStatus) : Prop :=
  recorded = asked ∨ recorded = .failed ∧ ∃ now, (environment.auditError now).isSome

theorem audited_records (environment : Environment) (state : TrainerState) (status : RunStatus)
    (reason : Option String) :
    Records environment status (state.audited environment status reason).1 := by
  unfold TrainerState.audited
  split
  · rename_i message found
    exact .inr ⟨rfl, _, by rw [found]; rfl⟩
  · exact .inl rfl

theorem finishRun_active (environment : Environment) (status : RunStatus)
    (reason : Option String) (active : Active state stage)
    (legal : status.stage ∈ StageHistory.allowedAfter (some stage))
    (failable : ExperimentStage.failed ∈ StageHistory.allowedAfter (some stage)) :
    ∃ final recorded, state.finishRun environment status reason = .ok final ∧
      EndsIn final recorded ∧ Records environment status recorded ∧
      SameProgress state final := by
  have records := audited_records environment state status reason
  obtain ⟨running, isRunning, -⟩ := active.current
  have seen : Active state.observed stage := active.observed 1
  simp only [TrainerState.finishRun, TrainerState.failActive]
  generalize state.audited environment status reason = ending at records ⊢
  by_cases failing : ending.1 = .failed
  · -- the active interval is closed as failed, which leaves only `FAILED` open
    have closable : ending.1 = .failed ∧ state.observed.history.current.isSome :=
      ⟨failing, by simp [TrainerState.observed, isRunning]⟩
    have remains : ending.1.stage ∈
        StageHistory.restrict .failed (StageHistory.allowedAfter (some stage)) := by
      rw [failing]
      exact List.mem_filter.mpr ⟨failable, by decide⟩
    rw [if_pos closable, finishStage_active seen (by decide)]
    simp only [bind, Except.bind, enterStage_closed remains,
      finishStage_opened ending.1.stageStatus_ne_running]
    exact ⟨_, ending.1, rfl, endsIn_finish seen.clean_closed, records, rfl, rfl, rfl, rfl⟩
  · have same : ending.1 = status := records.resolve_right fun bad => failing bad.1
    rw [if_neg fun both => failing both.1]
    simp only [bind, Except.bind, enterStage_active seen (same ▸ legal),
      finishStage_opened ending.1.stageStatus_ne_running]
    exact ⟨_, ending.1, rfl, endsIn_finish seen.clean_closed, records, rfl, rfl, rfl, rfl⟩

def Config.Honours (environment : Environment) (limits : TrainingLimits) (config : Config) : Prop :=
  match config.location with
  | .returned => ∃ status, EndsIn config.state status ∧
      (status = .completed → Config.exhausted limits config.state = true) ∧
      (status = .interrupted → config.state.step = config.state.initialStep ∨
        config.state.latestRecord = some config.state.step) ∧
      (status = .failed → ∃ now, (environment.auditError now).isSome)
  | .raised error => EndsIn config.state .failed ∧ ∃ message, error = .training message
  | _ => True

def Config.Meets (environment : Environment) (config : Config) : Prop :=
  match config.location with
  | .evaluate site =>
    (environment.expired config.state.observations = false →
      (evaluationPass environment environment.evaluationBatches
        (config.state.observations + 1)).1 ≠ .wallTimeExpired) ∧
    (site = .loopHead → environment.expired config.state.observations = false)
  | _ => True

def Recoverable (failure : TrainerError × TrainerState) : Prop :=
  (∃ message, failure.1 = .training message) ∧ ∃ stage, Active failure.2 stage ∧
    ExperimentStage.failed ∈ StageHistory.allowedAfter (some stage)

def LoopStage (stage : ExperimentStage) : Prop :=
  stage = .training ∨ stage = .evaluating ∨ stage = .checkpointed

theorem LoopStage.failable (loop : LoopStage stage) :
    ExperimentStage.failed ∈ StageHistory.allowedAfter (some stage) := by
  rcases loop with rfl | rfl | rfl <;> decide

theorem handle_honours (environment : Environment) (limits : TrainingLimits)
    {failure : TrainerError × TrainerState} (recoverable : Recoverable failure) :
    (Config.handle environment failure).Honours environment limits := by
  obtain ⟨⟨message, training⟩, stage, active, failable⟩ := recoverable
  obtain ⟨final, recorded, ended, ends, records, -⟩ :=
    finishRun_active environment .failed (some failure.1.message) active failable failable
  have failed : recorded = .failed := by
    rcases records with same | bad
    · exact same
    · exact bad.1
  subst failed
  simp only [Config.handle, ended]
  exact ⟨ends, message, training⟩

theorem raiseIf_outcome (active : Active state stage) (loop : LoopStage stage)
    (error : Option String) :
    Outcome (· = state.observed) Recoverable (state.raiseIf error) := by
  cases error with
  | none => exact rfl
  | some message => exact ⟨⟨message, rfl⟩, stage, active.observed 1, loop.failable⟩

def AtBoundary (state : TrainerState) : Prop :=
  Active state .training ∨ Active state .evaluating

theorem AtBoundary.observed (atBoundary : AtBoundary state) (count : Nat) :
    AtBoundary (state.observed count) :=
  atBoundary.imp (·.observed count) (·.observed count)

theorem AtBoundary.running (atBoundary : AtBoundary state) :
    ∃ stage, Active state stage ∧ LoopStage stage ∧
      ExperimentStage.checkpointed ∈ StageHistory.allowedAfter (some stage) := by
  rcases atBoundary with active | active
  · exact ⟨_, active, .inl rfl, by decide⟩
  · exact ⟨_, active, .inr (.inl rfl), by decide⟩

def Saved (boundary : TrainerState) : Prop :=
  Active boundary .checkpointed ∧ boundary.latestRecord = some boundary.step

theorem saveBoundary_outcome (atBoundary : AtBoundary state) :
    Outcome Saved Recoverable (state.saveBoundary environment) := by
  obtain ⟨stage, active, loop, checkpointable⟩ := atBoundary.running
  unfold TrainerState.saveBoundary
  refine (raiseIf_outcome active loop _).bind ?_
  rintro _ rfl
  rw [enterStage_active (active.observed 1) checkpointable]
  have entered := (active.observed 1).enter .checkpointed (by decide)
  refine (raiseIf_outcome entered (.inr (.inr rfl)) _).bind ?_
  rintro _ rfl
  have saved : Active { (((state.observed.closed stage .complete none).opened
      .checkpointed).observed) with latestRecord := some state.step } .checkpointed :=
    ⟨entered.current, entered.clean, entered.ongoing⟩
  refine (raiseIf_outcome saved (.inr (.inr rfl)) _).mono ?_
  rintro _ rfl
  exact ⟨saved.observed 1, rfl⟩

def Config.Invariant (environment : Environment) (limits : TrainingLimits) (config : Config) :
    Prop :=
  match config.location with
  | .start => Active config.state .training ∧ config.state.step = config.state.initialStep
  | .evaluated site validation =>
    AtBoundary config.state ∧ (site = .loopHead → validation = true)
  | .evaluate _ | .loopHead | .update => Active config.state .training
  | .returned | .raised _ => config.Honours environment limits

theorem exhausted_congr (limits : TrainingLimits) {before after : TrainerState} (same : SameProgress before after) :
    Config.exhausted limits after = Config.exhausted limits before := by
  obtain ⟨stepSame, tokensSame, -⟩ := same
  simp [Config.exhausted, stepSame, tokensSame]

theorem finished_outcome (active : Active state stage) (loop : LoopStage stage)
    (legal : status.stage ∈ StageHistory.allowedAfter (some stage))
    (notFailed : status ≠ .failed)
    (spent : status = .completed → Config.exhausted limits state = true)
    (saved : status = .interrupted →
      state.step = state.initialStep ∨ state.latestRecord = some state.step) :
    Outcome (·.Invariant environment limits) Recoverable
      (Config.finished environment status reason state) := by
  obtain ⟨final, recorded, ended, ends, records, same⟩ :=
    finishRun_active environment status reason active legal loop.failable
  have reached : Outcome (· = final) Recoverable (state.finishRun environment status reason) :=
    Outcome.of_eq_ok ended rfl
  refine reached.bind ?_
  rintro _ rfl
  have exhausted := exhausted_congr limits same
  obtain ⟨stepSame, -, initialSame, latestSame⟩ := same
  refine ⟨recorded, ends, ?_, ?_, ?_⟩
  · rintro rfl
    rw [exhausted]
    exact spent (records.resolve_right fun bad => by simp at bad).symm
  · rintro rfl
    rw [stepSame, initialSame, latestSame]
    exact saved (records.resolve_right fun bad => by simp at bad).symm
  · rintro rfl
    exact (records.resolve_left fun same => notFailed same.symm).2

theorem atStart_outcome (active : Active state .training) (first : state.step = state.initialStep) :
    Outcome (·.Invariant environment limits) Recoverable (Config.atStart environment state) := by
  apply Outcome.ite
  · intro _
    exact finished_outcome (active.observed 2) (.inl rfl) (by decide) (by decide) (by simp)
      fun _ => .inl first
  · intro _
    exact active.observed 1

theorem atEvaluate_outcome {site : Site} (active : Active state .training)
    (meets : Config.Meets environment { location := .evaluate site, state }) :
    Outcome (·.Invariant environment limits) Recoverable
      (Config.atEvaluate environment site state) := by
  obtain ⟨uncut, unexpired⟩ := meets
  unfold Config.atEvaluate evaluateAndRecord
  by_cases late : environment.expired state.observations = true
  · simp only [late, if_true]
    refine ⟨.inl (active.observed 1), ?_⟩
    intro loopHead
    rw [unexpired loopHead] at late
    simp at late
  · have onTime : environment.expired state.observations = false := by simpa using late
    have whole := uncut onTime
    simp only [onTime, Bool.false_eq_true, if_false, bind, Except.bind,
      enterStage_active (active.observed 1)
        (show ExperimentStage.evaluating ∈ StageHistory.allowedAfter (some .training) by decide)]
    have entered := (active.observed 1).enter .evaluating (by decide)
    rw [opened_observations]
    generalize evaluationPass environment environment.evaluationBatches
      (state.observations + 1) = pass at whole ⊢
    obtain ⟨outcome, now⟩ := pass
    cases outcome with
    | completed => exact ⟨.inr (entered.observedUntil now), fun _ => rfl⟩
    | wallTimeExpired => exact (whole rfl).elim
    | failed message => exact ⟨⟨message, rfl⟩, .evaluating, entered.observedUntil now, by decide⟩

theorem afterInitial_outcome (atBoundary : AtBoundary state) :
    Outcome (·.Invariant environment limits) Recoverable
      (Config.afterInitial environment state) := by
  refine (saveBoundary_outcome atBoundary).bind ?_
  rintro boundary ⟨active, latest⟩
  apply Outcome.ite
  · intro _
    exact finished_outcome (active.observed 1) (.inr (.inr rfl)) (by decide) (by decide) (by simp)
      fun _ => .inr latest
  · intro _
    rw [enterStage_active (active.observed 1) (by decide)]
    exact (active.observed 1).enter .training (by decide)

theorem atLoopHead_outcome (active : Active state .training) :
    Outcome (·.Invariant environment limits) Recoverable
      (Config.atLoopHead environment limits state) := by
  apply Outcome.ite
  · intro _
    exact ⟨⟨_, rfl⟩, .training, active, by decide⟩
  · intro _
    have seen (interrupted : Bool) :
        Active { state.observed 2 with interrupted } .training :=
      ⟨active.current, active.clean, active.ongoing⟩
    apply Outcome.ite
    · intro _
      apply Outcome.ite
      · intro latest
        exact finished_outcome ((seen _).observed 2) (.inl rfl) (by decide) (by decide) (by simp)
          fun _ => .inr latest
      · intro _
        exact seen _
    · intro _
      exact seen _

theorem afterLoopHead_outcome (atBoundary : AtBoundary state) :
    Outcome (·.Invariant environment limits) Recoverable
      (Config.afterLoopHead environment true state) := by
  refine (saveBoundary_outcome (atBoundary.observed 1)).bind ?_
  rintro boundary ⟨active, latest⟩
  exact finished_outcome (active.observed 2) (.inr (.inr rfl)) (by decide) (by decide) (by simp)
    fun _ => .inr latest

theorem atUpdate_outcome (active : Active state .training) :
    Outcome (·.Invariant environment limits) Recoverable
      (Config.atUpdate environment limits state) := by
  obtain ⟨record, running, same, stepBound, tokensBound⟩ := active.current
  unfold Config.atUpdate
  split
  · rename_i message _
    exact ⟨⟨message, rfl⟩, .training, active.observed 1, by decide⟩
  · rename_i committedTargets _
    -- the counters only grow, so the running interval can still be finished
    have advanced (interrupted : Bool) (observations : Nat) :
        Active { state with
          step := state.step + 1, tokens := state.tokens + committedTargets
          interrupted, observations } .training :=
      ⟨⟨record, running, same, by push_cast; omega, by push_cast; omega⟩,
        active.clean, active.ongoing⟩
    apply Outcome.ite
    · intro _
      exact advanced _ _
    · intro _
      exact ⟨.inl (advanced _ _), by simp⟩

theorem saveIf_outcome {due : Bool} (atBoundary : AtBoundary state) :
    Outcome (fun boundary => (∃ stage, Active boundary stage ∧ LoopStage stage) ∧
      (due = true → Saved boundary)) Recoverable (Config.saveIf environment due state) := by
  apply Outcome.ite
  · intro _
    exact (saveBoundary_outcome atBoundary).mono fun boundary saved =>
      ⟨⟨.checkpointed, saved.1, .inr (.inr rfl)⟩, fun _ => saved⟩
  · intro notDue
    obtain ⟨stage, active, loop, -⟩ := atBoundary.running
    exact ⟨⟨stage, active, loop⟩, fun due => (notDue due).elim⟩

theorem backToTraining_active (active : Active state stage) (loop : LoopStage stage) :
    ∃ resumed, Config.backToTraining state = .ok resumed ∧ Active resumed .training := by
  obtain ⟨record, running, same, -⟩ := active.current
  by_cases training : stage = .training
  · subst training
    exact ⟨state, by simp [Config.backToTraining, running, same], active⟩
  · have legal : ExperimentStage.training ∈ StageHistory.allowedAfter (some stage) := by
      rcases loop with rfl | rfl | rfl
      · exact (training rfl).elim
      · decide
      · decide
    have other : state.history.current.any (·.stage ≠ .training) = true := by
      simpa [running, same] using training
    refine ⟨_, ?_, active.enter .training (by decide)⟩
    rw [Config.backToTraining, if_pos other, enterStage_active active legal]

theorem afterBoundary_outcome {terminal : Bool} (atBoundary : AtBoundary state) :
    Outcome (·.Invariant environment limits) Recoverable
      (Config.afterBoundary environment limits terminal state) := by
  unfold Config.afterBoundary
  refine (saveIf_outcome (atBoundary.observed 1)).bind ?_
  rintro boundary ⟨⟨stage, active, loop⟩, saved⟩
  apply Outcome.ite
  · intro last
    obtain ⟨active, latest⟩ := saved (by simp [last])
    apply Outcome.ite
    · intro spent
      exact finished_outcome active (.inr (.inr rfl)) (by decide) (by decide)
        (fun _ => spent) (by simp)
    · intro _
      exact finished_outcome (active.observed 3) (.inr (.inr rfl)) (by decide) (by decide)
        (by simp) fun _ => .inr latest
  · intro _
    obtain ⟨resumed, entered, training⟩ := backToTraining_active active loop
    rw [entered]
    exact training

theorem handle_location (environment : Environment) (failure : TrainerError × TrainerState) :
    ∃ error state, Config.handle environment failure = { location := .raised error, state } := by
  unfold Config.handle
  split
  · exact ⟨_, _, rfl⟩
  · exact ⟨_, _, rfl⟩

theorem step_invariant {config : Config} (holds : config.Invariant environment limits)
    (meets : config.Meets environment) :
    (config.step environment limits).Invariant environment limits := by
  obtain ⟨location, state⟩ := config
  have segments : Outcome (·.Invariant environment limits) Recoverable
      (Config.segment environment limits { location, state }) := by
    cases location with
    | start => exact atStart_outcome holds.1 holds.2
    | evaluate site => exact atEvaluate_outcome holds meets
    | evaluated site validation =>
      cases site with
      | initial => exact afterInitial_outcome holds.1
      | loopHead =>
        obtain rfl : validation = true := holds.2 rfl
        exact afterLoopHead_outcome holds.1
      | boundary terminal => exact afterBoundary_outcome holds.1
    | loopHead => exact atLoopHead_outcome holds
    | update => exact atUpdate_outcome holds
    | returned => exact holds
    | raised error => exact holds
  unfold Config.step
  cases reached : Config.segment environment limits { location, state } with
  | ok next =>
    rw [reached] at segments
    exact segments
  | error failure =>
    rw [reached] at segments
    have honours := handle_honours environment limits segments
    obtain ⟨error, after, handled⟩ := handle_location environment failure
    simp only [handled] at honours ⊢
    exact honours

theorem Config.Invariant.honours {config : Config} (holds : config.Invariant environment limits) :
    config.Honours environment limits := by
  obtain ⟨location, state⟩ := config
  cases location <;> first | exact holds | exact trivial

structure Stuck (state : TrainerState) : Prop where
  idle : state.history.current = none
  cut : ∃ last, state.history.records.getLast? = some last ∧ last.status = .interrupted ∧
    last.step ≤ state.step ∧ last.tokensSeen ≤ state.tokens

theorem Stuck.observed (stuck : Stuck state) (count : Nat) : Stuck (state.observed count) :=
  ⟨stuck.idle, stuck.cut⟩

theorem stuck_closed (state : TrainerState) (stage : ExperimentStage) (reason : Option String) :
    Stuck (state.closed stage .interrupted reason) :=
  ⟨rfl, { stage, status := .interrupted, step := state.step, tokensSeen := state.tokens, reason },
    by simp [TrainerState.closed], rfl, Int.le_refl _, Int.le_refl _⟩

theorem Stuck.enterStage (stuck : Stuck state) (next : ExperimentStage)
    (other : next ≠ .interrupted) :
    ∃ message, state.enterStage next = .error (.stage message, state) := by
  obtain ⟨last, previous, cut, stepBound, tokensBound⟩ := stuck.cut
  have refused := StageHistory.start_after_interrupted stuck.idle previous cut other
    stepBound tokensBound (by simp) (by simp)
  refine ⟨s!"illegal stage transition: {last.stage.value} -> {next.value}", ?_⟩
  simp only [TrainerState.enterStage, TrainerState.finishActive, stuck.idle, Option.isSome_none, Bool.false_eq_true, if_false,
    bind, Except.bind, refused]
  rfl

theorem Stuck.handle (stuck : Stuck state) (environment : Environment) (error : TrainerError) :
    ∃ message after, Config.handle environment (error, state) =
      { location := .raised (.stage message), state := after } := by
  have failed : (state.audited environment .failed (some error.message)).1 = .failed := by
    unfold TrainerState.audited
    split <;> rfl
  obtain ⟨message, refused⟩ := (stuck.observed 1).enterStage .failed (by decide)
  have idle : state.observed.history.current = none := stuck.idle
  refine ⟨message, state.observed, ?_⟩
  simp only [Config.handle, TrainerState.finishRun, TrainerState.failActive, failed, idle, RunStatus.stage, bind,
    Except.bind, refused, Option.isSome_none, Bool.false_eq_true, and_false, if_false]

theorem Stuck.saveBoundary (stuck : Stuck state) (environment : Environment) :
    ∃ error after, state.saveBoundary environment = .error (error, after) ∧ Stuck after := by
  unfold TrainerState.saveBoundary
  cases environment.capacityError state.observations with
  | some message => exact ⟨_, _, rfl, stuck.observed 1⟩
  | none =>
    obtain ⟨message, refused⟩ := (stuck.observed 1).enterStage .checkpointed (by decide)
    refine ⟨.stage message, state.observed, ?_, stuck.observed 1⟩
    simp only [TrainerState.raiseIf, bind, Except.bind, refused]

theorem evaluationPass_expired {batches now : Nat}
    (cut : (evaluationPass environment batches now).1 = .wallTimeExpired) :
    environment.expired (evaluationPass environment batches now).2 = true := by
  induction batches generalizing now with
  | zero =>
    unfold evaluationPass at cut
    split at cut <;> simp at cut
  | succ batches ih =>
    unfold evaluationPass at cut ⊢
    split at cut
    · rename_i expired
      rw [if_pos expired]
      exact environment.expired_mono _ _ (Nat.le_succ now) expired
    · rename_i unexpired
      rw [if_neg unexpired]
      split at cut
      · simp at cut
      · exact ih cut

theorem evaluateAndRecord_cut (active : Active state .training)
    (onTime : environment.expired state.observations = false)
    (cut : (evaluationPass environment environment.evaluationBatches
      (state.observations + 1)).1 = .wallTimeExpired) :
    ∃ after, evaluateAndRecord environment state = .ok (false, after) ∧ Stuck after ∧
      environment.expired after.observations = true := by
  have expired := evaluationPass_expired cut
  have entered := (active.observed 1).enter .evaluating (by decide)
  unfold evaluateAndRecord
  simp only [onTime, Bool.false_eq_true, if_false, bind, Except.bind,
    enterStage_active (active.observed 1)
      (show ExperimentStage.evaluating ∈ StageHistory.allowedAfter (some .training) by decide)]
  rw [opened_observations]
  generalize evaluationPass environment environment.evaluationBatches
    (state.observations + 1) = pass at cut expired ⊢
  obtain ⟨outcome, now⟩ := pass
  obtain rfl : outcome = .wallTimeExpired := cut
  simp only [finishStage_active (entered.observedUntil now)
    (show StageStatus.interrupted ≠ .running by decide)]
  exact ⟨_, rfl, stuck_closed _ _ _, expired⟩

theorem stuck_segment {site : Site} (stuck : Stuck state)
    (expired : environment.expired state.observations = true) :
    ∃ error after, Config.segment environment limits
      { location := .evaluated site false, state } = .error (error, after) ∧ Stuck after := by
  cases site with
  | initial =>
    obtain ⟨error, after, refused, stays⟩ := stuck.saveBoundary environment
    exact ⟨error, after, by simp only [Config.segment, Config.afterInitial, bind, Except.bind,
      refused], stays⟩
  | loopHead =>
    obtain ⟨error, after, refused, stays⟩ :=
      (stuck.observed 1).saveBoundary environment
    exact ⟨error, after, by simp only [Config.segment, Config.afterLoopHead, Config.cutActive,
      stuck.idle, bind, Except.bind, Option.isSome_none, Bool.and_false, Bool.false_eq_true,
      if_false, refused],
      stays⟩
  | boundary terminal =>
    obtain ⟨error, after, refused, stays⟩ :=
      (stuck.observed 1).saveBoundary environment
    exact ⟨error, after, by simp only [Config.segment, Config.afterBoundary, Config.saveIf,
      expired, bind, Except.bind, Bool.or_true, Bool.true_or, if_true, refused], stays⟩

theorem expired_loopHead_segment (active : Active state .training)
    (expired : environment.expired state.observations = true) :
    ∃ error after, Config.segment environment limits
      { location := .evaluated .loopHead false, state } = .error (error, after) ∧
        Stuck after := by
  obtain ⟨record, running, -⟩ := active.current
  have closes : state.observed.finishStage .interrupted (some "wall_time_limit") = .ok _ :=
    finishStage_active (active.observed 1) (by decide)
  have stuck := stuck_closed state.observed .training (some "wall_time_limit")
  obtain ⟨error, after, refused, stays⟩ := stuck.saveBoundary environment
  exact ⟨error, after, by simp only [Config.segment, Config.afterLoopHead, Config.cutActive, expired,
    running, bind, Except.bind, Option.isSome_some, Bool.and_true, Bool.not_false, if_true, closes, refused],
    stays⟩

/-- One pass that misses the condition makes the run fail two segments later, with neither an
`INTERRUPTED` nor a `FAILED` stage recorded. -/
theorem missed_not_honoured {config : Config} (holds : config.Invariant environment limits)
    (missed : ¬ config.Meets environment) :
    ¬ ((config.step environment limits).step environment limits).Honours environment limits := by
  obtain ⟨location, state⟩ := config
  cases location with
  | evaluate site =>
    have active : Active state .training := holds
    have next : ∃ after, Config.step environment limits { location := .evaluate site, state } =
        { location := .evaluated site false, state := after } ∧
        ∃ error last, Config.segment environment limits
          { location := .evaluated site false, state := after } = .error (error, last) ∧
            Stuck last := by
      cases late : environment.expired state.observations with
      | true =>
        have expired : environment.expired state.observed.observations = true :=
          environment.expired_mono _ _ (Nat.le_succ _) late
        have loopHead : site = .loopHead := by
          by_contra other
          exact missed ⟨fun onTime => by simp [late] at onTime, fun same => (other same).elim⟩
        subst loopHead
        refine ⟨state.observed, ?_, expired_loopHead_segment (active.observed 1) expired⟩
        simp [Config.step, Config.segment, Config.atEvaluate, evaluateAndRecord, late, bind,
          Except.bind, pure, Except.pure]
      | false =>
        have cut : (evaluationPass environment environment.evaluationBatches
            (state.observations + 1)).1 = .wallTimeExpired := by
          by_contra whole
          exact missed ⟨fun _ => whole, fun _ => late⟩
        obtain ⟨after, evaluated, stuck, expired⟩ := evaluateAndRecord_cut active late cut
        refine ⟨after, ?_, stuck_segment stuck expired⟩
        simp [Config.step, Config.segment, Config.atEvaluate, evaluated, bind, Except.bind,
          pure, Except.pure]
    obtain ⟨after, stepped, error, last, refused, stuck⟩ := next
    obtain ⟨message, final, handled⟩ := stuck.handle environment error
    rw [stepped]
    simp only [Config.step, refused, handled]
    rintro ⟨-, training, impossible⟩
    simp at impossible
  | _ => exact (missed trivial).elim

def setupRecords : List StageRecord := [
  { stage := .configured, status := .complete }, { stage := .inspected, status := .complete },
  { stage := .validated, status := .complete }]

theorem initialHistory_eq (step tokens : Nat) :
    initialHistory step tokens = .ok {
      records := setupRecords
      current := some { stage := .training, status := .running, step, tokensSeen := tokens } } := by
  have previous : setupRecords.getLast? = some { stage := .validated, status := .complete } := rfl
  have idle : ({ records := setupRecords } : StageHistory).current = none := rfl
  have legal : ExperimentStage.training ∈ StageHistory.allowedAfter (some .validated) := by decide
  exact StageHistory.start_after_complete idle previous rfl (Int.natCast_nonneg step)
    (Int.natCast_nonneg tokens) (Int.natCast_nonneg step) (Int.natCast_nonneg tokens) legal

theorem setupRecords_clean : ∀ record ∈ setupRecords, ¬ record.stage.Terminal := by decide

theorem begin_invariant (environment : Environment) (limits : TrainingLimits) (step tokens : Nat) :
    (Config.begin step tokens).Invariant environment limits := by
  simp only [Config.begin, initialHistory_eq]
  exact ⟨⟨⟨_, rfl, rfl, Int.le_refl _, Int.le_refl _⟩, setupRecords_clean, by decide⟩, rfl⟩

def Config.Ended (config : Config) : Prop :=
  config.location = .returned ∨ ∃ error, config.location = .raised error

def Config.remaining (limits : TrainingLimits) (config : Config) : Nat :=
  let updates := 6 * (limits.maxSteps - config.state.step)
  match config.location with
  | .returned | .raised _ => 0
  | .evaluated .loopHead _ => updates + 1
  | .evaluate .loopHead | .update => updates + 2
  | .loopHead => updates + 3
  | .evaluated _ _ => updates + 4
  | .evaluate _ => updates + 5
  | .start => updates + 6

def Config.Ready (limits : TrainingLimits) (config : Config) : Prop :=
  config.location = .update → config.state.step < limits.maxSteps

def KeepsStep (state : TrainerState) (attempt : Attempt TrainerState) : Prop :=
  Outcome (fun after => after.step = state.step) (fun _ => True) attempt

theorem KeepsStep.bind {attempt : Attempt TrainerState}
    {continuation : TrainerState → Attempt TrainerState} (first : KeepsStep state attempt)
    (rest : ∀ after, KeepsStep after (continuation after)) :
    KeepsStep state (attempt >>= continuation) := by
  refine Outcome.bind first ?_
  intro after same
  exact (rest after).mono fun final kept => kept.trans same

theorem KeepsStep.of_observed {attempt : Attempt TrainerState}
    (keeps : KeepsStep state.observed attempt) : KeepsStep state attempt := keeps

theorem withHistory_keepsStep (result : Except String StageHistory) :
    KeepsStep state (state.withHistory result) := by
  cases result with
  | ok history => exact rfl
  | error message => exact trivial

theorem finishStage_keepsStep {ended : StageStatus} :
    KeepsStep state (state.finishStage ended reason) :=
  withHistory_keepsStep _

theorem enterStage_keepsStep : KeepsStep state (state.enterStage stage) := by
  have finishes : KeepsStep state state.finishActive :=
    Outcome.ite (fun _ => finishStage_keepsStep) fun _ => rfl
  exact finishes.bind fun after => withHistory_keepsStep _

theorem raiseIf_keepsStep (error : Option String) : KeepsStep state (state.raiseIf error) := by
  cases error with
  | some message => exact trivial
  | none => exact rfl

theorem saveBoundary_keepsStep : KeepsStep state (state.saveBoundary environment) := by
  unfold TrainerState.saveBoundary
  refine (raiseIf_keepsStep _).bind fun after => ?_
  refine enterStage_keepsStep.bind fun after => ?_
  exact (raiseIf_keepsStep _).bind fun after => raiseIf_keepsStep _

theorem finished_returned :
    Outcome (fun next => next.location = .returned) (fun _ => True)
      (Config.finished environment status reason state) := by
  unfold Config.finished
  cases state.finishRun environment status reason with
  | ok final => exact rfl
  | error failure => exact trivial

theorem evaluateAndRecord_keepsStep :
    Outcome (fun after => after.2.step = state.step) (fun _ => True)
      (evaluateAndRecord environment state) := by
  unfold evaluateAndRecord
  refine Outcome.ite (fun _ => rfl) fun _ => ?_
  refine Outcome.bind enterStage_keepsStep fun entered same => ?_
  dsimp only
  split
  · exact same
  · exact Outcome.bind finishStage_keepsStep fun after kept => kept.trans same
  · exact trivial

def Nearer (limits : TrainingLimits) (bound : Nat) (attempt : Attempt Config) : Prop :=
  Outcome (fun next => next.remaining limits < bound ∧ next.Ready limits) (fun _ => True) attempt

theorem nearer_of_returned {bound : Nat} (positive : 0 < bound) {attempt : Attempt Config}
    (returned : Outcome (fun next => next.location = .returned) (fun _ => True) attempt) :
    Nearer limits bound attempt := by
  refine returned.mono fun next same => ?_
  simp [Config.remaining, Config.Ready, same, positive]

theorem afterInitial_nearer :
    Nearer limits (6 * (limits.maxSteps - state.step) + 4)
      (Config.afterInitial environment state) := by
  refine Outcome.bind saveBoundary_keepsStep fun saved same => ?_
  refine Outcome.ite (fun _ => nearer_of_returned (by omega) finished_returned) fun _ => ?_
  refine Outcome.bind enterStage_keepsStep fun entered kept => ?_
  have steps : entered.step = state.step := kept.trans same
  simp [Config.remaining, Config.Ready, steps, pure, Except.pure]

theorem afterLoopHead_returned {validation : Bool} :
    Outcome (fun next => next.location = .returned) (fun _ => True)
      (Config.afterLoopHead environment validation state) := by
  have cuts : KeepsStep state (Config.cutActive environment validation state) :=
    Outcome.ite (fun _ => finishStage_keepsStep.of_observed) fun _ => rfl
  refine Outcome.bind cuts fun cut _ => ?_
  exact Outcome.bind saveBoundary_keepsStep fun saved _ => finished_returned

theorem afterBoundary_nearer {terminal : Bool} :
    Nearer limits (6 * (limits.maxSteps - state.step) + 4)
      (Config.afterBoundary environment limits terminal state) := by
  have saves (due : Bool) : KeepsStep state (Config.saveIf environment due state.observed) :=
    Outcome.ite (fun _ => saveBoundary_keepsStep.of_observed) fun _ => rfl
  refine Outcome.bind (saves _) fun saved same => ?_
  refine Outcome.ite (fun _ => ?_) fun _ => ?_
  · refine nearer_of_returned (by omega) ?_
    exact Outcome.ite (fun _ => finished_returned) fun _ => finished_returned
  · have resumes : KeepsStep saved (Config.backToTraining saved) :=
      Outcome.ite (fun _ => enterStage_keepsStep) fun _ => rfl
    refine Outcome.bind resumes fun resumed kept => ?_
    have steps : resumed.step = state.step := kept.trans same
    simp [Config.remaining, Config.Ready, steps, pure, Except.pure]

theorem atLoopHead_nearer :
    Nearer limits (6 * (limits.maxSteps - state.step) + 3)
      (Config.atLoopHead environment limits state) := by
  refine Outcome.ite (fun _ => trivial) fun left => ?_
  refine Outcome.ite (fun _ => Outcome.ite (fun _ => ?_) fun _ => ?_) fun _ => ?_
  · exact nearer_of_returned (by omega) finished_returned
  · simp [Config.remaining, Config.Ready, TrainerState.observed]
  · have below : state.step < limits.maxSteps := by
      simp only [Config.exhausted, Bool.or_eq_true, decide_eq_true_eq, not_or] at left
      omega
    simpa [Config.remaining, Config.Ready, TrainerState.observed] using below

theorem atUpdate_nearer (below : state.step < limits.maxSteps) :
    Nearer limits (6 * (limits.maxSteps - state.step) + 2)
      (Config.atUpdate environment limits state) := by
  unfold Config.atUpdate
  split
  · trivial
  · refine Outcome.ite (fun _ => ?_) fun _ => ?_
    · simp only [Outcome.ok_iff, Config.remaining, Config.Ready, TrainerState.observed]
      exact ⟨by omega, by simp⟩
    · simp only [Outcome.ok_iff, Config.remaining, Config.Ready, TrainerState.observed]
      exact ⟨by omega, by simp⟩

theorem segment_nearer (environment : Environment) {config : Config} (ready : config.Ready limits) (ongoing : ¬ config.Ended) :
    Nearer limits (config.remaining limits) (Config.segment environment limits config) := by
  obtain ⟨location, state⟩ := config
  cases location with
  | start =>
    refine Outcome.ite (fun _ => ?_) fun _ => ?_
    · exact nearer_of_returned (by simp [Config.remaining]) finished_returned
    · simp [Config.remaining, Config.Ready, TrainerState.observed]
  | evaluate site =>
    refine Outcome.bind evaluateAndRecord_keepsStep fun after same => ?_
    cases site <;> simp [Config.remaining, Config.Ready, same, pure, Except.pure]
  | evaluated site validation =>
    cases site with
    | initial => exact afterInitial_nearer
    | loopHead => exact nearer_of_returned (by simp [Config.remaining]) afterLoopHead_returned
    | boundary terminal => exact afterBoundary_nearer
  | loopHead => exact atLoopHead_nearer
  | update => exact atUpdate_nearer (ready rfl)
  | returned => exact (ongoing (.inl rfl)).elim
  | raised error => exact (ongoing (.inr ⟨error, rfl⟩)).elim

theorem step_nearer (environment : Environment) {config : Config} (ready : config.Ready limits) :
    (config.step environment limits).Ready limits ∧
      (¬ config.Ended →
        (config.step environment limits).remaining limits < config.remaining limits) := by
  by_cases ended : config.Ended
  · have fixed : config.step environment limits = config := by
      obtain ⟨location, state⟩ := config
      rcases ended with same | ⟨error, same⟩ <;> simp only at same <;> subst same <;> rfl
    rw [fixed]
    exact ⟨ready, fun ongoing => (ongoing ended).elim⟩
  · have nearer := segment_nearer environment ready ended
    unfold Config.step
    cases reached : Config.segment environment limits config with
    | ok next =>
      rw [reached] at nearer
      exact ⟨nearer.2, fun _ => nearer.1⟩
    | error failure =>
      obtain ⟨error, after, handled⟩ := handle_location environment failure
      have positive : 0 < config.remaining limits := by
        obtain ⟨location, state⟩ := config
        unfold Config.remaining
        cases location with
        | returned => exact (ended (.inl rfl)).elim
        | raised error => exact (ended (.inr ⟨error, rfl⟩)).elim
        | evaluated site => cases site <;> simp
        | evaluate site => cases site <;> simp
        | _ => simp
      simp only [handled]
      exact ⟨by simp [Config.Ready], fun _ => by simpa [Config.remaining] using positive⟩

def deadlineInEvaluation : Environment where
  expired now := decide (4 ≤ now)
  expired_mono := by
    intro earlier later order expired
    simp only [decide_eq_true_eq] at expired ⊢
    omega
  cancelled _ := false
  signalled _ := false
  evaluationBatches := 2
  evaluationError _ := none
  capacityError _ := none
  saveError _ := none
  committedError _ := none
  auditError _ := none
  update _ := .applied 8
  scientificDue _ := false
  operationalDue _ := false

end SparseLab.Training
