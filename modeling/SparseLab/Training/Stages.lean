import Mathlib.Algebra.GroupWithZero.Nat
import Mathlib.Data.List.Chain

/-!
Stage records and their transitions, from `training/stages.py`. Timestamps and payloads are left
out.
-/

namespace SparseLab.Training

inductive ExperimentStage
  | configured | inspected | validated | smokeTest | warmup | training
  | evaluating | checkpointed | complete | failed | interrupted
  deriving DecidableEq

namespace ExperimentStage

def value : ExperimentStage → String
  | configured => "CONFIGURED"
  | inspected => "INSPECTED"
  | validated => "VALIDATED"
  | smokeTest => "SMOKE_TEST"
  | warmup => "WARMUP"
  | training => "TRAINING"
  | evaluating => "EVALUATING"
  | checkpointed => "CHECKPOINTED"
  | complete => "COMPLETE"
  | failed => "FAILED"
  | interrupted => "INTERRUPTED"

def text : Option ExperimentStage → String
  | none => "None"
  | some stage => stage.value

def Terminal (stage : ExperimentStage) : Prop :=
  stage = complete ∨ stage = failed ∨ stage = interrupted

instance (stage : ExperimentStage) : Decidable stage.Terminal :=
  inferInstanceAs (Decidable (_ ∨ _ ∨ _))

end ExperimentStage

inductive StageStatus
  | running | complete | failed | interrupted
  deriving DecidableEq

def StageStatus.value : StageStatus → String
  | running => "running"
  | complete => "complete"
  | failed => "failed"
  | interrupted => "interrupted"

structure StageRecord where
  stage : ExperimentStage
  status : StageStatus
  step : Int := 0
  tokensSeen : Int := 0
  reason : Option String := none
  deriving DecidableEq

structure StageHistory where
  records : List StageRecord := []
  current : Option StageRecord := none
  deriving DecidableEq

namespace StageHistory

open ExperimentStage

/-- The `_next` table; `none` stands for a key the table does not have. -/
def next : Option ExperimentStage → Option (List ExperimentStage)
  | none => some [configured]
  | some configured => some [inspected]
  | some inspected => some [validated]
  | some validated => some [smokeTest, training]
  | some smokeTest => some [warmup, training]
  | some warmup => some [training]
  | some training => some [evaluating, checkpointed]
  | some evaluating => some [checkpointed, training]
  | some checkpointed => some [training, complete, interrupted]
  | some _ => none

/-- The stages that may follow `previous` before the last record's status is looked at. -/
def allowedAfter (previous : Option ExperimentStage) : List ExperimentStage :=
  match next previous, previous with
  | some stages, some _ => stages ++ [failed, interrupted]
  | some stages, none => stages
  | none, _ => []

def restrict (status : StageStatus) (stages : List ExperimentStage) : List ExperimentStage :=
  match status with
  | .failed => stages.filter (· = failed)
  | .interrupted => stages.filter (· = interrupted)
  | _ => stages

def start (history : StageHistory) (stage : ExperimentStage) (step tokensSeen : Int := 0) :
    Except String StageHistory :=
  match history.current with
  | some active => .error s!"stage is still active: {active.stage.value}"
  | none =>
    let last := history.records.getLast?
    let previous := last.map StageRecord.stage
    if last.any fun record => step < record.step || tokensSeen < record.tokensSeen then
      .error "stage counters cannot move backward"
    else
      let allowed := match last with
        | some record => restrict record.status (allowedAfter previous)
        | none => allowedAfter previous
      if stage ∉ allowed then
        .error s!"illegal stage transition: {text previous} -> {stage.value}"
      else if step < 0 || tokensSeen < 0 then
        .error "stage counters must be nonnegative"
      else
        .ok { history with current := some { stage, status := .running, step, tokensSeen } }

def finish (history : StageHistory) (status : StageStatus := .complete)
    (reason : Option String := none) (step tokensSeen : Option Int := none) :
    Except String StageHistory :=
  match history.current with
  | none => .error "no active stage"
  | some last =>
    if status = .running then
      .error s!"unsupported stage status: {status.value}"
    else
      let finalStep := step.getD last.step
      let finalTokens := tokensSeen.getD last.tokensSeen
      if finalStep < last.step || finalTokens < last.tokensSeen then
        .error "stage counters cannot move backwards"
      else
        .ok {
          records := history.records ++ [{
            stage := last.stage, status, step := finalStep, tokensSeen := finalTokens, reason }]
          current := none
        }

theorem finish_active {history : StageHistory} {last : StageRecord} {status : StageStatus}
    {reason : Option String} {step tokensSeen : Int}
    (active : history.current = some last) (ended : status ≠ .running)
    (stepBound : last.step ≤ step) (tokensBound : last.tokensSeen ≤ tokensSeen) :
    history.finish status reason (some step) (some tokensSeen) = .ok {
      records := history.records ++ [{ stage := last.stage, status, step, tokensSeen, reason }]
      current := none } := by
  have stepFine : ¬ step < last.step := by omega
  have tokensFine : ¬ tokensSeen < last.tokensSeen := by omega
  simp [finish, active, ended, stepFine, tokensFine]

theorem start_after {history : StageHistory} {last : StageRecord} {stage : ExperimentStage}
    {step tokensSeen : Int} (idle : history.current = none)
    (previous : history.records.getLast? = some last)
    (stepBound : last.step ≤ step) (tokensBound : last.tokensSeen ≤ tokensSeen)
    (stepNonneg : 0 ≤ step) (tokensNonneg : 0 ≤ tokensSeen) :
    history.start stage step tokensSeen =
      if stage ∈ restrict last.status (allowedAfter (some last.stage)) then
        .ok { history with current := some { stage, status := .running, step, tokensSeen } }
      else
        .error s!"illegal stage transition: {last.stage.value} -> {stage.value}" := by
  have stepFine : ¬ step < last.step := by omega
  have tokensFine : ¬ tokensSeen < last.tokensSeen := by omega
  have stepPositive : ¬ step < 0 := by omega
  have tokensPositive : ¬ tokensSeen < 0 := by omega
  by_cases legal : stage ∈ restrict last.status (allowedAfter (some last.stage))
  · simp [start, idle, previous, stepFine, tokensFine, stepPositive, tokensPositive, legal]
  · simp [start, idle, previous, stepFine, tokensFine, legal, text]

theorem start_after_complete {history : StageHistory} {last : StageRecord}
    {stage : ExperimentStage} {step tokensSeen : Int} (idle : history.current = none)
    (previous : history.records.getLast? = some last) (completed : last.status = .complete)
    (stepBound : last.step ≤ step) (tokensBound : last.tokensSeen ≤ tokensSeen)
    (stepNonneg : 0 ≤ step) (tokensNonneg : 0 ≤ tokensSeen)
    (legal : stage ∈ allowedAfter (some last.stage)) :
    history.start stage step tokensSeen =
      .ok { history with current := some { stage, status := .running, step, tokensSeen } } := by
  rw [start_after idle previous stepBound tokensBound stepNonneg tokensNonneg, completed]
  exact if_pos legal

theorem start_after_interrupted {history : StageHistory} {last : StageRecord}
    {stage : ExperimentStage} {step tokensSeen : Int} (idle : history.current = none)
    (previous : history.records.getLast? = some last) (cut : last.status = .interrupted)
    (other : stage ≠ interrupted)
    (stepBound : last.step ≤ step) (tokensBound : last.tokensSeen ≤ tokensSeen)
    (stepNonneg : 0 ≤ step) (tokensNonneg : 0 ≤ tokensSeen) :
    history.start stage step tokensSeen =
      .error s!"illegal stage transition: {last.stage.value} -> {stage.value}" := by
  rw [start_after idle previous stepBound tokensBound stepNonneg tokensNonneg, cut]
  apply if_neg
  simp [restrict, other]

inductive Call
  | start (stage : ExperimentStage) (step tokensSeen : Int)
  | finish (status : StageStatus) (reason : Option String) (step tokensSeen : Option Int)

def Call.run (history : StageHistory) : Call → Except String StageHistory
  | start stage step tokensSeen => history.start stage step tokensSeen
  | finish status reason step tokensSeen => history.finish status reason step tokensSeen

/-- A refused call leaves the history as it was. -/
def perform (history : StageHistory) (call : Call) : StageHistory :=
  match call.run history with
  | .ok after => after
  | .error _ => history

def intervals (history : StageHistory) : List StageRecord :=
  history.records ++ history.current.toList

def Follows (earlier later : StageRecord) : Prop :=
  later.stage ∈ restrict earlier.status (allowedAfter (some earlier.stage)) ∧
    earlier.step ≤ later.step ∧ earlier.tokensSeen ≤ later.tokensSeen

def Opens (record : StageRecord) : Prop :=
  record.stage = configured ∧ 0 ≤ record.step ∧ 0 ≤ record.tokensSeen

structure Lawful (history : StageHistory) : Prop where
  chained : history.intervals.IsChain Follows
  first : ∀ record ∈ history.intervals.head?, Opens record

variable {history : StageHistory}

theorem start_ok {stage : ExperimentStage} {step tokensSeen : Int} {after : StageHistory}
    (started : history.start stage step tokensSeen = .ok after) :
    history.current = none ∧
      after = { history with current := some { stage, status := .running, step, tokensSeen } } ∧
      0 ≤ step ∧ 0 ≤ tokensSeen ∧ (history.records = [] → stage = configured) ∧
      ∀ last ∈ history.records.getLast?,
        Follows last { stage, status := .running, step, tokensSeen } := by
  unfold start at started
  cases active : history.current with
  | some active' => simp [active] at started
  | none =>
    simp only [active] at started
    split_ifs at started with backward illegal negative
    cases started
    simp only [Bool.or_eq_true, decide_eq_true_eq, not_or, Int.not_lt] at negative
    refine ⟨rfl, rfl, negative.1, negative.2, fun empty => ?_, fun last found => ?_⟩
    · simpa [empty, allowedAfter, next] using illegal
    · rw [Option.mem_def] at found
      simp only [found, Option.any_some, Bool.or_eq_true, decide_eq_true_eq, not_or,
        Int.not_lt] at backward
      exact ⟨by simpa [found] using illegal, backward⟩

theorem finish_ok {status : StageStatus} {reason : Option String}
    {step tokensSeen : Option Int} {after : StageHistory}
    (finished : history.finish status reason step tokensSeen = .ok after) :
    ∃ last record, history.current = some last ∧ record.stage = last.stage ∧
      last.step ≤ record.step ∧ last.tokensSeen ≤ record.tokensSeen ∧
      after = { records := history.records ++ [record], current := none } := by
  unfold finish at finished
  cases active : history.current with
  | none => simp [active] at finished
  | some last =>
    simp only [active] at finished
    split_ifs at finished with running backward
    cases finished
    simp only [Bool.or_eq_true, decide_eq_true_eq, not_or, Int.not_lt] at backward
    refine ⟨last, _, rfl, ?_, ?_, ?_, rfl⟩
    · rfl
    · exact backward.1
    · exact backward.2

theorem lawful_append {records : List StageRecord} {record : StageRecord}
    {after : StageHistory} (shape : after.intervals = records ++ [record])
    (chained : records.IsChain Follows) (first : ∀ record ∈ records.head?, Opens record)
    (follows : ∀ last ∈ records.getLast?, Follows last record)
    (opens : records = [] → Opens record) : after.Lawful := by
  constructor
  · rw [shape]
    refine chained.append (List.isChain_singleton _) fun last found other same => ?_
    cases same
    exact follows last found
  · rw [shape]
    cases records with
    | nil =>
      intro other same
      cases same
      exact opens rfl
    | cons head rest => exact first

theorem perform_lawful (lawful : history.Lawful) (call : Call) :
    (history.perform call).Lawful ∧ history.records <+: (history.perform call).records := by
  obtain ⟨chained, first⟩ := lawful
  unfold perform
  cases ran : call.run history with
  | error refused => exact ⟨⟨chained, first⟩, List.prefix_rfl⟩
  | ok after =>
    cases call with
    | start stage step tokensSeen =>
      obtain ⟨active, rfl, stepPos, tokensPos, begins, follows⟩ := start_ok ran
      simp only [intervals, active, Option.toList_none, List.append_nil] at chained first
      exact ⟨lawful_append rfl chained first follows fun empty =>
        ⟨begins empty, stepPos, tokensPos⟩, List.prefix_rfl⟩
    | finish status reason step tokensSeen =>
      obtain ⟨last, record, active, stage, further, more, rfl⟩ := finish_ok ran
      simp only [intervals, active, Option.toList_some] at chained first
      obtain ⟨before, -, follows⟩ := List.isChain_append.mp chained
      refine ⟨lawful_append (List.append_nil _) before ?_ ?_ ?_, List.prefix_append _ _⟩
      · intro record found
        cases shape : history.records with
        | nil => simp [shape] at found
        | cons head rest => exact first record (by simpa [shape] using found)
      · intro earlier found
        obtain ⟨legal, steps, tokens⟩ := follows earlier found last rfl
        exact ⟨stage ▸ legal, by omega, by omega⟩
      · intro empty
        obtain ⟨configured, steps, tokens⟩ := first last (by simp [empty])
        exact ⟨stage.trans configured, by omega, by omega⟩

theorem intervals_after_terminal {earlier later : StageRecord} (terminal : earlier.stage.Terminal) :
    ¬ Follows earlier later := by
  intro follows
  have closed : allowedAfter (some earlier.stage) = [] := by
    rcases terminal with same | same | same <;> simp [same, allowedAfter, next]
  have legal := follows.1
  cases ended : earlier.status <;> simp [closed, restrict, ended] at legal

/-- Whatever is called, and whatever of it is refused, the intervals are legal transitions with
counters that never fall, nothing follows a terminal stage, and what was recorded stays. -/
theorem history_lawful (earlier later : List Call) :
    let history := (earlier ++ later).foldl perform {}
    Lawful history ∧ (earlier.foldl perform {}).records <+: history.records ∧
      ∀ front record back, history.intervals = front ++ record :: back →
        record.stage.Terminal → back = [] := by
  have run (calls : List Call) (history : StageHistory) (lawful : history.Lawful) :
      (calls.foldl perform history).Lawful ∧
        history.records <+: (calls.foldl perform history).records := by
    induction calls generalizing history with
    | nil => exact ⟨lawful, List.prefix_rfl⟩
    | cons call calls ih =>
      obtain ⟨next, kept⟩ := perform_lawful lawful call
      obtain ⟨last, longer⟩ := ih _ next
      exact ⟨last, kept.trans longer⟩
  obtain ⟨before, -⟩ := run earlier {} ⟨List.isChain_nil, fun record found => by cases found⟩
  rw [List.foldl_append]
  obtain ⟨lawful, kept⟩ := run later _ before
  refine ⟨lawful, kept, fun front record back shape terminal => ?_⟩
  cases back with
  | nil => rfl
  | cons following back =>
    have chained := lawful.chained
    rw [shape] at chained
    exact absurd (List.isChain_append_cons_cons.mp chained).2.1 (intervals_after_terminal terminal)

end StageHistory

end SparseLab.Training
