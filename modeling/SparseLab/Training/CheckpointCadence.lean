import Mathlib.Algebra.Order.Field.Basic
import Mathlib.Tactic.NormNum
import SparseLab.Checkpoints.Retention
import SparseLab.Library.Binary64
import SparseLab.Training.Continuation

/-!
When a run saves, from `training/trainer.py`. Seconds are rationals, and a `Rounding` says what
float arithmetic does to them.
-/

namespace SparseLab.Training

open Library Checkpoints

/-- `CheckpointConfig` -/
structure CheckpointCadence where
  everySteps : Option Nat
  everyTokens : Option Nat
  everyMinutes : Option ℚ
  steps : List Nat
  retention : Option CheckpointRetention
  stepsPositive : ∀ interval ∈ everySteps, 0 < interval
  tokensPositive : ∀ interval ∈ everyTokens, 0 < interval
  minutesPositive : ∀ interval ∈ everyMinutes, 0 < interval

namespace CheckpointCadence

variable (config : CheckpointCadence) (rounding : Rounding)

def milestones : List Milestone :=
  match config.retention with
  | none => []
  | some policy => policy.milestones

def since (counter : Nat) : Option Nat → Nat
  | none => counter
  | some mark => binary64 (binary64 counter - mark)

def covered (watermarks : Option Watermarks) (milestone : Milestone) : Bool :=
  match watermarks with
  | none => false
  | some marks => decide (milestone.Reached marks.step marks.tokens)

def requested (step tokens : Nat) (watermarks : Option Watermarks) : List Milestone :=
  config.milestones.filter fun milestone =>
    milestone.Reached step tokens && !covered watermarks milestone

def stepsDue (step : Nat) (watermarks : Option Watermarks) : Bool :=
  match config.everySteps with
  | none => false
  | some interval => interval ≤ since step (watermarks.map Watermarks.step)

def tokensDue (tokens : Nat) (watermarks : Option Watermarks) : Bool :=
  match config.everyTokens with
  | none => false
  | some interval => interval ≤ since tokens (watermarks.map Watermarks.tokens)

def minutesSince (elapsed mark : ℚ) : ℚ :=
  rounding.round (rounding.round (elapsed - mark) / 60)

def minutesDue (elapsed : ℚ) (watermarks : Option Watermarks) : Bool :=
  match config.everyMinutes with
  | none => false
  | some interval => interval ≤
      minutesSince rounding elapsed ((watermarks.map Watermarks.minutes).getD 0)

def checkpointDue (step tokens : Nat) (elapsed : ℚ) (watermarks : Option Watermarks) : Bool :=
  config.requested step tokens watermarks ≠ [] || config.steps.contains step ||
    (config.stepsDue step watermarks || config.tokensDue tokens watermarks ||
      config.minutesDue rounding elapsed watermarks)

end CheckpointCadence

structure Visit where
  step : Nat
  tokens : Nat
  elapsed : ℚ
  requested : List Milestone
  due : Bool
  saved : Option Bool

/-- A run with everything before it. `checked` is the time of its last check or opening save. -/
structure History where
  step : Nat
  tokens : Nat
  checked : ℚ
  watermarks : Option Watermarks
  visits : List Visit

/-- One update and its clock: when its end was checked, when a save happens, whether the step is
terminal or has a new best loss, and whether the operator's policy is due. -/
structure Pass where
  committed : Nat
  checked : ℚ
  savedAt : ℚ
  terminalOrBest : Bool
  operational : Bool

namespace History

variable (config : CheckpointCadence) (rounding : Rounding)

/-- `save_boundary`, which moves the watermarks unless it saves for the operator only. -/
def floatWatermarks (step tokens : Nat) (elapsed : ℚ) (previous : Option Watermarks)
    (operationalOnly : Bool) : Option Watermarks :=
  checkpointWatermarks (binary64 step) (binary64 tokens) elapsed previous operationalOnly

def boundary (history : History) (elapsed : ℚ) : History where
  step := history.step
  tokens := history.tokens
  checked := elapsed
  watermarks := floatWatermarks history.step history.tokens elapsed history.watermarks false
  visits := history.visits ++ [⟨history.step, history.tokens, elapsed, [], false, some false⟩]

def fresh (elapsed : ℚ) : History := boundary ⟨0, 0, elapsed, none, []⟩ elapsed

def pass (history : History) (update : Pass) : History :=
  let step := history.step + 1
  let tokens := history.tokens + update.committed
  let requested := config.requested step tokens history.watermarks
  let due := config.checkpointDue rounding step tokens update.checked history.watermarks
  let scientific := due || update.terminalOrBest
  if scientific || update.operational then
    { step, tokens
      checked := update.checked
      watermarks := floatWatermarks step tokens update.savedAt history.watermarks (!scientific)
      visits := history.visits ++ [⟨step, tokens, update.savedAt, requested, due, some (!scientific)⟩] }
  else
    { step, tokens
      checked := update.checked
      watermarks := history.watermarks
      visits := history.visits ++ [⟨step, tokens, update.checked, requested, due, none⟩] }

/-- What a history can be: a fresh run, one more update, a stop that saves what was not saved, and
a run that resumes from a checkpoint, with the watermarks that this kept. -/
inductive Reached : History → Prop
  | fresh (elapsed : ℚ) : Reached (fresh elapsed)
  | pass {history : History} (earlier : Reached history) (update : Pass)
      (committed : 0 < update.committed) (later : update.checked ≤ update.savedAt) :
      Reached (history.pass config rounding update)
  | stop {history : History} (earlier : Reached history) (elapsed : ℚ)
      (unsaved : ∃ visit ∈ history.visits.getLast?, visit.saved = none) :
      Reached (history.boundary elapsed)
  | resume {history : History} (earlier : Reached history) (elapsed : ℚ)
      (checkpoint : ∃ visit ∈ history.visits.getLast?, visit.saved.isSome) :
      Reached (history.boundary elapsed)

end History

namespace History

variable {config : CheckpointCadence} {rounding : Rounding}

@[simp] theorem pass_step (history : History) (update : Pass) :
    (history.pass config rounding update).step = history.step + 1 := by
  simp only [pass]
  split <;> rfl

@[simp] theorem pass_tokens (history : History) (update : Pass) :
    (history.pass config rounding update).tokens = history.tokens + update.committed := by
  simp only [pass]
  split <;> rfl

@[simp] theorem pass_checked (history : History) (update : Pass) :
    (history.pass config rounding update).checked = update.checked := by
  simp only [pass]
  split <;> rfl

def Exact (history : History) : Prop :=
  history.step ≤ exactLimit ∧ history.tokens ≤ exactLimit

def lastScientific (history : History) : Option Visit :=
  history.visits.reverse.find? fun visit => visit.saved = some false

structure Timely (config : CheckpointCadence) (rounding : Rounding) (history : History)
    (last : Visit) : Prop where
  steps : ∀ interval ∈ config.everySteps, history.step < last.step + interval
  tokens : ∀ interval ∈ config.everyTokens, history.tokens < last.tokens + interval
  minutes : ∀ interval ∈ config.everyMinutes,
    CheckpointCadence.minutesSince rounding history.checked last.elapsed < interval

def Meets (milestone : Milestone) (visit : Visit) : Prop :=
  milestone.Reached visit.step visit.tokens

instance (milestone : Milestone) (visit : Visit) : Decidable (Meets milestone visit) :=
  inferInstanceAs (Decidable (milestone.Reached _ _))

def Once (milestone : Milestone) (visits : List Visit) : Prop :=
  ∀ before visit after, visits = before ++ visit :: after →
    (milestone ∈ visit.requested →
      Meets milestone visit ∧ ∀ earlier ∈ before, ¬ Meets milestone earlier) ∧
    (Meets milestone visit → (∀ earlier ∈ before, ¬ Meets milestone earlier) →
      visit.saved = some false ∧ (before ≠ [] → milestone ∈ visit.requested))

structure Kept (config : CheckpointCadence) (rounding : Rounding) (history : History) : Prop where
  timely : ∃ last, history.lastScientific = some last ∧ Timely config rounding history last
  milestones : ∀ milestone ∈ config.milestones, Once milestone history.visits

structure Sound (config : CheckpointCadence) (rounding : Rounding) (history : History)
    (last : Visit) : Prop where
  found : history.lastScientific = some last
  marks : history.watermarks = some ⟨last.step, last.tokens, last.elapsed⟩
  within : last.step ≤ history.step ∧ last.tokens ≤ history.tokens
  visited : ∀ visit ∈ history.visits, visit.step ≤ history.step ∧ visit.tokens ≤ history.tokens
  here : ∃ visit ∈ history.visits, visit.step = history.step ∧ visit.tokens = history.tokens
  timely : Timely config rounding history last
  covered : ∀ milestone ∈ config.milestones,
    milestone.Reached history.step history.tokens → milestone.Reached last.step last.tokens
  once : ∀ milestone ∈ config.milestones, Once milestone history.visits

theorem once_append {milestone : Milestone} {visits : List Visit} {next : Visit}
    (once : Once milestone visits)
    (asked : milestone ∈ next.requested → Meets milestone next ∧
      ∀ earlier ∈ visits, ¬ Meets milestone earlier)
    (saved : Meets milestone next → (∀ earlier ∈ visits, ¬ Meets milestone earlier) →
      next.saved = some false ∧ (visits ≠ [] → milestone ∈ next.requested)) :
    Once milestone (visits ++ [next]) := by
  intro before visit after split
  rcases List.eq_nil_or_concat after with rfl | ⟨rest, final, rfl⟩
  · obtain ⟨rfl, same⟩ := List.append_inj' split rfl
    obtain rfl : next = visit := List.head_eq_of_cons_eq same
    exact ⟨asked, saved⟩
  · rw [List.concat_eq_append, ← List.cons_append, ← List.append_assoc] at split
    exact once before visit rest (List.append_inj' split rfl).1

theorem lastScientific_append {history next : History} {visit : Visit}
    (visits : next.visits = history.visits ++ [visit]) :
    next.lastScientific =
      if visit.saved = some false then some visit else history.lastScientific := by
  simp only [lastScientific, visits, List.reverse_append, List.reverse_singleton,
    List.singleton_append, List.find?_cons]
  by_cases saved : visit.saved = some false <;> simp [saved]

theorem mem_of_lastScientific {history : History} {last : Visit}
    (found : history.lastScientific = some last) : last ∈ history.visits :=
  List.mem_reverse.mp (List.mem_of_find?_eq_some found)

theorem reached_mono {milestone : Milestone} {step tokens later more : Nat}
    (reached : milestone.Reached step tokens) (steps : step ≤ later) (counted : tokens ≤ more) :
    milestone.Reached later more :=
  ⟨Nat.le_trans reached.1 steps, Nat.le_trans reached.2 counted⟩

theorem sixty : (0 : ℚ) ≤ 60 := by norm_num

theorem timely_saved {history : History} {visit : Visit} (step : visit.step = history.step)
    (tokens : visit.tokens = history.tokens) (later : history.checked ≤ visit.elapsed) :
    Timely config rounding history visit := by
  constructor
  · intro interval declared
    have positive := config.stepsPositive interval declared
    omega
  · intro interval declared
    have positive := config.tokensPositive interval declared
    omega
  · intro interval declared
    have positive := config.minutesPositive interval declared
    have elapsed := rounding.nonpositive (sub_nonpos.mpr later)
    have spent := rounding.nonpositive (div_nonpos_of_nonpos_of_nonneg elapsed sixty)
    exact lt_of_le_of_lt spent positive

section

variable {history : History} {last : Visit}

theorem sound_fresh (elapsed : ℚ) :
    Sound config rounding (fresh elapsed) ⟨0, 0, elapsed, [], false, some false⟩ := by
  have exact' : binary64 0 = 0 := binary64_of_le (Nat.zero_le _)
  constructor
  · rfl
  · simp [fresh, boundary, floatWatermarks, checkpointWatermarks, exact']
  · simp [fresh, boundary]
  · simp [fresh, boundary]
  · simp [fresh, boundary]
  · exact timely_saved rfl rfl (le_refl _)
  · exact fun _ _ reached => reached
  · intro milestone _
    have none : Once milestone [] := by
      intro before visit after split
      simp at split
    exact once_append none (by simp) (by simp)

theorem sound_boundary (sound : Sound config rounding history last) (exact' : history.Exact)
    (elapsed : ℚ) :
    Sound config rounding (history.boundary elapsed)
      ⟨history.step, history.tokens, elapsed, [], false, some false⟩ := by
  have visits : (history.boundary elapsed).visits = history.visits ++
      [⟨history.step, history.tokens, elapsed, [], false, some false⟩] := rfl
  constructor
  · rw [lastScientific_append visits, if_pos rfl]
  · simp [boundary, floatWatermarks, checkpointWatermarks, binary64_of_le exact'.1,
      binary64_of_le exact'.2]
  · exact ⟨Nat.le_refl _, Nat.le_refl _⟩
  · intro visit member
    rcases List.mem_append.mp member with earlier | final
    · exact sound.visited visit earlier
    · rw [List.mem_singleton.mp final]
      exact ⟨Nat.le_refl _, Nat.le_refl _⟩
  · exact ⟨_, List.mem_append_right _ List.mem_cons_self, rfl, rfl⟩
  · exact timely_saved rfl rfl (le_refl _)
  · exact fun _ _ reached => reached
  · intro milestone declared
    apply once_append (sound.once milestone declared)
    · simp
    · intro meets unmet
      obtain ⟨visit, member, step, tokens⟩ := sound.here
      refine absurd ?_ (unmet visit member)
      rw [Meets, step, tokens]
      exact meets

end

section

variable {history : History} {last : Visit} (sound : Sound config rounding history last)
  (update : Pass)

theorem since_exact {counter mark : Nat} (small : counter ≤ exactLimit) :
    CheckpointCadence.since counter (some mark) = counter - mark := by
  rw [CheckpointCadence.since, binary64_of_le small, binary64_of_le (by omega)]

include sound

theorem requested_iff {milestone : Milestone} (declared : milestone ∈ config.milestones) :
    milestone ∈ config.requested (history.step + 1) (history.tokens + update.committed)
        history.watermarks ↔
      milestone.Reached (history.step + 1) (history.tokens + update.committed) ∧
        ∀ earlier ∈ history.visits, ¬ Meets milestone earlier := by
  simp only [CheckpointCadence.requested, List.mem_filter, Bool.and_eq_true, decide_eq_true_eq,
    Bool.not_eq_true', sound.marks, CheckpointCadence.covered, decide_eq_false_iff_not]
  constructor
  · rintro ⟨-, reached, open'⟩
    refine ⟨reached, fun earlier member meets => open' ?_⟩
    have bound := sound.visited earlier member
    exact sound.covered milestone declared (reached_mono meets bound.1 bound.2)
  · rintro ⟨reached, unmet⟩
    exact ⟨declared, reached, unmet last (mem_of_lastScientific sound.found)⟩

theorem timely_undue (exact' : (history.pass config rounding update).Exact)
    (undue : config.checkpointDue rounding (history.step + 1) (history.tokens + update.committed)
      update.checked history.watermarks = false) :
    (∀ interval ∈ config.everySteps, history.step + 1 < last.step + interval) ∧
      (∀ interval ∈ config.everyTokens,
        history.tokens + update.committed < last.tokens + interval) ∧
      (∀ interval ∈ config.everyMinutes, 
        CheckpointCadence.minutesSince rounding update.checked last.elapsed < interval) ∧
      config.requested (history.step + 1) (history.tokens + update.committed)
        history.watermarks = [] := by
  have limits : history.step + 1 ≤ exactLimit ∧ history.tokens + update.committed ≤ exactLimit := by
    simpa [Exact] using exact'
  simp only [CheckpointCadence.checkpointDue, Bool.or_eq_false_iff, decide_eq_false_iff_not,
    not_not, sound.marks] at undue
  obtain ⟨⟨nothing, -⟩, ⟨steps, tokens⟩, minutes⟩ := undue
  have within := sound.within
  refine ⟨?_, ?_, ?_, by rw [sound.marks]; exact nothing⟩
  · intro interval declared
    rw [Option.mem_def] at declared
    simp only [CheckpointCadence.stepsDue, declared, Option.map_some, since_exact limits.1,
      decide_eq_false_iff_not] at steps
    omega
  · intro interval declared
    rw [Option.mem_def] at declared
    simp only [CheckpointCadence.tokensDue, declared, Option.map_some, since_exact limits.2,
      decide_eq_false_iff_not] at tokens
    omega
  · intro interval declared
    rw [Option.mem_def] at declared
    simp only [CheckpointCadence.minutesDue, declared, Option.map_some, Option.getD_some,
      decide_eq_false_iff_not, not_le] at minutes
    exact minutes

theorem undue_covers (nothing : config.requested (history.step + 1)
    (history.tokens + update.committed) history.watermarks = []) {milestone : Milestone}
    (declared : milestone ∈ config.milestones)
    (reached : milestone.Reached (history.step + 1) (history.tokens + update.committed)) :
    milestone.Reached last.step last.tokens := by
  by_contra open'
  have asked : milestone ∈ config.requested (history.step + 1)
      (history.tokens + update.committed) history.watermarks := by
    simp [CheckpointCadence.requested, CheckpointCadence.covered, sound.marks, declared, reached,
      open']
  simp [nothing] at asked

theorem once_pass {next : Visit} (step : next.step = history.step + 1)
    (tokens : next.tokens = history.tokens + update.committed)
    (requested : next.requested = config.requested (history.step + 1)
      (history.tokens + update.committed) history.watermarks)
    (saved : next.requested ≠ [] → next.saved = some false) {milestone : Milestone}
    (declared : milestone ∈ config.milestones) : Once milestone (history.visits ++ [next]) := by
  have asked := requested_iff sound update declared
  apply once_append (sound.once milestone declared)
  · intro member
    rw [Meets, step, tokens]
    rw [requested] at member
    exact asked.mp member
  · intro meets unmet
    rw [Meets, step, tokens] at meets
    have member := asked.mpr ⟨meets, unmet⟩
    rw [← requested] at member
    exact ⟨saved (List.ne_nil_of_mem member), fun _ => member⟩

theorem sound_scientific (exact' : (history.pass config rounding update).Exact)
    (later : update.checked ≤ update.savedAt)
    (scientific : (config.checkpointDue rounding (history.step + 1)
      (history.tokens + update.committed) update.checked history.watermarks ||
        update.terminalOrBest) = true) :
    ∃ last, Sound config rounding (history.pass config rounding update) last := by
  have limits : history.step + 1 ≤ exactLimit ∧ history.tokens + update.committed ≤ exactLimit := by
    simpa [Exact] using exact'
  let next : Visit := ⟨history.step + 1, history.tokens + update.committed, update.savedAt,
    config.requested (history.step + 1) (history.tokens + update.committed) history.watermarks,
    config.checkpointDue rounding (history.step + 1) (history.tokens + update.committed)
      update.checked history.watermarks, some false⟩
  have visits : (history.pass config rounding update).visits = history.visits ++ [next] := by
    simp [pass, scientific, next]
  refine ⟨next, ?_, ?_, ?_, ?_, ?_, ?_, ?_, ?_⟩
  · rw [lastScientific_append visits, if_pos rfl]
  · simp [pass, scientific, floatWatermarks, checkpointWatermarks, next,
      binary64_of_le limits.1, binary64_of_le limits.2]
  · simp [next]
  · intro visit member
    rw [visits] at member
    rw [pass_step, pass_tokens]
    rcases List.mem_append.mp member with earlier | final
    · have bound := sound.visited visit earlier
      omega
    · rw [List.mem_singleton.mp final]
      exact ⟨Nat.le_refl _, Nat.le_refl _⟩
  · exact ⟨next, by rw [visits]; exact List.mem_append_right _ List.mem_cons_self,
      (pass_step _ _).symm, (pass_tokens _ _).symm⟩
  · exact timely_saved (pass_step _ _).symm (pass_tokens _ _).symm
      (by rw [pass_checked]; exact later)
  · intro milestone _ reached
    rw [pass_step, pass_tokens] at reached
    exact reached
  · intro milestone declared
    rw [visits]
    exact once_pass sound update rfl rfl rfl (fun _ => rfl) declared

theorem sound_unmoved (exact' : (history.pass config rounding update).Exact)
    (undue : (config.checkpointDue rounding (history.step + 1)
      (history.tokens + update.committed) update.checked history.watermarks ||
        update.terminalOrBest) = false) :
    Sound config rounding (history.pass config rounding update) last := by
  have quiet := (Bool.or_eq_false_iff.mp undue).1
  obtain ⟨steps, tokens, minutes, nothing⟩ := timely_undue sound update exact' quiet
  have within := sound.within
  obtain ⟨next, visits, step, counted, requested, saved⟩ : ∃ next : Visit,
      (history.pass config rounding update).visits = history.visits ++ [next] ∧
      next.step = history.step + 1 ∧ next.tokens = history.tokens + update.committed ∧
      next.requested = config.requested (history.step + 1) (history.tokens + update.committed)
        history.watermarks ∧ next.saved ≠ some false := by
    by_cases operational : update.operational = true
    · exact ⟨_, by simp [pass, undue, operational]; rfl, rfl, rfl, rfl, by simp⟩
    · exact ⟨_, by simp [pass, undue, operational]; rfl, rfl, rfl, rfl, by simp⟩
  constructor
  · rw [lastScientific_append visits, if_neg saved]
    exact sound.found
  · rw [← sound.marks]
    by_cases operational : update.operational = true <;>
      simp [pass, undue, operational, floatWatermarks, checkpointWatermarks]
  · rw [pass_step, pass_tokens]
    omega
  · intro visit member
    rw [visits] at member
    rw [pass_step, pass_tokens]
    rcases List.mem_append.mp member with earlier | final
    · have bound := sound.visited visit earlier
      omega
    · rw [List.mem_singleton.mp final, step, counted]
      exact ⟨Nat.le_refl _, Nat.le_refl _⟩
  · refine ⟨next, ?_, ?_, ?_⟩
    · rw [visits]
      exact List.mem_append_right _ List.mem_cons_self
    · rw [step, pass_step]
    · rw [counted, pass_tokens]
  · constructor
    · rw [pass_step]
      exact steps
    · rw [pass_tokens]
      exact tokens
    · rw [pass_checked]
      exact minutes
  · intro milestone declared reached
    rw [pass_step, pass_tokens] at reached
    exact undue_covers sound update nothing declared reached
  · intro milestone declared
    rw [visits]
    exact once_pass sound update step counted requested
      (fun asked => absurd (requested.trans nothing) asked) declared

end

theorem exact_boundary {history : History} {elapsed : ℚ}
    (exact' : (history.boundary elapsed).Exact) : history.Exact :=
  exact'

theorem exact_pass {history : History} {update : Pass}
    (exact' : (history.pass config rounding update).Exact) : history.Exact := by
  simp only [Exact, pass_step, pass_tokens] at exact'
  constructor <;> omega

theorem sound_reached {history : History} (reached : Reached config rounding history)
    (exact' : history.Exact) : ∃ last, Sound config rounding history last := by
  induction reached with
  | fresh elapsed => exact ⟨_, sound_fresh elapsed⟩
  | @pass history earlier update committed later hypothesis =>
    obtain ⟨last, sound⟩ := hypothesis (exact_pass exact')
    by_cases scientific : (config.checkpointDue rounding (history.step + 1)
        (history.tokens + update.committed) update.checked history.watermarks ||
          update.terminalOrBest) = true
    · exact sound_scientific sound update exact' later scientific
    · exact ⟨last, sound_unmoved sound update exact' (Bool.not_eq_true _ ▸ scientific)⟩
  | stop earlier elapsed unsaved hypothesis =>
    obtain ⟨last, sound⟩ := hypothesis (exact_boundary exact')
    exact ⟨_, sound_boundary sound (exact_boundary exact') elapsed⟩
  | resume earlier elapsed checkpoint hypothesis =>
    obtain ⟨last, sound⟩ := hypothesis (exact_boundary exact')
    exact ⟨_, sound_boundary sound (exact_boundary exact') elapsed⟩

def oneMilestone (targets : Nat) : CheckpointRetention where
  milestones := [⟨"only", 1, targets⟩]
  terminalStep := 2
  terminalTargets := targets + 1
  maxGenerations := 5
  maxGenerationBytes := 1
  maxRetainedBytes := 5
  maxPeakBytes := 6
  reserveFreeBytes := 0
  names := by simp
  within := by simp
  generations := by simp
  retained := by simp
  peak := by simp

def milestoneOnly (targets : Nat) : CheckpointCadence where
  everySteps := none
  everyTokens := none
  everyMinutes := none
  steps := []
  retention := some (oneMilestone targets)
  stepsPositive := by simp
  tokensPositive := by simp
  minutesPositive := by simp

def twoUpdates (targets : Nat) : History :=
  ((fresh 0).pass (milestoneOnly targets) .none ⟨targets, 1, 1, false, false⟩).pass
    (milestoneOnly targets) .none ⟨1, 2, 2, false, false⟩

theorem twoUpdates_reached {targets : Nat} (some' : 0 < targets) :
    Reached (milestoneOnly targets) .none (twoUpdates targets) :=
  .pass (.pass (.fresh 0) _ some' (le_refl _)) _ Nat.one_pos (le_refl _)

end History

end SparseLab.Training
