import SparseLab.Library.Outcomes
import SparseLab.Training.Targets

/-! The records of all updates are one walk over the epoch permutations. -/

namespace SparseLab.Training

open Library Data

namespace TrainingData

variable (data : TrainingData)

def blockAt (ordinal : Nat) : Fin data.numBlocks :=
  (data.order (ordinal / data.numBlocks)).get
    ⟨ordinal % data.numBlocks, by rw [length_order]; exact Nat.mod_lt _ data.nonempty⟩

def epochs (count : Nat) : List (Fin data.numBlocks) :=
  (List.range count).flatMap data.order

def whole (block : Fin data.numBlocks) : WindowRecord data.numBlocks :=
  { block, row := data.dataset.numpyMicroblock block }

/-- The records of `count` blocks from a position on, read one by one within a budget. -/
def walk (budget start : Nat) : Nat → List (WindowRecord data.numBlocks)
  | 0 => []
  | count + 1 =>
    let record := data.readRecord (data.blockAt start) budget
    record :: walk (budget - record.targets) (start + 1) count

def cursorAfter (ordinal : Nat) : BatchCursor data.numBlocks where
  epoch := ordinal / data.numBlocks
  nextBlock := ordinal % data.numBlocks + 1
  within := Nat.mod_lt _ data.nonempty

def visit (ordinal : Nat) : data.Candidate :=
  (data.blockAt ordinal, data.cursorAfter ordinal)

theorem ordinal_cursorAfter (ordinal : Nat) : (data.cursorAfter ordinal).ordinal = ordinal + 1 := by
  have divided := Nat.div_add_mod ordinal data.numBlocks
  rw [Nat.mul_comm] at divided
  simp only [BatchCursor.ordinal, cursorAfter]
  omega

theorem order_eq (epoch : Nat) :
    data.order epoch = (List.range' (epoch * data.numBlocks) data.numBlocks).map data.blockAt := by
  apply List.ext_getElem
  · simp
  · intro index inside _
    rw [length_order] at inside
    have epochOf : (epoch * data.numBlocks + index) / data.numBlocks = epoch := by
      rw [Nat.mul_comm, Nat.mul_add_div data.nonempty, Nat.div_eq_of_lt inside, Nat.add_zero]
    have blockOf : (epoch * data.numBlocks + index) % data.numBlocks = index := by
      rw [Nat.mul_comm, Nat.mul_add_mod, Nat.mod_eq_of_lt inside]
    simp [blockAt, epochOf, blockOf]

theorem epochs_eq (count : Nat) :
    data.epochs count = (List.range (count * data.numBlocks)).map data.blockAt := by
  induction count with
  | zero => simp [epochs]
  | succ count ih =>
    have split : List.range ((count + 1) * data.numBlocks) =
        List.range (count * data.numBlocks) ++
          List.range' (count * data.numBlocks) data.numBlocks := by
      rw [Nat.add_one_mul, List.range_add, List.range'_eq_map_range]
    rw [split, List.map_append, ← ih, ← order_eq]
    simp [epochs, List.range_succ]

theorem epochCandidates_eq (cursor : BatchCursor data.numBlocks) (count : Nat)
    (fits : cursor.nextBlock + count ≤ data.numBlocks) :
    data.epochCandidates cursor count fits =
      (List.range' cursor.ordinal count).map data.visit := by
  apply List.ext_getElem
  · simp
  · intro index inside _
    rw [length_epochCandidates] at inside
    have small : cursor.nextBlock + index < data.numBlocks := by omega
    have position : cursor.ordinal + index =
        data.numBlocks * cursor.epoch + (cursor.nextBlock + index) := by
      rw [BatchCursor.ordinal, Nat.mul_comm, Nat.add_assoc]
    have epochOf : (cursor.ordinal + index) / data.numBlocks = cursor.epoch := by
      rw [position, Nat.mul_add_div data.nonempty, Nat.div_eq_of_lt small, Nat.add_zero]
    have blockOf : (cursor.ordinal + index) % data.numBlocks = cursor.nextBlock + index := by
      rw [position, Nat.mul_add_mod, Nat.mod_eq_of_lt small]
    simp [epochCandidates, visit, cursorAfter, blockAt, epochOf, blockOf]

theorem fillWindow_eq (windowSize : Nat) (candidates : List data.Candidate)
    (cursor : BatchCursor data.numBlocks) :
    data.fillWindow windowSize candidates cursor = candidates ++
      (List.range' cursor.ordinal (windowSize - candidates.length)).map data.visit := by
  fun_induction data.fillWindow windowSize candidates cursor with
  | case1 candidates cursor short count within counted exhausted ih =>
    have finished : cursor.nextBlock = data.numBlocks := by omega
    have same : BatchCursor.ordinal (⟨cursor.epoch + 1, 0, Nat.zero_le _⟩ :
        BatchCursor data.numBlocks) = cursor.ordinal := by
      simp only [BatchCursor.ordinal, finished, Nat.add_one_mul, Nat.add_zero]
    rw [ih, same]
  | case2 candidates cursor short count within counted progress fits ih =>
    have advanced : BatchCursor.ordinal (⟨cursor.epoch, cursor.nextBlock + count, fits⟩ :
        BatchCursor data.numBlocks) = cursor.ordinal + count := by
      simp only [BatchCursor.ordinal, Nat.add_assoc]
    have rest : windowSize - candidates.length =
        count + (windowSize - (candidates.length + count)) := by omega
    rw [ih, advanced, epochCandidates_eq, List.length_append, List.length_map,
      List.length_range', List.append_assoc, ← List.map_append, rest,
      ← List.range'_append_1]
  | case3 candidates cursor full =>
    have nothing : windowSize - candidates.length = 0 := by omega
    rw [nothing, List.range'_zero, List.map_nil, List.append_nil]

@[simp] theorem block_readRecord (block : Fin data.numBlocks) (remaining : Nat) :
    (data.readRecord block remaining).block = block := rfl

theorem targets_readRecord (block : Fin data.numBlocks) (remaining : Nat) :
    (data.readRecord block remaining).targets = min remaining (data.whole block).targets := by
  simp only [readRecord, whole, WindowRecord.targets]
  split
  · simp only [supervised_clip, List.length_take]
    omega
  · omega

theorem readRecord_whole {block : Fin data.numBlocks} {remaining : Nat}
    (enough : (data.whole block).targets ≤ remaining) :
    data.readRecord block remaining = data.whole block := by
  have same : ¬ min remaining (data.whole block).targets < (data.whole block).targets := by omega
  simp only [whole, WindowRecord.targets] at same
  simp only [readRecord, whole, if_neg same]

@[simp] theorem length_walk (budget start count : Nat) :
    (data.walk budget start count).length = count := by
  induction count generalizing budget start with
  | zero => rfl
  | succ count ih => simp [walk, ih]

theorem countTargets_walk_le (budget start count : Nat) :
    countTargets (data.walk budget start count) ≤ budget := by
  induction count generalizing budget start with
  | zero => simp [walk, countTargets]
  | succ count ih =>
    have first := data.targets_readRecord (data.blockAt start) budget
    have rest := ih (budget - (data.readRecord (data.blockAt start) budget).targets) (start + 1)
    rw [walk, countTargets_cons]
    omega

theorem walk_append (budget start count more : Nat) :
    data.walk budget start (count + more) = data.walk budget start count ++
      data.walk (budget - countTargets (data.walk budget start count)) (start + count) more := by
  induction count generalizing budget start with
  | zero => simp [walk, countTargets]
  | succ count ih =>
    rw [Nat.add_right_comm, walk, walk, ih, countTargets_cons, List.cons_append, Nat.sub_sub,
      Nat.add_right_comm start 1 count, Nat.add_assoc start count 1]

theorem walk_prefix {budget start fewer count : Nat} (within : fewer ≤ count) :
    data.walk budget start fewer <+: data.walk budget start count := by
  obtain ⟨more, rfl⟩ := Nat.exists_eq_add_of_le within
  rw [walk_append]
  exact List.prefix_append _ _

theorem blocks_walk (budget start count : Nat) :
    (data.walk budget start count).map WindowRecord.block =
      (List.range' start count).map data.blockAt := by
  induction count generalizing budget start with
  | zero => rfl
  | succ count ih => simp [walk, List.range'_succ, ih]

theorem walk_whole {budget start count : Nat}
    (left : countTargets (data.walk budget start count) < budget) :
    data.walk budget start count = (List.range' start count).map fun ordinal =>
      data.whole (data.blockAt ordinal) := by
  induction count generalizing budget start with
  | zero => rfl
  | succ count ih =>
    have counted := data.targets_readRecord (data.blockAt start) budget
    rw [walk, countTargets_cons] at left
    have first : data.readRecord (data.blockAt start) budget =
        data.whole (data.blockAt start) := by
      apply readRecord_whole
      omega
    have rest := @ih (budget - (data.readRecord (data.blockAt start) budget).targets) (start + 1)
      (by omega)
    rw [walk, rest, first, List.range'_succ, List.map_cons]

structure Taken (remaining start window : Nat)
    (result : List (WindowRecord data.numBlocks) × Nat × BatchCursor data.numBlocks)
    (before : List (WindowRecord data.numBlocks)) (validTargets count : Nat) : Prop where
  records : result.1 = before ++ data.walk (remaining - validTargets) start count
  targets : result.2.1 =
    validTargets + countTargets (data.walk (remaining - validTargets) start count)
  cursor : result.2.2.ordinal = start + count
  within : count ≤ window
  progress : 0 < window → 0 < count
  unspent : ∀ fewer < count,
    countTargets (data.walk (remaining - validTargets) start fewer) < remaining - validTargets

theorem takeRecords_taken (remaining start window : Nat)
    (before : List (WindowRecord data.numBlocks)) (validTargets : Nat)
    (committed : BatchCursor data.numBlocks) (left : validTargets < remaining)
    (atStart : committed.ordinal = start) :
    ∃ count, data.Taken remaining start window
      (data.takeRecords remaining ((List.range' start window).map data.visit) before validTargets
        committed) before validTargets count := by
  induction window generalizing start before validTargets committed with
  | zero =>
    refine ⟨0, ?_⟩
    constructor <;> simp [takeRecords, walk, countTargets, atStart]
  | succ window ih =>
    obtain ⟨record, read⟩ : ∃ record,
        data.readRecord (data.blockAt start) (remaining - validTargets) = record := ⟨_, rfl⟩
    have counted : record.targets =
        min (remaining - validTargets) (data.whole (data.blockAt start)).targets := by
      rw [← read]
      exact data.targets_readRecord _ _
    have available : (supervised
        (data.dataset.numpyMicroblock (data.blockAt start)).targets).length =
          (data.whole (data.blockAt start)).targets := rfl
    rw [List.range'_succ, List.map_cons, visit, takeRecords, available, ← counted, read]
    by_cases spent : validTargets + record.targets = remaining
    · rw [if_pos spent]
      refine ⟨1, ?_⟩
      constructor
      · simp [walk, read]
      · simp [walk, countTargets, read]
      · exact data.ordinal_cursorAfter start
      · omega
      · omega
      · intro fewer below
        have none : fewer = 0 := by omega
        subst none
        simp only [walk, countTargets, List.map_nil, List.sum_nil]
        omega
    · rw [if_neg spent]
      have smaller : validTargets + record.targets < remaining := by omega
      obtain ⟨count, taken⟩ := ih (start + 1) (before ++ [record]) (validTargets + record.targets)
        (data.cursorAfter start) smaller (data.ordinal_cursorAfter start)
      have budget : remaining - (validTargets + record.targets) =
          remaining - validTargets - record.targets := by omega
      refine ⟨count + 1, ?_⟩
      constructor
      · rw [taken.records, budget, List.append_assoc, List.singleton_append, walk, read]
      · rw [taken.targets, budget, walk, read, countTargets_cons]
        omega
      · rw [taken.cursor]
        omega
      · have within := taken.within
        omega
      · omega
      · intro fewer below
        cases fewer with
        | zero =>
          simp only [walk, countTargets, List.map_nil, List.sum_nil]
          omega
        | succ fewer =>
          have open' := taken.unspent fewer (by omega)
          rw [budget] at open'
          rw [walk, read, countTargets_cons]
          omega

end TrainingData

def EngineFailure (error : TrainingError) : Prop :=
  error = .overflowPersisted ∨ ∃ text, error = .engine text

theorem trainUpdate_counts {numBlocks : Nat} (attempt : EngineAttempt)
    (batches : List (List (WindowRecord numBlocks))) {validTargets : Nat}
    (counted : validTargets = countTargets batches.flatten) (some : validTargets ≠ 0) :
    Outcome (fun result => result.applied = true → result.committedTargets = validTargets)
      EngineFailure (trainUpdate attempt batches validTargets) := by
  have observed : (batches.map countTargets).sum = validTargets := by
    rw [counted, countTargets_flatten]
  simp only [trainUpdate, observed, if_neg some, ne_eq, not_true_eq_false, ↓reduceIte]
  cases attempt with
  | applied => exact fun _ => rfl
  | overflow => simp
  | raised error => exact .inr ⟨error, rfl⟩

theorem retryUpdate_counts {numBlocks : Nat} (attempts : Nat → EngineAttempt)
    (batches : List (List (WindowRecord numBlocks))) {validTargets : Nat}
    (counted : validTargets = countTargets batches.flatten) (some : validTargets ≠ 0)
    (retries : List Nat) :
    Outcome (fun result => result.committedTargets = validTargets) EngineFailure
      (retryUpdate attempts batches validTargets retries) := by
  induction retries with
  | nil => exact .inl rfl
  | cons retry rest ih =>
    apply Outcome.bind (trainUpdate_counts (attempts retry) batches counted some)
    intro result commits
    by_cases applied : result.applied
    · rw [if_pos applied]
      exact commits applied
    · rw [if_neg applied]
      exact ih

namespace Trainer

variable (trainer : Trainer)

def resume (step tokens : Nat) (cursor : BatchCursor trainer.numBlocks) : trainer.State :=
  { step, tokens, cursor }

def consumed (state : trainer.State) : List (WindowRecord trainer.numBlocks) :=
  state.updates.flatMap CommittedUpdate.records

/-- The target budget of a run that starts with `tokens` committed. -/
def budget (tokens : Nat) : Nat :=
  trainer.config.maxTokens - tokens

structure Walked (tokens start : Nat) (state : trainer.State) : Prop where
  records : trainer.consumed state =
    trainer.walk (trainer.budget tokens) start (trainer.consumed state).length
  position : state.cursor.ordinal = start + (trainer.consumed state).length
  committed : ∀ update ∈ state.updates, update.committedTargets = countTargets update.records
  total : state.tokens = tokens + countTargets (trainer.consumed state)
  unspent : ∀ fewer < (trainer.consumed state).length,
    countTargets (trainer.walk (trainer.budget tokens) start fewer) < trainer.budget tokens

theorem walked_resume (step tokens : Nat) (cursor : BatchCursor trainer.numBlocks) :
    trainer.Walked tokens cursor.ordinal (trainer.resume step tokens cursor) := by
  constructor <;> simp [resume, consumed, TrainingData.walk]

def Stopped (error : TrainingError) : Prop :=
  EngineFailure error ∨
    error = .emptyWindow ∧ ∃ block, (trainer.whole block).targets = 0

theorem windowSize_pos :
    0 < trainer.config.microBatchSize * trainer.config.gradientAccumulation :=
  Nat.mul_pos trainer.config.microBatchSizePos trainer.config.gradientAccumulationPos

theorem commit_walked {tokens start count window : Nat} {state : trainer.State}
    {result : List (WindowRecord trainer.numBlocks) × Nat × BatchCursor trainer.numBlocks}
    (walked : trainer.Walked tokens start state)
    (taken : trainer.Taken (trainer.config.maxTokens - state.tokens) state.cursor.ordinal window
      result [] 0 count) :
    trainer.Walked tokens start {
      step := state.step + 1
      tokens := state.tokens + result.2.1
      cursor := result.2.2
      updates := state.updates ++ [{ records := result.1, committedTargets := result.2.1 }] } := by
  obtain ⟨records, targets, position, within, progress, unspent⟩ := taken
  have remaining : trainer.config.maxTokens - state.tokens =
      trainer.budget tokens - countTargets (trainer.consumed state) := by
    rw [walked.total, budget, Nat.sub_sub]
  have bound := trainer.countTargets_walk_le (trainer.budget tokens) start
    (trainer.consumed state).length
  rw [← walked.records] at bound
  simp only [List.nil_append, Nat.sub_zero, Nat.zero_add, remaining, walked.position]
    at records targets position unspent
  have length : result.1.length = count := by
    rw [records, TrainingData.length_walk]
  have extended : ∀ more, trainer.walk (trainer.budget tokens) start
      ((trainer.consumed state).length + more) = trainer.consumed state ++
        trainer.walk (trainer.budget tokens - countTargets (trainer.consumed state))
          (start + (trainer.consumed state).length) more := by
    intro more
    rw [TrainingData.walk_append, ← walked.records]
  constructor <;> simp only [consumed, List.flatMap_append, List.flatMap_singleton]
  · rw [List.length_append, length, ← consumed, extended, ← records]
  · rw [List.length_append, length, ← consumed, position, Nat.add_assoc]
  · intro update member
    rcases List.mem_append.mp member with earlier | last
    · exact walked.committed update earlier
    · rw [List.mem_singleton.mp last, targets, ← records]
  · rw [countTargets_append, ← consumed, walked.total, targets, ← records, Nat.add_assoc]
  · rw [List.length_append, length, ← consumed]
    intro fewer below
    by_cases earlier : fewer < (trainer.consumed state).length
    · exact walked.unspent fewer earlier
    · obtain ⟨more, rfl⟩ := Nat.exists_eq_add_of_le (Nat.le_of_not_lt earlier)
      have left := unspent more (by omega)
      rw [extended, countTargets_append]
      omega

theorem update_walked {tokens start : Nat} {state : trainer.State}
    (walked : trainer.Walked tokens start state) (running : trainer.Running state) :
    Outcome (trainer.Walked tokens start) trainer.Stopped (trainer.update state) := by
  have nonempty := trainer.windowSize_pos
  have left : 0 < trainer.config.maxTokens - state.tokens := Nat.sub_pos_of_lt running.2
  have filled := trainer.fillWindow_eq
    (trainer.config.microBatchSize * trainer.config.gradientAccumulation) [] state.cursor
  rw [List.nil_append, List.length_nil, Nat.sub_zero] at filled
  obtain ⟨count, taken⟩ := trainer.takeRecords_taken (trainer.config.maxTokens - state.tokens)
    state.cursor.ordinal (trainer.config.microBatchSize * trainer.config.gradientAccumulation)
    [] 0 state.cursor left rfl
  rw [← filled] at taken
  simp only [update]
  generalize trainer.takeRecords (trainer.config.maxTokens - state.tokens) _ [] 0 state.cursor =
    result at taken ⊢
  have targets := taken.targets
  rw [Nat.sub_zero, Nat.zero_add] at targets
  apply Outcome.ite
  · intro none
    have progress := taken.progress nonempty
    obtain ⟨fewer, rfl⟩ := Nat.exists_eq_succ_of_ne_zero (Nat.ne_of_gt progress)
    refine .inr ⟨rfl, trainer.blockAt state.cursor.ordinal, ?_⟩
    have first := trainer.targets_readRecord (trainer.blockAt state.cursor.ordinal)
      (trainer.config.maxTokens - state.tokens)
    rw [TrainingData.walk, countTargets_cons, none] at targets
    omega
  · intro some
    have counted : result.2.1 =
        countTargets (pieces result.1 trainer.config.microBatchSize).flatten := by
      rw [flatten_pieces _ trainer.config.microBatchSizePos, targets, taken.records,
        List.nil_append, Nat.sub_zero]
    have attempted := retryUpdate_counts (trainer.attempts (state.step + 1))
      (pieces result.1 trainer.config.microBatchSize) counted some (List.range 3)
    apply Outcome.bind (attempted.mono_error fun _ => .inl)
    intro update commits
    rw [commits]
    exact trainer.commit_walked walked taken

theorem trainingLoop_walked {tokens start : Nat} {state : trainer.State}
    (walked : trainer.Walked tokens start state) (count : Nat) :
    Outcome (trainer.Walked tokens start) trainer.Stopped (trainer.trainingLoop count state) := by
  induction count with
  | zero => exact walked
  | succ count ih =>
    apply Outcome.bind ih
    intro reached walked
    exact Outcome.ite (trainer.update_walked walked) fun _ => walked

/-- What a run from `tokens` and `cursor` has consumed and committed in a state it reaches. -/
structure Accounts (tokens : Nat) (cursor : BatchCursor trainer.numBlocks)
    (state : trainer.State) : Prop where
  position : state.cursor.ordinal = cursor.ordinal + (trainer.consumed state).length
  blocks : ∀ count, state.cursor.ordinal ≤ count * trainer.numBlocks →
    (trainer.consumed state).map WindowRecord.block =
      slice (trainer.epochs count) cursor.ordinal state.cursor.ordinal
  records : trainer.consumed state = trainer.walk (trainer.config.maxTokens - tokens)
    cursor.ordinal (trainer.consumed state).length
  committed : ∀ update ∈ state.updates, update.committedTargets = countTargets update.records
  total : state.tokens = tokens + (state.updates.map CommittedUpdate.committedTargets).sum
  bounded : state.tokens ≤ max tokens trainer.config.maxTokens
  unclipped : ∀ record ∈ (trainer.consumed state).dropLast, record = trainer.whole record.block
  clipped : ∀ record ∈ trainer.consumed state,
    record ≠ trainer.whole record.block → state.tokens = trainer.config.maxTokens

theorem sum_committed {updates : List (CommittedUpdate trainer.numBlocks)}
    (committed : ∀ update ∈ updates, update.committedTargets = countTargets update.records) :
    (updates.map CommittedUpdate.committedTargets).sum =
      countTargets (updates.flatMap CommittedUpdate.records) := by
  induction updates with
  | nil => rfl
  | cons update updates ih =>
    have first := committed update List.mem_cons_self
    have rest := ih fun later member => committed later (List.mem_cons_of_mem _ member)
    rw [List.map_cons, List.sum_cons, List.flatMap_cons, countTargets_append, first, rest]

theorem whole_of_unspent {budget start count : Nat} {record : WindowRecord trainer.numBlocks}
    (unspent : countTargets (trainer.walk budget start count) < budget)
    (member : record ∈ trainer.walk budget start count) : record = trainer.whole record.block := by
  rw [trainer.walk_whole unspent] at member
  obtain ⟨ordinal, _, rfl⟩ := List.mem_map.mp member
  rfl

theorem slice_epochs {start stop count : Nat} (within : stop ≤ count * trainer.numBlocks) :
    slice (trainer.epochs count) start stop =
      (List.range' start (stop - start)).map trainer.blockAt := by
  rw [TrainingData.epochs_eq, slice, ← List.map_take, ← List.map_drop, List.take_range,
    Nat.min_eq_left within, List.range_eq_range', List.drop_range', Nat.zero_add, Nat.mul_one]

theorem Walked.accounts {tokens : Nat} {cursor : BatchCursor trainer.numBlocks}
    {state : trainer.State} (walked : trainer.Walked tokens cursor.ordinal state) :
    trainer.Accounts tokens cursor state := by
  have spentBound := trainer.countTargets_walk_le (trainer.budget tokens) cursor.ordinal
    (trainer.consumed state).length
  rw [← walked.records] at spentBound
  have budgetEq : trainer.budget tokens = trainer.config.maxTokens - tokens := rfl
  constructor
  · exact walked.position
  · intro count within
    have position := walked.position
    rw [trainer.slice_epochs within, walked.records, TrainingData.blocks_walk, position,
      Nat.add_sub_cancel_left]
  · exact walked.records
  · exact walked.committed
  · rw [walked.total, trainer.sum_committed walked.committed]
    rfl
  · rw [walked.total]
    omega
  · intro record member
    rcases List.eq_nil_or_concat (trainer.consumed state) with empty | ⟨earlier, last, same⟩
    · simp [empty] at member
    · have length : (trainer.consumed state).length = earlier.length + 1 := by simp [same]
      have unspent := walked.unspent earlier.length (by omega)
      have records := walked.records
      rw [length, TrainingData.walk_append, same, List.concat_eq_append] at records
      have front := (List.append_inj records (by rw [TrainingData.length_walk])).1
      rw [same, List.concat_eq_append, List.dropLast_concat, front] at member
      exact trainer.whole_of_unspent unspent member
  · intro record member clippedRecord
    by_contra short
    have unspent : countTargets (trainer.consumed state) < trainer.budget tokens := by
      have total := walked.total
      have opened := walked.unspent 0 (List.length_pos_of_mem member)
      omega
    rw [walked.records] at member unspent
    exact clippedRecord (trainer.whole_of_unspent unspent member)

def rewindow (windows : Windows) (maxSteps : Nat) (attempts : Nat → Nat → EngineAttempt) :
    Trainer where
  toTrainingData := trainer.toTrainingData
  config := { toWindows := windows, maxSteps, maxTokens := trainer.config.maxTokens }
  attempts := attempts

theorem Walked.comparable {windows : Windows} {maxSteps : Nat} {tokens start : Nat}
    {attempts : Nat → Nat → EngineAttempt} {state : trainer.State}
    {other : (trainer.rewindow windows maxSteps attempts).State}
    (walked : trainer.Walked tokens start state)
    (otherWalked : (trainer.rewindow windows maxSteps attempts).Walked tokens start other) :
    trainer.consumed state <+: (trainer.rewindow windows maxSteps attempts).consumed other ∨
      (trainer.rewindow windows maxSteps attempts).consumed other <+: trainer.consumed state := by
  rw [walked.records, otherWalked.records]
  rcases Nat.le_total (trainer.consumed state).length
    ((trainer.rewindow windows maxSteps attempts).consumed other).length with shorter | longer
  · exact .inl (trainer.walk_prefix shorter)
  · exact .inr (trainer.walk_prefix longer)

end Trainer

end SparseLab.Training
