import SparseLab.Training.Continuation
import SparseLab.Training.TargetAccounting

/-!
A run that continues a checkpoint trains on the windows that the run it continues would have
trained on.
-/

namespace SparseLab.Training

open Library Data

structure SameTrajectory (saved config : RunConfig) : Prop where
  seed : config.seed = saved.seed
  effectiveBatch : config.effectiveBatch = saved.effectiveBatch
  maxSteps : config.maxSteps = saved.maxSteps
  maxTokens : config.maxTokens = saved.maxTokens

theorem admitContinuation_same {allowRuntimeOptimization : Bool} {saved config : RunConfig}
    (admitted : admitContinuation allowRuntimeOptimization saved config = .ok ()) :
    SameTrajectory saved config := by
  unfold admitContinuation at admitted
  split at admitted
  · unfold runtimeOptimizationTransition at admitted
    split at admitted
    · cases admitted
    · split at admitted
      · cases admitted
      · split at admitted
        · cases admitted
        · rename_i batches
          split at admitted
          · cases admitted
          · split at admitted
            · cases admitted
            · rename_i settings
              have same := not_not.mp settings
              exact ⟨(congrArg RunConfig.seed same).symm, (not_not.mp batches).symm,
                (congrArg RunConfig.maxSteps same).symm, (congrArg RunConfig.maxTokens same).symm⟩
  · split at admitted
    · cases admitted
    · rename_i settings
      have same := not_not.mp settings
      exact ⟨(congrArg RunConfig.seed same).symm, (congrArg RunConfig.effectiveBatch same).symm,
        (congrArg RunConfig.maxSteps same).symm, (congrArg RunConfig.maxTokens same).symm⟩

theorem trainUpdate_commits {numBlocks : Nat} {attempt : EngineAttempt}
    {batches : List (List (WindowRecord numBlocks))} {validTargets : Nat} {result : UpdateResult}
    (ended : trainUpdate attempt batches validTargets = .ok result)
    (applied : result.applied = true) : result.committedTargets = validTargets := by
  unfold trainUpdate at ended
  dsimp only at ended
  split at ended
  · cases ended
  · split at ended
    · cases ended
    · cases attempt with
      | applied =>
        cases ended
        rfl
      | overflow =>
        cases ended
        cases applied
      | raised error => cases ended

theorem retryUpdate_commits {numBlocks : Nat} {attempts : Nat → EngineAttempt}
    {batches : List (List (WindowRecord numBlocks))} {validTargets : Nat} {retries : List Nat}
    {result : UpdateResult} (ended : retryUpdate attempts batches validTargets retries = .ok result) :
    result.committedTargets = validTargets := by
  induction retries with
  | nil => cases ended
  | cons retry rest ih =>
    obtain ⟨attempt, first, later⟩ := bind_eq_ok ended
    by_cases applied : attempt.applied = true
    · rw [if_pos applied] at later
      cases later
      exact trainUpdate_commits first applied
    · rw [if_neg applied] at later
      exact ih later

theorem retryUpdate_partition {numBlocks : Nat} (attempts : Nat → EngineAttempt)
    {first second : List (List (WindowRecord numBlocks))} (same : first.flatten = second.flatten)
    (validTargets : Nat) (retries : List Nat) :
    retryUpdate attempts first validTargets retries =
      retryUpdate attempts second validTargets retries := by
  have update : ∀ attempt, trainUpdate attempt first validTargets =
      trainUpdate attempt second validTargets := by
    intro attempt
    unfold trainUpdate
    rw [← countTargets_flatten, ← countTargets_flatten, same]
  induction retries with
  | nil => rfl
  | cons retry rest ih =>
    unfold retryUpdate
    rw [update]
    refine bind_congr ?_
    intro result
    rw [ih]

def TrainingState.prepend {numBlocks : Nat} (earlier : List (CommittedUpdate numBlocks))
    (state : TrainingState numBlocks) : TrainingState numBlocks :=
  { state with updates := earlier ++ state.updates }

namespace Run

variable {run : Run}

def advance (run : Run) (state : run.State) : Except TrainingError run.State :=
  if run.Running state then run.update state else pure state

def advances (run : Run) : Nat → run.State → Except TrainingError run.State
  | 0, state => pure state
  | count + 1, state => do
      let state ← advances run count state
      run.advance state

theorem advances_add (run : Run) (first second : Nat) (state : run.State) :
    run.advances (first + second) state = run.advances first state >>= run.advances second := by
  induction second with
  | zero =>
    cases run.advances first state <;> rfl
  | succ second ih =>
    rw [← Nat.add_assoc, advances, ih]
    cases run.advances first state <;> rfl

theorem pass_training (run : Run) (progress : Progress run.numBlocks) :
    (run.pass progress).map (·.training) = run.advance progress.training := by
  unfold pass advance
  split
  · cases updated : run.update progress.training with
    | error reason => rfl
    | ok training =>
      simp only [bind, Except.bind]
      cases run.boundaries training.step <;> rfl
  · rfl

theorem passes_training (run : Run) (count : Nat) (progress : Progress run.numBlocks) :
    (run.passes count progress).map (·.training) = run.advances count progress.training := by
  induction count with
  | zero => rfl
  | succ count ih =>
    rw [advances, ← ih, passes]
    cases run.passes count progress with
    | error reason => rfl
    | ok reached => exact run.pass_training reached

theorem trainWindow_prepend (run : Run) (earlier : List (CommittedUpdate run.numBlocks))
    (state : run.State) (window : Window run.numBlocks) :
    run.trainWindow (state.prepend earlier) window =
      (run.trainWindow state window).map (·.prepend earlier) := by
  obtain ⟨records, validTargets, committedCursor⟩ := window
  unfold trainWindow
  dsimp only
  split
  · rfl
  · have steps : (state.prepend earlier).step = state.step := rfl
    rw [steps]
    cases retryUpdate (run.attempts (state.step + 1))
        (pieces records run.config.windows.microBatchSize) validTargets (List.range 3) with
    | error reason => rfl
    | ok result => simp [TrainingState.prepend, bind, Except.bind, Except.map, pure, Except.pure]

theorem advance_prepend (run : Run) (earlier : List (CommittedUpdate run.numBlocks))
    (state : run.State) :
    run.advance (state.prepend earlier) = (run.advance state).map (·.prepend earlier) := by
  have windows : run.window (state.prepend earlier) = run.window state := rfl
  by_cases running : run.Running state
  · have running' : run.Running (state.prepend earlier) := running
    rw [advance, advance, if_pos running, if_pos running', update, update, windows]
    cases run.window state with
    | error reason => rfl
    | ok window => exact run.trainWindow_prepend earlier state window
  · have stopped : ¬ run.Running (state.prepend earlier) := running
    rw [advance, advance, if_neg running, if_neg stopped]
    rfl

theorem advances_prepend (run : Run) (earlier : List (CommittedUpdate run.numBlocks))
    (count : Nat) (state : run.State) :
    run.advances count (state.prepend earlier) =
      (run.advances count state).map (·.prepend earlier) := by
  induction count with
  | zero => rfl
  | succ count ih =>
    rw [advances, advances, ih]
    cases run.advances count state with
    | error reason => rfl
    | ok reached => exact run.advance_prepend earlier reached

def committed (run : Run) (state : run.State) (window : Window run.numBlocks) : run.State where
  step := state.step + 1
  tokens := state.tokens + window.2.1
  cursor := window.2.2
  updates := state.updates ++ [{ records := window.1, committedTargets := window.2.1 }]

theorem trainWindow_ok {state next : run.State} {window : Window run.numBlocks}
    (trained : run.trainWindow state window = .ok next) : next = run.committed state window := by
  obtain ⟨records, validTargets, committedCursor⟩ := window
  unfold trainWindow at trained
  dsimp only at trained
  split at trained
  · cases trained
  · obtain ⟨result, ended, commits⟩ := bind_eq_ok trained
    rw [retryUpdate_commits ended] at commits
    cases commits
    rfl

structure Marks (run : Run) (checkpoint : Checkpoint run.numBlocks) (state : run.State) : Prop where
  step : checkpoint.step = state.step
  tokens : checkpoint.tokensSeen = state.tokens
  cursor : checkpoint.cursor = state.cursor

theorem passes_checkpoints {count : Nat} {progress final : Progress run.numBlocks}
    (ended : run.passes count progress = .ok final) {checkpoint : Checkpoint run.numBlocks}
    (saved : checkpoint ∈ final.checkpoints) :
    checkpoint ∈ progress.checkpoints ∨ ∃ passed ≤ count, ∃ reached,
      run.passes passed progress = .ok reached ∧ run.Marks checkpoint reached.training := by
  induction count generalizing final with
  | zero =>
    cases ended
    exact .inl saved
  | succ count ih =>
    obtain ⟨middle, before, last⟩ := bind_eq_ok ended
    have earlier : checkpoint ∈ middle.checkpoints →
        checkpoint ∈ progress.checkpoints ∨ ∃ passed ≤ count + 1, ∃ reached,
          run.passes passed progress = .ok reached ∧ run.Marks checkpoint reached.training := by
      intro member
      obtain first | ⟨passed, bound, reached, rest⟩ := ih before member
      · exact .inl first
      · exact .inr ⟨passed, by omega, reached, rest⟩
    unfold pass at last
    split at last
    · obtain ⟨training, updated, saves⟩ := bind_eq_ok last
      dsimp only at saves
      split at saves
      · cases saves
        exact earlier saved
      · cases saves
        obtain old | new := List.mem_append.mp saved
        · exact earlier old
        · rw [List.mem_singleton] at new
          subst new
          exact .inr ⟨count + 1, Nat.le_refl _, _, ended, ⟨rfl, rfl, rfl⟩⟩
    · cases last
      exact earlier saved

section

variable {config : RunConfig} (same : SameTrajectory run.config config)
  {attempts : Nat → Nat → EngineAttempt} {boundaries : Nat → Option Boundary}

include same

theorem running_continued (state : run.State) :
    (run.continued config attempts boundaries).Running state ↔ run.Running state := by
  have steps := same.maxSteps
  have tokens := same.maxTokens
  unfold Running continued
  dsimp only
  rw [steps, tokens]

theorem window_continued (state : run.State) :
    (run.continued config attempts boundaries).window state = run.window state := by
  have seeded : ∀ seed seed' : Int, seed = seed' →
      Source.window ⟨run.framework, run.dataset, seed, run.nonempty⟩ run.config.effectiveBatch
        state.cursor (run.config.maxTokens - state.tokens) =
      Source.window ⟨run.framework, run.dataset, seed', run.nonempty⟩ run.config.effectiveBatch
        state.cursor (run.config.maxTokens - state.tokens) := by
    rintro seed _ rfl
    rfl
  change Source.window ⟨run.framework, run.dataset, config.seed, run.nonempty⟩ config.effectiveBatch
    state.cursor (config.maxTokens - state.tokens) = _
  rw [same.effectiveBatch, same.maxTokens]
  exact seeded _ _ same.seed

theorem advances_continued {count : Nat} {state first second : run.State}
    (ended : run.advances count state = .ok first)
    (ended' : (run.continued config attempts boundaries).advances count state = .ok second) :
    second = first := by
  induction count generalizing first second with
  | zero =>
    cases ended
    cases ended'
    rfl
  | succ count ih =>
    obtain ⟨middle, before, last⟩ := bind_eq_ok ended
    obtain ⟨middle', before', last'⟩ := bind_eq_ok ended'
    have equal := ih before before'
    subst equal
    unfold advance at last last'
    by_cases running : run.Running middle'
    · rw [if_pos running] at last
      rw [if_pos ((running_continued same middle').mpr running)] at last'
      obtain ⟨window, selected, trained⟩ := bind_eq_ok last
      obtain ⟨window', selected', trained'⟩ := bind_eq_ok last'
      have equal : window' = window := Except.ok.inj
        (selected'.symm.trans ((window_continued same middle').trans selected))
      subst equal
      exact (trainWindow_ok trained').trans (trainWindow_ok trained).symm
    · rw [if_neg running] at last
      rw [if_neg fun still => running ((running_continued same middle').mp still)] at last'
      cases last
      cases last'
      rfl

theorem advances_continued_eq (count : Nat) (state : run.State) :
    (run.continued config run.attempts boundaries).advances count state =
      run.advances count state := by
  have trains : ∀ (state : run.State) window,
      (run.continued config run.attempts boundaries).trainWindow state window =
        run.trainWindow state window := by
    rintro state ⟨records, validTargets, committedCursor⟩
    have partition : (pieces records config.windows.microBatchSize).flatten =
        (pieces records run.config.windows.microBatchSize).flatten := by
      rw [flatten_pieces _ config.windows.microBatchSizePos,
        flatten_pieces _ run.config.windows.microBatchSizePos]
    have retried := retryUpdate_partition (run.attempts (state.step + 1)) partition validTargets
      (List.range 3)
    unfold trainWindow
    dsimp only
    rw [retried]
  induction count with
  | zero => rfl
  | succ count ih =>
    unfold advances
    rw [ih]
    refine bind_congr ?_
    intro middle
    unfold advance
    rw [if_congr (running_continued same middle) rfl rfl]
    refine if_congr Iff.rfl ?_ rfl
    unfold update
    rw [window_continued same]
    refine bind_congr ?_
    intro window
    exact trains middle window

end

def First (run : Run) (start : Progress run.numBlocks) : Prop :=
  start = run.fresh ∨ ∃ checkpoint, run.restore checkpoint = .ok start

theorem First.unsaved {start : Progress run.numBlocks} (first : run.First start) :
    start.checkpoints = [] := by
  obtain rfl | ⟨checkpoint, restored⟩ := first
  · rfl
  · unfold restore at restored
    split at restored
    · cases restored
    · cases restored
      rfl

theorem execute_training (run : Run) (start : Progress run.numBlocks) (elapsed : ℚ) (count : Nat) :
    (run.execute start elapsed count).map (·.training) = run.advances count start.training :=
  run.passes_training count _

theorem execute_ok {start reached : Progress run.numBlocks} {elapsed : ℚ} {count : Nat}
    (ended : run.execute start elapsed count = .ok reached) :
    run.advances count start.training = .ok reached.training := by
  rw [← run.execute_training start elapsed, ended]
  rfl

theorem execute_checkpoints {start final : Progress run.numBlocks} (first : run.First start)
    {elapsed : ℚ} {count : Nat} (executed : run.execute start elapsed count = .ok final)
    {checkpoint : Checkpoint run.numBlocks} (saved : checkpoint ∈ final.checkpoints) :
    ∃ passed ≤ count, ∃ reached, run.execute start elapsed passed = .ok reached ∧
      run.Marks checkpoint reached.training := by
  obtain early | later := passes_checkpoints executed saved
  · simp only [saveBoundary, first.unsaved, List.nil_append, List.mem_singleton] at early
    subst early
    exact ⟨0, Nat.zero_le _, _, rfl, ⟨rfl, rfl, rfl⟩⟩
  · exact later

theorem passes_stopped {start reached : Progress run.numBlocks} {elapsed : ℚ} {passed : Nat}
    (ended : run.execute start elapsed passed = .ok reached)
    (stopped : ¬ run.Running reached.training) (more : Nat) :
    run.execute start elapsed (passed + more) = .ok reached := by
  induction more with
  | zero => exact ended
  | succ more ih =>
    unfold execute at ih ⊢
    rw [← Nat.add_assoc, passes, ih]
    change run.pass reached = .ok reached
    rw [pass, if_neg stopped]
    rfl

end Run

/-- A run trains on what it had trained on when it saved a checkpoint, then on what the run that
resumes from there trains on, up to the same counters and cursor. -/
structure Rejoins {numBlocks : Nat} (reached part whole : TrainingState numBlocks) : Prop where
  step : part.step = whole.step
  tokens : part.tokens = whole.tokens
  cursor : part.cursor = whole.cursor
  updates : whole.updates = reached.updates ++ part.updates

namespace Run

variable {run : Run}

structure Resumes (run : Run) (start : Progress run.numBlocks) (elapsed : ℚ) (passed : Nat)
    (reached resumed : Progress run.numBlocks) (config : RunConfig)
    (attempts : Nat → Nat → EngineAttempt) (boundaries : Nat → Option Boundary) : Prop where
  rejoins : ∀ (more : Nat) (elapsed' : ℚ) (whole part : Progress run.numBlocks),
    run.execute start elapsed (passed + more) = .ok whole →
      (run.continued config attempts boundaries).execute resumed elapsed' more = .ok part →
        Rejoins reached.training part.training whole.training
  outcome : attempts = run.attempts → ∀ (more : Nat) (elapsed' : ℚ),
    (run.execute start elapsed (passed + more)).map (·.training) =
      ((run.continued config attempts boundaries).execute resumed elapsed' more).map
        (·.training.prepend reached.training.updates)

theorem resumes {start reached resumed : Progress run.numBlocks} {elapsed : ℚ} {passed : Nat}
    {config : RunConfig} (same : SameTrajectory run.config config)
    (ended : run.execute start elapsed passed = .ok reached)
    (restored : reached.training = resumed.training.prepend reached.training.updates)
    (attempts : Nat → Nat → EngineAttempt) (boundaries : Nat → Option Boundary) :
    run.Resumes start elapsed passed reached resumed config attempts boundaries := by
  have split : ∀ more, run.advances (passed + more) start.training =
      (run.advances more resumed.training).map (·.prepend reached.training.updates) := by
    intro more
    rw [advances_add, execute_ok ended, ← advances_prepend, ← restored]
    rfl
  constructor
  · intro more elapsed' whole part ended' continues
    have later := execute_ok ended'
    rw [split] at later
    cases further : run.advances more resumed.training with
    | error reason =>
      rw [further] at later
      cases later
    | ok state =>
      rw [further] at later
      have equal := advances_continued same further (execute_ok continues)
      have joined : state.prepend reached.training.updates = whole.training := Except.ok.inj later
      rw [← joined, equal]
      exact ⟨rfl, rfl, rfl, rfl⟩
  · rintro rfl more elapsed'
    rw [execute_training, split]
    have trained := (run.continued config run.attempts boundaries).execute_training resumed
      elapsed' more
    rw [advances_continued_eq same] at trained
    rw [← trained]
    cases (run.continued config run.attempts boundaries).execute resumed elapsed' more <;> rfl

/-- Stopping at a checkpoint and resuming under an admitted configuration. -/
theorem resume_equivalence {start final : Progress run.numBlocks} (first : run.First start)
    {elapsed : ℚ} {count : Nat} (executed : run.execute start elapsed count = .ok final)
    {checkpoint : Checkpoint run.numBlocks} (saved : checkpoint ∈ final.checkpoints)
    {allowRuntimeOptimization : Bool} {config : RunConfig}
    (admitted : admitContinuation allowRuntimeOptimization run.config config = .ok ())
    (attempts : Nat → Nat → EngineAttempt) (boundaries : Nat → Option Boundary) :
    ∃ passed ≤ count, ∃ reached, run.execute start elapsed passed = .ok reached ∧
      run.Marks checkpoint reached.training ∧
      (¬ run.Running reached.training →
        (run.continued config attempts boundaries).restore checkpoint =
            .error "cannot resume a completed training budget" ∧
          ∀ more, run.execute start elapsed (passed + more) = .ok reached) ∧
      (run.Running reached.training → ∃ resumed,
        (run.continued config attempts boundaries).restore checkpoint = .ok resumed ∧
          run.Resumes start elapsed passed reached resumed config attempts boundaries) := by
  have same := admitContinuation_same admitted
  obtain ⟨passed, bound, reached, ended, marks⟩ := execute_checkpoints first executed saved
  have budget : (config.maxSteps ≤ checkpoint.step ∨ config.maxTokens ≤ checkpoint.tokensSeen) ↔
      ¬ run.Running reached.training := by
    rw [marks.step, marks.tokens, same.maxSteps, same.maxTokens, Running]
    omega
  refine ⟨passed, bound, reached, ended, marks, ?_, ?_⟩
  · intro stopped
    exact ⟨if_pos (budget.mpr stopped), passes_stopped ended stopped⟩
  · intro running
    refine ⟨_, if_neg fun completed => budget.mp completed running, resumes same ended ?_ _ _⟩
    simp [TrainingState.prepend, marks.step, marks.tokens, marks.cursor]

def sampleData : TrainingData where
  framework := ⟨fun numBlocks _ => List.finRange numBlocks, fun _ _ => List.Perm.refl _⟩
  dataset :=
    { ids := [1, 2, 3, 4, 5, 6]
      seqLen := 1
      positive := by decide
      supervisionAligned := by simp
      addressesAligned := by simp
      ownersAligned := by simp }
  seed := 7
  nonempty := by decide

def sampleConfig (windows : Windows) : RunConfig where
  name := "run"
  logging := ""
  checkpoint := ""
  deviceIndex := 0
  engine := "pytorch"
  attentionKind := "dense"
  attentionImplementation := none
  seed := 7
  windows := windows
  maxSteps := 5
  maxTokens := 9
  deterministic := false
  panels := []
  evaluationBatchSize := some 1
  activationCheckpointing := false
  compileTransformerBlocks := false
  compileOutputHeadLoss := false
  others := ""

def sampleRun : Run where
  framework := sampleData.framework
  dataset := .blocks sampleData.dataset
  nonempty := sampleData.nonempty
  config := sampleConfig ⟨1, 2, Nat.one_pos, Nat.two_pos⟩
  attempts := fun _ _ => .applied
  boundaries := fun step => some ⟨step, false⟩

def sampleWindow : Window sampleRun.numBlocks :=
  sampleData.takeRecords 9 ((List.range' 0 2).map sampleData.visit) [] 0 ⟨0, 0, Nat.zero_le _⟩

def sampleProgress : Progress sampleRun.numBlocks :=
  sampleRun.saveBoundary
    { sampleRun.saveBoundary sampleRun.fresh ⟨0, false⟩ with
      training := sampleRun.committed sampleRun.fresh.training sampleWindow }
    ⟨1, false⟩

theorem sampleRun_execute : sampleRun.execute sampleRun.fresh 0 1 = .ok sampleProgress := by
  have selected : sampleRun.window sampleRun.fresh.training = .ok sampleWindow := by
    have filled := sampleData.fillWindow_eq 2 [] ⟨0, 0, Nat.zero_le _⟩
    change Except.ok (sampleData.takeRecords 9
      (sampleData.fillWindow 2 [] ⟨0, 0, Nat.zero_le _⟩) [] 0 _) = _
    rw [filled]
    rfl
  have updated : sampleRun.update sampleRun.fresh.training =
      .ok (sampleRun.committed sampleRun.fresh.training sampleWindow) := by
    unfold update
    rw [selected]
    rfl
  change sampleRun.pass (sampleRun.saveBoundary sampleRun.fresh ⟨0, false⟩) = _
  rw [pass, if_pos (by decide)]
  change (sampleRun.update sampleRun.fresh.training >>= _) = _
  rw [updated]
  rfl

theorem resume_equivalence_sample :
    ∃ passed ≤ 1, ∃ reached, sampleRun.execute sampleRun.fresh 0 passed = .ok reached ∧
      sampleRun.Marks ⟨1, 2, ⟨0, 2, by decide⟩, some ⟨1, 2, 1⟩⟩ reached.training ∧
      (¬ sampleRun.Running reached.training →
        (sampleRun.continued (sampleConfig ⟨2, 1, by decide, by decide⟩) sampleRun.attempts
            sampleRun.boundaries).restore
          ⟨1, 2, ⟨0, 2, by decide⟩, some ⟨1, 2, 1⟩⟩ =
            .error "cannot resume a completed training budget" ∧
          ∀ more, sampleRun.execute sampleRun.fresh 0 (passed + more) = .ok reached) ∧
      (sampleRun.Running reached.training → ∃ resumed,
        (sampleRun.continued (sampleConfig ⟨2, 1, by decide, by decide⟩) sampleRun.attempts
            sampleRun.boundaries).restore
          ⟨1, 2, ⟨0, 2, by decide⟩, some ⟨1, 2, 1⟩⟩ = .ok resumed ∧
          sampleRun.Resumes sampleRun.fresh 0 passed reached resumed
            (sampleConfig ⟨2, 1, by decide, by decide⟩) sampleRun.attempts sampleRun.boundaries) := by
  have saved : (⟨1, 2, ⟨0, 2, by decide⟩, some ⟨1, 2, 1⟩⟩ : Checkpoint sampleRun.numBlocks) ∈
      sampleProgress.checkpoints :=
    List.mem_append_right _ (List.mem_singleton.mpr rfl)
  have admitted : admitContinuation true sampleRun.config
      (sampleConfig ⟨2, 1, by decide, by decide⟩) = .ok () := by
    decide +kernel
  exact resume_equivalence (.inl rfl) sampleRun_execute saved admitted _ _

end Run

end SparseLab.Training
