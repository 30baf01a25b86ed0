import SparseLab.Campaign.EngineSteps

/-! A campaign across crashes: the next `reconcile` shows every committed stage. -/

namespace SparseLab.Campaign

open Library

section

variable {formats : Formats} {plan : Plan} {disk : Disk} {id : String} {receipt : Receipt}

def Grows (disk disk' : Disk) : Prop := ∀ file ∈ disk.files, file ∈ disk'.files

theorem Grows.refl (disk : Disk) : Grows disk disk := fun _ member => member

theorem Grows.trans {disk disk' disk'' : Disk} (first : Grows disk disk') (second : Grows disk' disk'') :
    Grows disk disk'' := fun file member => second file (first file member)

theorem add_grows (disk : Disk) (id : String) (content : Content) : Grows disk (disk.add id content) :=
  fun _ member => List.mem_append_left _ member

theorem commit_grows (disk : Disk) (stage : Stage) (row : Row) (now : String) :
    Grows disk (commit formats disk stage row now).1 := by
  unfold commit
  split
  next => exact .refl disk
  next =>
    split
    next => exact .refl disk
    next =>
      split
      next => exact .refl disk
      next => exact add_grows _ _ _

theorem commitKilled_grows (disk : Disk) (stage : Stage) (row : Row) (now : String) (window : Window) :
    Grows disk (commitKilled formats disk stage row now window) := by
  unfold commitKilled
  dsimp only
  split
  next => exact .refl disk
  next =>
    cases window with
    | written => exact add_grows _ _ _
    | linked => exact (commit_grows disk stage row now).trans (add_grows _ _ _)

theorem after_disk {outcome : Except String Session} : (Engine.after disk outcome).disk = disk := by
  cases outcome <;> rfl

theorem committed_grows (engine : Engine) (rows : Rows) (stage : Stage) (row : Row) (now : String)
    (killed : Option Window) :
    Grows engine.disk (committed formats engine rows stage row now killed).disk := by
  unfold committed
  cases killed with
  | some window => exact commitKilled_grows _ _ _ _ _
  | none =>
    dsimp only
    rw [after_disk]
    exact commit_grows _ _ _ _

theorem recorded_grows (engine : Engine) (surroundings : Surroundings) (rows : Rows)
    (next : Rows → Session) :
    Grows engine.disk (recorded formats plan engine surroundings rows next).disk := by
  unfold recorded
  cases returned : record formats plan surroundings engine.disk rows with
  | error failure => exact .refl _
  | ok saved =>
    obtain ⟨disk, rows'⟩ := saved
    obtain ⟨rfl, _⟩ := record_ok returned
    exact .refl _

theorem dispatchStage_grows (engine : Engine) (surroundings : Surroundings) (rows : Rows)
    (stage : Stage) (contracts : Data) :
    Grows engine.disk (dispatchStage formats plan engine surroundings rows stage contracts).disk := by
  unfold dispatchStage
  split
  next => exact .refl _
  next => exact recorded_grows _ _ _ _

theorem finishStage_grows (engine : Engine) (rows : Rows) (stage : Stage) (result : Result)
    (now : String) (killed : Option Window) :
    Grows engine.disk (finishStage formats engine rows stage result now killed).disk := by
  unfold finishStage
  dsimp only
  split
  next => exact committed_grows _ _ _ _ _ _
  next => exact .refl _

theorem approveStage_grows (engine : Engine) (rows : Rows) (stage : Stage) (result : Result)
    (now : String) (killed : Option Window) :
    Grows engine.disk (approveStage formats plan engine rows stage result now killed).disk := by
  unfold approveStage
  split
  next => exact .refl _
  next => exact committed_grows _ _ _ _ _ _

theorem step_grows (engine : Engine) (event : Event) :
    Grows engine.disk (step formats plan engine event).disk := by
  obtain ⟨disk, session⟩ := engine
  unfold step
  split
  next => rw [after_disk]; exact .refl _
  next => exact recorded_grows _ _ _ _
  next =>
    split
    next => exact .refl _
    next =>
      split
      next => exact recorded_grows _ _ _ _
      next => exact .refl _
  next =>
    split
    next => exact .refl _
    next =>
      split
      next => exact dispatchStage_grows _ _ _ _ _
      next => exact .refl _
  next =>
    split
    next => exact finishStage_grows _ _ _ _ _ _
    next => exact .refl _
  next =>
    split
    next => exact .refl _
    next =>
      split
      next => exact approveStage_grows _ _ _ _ _ _
      next => exact .refl _
  next => exact recorded_grows _ _ _ _
  next => exact .refl _
  next => exact .refl _

theorem run_grows (events : List Event) (engine : Engine) :
    Grows engine.disk (runEvents formats plan engine events).disk := by
  induction events generalizing engine with
  | nil => exact .refl _
  | cons event events ih => exact (step_grows engine event).trans (ih _)

end

section

variable {formats : Formats} {plan : Plan}

theorem start_kept : Kept formats plan {} := by
  have absent : ∀ id receipt, ¬ Has {} id receipt := fun _ _ => List.not_mem_nil
  refine ⟨⟨fun file member => absurd member List.not_mem_nil, List.nodup_nil,
    fun stage _ receipt has => absurd has (absent _ receipt)⟩,
      fun stage _ receipt has => absurd has (absent _ receipt),
      fun stage listed => Or.inl (initial_current listed (absent _)), trivial⟩

theorem run_kept (events : List Event) {engine : Engine} (kept : Kept formats plan engine)
    (careful : CarefulRun formats plan engine events) :
    Kept formats plan (runEvents formats plan engine events) := by
  induction events generalizing engine with
  | nil => exact kept
  | cons event events ih => exact ih (step_kept kept careful.1) careful.2

structure CrashSafe (formats : Formats) (plan : Plan) (engine : Engine) : Prop where
  rebuilt : (∀ stage ∈ plan.stages, ¬ Hidden plan engine.disk stage) → ∃ rows,
    reconcile formats plan engine.disk (engine.disk.rows plan) = .ok rows ∧
      ∀ stage ∈ plan.stages, ∀ receipt, Has engine.disk stage.id receipt →
        Agrees stage (rows stage.id) receipt
  shown : engine.session = .idle → ∀ stage ∈ plan.stages, ¬ Hidden plan engine.disk stage
  receipts : ∀ file ∈ engine.disk.files, ∃ stage ∈ plan.stages, ∃ receipt,
    file = ⟨stage.id, .receipt receipt.stageInput receipt⟩
  single : (engine.disk.files.map (·.stage)).Nodup
  bound : ∀ stage ∈ plan.stages, ∀ receipt, Has engine.disk stage.id receipt →
    InputOf plan engine.disk stage receipt.stageInput
  executed : ∀ rows stage, engine.session = .dispatched rows stage →
    ∀ receipt, ¬ Has engine.disk stage.id receipt
  repeated : ∀ stage ∈ plan.stages, ∀ receipt, Has engine.disk stage.id receipt → ∀ row now,
    commitInput formats stage row = .ok receipt.stageInput →
      compareCommitted row (receiptRow stage receipt.stageInput receipt) = .ok () →
        commit formats engine.disk stage row now =
          (engine.disk, .ok (committedRow row (receiptRow stage receipt.stageInput receipt)))
  refused : ∀ stage ∈ plan.stages, ∀ receipt, Has engine.disk stage.id receipt → ∀ row now input,
    row.stageInput = some input → InputOf plan engine.disk stage input →
      compareCommitted row (receiptRow stage receipt.stageInput receipt) ≠ .ok () →
        ∃ failure, commit formats engine.disk stage row now = (engine.disk, .error failure)

theorem Kept.crashSafe {engine : Engine} (kept : Kept formats plan engine) :
    CrashSafe formats plan engine where
  rebuilt shown := by
    obtain ⟨rows, returned, each⟩ := reconcile_merges kept.published (kept.shown shown)
    exact ⟨rows, returned, fun stage listed => (each stage listed).1.agrees⟩
  shown idle stage listed hidden := by
    obtain current | ⟨_, rows, row, finished⟩ := kept.index stage listed
    · obtain ⟨⟨receipt, has⟩, blocked, unmarked⟩ := hidden
      obtain agrees | lagging := current.agrees receipt has
      · rw [agrees.receipt] at unmarked
        cases unmarked
      · exact lagging.state (by rw [blocked]; decide)
    · rw [idle] at finished
      cases finished
  receipts file member := by
    obtain ⟨stage, listed, receipt, same, _⟩ := kept.published.receipts file member
    exact ⟨stage, listed, receipt, same⟩
  single := kept.published.single
  bound := kept.published.bound
  executed rows stage dispatched := by
    have session := kept.session
    rw [dispatched] at session
    exact session.2.2.1
  repeated stage listed receipt has row now passed compared := by
    rw [commit_again kept.published listed has (commitInput_ok passed).2.2, passed]
    change (_, compareCommitted row _ >>= _) = _
    rw [compared]
    rfl
  refused stage listed receipt has row now input given bound differs := by
    obtain rfl : receipt.stageInput = input :=
      (kept.published.bound stage listed receipt has).unique kept.published bound
    rw [commit_again kept.published listed has given]
    cases checked : commitInput formats stage row with
    | error failure => exact ⟨failure, rfl⟩
    | ok input =>
      cases compared : compareCommitted row (receiptRow stage receipt.stageInput receipt) with
      | error failure => exact ⟨failure, rfl⟩
      | ok => exact absurd compared differs

/-- A run that loses no process at the two dangerous places can crash anywhere else. -/
theorem campaign_crash_safe (events : List Event) (careful : CarefulRun formats plan {} events) :
    CrashSafe formats plan (runEvents formats plan {} events) ∧
      ∀ earlier later, events = earlier ++ later → ∀ id receipt,
        Has (runEvents formats plan {} earlier).disk id receipt →
          Has (runEvents formats plan {} events).disk id receipt := by
  refine ⟨(run_kept events start_kept careful).crashSafe, ?_⟩
  rintro earlier later rfl id receipt has
  unfold runEvents
  rw [List.foldl_append]
  exact run_grows later _ _ has

section

def anyInput : Sha :=
  ⟨"0000000000000000000000000000000000000000000000000000000000000000", by decide +kernel⟩

def panelStage : Stage :=
  { id := "panel", kind := .other "generation_panel", scope := "model", requires := [] }

def gateStage : Stage :=
  { id := "review", kind := .approval, scope := "model", requires := ["panel"], bind := ["panel"] }

def reviewedPlan : Plan where
  stages := [panelStage, gateStage]
  unique := by decide
  ordered := by
    intro earlier stage later split name required
    obtain _ | ⟨first, _ | ⟨second, earlier⟩⟩ := earlier
    · cases split
      cases required
    · cases split
      exact required
    · simp at split
  digest _ _ := anyInput

def anyFormats : Formats := ⟨fun _ => false, fun _ => true⟩

def calm : Surroundings := ⟨fun _ => .ok none, fun _ => .ok (), fun _ => .ok false⟩

def completed (identifier : String) : Result where
  state := .complete
  outcome := .readyForNextStage
  reason := "verified"
  outputs := [⟨"panel", identifier, anyInput.text⟩]

def interruptedRun : List Event :=
  [.enter, .dispatch calm "panel" [], .finish (completed "panel") "2025-01-01T00:00:00Z" none, .stop]

def leftoverRun : List Event :=
  [.enter, .dispatch calm "panel" [],
    .finish (completed "panel") "2025-01-01T00:00:00Z" (some .linked)]

def hiddenRun : List Event :=
  interruptedRun ++
    [.enter, .approve "review" (completed "review") "2025-01-01T00:00:01Z" none, .stop]

def diskAfter (events : List Event) : Disk := (runEvents anyFormats reviewedPlan {} events).disk

theorem careful_of_shown {formats : Formats} {plan : Plan} {engine : Engine} {event : Event}
    (survives : event.killed = none) (shown : ∀ stage ∈ plan.stages,
      (engine.disk.rows plan stage.id).state = .blocked →
        stage.id ∉ engine.disk.files.map File.stage) : Careful formats plan engine event := by
  refine ⟨survives, fun stage listed hidden => ?_⟩
  obtain ⟨⟨receipt, has⟩, blocked, _⟩ := hidden
  exact absurd (List.mem_map_of_mem has) (shown stage listed blocked)

theorem campaign_crash_safe_interrupted :
    ((diskAfter interruptedRun).files.map File.stage = ["panel"]) ∧
      CrashSafe anyFormats reviewedPlan (runEvents anyFormats reviewedPlan {} interruptedRun) :=
  ⟨by decide +kernel, (campaign_crash_safe interruptedRun
    ⟨careful_of_shown rfl (by decide +kernel), careful_of_shown rfl (by decide +kernel),
      careful_of_shown rfl (by decide +kernel), careful_of_shown rfl (by decide +kernel), trivial⟩).1⟩

theorem committed_campaigns_refused :
    (∃ receipt, Has (diskAfter leftoverRun) "panel" receipt) ∧
      (¬ ∃ rows, reconcile anyFormats reviewedPlan (diskAfter leftoverRun)
        ((diskAfter leftoverRun).rows reviewedPlan) = .ok rows) ∧
      (diskAfter hiddenRun).files.map File.stage = ["panel", "review"] ∧
      ¬ ∃ rows, reconcile anyFormats reviewedPlan (diskAfter hiddenRun)
        ((diskAfter hiddenRun).rows reviewedPlan) = .ok rows := by
  have refused : ∀ events, (reconcile anyFormats reviewedPlan (diskAfter events)
      ((diskAfter events).rows reviewedPlan)).isOk = false →
        ¬ ∃ rows, reconcile anyFormats reviewedPlan (diskAfter events)
          ((diskAfter events).rows reviewedPlan) = .ok rows := by
    rintro events failed ⟨rows, returned⟩
    rw [returned] at failed
    cases failed
  refine ⟨?_, refused _ (by decide +kernel), by decide +kernel, refused _ (by decide +kernel)⟩
  refine ⟨⟨panelStage.toEntry, anyInput.text, .complete, .readyForNextStage, "verified", [],
    [⟨"panel", "panel", anyInput.text⟩], [], [], "2025-01-01T00:00:00Z", []⟩, ?_⟩
  unfold Has
  decide +kernel

end

end

end SparseLab.Campaign
