import SparseLab.Campaign.Store

/-! The runs of a campaign, from `campaign/engine.py`: `apply` and `approve` on the store. -/

namespace SparseLab.Campaign

open Library

structure Surroundings where
  availability : String → Except String (Option String)
  verify : String → Except String Unit
  approved : String → Except String Bool

/-- What `dispatch` returns for a stage. -/
structure Result where
  state : StageState
  outcome : Outcome
  reason : String
  deficits : List Json := []
  outputs : List Output := []
  availability : Data := []
  data : Data := []
deriving DecidableEq

inductive Verb
  | approve | resume | apply | wait
deriving DecidableEq

section

variable (formats : Formats) (plan : Plan)

section

variable (surroundings : Surroundings)

def availability (stage : Stage) : Except String (Option String) :=
  match stage.kind with
  | .approval | .experimentRun => .ok none
  | _ => surroundings.availability stage.id

def settled (row : Row) : Prop :=
  row.state ∈ [StageState.complete, .failed, .inconclusive, .blocked, .awaitingApproval, .running,
    .interrupted] ∧ (row.state = .blocked → row.receipt ≠ none)

instance (row : Row) : Decidable (settled row) := inferInstanceAs (Decidable (_ ∧ (_ → _)))

def projectWaiting (rows : Rows) (stage : Stage) : Row :=
  let row := rows stage.id
  let blocked := stage.requires.filter fun name => (rows name).state ≠ .complete
  if blocked ≠ [] then
    { row with
      state := .blocked, outcome := some .doNotAdvance
      reason := some "prerequisite did not complete"
      data := ("blocked_by", ", ".intercalate blocked) :: row.data }
  else
    let row := { row with data := row.data.filter (·.1 ≠ "blocked_by") }
    match availability surroundings stage with
    | .error failure =>
      { row with state := .failed, outcome := some .doNotAdvance, reason := some failure }
    | .ok (some missing) =>
      { row with state := .blocked, outcome := some .doNotAdvance, reason := some missing }
    | .ok none =>
      { row with
        state := .ready, outcome := some .readyForNextStage
        reason := some "prerequisites complete" }

/-- The row of one stage in `_project_once`. -/
def projectRow (rows : Rows) (stage : Stage) : Except String Row := do
  let row := if settled (rows stage.id) then rows stage.id else
    projectWaiting surroundings rows stage
  if stage.kind = .approval ∧ row.state = .awaitingApproval then do
    let approved ← surroundings.approved stage.id
    pure (if approved then
      { row with state := .ready, reason := some "committed approval awaits gate reconciliation" }
      else row)
  else if row.state = .complete then do
    let input ← inputSha formats plan stage rows
    refuseIf (row.stageInput ≠ some input) ("stage input changed: " ++ stage.id)
    surroundings.verify stage.id
    pure row
  else pure row

def verb (stage : Stage) (row : Row) : Verb :=
  match row.state with
  | .awaitingApproval => .approve
  | .running => .resume
  | .interrupted => if stage.kind = .experimentRun then .wait else .resume
  | .ready => .apply
  | _ => .wait

def nextAction (action : Option (String × Verb)) (stage : Stage) (row : Row) :
    Option (String × Verb) :=
  if action = none ∧ row.state ∈ [StageState.ready, .running, .interrupted, .awaitingApproval,
      .blocked, .failed, .inconclusive] then
    some (stage.id, verb stage row)
  else action

/-- `_project_once` -/
def project (rows : Rows) : Except String (Rows × Option (String × Verb)) :=
  plan.stages.foldlM (fun projected stage => do
    let row ← projectRow formats plan surroundings projected.1 stage
    pure (Function.update projected.1 stage.id row, nextAction projected.2 stage row)) (rows, none)

/-- `_record`, with the row already in its place. -/
def record (disk : Disk) (rows : Rows) : Except String (Disk × Rows) := do
  let (projected, _) ← project formats plan surroundings rows
  let disk ← save formats plan disk projected
  pure (disk, projected)

end

/-- `row.update(result)` -/
def Row.take (row : Row) (result : Result) : Row :=
  { row with
    state := result.state, outcome := some result.outcome, reason := some result.reason
    deficits := some result.deficits, outputs := result.outputs
    availability := result.availability, data := result.data ++ row.data }

def Row.close (row : Row) (result : Result) : Row :=
  { row with attempts := row.attempts.dropLast ++ [⟨result.state, result.reason⟩] }

def Row.interrupted (row : Row) : Row :=
  let reason := "uncommitted interrupted attempt"
  { row with
    state := .interrupted, reason := some reason
    attempts := if row.attempts = [] then [] else
      row.attempts.dropLast ++ [⟨.interrupted, reason⟩]
    observations := row.observations ++ ["INTERRUPTED: " ++ reason] }

def Row.dispatched (row : Row) (input : String) (contracts : Data) : Row :=
  { row with
    state := .running, stageInput := some input
    attempts := row.attempts ++ [⟨.running, "dispatch"⟩], data := contracts ++ row.data }

/-- The results that `dispatch` can return for a stage. -/
def Dispatches (stage : Stage) (result : Result) : Prop :=
  result.state ∈ [StageState.complete, .blocked, .failed, .inconclusive, .interrupted,
    .awaitingApproval, .running] ∧
  (result.state = .interrupted → stage.kind = .datasetSnapshot ∨ stage.kind = .experimentRun) ∧
  ∀ key ∈ result.data.map (·.1), key ∉ reserved

instance (stage : Stage) (result : Result) : Decidable (Dispatches stage result) :=
  inferInstanceAs (Decidable (_ ∧ (_ → _) ∧ _))

inductive Session
  | idle
  | opened (rows : Rows)
  | dispatched (rows : Rows) (stage : Stage)
  | finished (rows : Rows) (stage : Stage) (row : Row)

structure Engine where
  disk : Disk := {}
  session : Session := .idle

inductive Event
  | enter
  | record (surroundings : Surroundings)
  | interrupt (surroundings : Surroundings) (id : String)
  | dispatch (surroundings : Surroundings) (id : String) (contracts : Data)
  | finish (result : Result) (now : String) (killed : Option Window)
  | approve (id : String) (result : Result) (now : String) (killed : Option Window)
  | keep (surroundings : Surroundings)
  | stop

/-- The rows that `reconcile` is given. -/
def Disk.rows (disk : Disk) : Rows := disk.index.getD (initial plan)

def Engine.after (disk : Disk) : Except String Session → Engine
  | .ok session => { disk, session }
  | .error _ => { disk }

def recorded (engine : Engine) (surroundings : Surroundings) (rows : Rows)
    (next : Rows → Session) : Engine :=
  match record formats plan surroundings engine.disk rows with
  | .ok (disk, rows) => { disk, session := next rows }
  | .error _ => { engine with session := .idle }

/-- `commit`, and what the process is at then. -/
def committed (engine : Engine) (rows : Rows) (stage : Stage) (row : Row) (now : String)
    (killed : Option Window) : Engine :=
  match killed with
  | some window => { disk := commitKilled formats engine.disk stage row now window }
  | none =>
    let (disk, outcome) := commit formats engine.disk stage row now
    .after disk (outcome.map fun row => .finished rows stage row)

/-- The results of `approve`, whose binding needs the outputs of complete stages. -/
def Approvable (rows : Rows) (stage : Stage) (result : Result) : Prop :=
  stage.kind = .approval ∧
  (rows stage.id).state ∈ [StageState.awaitingApproval, .complete, .blocked] ∧
  (∀ name ∈ stage.bind, (rows name).state = .complete ∧ (rows name).outputs ≠ []) ∧
  result.state ∈ [StageState.complete, .blocked] ∧ ∀ key ∈ result.data.map (·.1), key ∉ reserved

instance (rows : Rows) (stage : Stage) (result : Result) : Decidable (Approvable rows stage result) :=
  inferInstanceAs (Decidable (_ ∧ _ ∧ _ ∧ _ ∧ _))

def acts (surroundings : Surroundings) (rows : Rows) (id : String) (verbs : List Verb) :
    Option Stage :=
  match project formats plan surroundings rows with
  | .ok (_, some (next, verb)) => if next = id ∧ verb ∈ verbs then plan.stage id else none
  | _ => none

/-- The loop body of `apply` that starts an attempt. -/
def dispatchStage (engine : Engine) (surroundings : Surroundings) (rows : Rows) (stage : Stage)
    (contracts : Data) : Engine :=
  match inputSha formats plan stage rows with
  | .error _ => { engine with session := .idle }
  | .ok input =>
    recorded formats plan engine surroundings
      (Function.update rows stage.id ((rows stage.id).dispatched input contracts))
      fun rows => .dispatched rows stage

def finishStage (engine : Engine) (rows : Rows) (stage : Stage) (result : Result)
    (now : String) (killed : Option Window) : Engine :=
  let row := ((rows stage.id).take result).close result
  if result.state.Committed ∧ ¬ (stage.kind = .datasetSnapshot ∧ result.state = .interrupted) then
    committed formats engine rows stage row now killed
  else { engine with session := .finished rows stage row }

/-- `approve` -/
def approveStage (engine : Engine) (rows : Rows) (stage : Stage) (result : Result)
    (now : String) (killed : Option Window) : Engine :=
  match inputSha formats plan stage rows with
  | .error _ => { engine with session := .idle }
  | .ok input =>
    committed formats engine rows stage
      { (rows stage.id).take result with stageInput := some input } now killed

def step (engine : Engine) (event : Event) : Engine :=
  match event, engine.session with
  | .enter, .idle =>
    .after engine.disk
      ((reconcile formats plan engine.disk (engine.disk.rows plan)).map .opened)
  | .record surroundings, .opened rows => recorded formats plan engine surroundings rows .opened
  | .interrupt surroundings id, .opened rows =>
    match acts formats plan surroundings rows id [.resume] with
    | none => engine
    | some stage =>
      if (rows id).state = .running ∧ stage.kind ≠ .experimentRun then
        recorded formats plan engine surroundings
          (Function.update rows id (rows id).interrupted) .opened
      else engine
  | .dispatch surroundings id contracts, .opened rows =>
    match acts formats plan surroundings rows id [.apply, .resume] with
    | none => engine
    | some stage =>
      if ∀ key ∈ contracts.map Prod.fst, key ∉ reserved then
        dispatchStage formats plan engine surroundings rows stage contracts
      else engine
  | .finish result now killed, .dispatched rows stage =>
    if Dispatches stage result ∧ formats.utc now then
      finishStage formats engine rows stage result now killed
    else engine
  | .approve id result now killed, .opened rows =>
    match plan.stage id with
    | none => engine
    | some stage =>
      if Approvable rows stage result ∧ formats.utc now then
        approveStage formats plan engine rows stage result now killed
      else engine
  | .keep surroundings, .finished rows stage row =>
    recorded formats plan engine surroundings (Function.update rows stage.id row) .opened
  | .stop, _ => { engine with session := .idle }
  | _, _ => engine

def runEvents (engine : Engine) (events : List Event) : Engine :=
  events.foldl (step formats plan) engine

end

end SparseLab.Campaign
