import SparseLab.Workers.ControllerStore

/-!
The processes that share one queue, as in `workers/controller.py`. Each step is one transaction;
rows read before may be stale.
-/

namespace SparseLab.Workers

open Library

/-- A row as `attempts()` joins it with its experiment. -/
structure Reading where
  row : Attempt
  spec : Spec
deriving DecidableEq

namespace Queue

/-- `ControllerStore.attempts` -/
def readings (queue : Queue) : List Reading :=
  queue.attempts.filterMap fun row =>
    (queue.specOf row.experimentId).map fun spec => { row, spec }

/-- The two slot checks of `_eligible_worker`. Its probes of the worker only refuse more. -/
def Eligible (queue : Queue) (workerId : String) : Prop :=
  ∀ reading ∈ queue.readings, reading.row.status.Reconcilable →
    reading.row.workerId = some workerId →
      reading.row.recovery = none ∧ reading.row.terminalReceipt ≠ none

instance (queue : Queue) (workerId : String) : Decidable (queue.Eligible workerId) :=
  inferInstanceAs (Decidable (∀ reading ∈ queue.readings, _ → _ → _))

end Queue

/-- The status `_reconcile_receipt` maps a receipt to once its identity is checked. -/
def reconciledStatus (durable : Reading) (receipt : Receipt) : Except StoreFailure QueueStatus :=
  if receipt.attemptId ≠ some durable.row.attemptId ∨ receipt.runId ≠ some durable.row.runId ∨
      receipt.experimentId ≠ some durable.row.experimentId ∨
      receipt.workerId ≠ durable.row.workerId ∨
      receipt.specDigest ≠ some durable.spec.digest ∨
      receipt.bundleDigest ≠ some durable.spec.dispatchBundleDigest then
    .error (.value "receipt identity differs from durable assignment")
  else match receipt.state with
    | none => .error (.value "unknown attempt receipt state")
    | some .prepared => .ok .assigned
    | some .running => .ok .running
    | some .complete => .ok .complete
    | some .failed => .ok .failed
    | some .interrupted =>
      .ok (if receipt.cancellationAcknowledged then .cancelled else .interrupted)
    | some .unknown => .ok .unknown

structure System where
  queue : Queue := {}
  seen : List Reading := []
  chosen : Option (Reading × String) := none
  raised : List (String × String) := []
deriving DecidableEq

inductive Action
  | enqueue (entries : List Entry)
  | read
  | choose (reading : Reading) (workerId : String)
  | giveUp
  | assign (attemptId workerId : String)
  | setQueuedReason (attemptId : String) (reason : Option String)
  | reconcile (durable : Reading) (receipt : Receipt)
  | unreachable (attempt : Reading) (reason : String)
  | requestCancel (runId : String)
  | recordRecovery (attemptId : String) (observation : RecoveryObservation)
      (workerId specDigest bundleDigest : String)
  | ingested (attemptId : String)
  | notRequired (attemptId : String)
  | fault (attemptId message : String)
  | ingestionError (attemptId message : String)
deriving DecidableEq

namespace System

variable (system : System)

def commit {α : Type} (body : Queue.QueueTransaction α) : System :=
  { system with queue := (transact body system.queue).2 }

/-- `mark_ingestion_complete`, whose refusal goes to the handler of the ingestion. -/
def ingest (attemptId : String) : System :=
  match (transact (Queue.markIngestionComplete attemptId) system.queue).1 with
  | .ok _ => system.commit (Queue.markIngestionComplete attemptId)
  | .error failure => { system with raised := (attemptId, failure.text) :: system.raised }

def step (action : Action) : Option System :=
  match action with
  | .enqueue entries => some (system.commit (Queue.enqueueMany entries))
  | .read => some { system with seen := system.queue.readings ++ system.seen }
  | .choose reading workerId =>
    if reading ∈ system.seen ∧ reading.row.status = .queued ∧ system.queue.Eligible workerId then
      some { system with chosen := some (reading, workerId) }
    else none
  | .giveUp => some { system with chosen := none }
  | .assign attemptId workerId =>
    if ∃ found ∈ system.chosen, found.1.row.attemptId = attemptId ∧ found.2 = workerId then
      some { system.commit (Queue.assign attemptId workerId) with chosen := none }
    else none
  | .setQueuedReason attemptId reason =>
    some (system.commit (Queue.setQueuedReason attemptId reason))
  | .reconcile durable receipt =>
    -- A receipt is only ever asked of the worker that the attempt is assigned to.
    if durable ∈ system.seen ∧ durable.row.workerId ≠ none then
      match reconciledStatus durable receipt with
      | .ok status => some (system.commit (Queue.setReceipt durable.row.attemptId receipt status))
      | .error _ => none
    else none
  | .unreachable attempt reason =>
    if attempt ∈ system.seen then
      some (system.commit (Queue.markUnknownIfNonterminal attempt.row.attemptId reason))
    else none
  | .requestCancel runId => some (system.commit (Queue.requestCancel runId))
  | .recordRecovery attemptId observation workerId specDigest bundleDigest =>
    some (system.commit
      (Queue.recordRecovery attemptId observation workerId specDigest bundleDigest))
  | .ingested attemptId => some (system.ingest attemptId)
  | .notRequired attemptId => some (system.commit (Queue.markIngestionNotRequired attemptId))
  | .fault attemptId message =>
    some { system with raised := (attemptId, message) :: system.raised }
  | .ingestionError attemptId message =>
    if (attemptId, message) ∈ system.raised then
      some (system.commit (Queue.markIngestionError attemptId message))
    else none

def after (system : System) (actions : List Action) : Option System :=
  actions.foldlM step system

end System

end SparseLab.Workers
