import Mathlib.Data.List.Infix
import SparseLab.Library.Transactions

/-! The controller's queue of `workers/store.py`: one row for each attempt. -/

namespace SparseLab.Workers

open Library

inductive QueueStatus
  | queued | assigned | running | cancelRequested | cancelled | complete | failed
  | interrupted | unknown
deriving DecidableEq

namespace QueueStatus

/-- `RECONCILABLE_QUEUE_STATES` -/
def Reconcilable (status : QueueStatus) : Prop :=
  status ∈ [assigned, running, cancelRequested, unknown]

/-- `TERMINAL_QUEUE_STATES` -/
def Terminal (status : QueueStatus) : Prop :=
  status ∈ [cancelled, complete, failed, interrupted]

instance (status : QueueStatus) : Decidable status.Reconcilable :=
  inferInstanceAs (Decidable (_ ∈ _))

instance (status : QueueStatus) : Decidable status.Terminal :=
  inferInstanceAs (Decidable (_ ∈ _))

end QueueStatus

inductive ReceiptState
  | prepared | running | complete | failed | interrupted | unknown
deriving DecidableEq

/-- `TERMINAL_RECEIPT_STATES` -/
def ReceiptState.Terminal : ReceiptState → Prop
  | .prepared | .running => False
  | .complete | .failed | .interrupted | .unknown => True

instance : DecidablePred ReceiptState.Terminal := fun state => by
  cases state <;> unfold ReceiptState.Terminal <;> infer_instance

inductive IngestionStatus
  | pending | error | complete | notRequired
deriving DecidableEq

/-- A worker's receipt as the controller decodes it: an object whose fields may be missing.
`rest` stands for the fields that no operation here reads. -/
structure Receipt where
  attemptId : Option String
  runId : Option String
  experimentId : Option String
  workerId : Option String
  specDigest : Option String
  bundleDigest : Option String
  state : Option ReceiptState
  cancellationAcknowledged : Bool := false
  rest : String := ""
deriving DecidableEq

def Receipt.Terminal (receipt : Receipt) : Prop := ∃ state ∈ receipt.state, state.Terminal

instance (receipt : Receipt) : Decidable receipt.Terminal :=
  match stated : receipt.state with
  | none => isFalse (by simp [Receipt.Terminal, stated])
  | some state => decidable_of_iff state.Terminal (by simp [Receipt.Terminal, stated])

/-- `confirmed_at`, with what `datetime.fromisoformat` finds in it. -/
structure Confirmation where
  text : String
  zoned : Bool
deriving DecidableEq

structure RecoveryObservation where
  reason : String
  commitSha256 : String
  confirmedAt : Confirmation
  instanceId : String
deriving DecidableEq

structure Spec where
  digest : String
  dispatchBundleDigest : String
deriving DecidableEq

structure Experiment where
  experimentId : String
  spec : Spec
  status : QueueStatus
deriving DecidableEq

structure Attempt where
  attemptId : String
  experimentId : String
  runId : String
  workerId : Option String := none
  status : QueueStatus := .queued
  receipt : Option Receipt := none
  terminalReceipt : Option Receipt := none
  queuedReason : Option String := none
  ingestionStatus : IngestionStatus := .pending
  ingestionError : Option String := none
  recovery : Option RecoveryObservation := none
deriving DecidableEq

structure Queue where
  attempts : List Attempt := []
  experiments : List Experiment := []
deriving DecidableEq

structure Entry where
  experimentId : String
  attemptId : String
  runId : String
  spec : Spec
deriving DecidableEq

inductive StoreFailure
  | value (message : String)
  | key (message : String)
  | integrity
deriving DecidableEq

/-- `f"{type(error).__name__}: {error}"` -/
def StoreFailure.text : StoreFailure → String
  | .value message => "ValueError: " ++ message
  | .key message => "KeyError: " ++ message
  | .integrity => "IntegrityError: UNIQUE constraint failed"

/-- `"CONFLICT" in str(error or "")` -/
def conflicted (error : Option String) : Prop :=
  "CONFLICT".toList <:+: (error.getD "").toList

instance (error : Option String) : Decidable (conflicted error) :=
  inferInstanceAs (Decidable (_ <:+: _))

namespace Queue

abbrev QueueTransaction := EStateM StoreFailure Queue

def find (queue : Queue) (attemptId : String) : Option Attempt :=
  queue.attempts.find? (·.attemptId = attemptId)

def byRun (queue : Queue) (runId : String) : Option Attempt :=
  queue.attempts.find? (·.runId = runId)

def specOf (queue : Queue) (experimentId : String) : Option Spec :=
  (queue.experiments.find? (·.experimentId = experimentId)).map (·.spec)

/-- `UPDATE attempts SET … WHERE attempt_id=?` -/
def update (queue : Queue) (attemptId : String) (write : Attempt → Attempt) : Queue :=
  { queue with attempts := queue.attempts.map fun row =>
      if row.attemptId = attemptId then write row else row }

/-- `UPDATE experiments SET status=? WHERE experiment_id=(SELECT …)` -/
def mirror (queue : Queue) (attemptId : String) (status : QueueStatus) : Queue :=
  { queue with experiments := queue.experiments.map fun experiment =>
      if (queue.find attemptId).map (·.experimentId) = some experiment.experimentId then
        { experiment with status }
      else experiment }

def insertEntry (entry : Entry) : QueueTransaction Unit := do
  let queue ← get
  raiseIf (∃ experiment ∈ queue.experiments, experiment.experimentId = entry.experimentId)
    .integrity
  raiseIf (∃ row ∈ queue.attempts, row.attemptId = entry.attemptId ∨ row.runId = entry.runId)
    .integrity
  set ({
    attempts := queue.attempts ++ [{
      attemptId := entry.attemptId, experimentId := entry.experimentId, runId := entry.runId }]
    experiments := queue.experiments ++ [{
      experimentId := entry.experimentId, spec := entry.spec, status := .queued }] } : Queue)

def enqueueMany : List Entry → QueueTransaction Unit
  | [] => pure ()
  | entry :: entries => do
      insertEntry entry
      enqueueMany entries

def assign (attemptId workerId : String) : QueueTransaction Bool := do
  let queue ← get
  if ∃ row ∈ queue.attempts, row.attemptId = attemptId ∧ row.status = .queued then do
    set ((queue.update attemptId fun row =>
      if row.status = .queued then
        { row with workerId := some workerId, status := .assigned, queuedReason := none }
      else row).mirror attemptId .assigned)
    pure true
  else pure false

def setQueuedReason (attemptId : String) (reason : Option String) : QueueTransaction Unit := do
  let queue ← get
  set (queue.update attemptId fun row =>
    if row.status = .queued then { row with queuedReason := reason } else row)

def recoveryConflict : String := "CONFLICT: terminal evidence after confirmed recovery"

/-- The row `set_receipt` writes when neither recovery nor terminal evidence stands. -/
def received (receipt : Receipt) (status : QueueStatus) (row : Attempt) : Attempt :=
  if receipt.Terminal then
    { row with
      receipt := some receipt
      terminalReceipt := some receipt
      status
      ingestionStatus := .pending
      ingestionError := none }
  else { row with receipt := some receipt, status }

def setReceipt (attemptId : String) (receipt : Receipt) (status : QueueStatus) :
    QueueTransaction Unit := do
  let queue ← get
  let row ← raiseIfNone (.key "unknown attempt") (queue.find attemptId)
  if row.recovery ≠ none then
    if receipt.Terminal then
      set (queue.update attemptId fun row =>
        { row with ingestionError := some recoveryConflict })
    else pure ()
  else if row.terminalReceipt ≠ none then pure ()
  else
    let status :=
      if row.status = .cancelRequested ∧ ¬ receipt.Terminal then .cancelRequested else status
    set ((queue.update attemptId (received receipt status)).mirror attemptId status)

def validObservation (observation : RecoveryObservation) : Prop :=
  observation.reason = "HOSTED_WORKER_LOST" ∧ observation.confirmedAt.zoned = true

instance (observation : RecoveryObservation) : Decidable (validObservation observation) :=
  inferInstanceAs (Decidable (_ ∧ _))

def recordRecovery (attemptId : String) (observation : RecoveryObservation)
    (expectedWorkerId expectedSpecDigest expectedBundleDigest : String) :
    QueueTransaction Unit := do
  raiseIf (¬ validObservation observation) (.value "invalid recovery observation")
  let queue ← get
  let row ← raiseIfNone (.key "unknown attempt") (queue.find attemptId)
  let spec ← raiseIfNone (.key "unknown attempt") (queue.specOf row.experimentId)
  raiseIf (row.workerId ≠ some expectedWorkerId ∨ spec.digest ≠ expectedSpecDigest ∨
      spec.dispatchBundleDigest ≠ expectedBundleDigest)
    (.value "recovery assigned identity mismatch")
  raiseIf (row.terminalReceipt ≠ none) (.value "terminal evidence conflicts with recovery")
  if row.recovery ≠ none then
    raiseIf (row.recovery ≠ some observation) (.value "conflicting recovery observation")
  else
    set ((queue.update attemptId fun row =>
      { row with
        status := .unknown
        recovery := some observation
        ingestionStatus := .pending
        ingestionError := none }).mirror attemptId .unknown)

def Evident (row : Attempt) : Prop := row.terminalReceipt ≠ none ∨ row.recovery ≠ none

instance (row : Attempt) : Decidable (Evident row) := inferInstanceAs (Decidable (_ ∨ _))

def markIngestionComplete (attemptId : String) : QueueTransaction Unit := do
  let queue ← get
  raiseIf (∃ row ∈ queue.find attemptId, conflicted row.ingestionError)
    (.value "conflicting evidence requires explicit reconciliation")
  set (queue.update attemptId fun row =>
    if Evident row then { row with ingestionStatus := .complete, ingestionError := none }
    else row)

def markIngestionNotRequired (attemptId : String) : QueueTransaction Unit := do
  let queue ← get
  set (queue.update attemptId fun row =>
    if row.terminalReceipt ≠ none then
      { row with ingestionStatus := .notRequired, ingestionError := none }
    else row)

def markIngestionError (attemptId : String) (message : String) : QueueTransaction Unit := do
  let queue ← get
  set (queue.update attemptId fun row =>
    if Evident row then { row with ingestionStatus := .error, ingestionError := some message }
    else row)

def markUnknownIfNonterminal (attemptId : String) (reason : String) :
    QueueTransaction Unit := do
  let queue ← get
  let row ← raiseIfNone (.key "unknown attempt") (queue.find attemptId)
  if row.terminalReceipt ≠ none then pure ()
  else
    let status := if row.status = .cancelRequested then .cancelRequested else .unknown
    set ((queue.update attemptId fun row =>
      { row with status, queuedReason := some reason }).mirror attemptId status)

def requestCancel (runId : String) : QueueTransaction QueueStatus := do
  let queue ← get
  let row ← raiseIfNone (.key "unknown run") (queue.byRun runId)
  if row.status = .queued then do
    set ((queue.update row.attemptId fun row =>
      { row with
        status := .cancelled
        ingestionStatus := .notRequired
        ingestionError := none }).mirror row.attemptId .cancelled)
    pure .cancelled
  else
    let target :=
      if row.status.Terminal ∨ row.terminalReceipt ≠ none ∨ row.recovery ≠ none then row.status
      else .cancelRequested
    set ((queue.update row.attemptId fun row => { row with status := target }).mirror
      row.attemptId target)
    pure target

/-- `pending_ingestion` -/
def Pending (row : Attempt) : Prop :=
  Evident row ∧ (row.ingestionStatus = .pending ∨ row.ingestionStatus = .error) ∧
    ¬ conflicted row.ingestionError

/-- The checks `Controller.resume` makes on the parent's row. -/
def Resumable (row : Attempt) : Prop :=
  row.status ∈ [QueueStatus.interrupted, .cancelled, .failed, .unknown] ∧
    row.ingestionStatus = .complete ∧ ¬ conflicted row.ingestionError

instance (row : Attempt) : Decidable (Resumable row) :=
  inferInstanceAs (Decidable (_ ∧ _ ∧ _))

end Queue

end SparseLab.Workers
