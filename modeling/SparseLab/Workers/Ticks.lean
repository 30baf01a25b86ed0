import Mathlib.Data.Prod.Lex
import Mathlib.Data.String.Basic
import SparseLab.Library.Earliest
import SparseLab.Library.Routines
import SparseLab.Workers.Controller

/-!
One tick of the controller, from `workers/controller.py`. What workers, files and clock say are
tables of an environment.
-/

namespace SparseLab.Workers.Ticks

open Library Workers.Queue

/-- What the `except` clauses of a tick tell apart. `protocol` has `RemoteProtocolError` below
it, and is itself below `ValueError`. -/
inductive FaultKind
  | os | timeout | protocol | value | type | key | runtime | other
deriving DecidableEq

structure Fault where
  kind : FaultKind
  name : String
  message : String
deriving DecidableEq

namespace Fault

/-- `except OSError, TimeoutError, RemoteProtocolError, ProtocolError` -/
def Transport (fault : Fault) : Prop :=
  fault.kind ∈ [FaultKind.os, .timeout, .protocol]

/-- The list with `ValueError`. -/
def Refused (fault : Fault) : Prop := fault.Transport ∨ fault.kind = .value

/-- `except OSError, TimeoutError, ValueError, RuntimeError`, around a relay collection. -/
def Collecting (fault : Fault) : Prop := fault.Refused ∨ fault.kind = .runtime

instance (fault : Fault) : Decidable fault.Transport := inferInstanceAs (Decidable (_ ∈ _))

instance (fault : Fault) : Decidable fault.Refused := inferInstanceAs (Decidable (_ ∨ _))

instance (fault : Fault) : Decidable fault.Collecting := inferInstanceAs (Decidable (_ ∨ _))

def text (fault : Fault) : String := fault.name ++ ": " ++ fault.message

def value (message : String) : Fault := ⟨.value, "ValueError", message⟩

def type (message : String) : Fault := ⟨.type, "TypeError", message⟩

def protocol (message : String) : Fault := ⟨.protocol, "ProtocolError", message⟩

def ofStore : StoreFailure → Fault
  | .value message => value message
  | .key message => ⟨.key, "KeyError", message⟩
  | .integrity => ⟨.other, "IntegrityError", "UNIQUE constraint failed"⟩

end Fault

inductive Place
  | queued | poll | replay | ingestion
deriving DecidableEq

inductive Moment
  | before (place : Place)
  | attempt (place : Place) (attemptId : String)
  | failed (place : Place) (attemptId : String)
  | chosen (attemptId : String)
deriving DecidableEq

structure Worker where
  workerId : String
  hosted : Bool
  relay : Bool
deriving DecidableEq

structure Offer where
  workerId : String
  name : String
  preferred : Bool
deriving DecidableEq

/-- What the basic checks, the validated probe and the capacity say to one offer. A worker that
the attempt is not bound to is refused without a reason. -/
inductive Verdict
  | accepted
  | refused (reason : Option String)
deriving DecidableEq

structure HostedDelivery where
  prepared : Bool
  specDigest : String
deriving DecidableEq

inductive Act
  | otherDelivery | issue | budget | assignment | verifyBundle | writeSpec | recordPrepared
  | markObserved | cancelIntent | relayRecords | records | artifacts
deriving DecidableEq

/-- Where `read_delivery` is called. -/
inductive Glance
  | launching | reconciled | prepared | cancelling | replaying
deriving DecidableEq

structure StatusAnswer where
  receipt : Option Receipt
  originId : Option String
deriving DecidableEq

structure Manifest where
  digest : String
  files : List String
deriving DecidableEq

inductive Collected
  | receipt (receipt : Receipt)
  | unreachable (reason : String)
  | notRequired
  | complete
deriving DecidableEq

structure Environment where
  registry : List Worker
  late : Moment → Bool
  offers : String → Except Fault (List Offer)
  verdict : String → Offer → Except Fault Verdict
  act : Place → Act → String → Except Fault Unit
  delivery : Place → Glance → String → Except Fault (Option HostedDelivery)
  bundles : Place → String → List (Except Fault Manifest)
  check : Place → String → Except Fault (Option (List String))
  install : Place → String → Except Fault (Option String)
  launch : Place → String → Except Fault (Option Receipt)
  status : Place → String → String → Except Fault StatusAnswer
  cancel : Place → String → Except Fault (Option Receipt)
  trainingStarted : Receipt → Bool
  artifactPaths : Receipt → Except Fault (List String)
  collected : Place → String → List Collected × Except Fault Unit

structure LaunchPayload where
  attemptId : String
  runId : String
  experimentId : String
  specDigest : String
  bundleDigest : String
deriving DecidableEq

inductive Call
  | status | cancel | check | install
  | launch (payload : LaunchPayload)
deriving DecidableEq

structure Sent where
  attemptId : String
  workerId : String
  call : Call
deriving DecidableEq

structure Desk where
  queue : Queue
  sent : List Sent := []
deriving DecidableEq

abbrev Routine := EStateM Fault Desk

def ask {α : Type} (answer : Except Fault α) : Routine α := orRaise answer

def commit {α : Type} (body : QueueTransaction α) : Routine α := fun desk =>
  match transact body desk.queue with
  | (.ok value, queue) => .ok value { desk with queue }
  | (.error failure, queue) => .error (.ofStore failure) { desk with queue }

def send (attemptId workerId : String) (call : Call) : Routine Unit :=
  modify fun desk => { desk with sent := desk.sent ++ [⟨attemptId, workerId, call⟩] }

def attemptByRun (runId : String) : Routine (Option Reading) := do
  let desk ← get
  pure (desk.queue.readings.find? (·.row.runId = runId))

section

variable (env : Environment) (place : Place)

def workerForAttempt (workerId : Option String) : Option Worker :=
  env.registry.find? fun worker => some worker.workerId = workerId

def dispatchBundle (digest : String) : List (Except Fault Manifest) → Except Fault Manifest
  | [] => .error (.value "prepared dispatch bundle is unavailable")
  | .error fault :: _ => .error fault
  | .ok manifest :: rest =>
    if manifest.digest = digest then .ok manifest else dispatchBundle digest rest

def reconcileReceipt (attempt : Reading) (receipt : Receipt) : Routine Unit := do
  let durable ← raiseIfNone (.protocol "receipt has no durable attempt")
    (← attemptByRun attempt.row.runId)
  raiseIf (receipt.attemptId ≠ some durable.row.attemptId ∨
      receipt.runId ≠ some durable.row.runId ∨
      receipt.experimentId ≠ some durable.row.experimentId ∨
      receipt.workerId ≠ durable.row.workerId ∨
      receipt.specDigest ≠ some durable.spec.digest ∨
      receipt.bundleDigest ≠ some durable.spec.dispatchBundleDigest)
    (.protocol "receipt identity differs from durable assignment")
  let state ← raiseIfNone (.value "unknown attempt receipt state") receipt.state
  let status : QueueStatus := match state with
    | .prepared => .assigned
    | .running => .running
    | .complete => .complete
    | .failed => .failed
    | .interrupted => if receipt.cancellationAcknowledged then .cancelled else .interrupted
    | .unknown => .unknown
  commit (setReceipt attempt.row.attemptId receipt status)
  let delivery ← ask (env.delivery place .reconciled attempt.row.attemptId)
  match delivery with
  | none => pure ()
  | some delivery =>
    if state = .prepared then pure ()
    else do
      raiseIf (some delivery.specDigest ≠ receipt.specDigest)
        (.protocol "Colab delivery spec differs from receipt")
      ask (env.act place .markObserved attempt.row.attemptId)

/-- `launch` up to the assignment: whether the delivery goes on. -/
def admitLaunch (attempt : Reading) (worker : Worker) : Routine Bool := do
  let name := attempt.row.attemptId
  if worker.hosted then
    ask (env.act place .otherDelivery name)
    let delivery ← ask (env.delivery place .launching name)
    match delivery with
    | some delivery =>
      if delivery.prepared then ask (env.act place .issue name) else pure ()
      pure false
    | none => assignOrReplay attempt worker
  else assignOrReplay attempt worker
where
  assignOrReplay (attempt : Reading) (worker : Worker) : Routine Bool := do
    ask (env.act place .budget attempt.row.attemptId)
    if attempt.row.status = .queued then
      commit (assign attempt.row.attemptId worker.workerId)
    else do
      raiseIf (attempt.row.status ∉ [QueueStatus.assigned, .cancelRequested] ∨
          attempt.row.workerId ≠ some worker.workerId)
        (.value "only the same assigned attempt may replay launch")
      pure true

def installBundle (attempt : Reading) (worker : Worker) : Routine Unit := do
  let name := attempt.row.attemptId
  let manifest ← ask (dispatchBundle attempt.spec.dispatchBundleDigest (env.bundles place name))
  ask (env.act place .verifyBundle name)
  send name worker.workerId .check
  let missing ← raiseIfNone
    (.value "worker bundle check returned malformed missing assets") (← ask (env.check place name))
  raiseIf (∃ digest ∈ missing, digest ∉ manifest.files)
    (.value "worker requested an asset absent from bundle manifest")
  send name worker.workerId .install
  let installed ← ask (env.install place name)
  raiseIf (installed ≠ some attempt.spec.dispatchBundleDigest)
    (.value "worker installed a mismatched bundle")

def launchPayload (attempt : Reading) : LaunchPayload where
  attemptId := attempt.row.attemptId
  runId := attempt.row.runId
  experimentId := attempt.row.experimentId
  specDigest := attempt.spec.digest
  bundleDigest := attempt.spec.dispatchBundleDigest

def deliver (attempt : Reading) (worker : Worker) : Routine Unit := do
  let name := attempt.row.attemptId
  ask (env.act place .writeSpec name)
  send name worker.workerId (.launch (launchPayload attempt))
  let receipt ← raiseIfNone (.type "launch response omitted receipt")
    (← ask (env.launch place name))
  reconcileReceipt env place attempt receipt
  if worker.hosted ∧ receipt.state = some .prepared then do
    ask (env.act place .recordPrepared name)
    let delivery ← ask (env.delivery place .prepared name)
    match delivery with
    | some delivery => if delivery.prepared then ask (env.act place .issue name) else pure ()
    | none => throw (.type "'NoneType' object is not subscriptable")
  else pure ()

def launch (attempt : Reading) (workerId : String) : Routine Unit := do
  let worker ← raiseIfNone (.value "assigned worker registration is unavailable")
    (workerForAttempt env (some workerId))
  if ← admitLaunch env place attempt worker then
    if worker.relay then ask (env.act place .assignment attempt.row.attemptId) else pure ()
    installBundle env place attempt worker
    deliver env place attempt worker
  else pure ()

/-- `_rpc_result(worker, "status", …)` -/
def askStatus (attempt : Reading) (worker : Worker) : Routine StatusAnswer := do
  send attempt.row.attemptId worker.workerId .status
  let answer ← ask (env.status place attempt.row.attemptId worker.workerId)
  raiseIf (worker.hosted ∧
      answer.receipt.bind (·.attemptId) ≠ some attempt.row.attemptId)
    (.value "hosted status attempt mismatch")
  pure answer

/-- The end of `cancel`, when no foreground execution stands between. -/
def callCancel (attempt : Reading) (worker : Worker) : Routine Unit := do
  send attempt.row.attemptId worker.workerId .cancel
  let answered ← attempting Fault.Transport
    (do pure (some (← ask (env.cancel place attempt.row.attemptId)))) (fun _ => pure none)
  match answered with
  | some (some receipt) => reconcileReceipt env place attempt receipt
  | _ => pure ()

def cancel (runId : String) : Routine Unit := do
  let status ← commit (requestCancel runId)
  if status ≠ .cancelRequested then pure ()
  else do
    let attempt ← raiseIfNone ⟨.other, "AssertionError", ""⟩ (← attemptByRun runId)
    match workerForAttempt env attempt.row.workerId with
    | none => pure ()
    | some worker =>
      if worker.hosted then do
        let delivery ← ask (env.delivery place .cancelling attempt.row.attemptId)
        if ∃ found ∈ delivery, found.prepared = false then
          attempting Fault.Refused
            (ask (env.act place .cancelIntent attempt.row.attemptId)) (fun _ => pure ())
        else callCancel env place attempt worker
      else callCancel env place attempt worker

/-- What `collect_relay` writes, as far as it comes. -/
def collectRelay (attempt : Reading) : Routine Unit := do
  let collected := env.collected place attempt.row.attemptId
  collected.1.forM fun write =>
    match write with
    | .receipt receipt => reconcileReceipt env place attempt receipt
    | .unreachable reason => commit (markUnknownIfNonterminal attempt.row.attemptId reason)
    | .notRequired => commit (markIngestionNotRequired attempt.row.attemptId)
    | .complete => commit (markIngestionComplete attempt.row.attemptId)
  ask collected.2

/-- `_ingest_records`. A worker with a relay has the records of all its attempts imported. -/
def ingestRecords (attempt : Reading) (worker : Worker) : Routine Unit := do
  if worker.relay then
    let desk ← get
    (desk.queue.readings.filter fun reading =>
        reading.row.workerId = some worker.workerId ∧ reading.row.recovery = none).forM
      fun reading => ask (env.act place .relayRecords reading.row.attemptId)
  else ask (env.act place .records attempt.row.attemptId)

def artifactFreeTerminal (receipt : Receipt) : Except Fault Bool :=
  match receipt.state with
  | some .failed | some .interrupted | some .unknown => do
      let paths ← env.artifactPaths receipt
      pure (decide (∀ path ∈ paths, ¬ "run/".toList <+: path.toList))
  | _ => pure false

def ingest (attempt : Reading) (worker : Worker) (receipt : Receipt) : Routine Unit := do
  if worker.relay then collectRelay env place attempt
  else if ← ask (artifactFreeTerminal env receipt) then
    commit (markIngestionNotRequired attempt.row.attemptId)
  else do
    ingestRecords env place attempt worker
    let _ ← ask (dispatchBundle attempt.spec.dispatchBundleDigest
      (env.bundles place attempt.row.attemptId))
    ask (env.act place .artifacts attempt.row.attemptId)
    commit (markIngestionComplete attempt.row.attemptId)

inductive Progress
  | assigned | skipped | stop
deriving DecidableEq

def eachAttempt (process : Reading → Routine Progress) : List Reading → Routine Nat
  | [] => pure 0
  | attempt :: rest => do
      if env.late (.attempt place attempt.row.attemptId) then pure 0
      else
        match ← process attempt with
        | .stop => pure 0
        | .skipped => eachAttempt process rest
        | .assigned => do pure ((← eachAttempt process rest) + 1)

/-- `if not exhausted(): for attempt in …`, which reads its rows before the first of them. -/
def whenTime (rows : Queue → List Reading) (process : Reading → Routine Progress) :
    Routine Nat := do
  if env.late (.before place) then pure 0
  else
    let desk ← get
    eachAttempt env place process (rows desk.queue)

section

/-- What `_eligible_worker` finds out about one worker. -/
def considered (queue : Queue) (attemptId : String) (offer : Offer) : Except Fault Verdict :=
  let active := queue.readings.filter fun reading =>
    reading.row.status.Reconcilable ∧ reading.row.workerId = some offer.workerId
  if ∃ reading ∈ active, reading.row.recovery ≠ none then
    .ok (.refused (some (offer.name ++ ": confirmed-loss registration fenced")))
  else if ∃ reading ∈ active, reading.row.terminalReceipt = none then
    .ok (.refused (some (offer.name ++ ": controller slot occupied")))
  else env.verdict attemptId offer

def Offer.key (offer : Offer) : Nat ×ₗ String := toLex (if offer.preferred then 0 else 1, offer.name)

/-- `_eligible_worker`: the first of the least choices, or the reasons against all. -/
def eligibleWorker (attempt : Reading) : Routine (Except (Option String) Offer) := do
  let desk ← get
  let offers ← ask (env.offers attempt.row.attemptId)
  let verdicts ← ask (offers.mapM fun offer => do
    pure (offer, ← considered env desk.queue attempt.row.attemptId offer))
  let choices := (verdicts.filter (·.2 = .accepted)).map (·.1)
  match choices.foldl (fun best offer => keepBetter Offer.key best (some offer)) none with
  | some offer => pure (.ok offer)
  | none =>
    let reasons := verdicts.filterMap fun verdict =>
      match verdict.2 with
      | .accepted => none
      | .refused reason => reason
    pure (.error (some (if reasons = [] then "no eligible worker" else "; ".intercalate reasons)))

def scheduleQueued (attempt : Reading) : Routine Progress := do
  let name := attempt.row.attemptId
  let found ← attempting (fun fault => fault.kind = .timeout ∧ env.late (.failed .queued name))
    (do pure (some (← eligibleWorker env attempt))) (fun _ => pure none)
  match found with
  | none => pure .stop
  | some found =>
    if env.late (.chosen name) then pure .stop
    else
      match found with
      | .error reason => do
          commit (setQueuedReason name reason)
          pure .skipped
      | .ok offer =>
        attempting Fault.Transport
          (do
            launch env .queued attempt offer.workerId
            pure .assigned)
          (fun _ => pure (if env.late (.failed .queued name) then .stop else .skipped))

end

def reconcileAnswer (attempt : Reading) (answer : StatusAnswer) :
    Routine (Option (Receipt × StatusAnswer)) :=
  match answer.receipt with
  | none => pure none
  | some receipt => do
      reconcileReceipt env .poll attempt receipt
      pure (some (receipt, answer))

/-- The guarded part of `_poll_active`. -/
def pollReceipt (attempt : Reading) (worker : Worker) :
    Routine (Option (Receipt × StatusAnswer)) := do
  if attempt.row.status = .cancelRequested then cancel env .poll attempt.row.runId else pure ()
  reconcileAnswer env attempt (← askStatus env .poll attempt worker)

/-- The handler of `_poll_active`. -/
def pollFailed (attempt : Reading) (worker : Worker) (fault : Fault) : Routine Unit := do
  if env.late (.failed .poll attempt.row.attemptId) then pure ()
  else do
    commit (markUnknownIfNonterminal attempt.row.attemptId
      ("worker status unavailable: " ++ fault.message))
    if worker.relay then
      attempting Fault.Collecting (collectRelay env .poll attempt) (fun _ => pure ())
    else pure ()

def pollActive (attempt : Reading) : Routine Unit := do
  if attempt.row.recovery ≠ none then pure ()
  else
    match workerForAttempt env attempt.row.workerId with
    | none =>
      commit (markUnknownIfNonterminal attempt.row.attemptId
        "worker registration is unavailable")
    | some worker => do
        match ← attempting Fault.Transport (pollReceipt env attempt worker) (fun fault => do
            pollFailed env attempt worker fault
            pure none) with
        | none => pure ()
        | some (receipt, answer) => do
            let _ ← raiseIfNone (.type "worker status omitted outbox origin identity")
              answer.originId
            attempting Fault.Refused
              (if receipt.Terminal then ingest env .poll attempt worker receipt
                else ingestRecords env .poll attempt worker)
              fun fault =>
                if env.late (.failed .poll attempt.row.attemptId) then pure ()
                else if receipt.Terminal then
                  commit (markIngestionError attempt.row.attemptId fault.text)
                else pure ()

/-- The end of `_replay_assigned`, once no executor can have started. -/
def replayLaunch (attempt : Reading) (worker : Worker) : Routine Bool :=
  attempting Fault.Transport
    (do
      if attempt.row.status = .cancelRequested then do
        send attempt.row.attemptId worker.workerId .cancel
        let _ ← ask (env.cancel .replay attempt.row.attemptId)
      else pure ()
      launch env .replay attempt worker.workerId
      pure true)
    (fun _ => pure false)

def replayAssigned (attempt : Reading) : Routine Bool := do
  if attempt.row.recovery ≠ none then pure false
  else
    match workerForAttempt env attempt.row.workerId with
    | none => pure false
    | some worker => do
        let delivery ← ask (if worker.hosted then
          env.delivery .replay .replaying attempt.row.attemptId else .ok none)
        if ∃ found ∈ delivery, found.prepared = false then pure false
        else
          match ← attempting Fault.Transport
            (do pure (some (← askStatus env .replay attempt worker))) (fun _ => pure none) with
          | none => pure false
          | some answer =>
            match answer.receipt with
            | none => replayLaunch env attempt worker
            | some receipt => do
                reconcileReceipt env .replay attempt receipt
                if receipt.state ≠ some .prepared ∨ env.trainingStarted receipt then pure false
                else replayLaunch env attempt worker

def retryIngestion (attempt : Reading) : Routine Unit := do
  let name := attempt.row.attemptId
  match workerForAttempt env attempt.row.workerId with
  | none => pure ()
  | some worker =>
    if worker.relay then
      attempting Fault.Collecting (collectRelay env .ingestion attempt)
        fun fault => commit (markIngestionError name fault.text)
    else
      match attempt.row.terminalReceipt with
      | none => pure ()
      | some receipt =>
        attempting Fault.Refused
          (do
            let answer ← askStatus env .ingestion attempt worker
            let _ ← raiseIfNone (.type "worker status omitted outbox origin identity")
              answer.originId
            ingest env .ingestion attempt worker receipt)
          fun fault =>
            if env.late (.failed .ingestion name) then pure ()
            else commit (markIngestionError name fault.text)

def withStatus (statuses : List QueueStatus) (queue : Queue) : List Reading :=
  queue.readings.filter fun reading => reading.row.status ∈ statuses

/-- `pending_ingestion` -/
instance (row : Attempt) : Decidable (Pending row) := inferInstanceAs (Decidable (_ ∧ _ ∧ _))

def pendingIngestion (queue : Queue) : List Reading :=
  queue.readings.filter fun reading => Pending reading.row

/-- `tick`: how many attempts were queued and how many were assigned. -/
def tick : Routine (Nat × Nat) := do
  let desk ← get
  let queued := withStatus [.queued] desk.queue
  let first ← eachAttempt env .queued (scheduleQueued env) queued
  let _ ← whenTime env .poll (withStatus [.assigned, .running, .cancelRequested, .unknown])
    fun attempt => do
      if attempt.row.terminalReceipt = none then pollActive env attempt else pure ()
      pure .skipped
  let second ← whenTime env .replay (withStatus [.assigned, .cancelRequested])
    fun attempt => do pure (if ← replayAssigned env attempt then .assigned else .skipped)
  let _ ← whenTime env .ingestion pendingIngestion fun attempt => do
    retryIngestion env attempt
    pure .skipped
  pure (queued.length, first + second)

end

end SparseLab.Workers.Ticks
