import SparseLab.Library.Threads
import SparseLab.Workers.ControllerStore

/-!
One attempt on a worker root, from `workers/execution.py` and `workers/relay_execution.py`. Every
process takes one turn for each file or lock it touches.
-/

namespace SparseLab.Workers

open Library

inductive Stream
  | stdout | stderr
deriving DecidableEq

/-- A `relative_path` of an inventory: `run/…` or `logs/stdout.log` and `logs/stderr.log`. -/
inductive Source
  | run (relative : String)
  | log (stream : Stream)
deriving DecidableEq

structure Artifact where
  relativePath : Source
  sha256 : String
  sizeBytes : Nat
deriving DecidableEq

inductive Phase
  | prepared | initializing | training | complete | failed | interrupted | cancelled
  | cancelledBeforeInitialization | cancelledBeforeValidation | cancelledBeforeTraining
  | rejectedBeforeInitialization | executorNotLive
deriving DecidableEq

/-- `models.AttemptReceipt`, without the identities that no operation here changes. `owner`
stands for the process identity that `begin` records. -/
structure AttemptReceipt where
  state : ReceiptState
  phase : Phase
  createdAt : Nat
  updatedAt : Nat
  startedAt : Option Nat
  trainingStartedAt : Option Nat
  finishedAt : Option Nat
  owner : Option Nat
  heartbeatAt : Option Nat
  cancellationRequested : Bool
  cancellationAcknowledged : Bool
  error : Option String
  artifacts : List Artifact
deriving DecidableEq

/-- `_receipt_payload`, written at `now`. -/
def AttemptReceipt.expected (now : Nat) : AttemptReceipt where
  state := .prepared
  phase := .prepared
  createdAt := now
  updatedAt := now
  startedAt := none
  trainingStartedAt := none
  finishedAt := none
  owner := none
  heartbeatAt := none
  cancellationRequested := false
  cancellationAcknowledged := false
  error := none
  artifacts := []

structure RunFile where
  relativePath : String
  content : List UInt8
deriving DecidableEq

structure WorkerRoot where
  receipt : Option AttemptReceipt
  cancelMarker : Bool
  relayCommit : Bool
  spawned : Nat
  live : Stream → Option (List UInt8)
  logs : Stream → Option (List UInt8)
  runFiles : List RunFile
  declared : List String
  admission : Option Nat
  receiptLock : Option Nat
  claim : Option Nat
  ended : List Nat
  began : List Nat
  passed : List Nat
  trained : List Nat

namespace WorkerRoot

def initial : WorkerRoot where
  receipt := none
  cancelMarker := false
  relayCommit := false
  spawned := 0
  live _ := none
  logs _ := none
  runFiles := []
  declared := []
  admission := none
  receiptLock := none
  claim := none
  ended := []
  began := []
  passed := []
  trained := []

/-- `flock` locks go with the process that holds them. -/
def crash (process : Nat) (root : WorkerRoot) : WorkerRoot :=
  { root with
    admission := if root.admission = some process then none else root.admission
    receiptLock := if root.receiptLock = some process then none else root.receiptLock
    claim := if root.claim = some process then none else root.claim
    ended := process :: root.ended }

def unlock (process : Nat) (root : WorkerRoot) : WorkerRoot :=
  { root with
    receiptLock := if root.receiptLock = some process then none else root.receiptLock }

/-- A file of the run that `_final_artifacts` lists. -/
def lists (root : WorkerRoot) (file : RunFile) : Bool :=
  (root.declared.contains file.relativePath ||
    !(file.relativePath.splitOn "/").any (·.startsWith ".")) &&
    !file.relativePath.endsWith ".tmp"

end WorkerRoot

structure Worker where
  relayBound : Bool
  sha256 : List UInt8 → String

/-- Where `_final_artifacts` is. -/
inductive Collecting
  | scanning
  | copying (stream : Stream) (found : List Artifact)
  | hashing (stream : Stream) (found : List Artifact)
  | collected (artifacts : List Artifact)
deriving DecidableEq

namespace Worker

variable (worker : Worker)

def artifact (source : Source) (content : List UInt8) : Artifact where
  relativePath := source
  sha256 := worker.sha256 content
  sizeBytes := content.length

def runArtifacts (root : WorkerRoot) : List Artifact :=
  (root.runFiles.filter root.lists).map fun file =>
    worker.artifact (.run file.relativePath) file.content

def logArtifact (root : WorkerRoot) (stream : Stream) : List Artifact :=
  ((root.logs stream).map (worker.artifact (.log stream))).toList

/-- One turn of `_final_artifacts`: the run's files, then for each stream the copy of its live
log and the digest of the copy. -/
def collect (root : WorkerRoot) : Collecting → Option (WorkerRoot × Collecting)
  | .scanning => some (root, .copying .stdout (worker.runArtifacts root))
  | .copying stream found =>
    some ({ root with
      logs := Function.update root.logs stream
        ((root.live stream).or (root.logs stream)) }, .hashing stream found)
  | .hashing .stdout found =>
    some (root, .copying .stderr (found ++ worker.logArtifact root .stdout))
  | .hashing .stderr found =>
    some (root, .collected (found ++ worker.logArtifact root .stderr))
  | .collected _ => none

end Worker

inductive Caller
  | executor | status
deriving DecidableEq

/-- The arguments of `_terminal_receipt`. -/
structure Ending where
  caller : Caller
  state : ReceiptState
  phase : Phase
  cancellation : Option Bool
  artifacts : Option (List Artifact)
  error : Option String
deriving DecidableEq

inductive Mutation
  | begin (owner : Nat)
  | touch
  | training
  | finish (ending : Ending)
deriving DecidableEq

namespace Mutation

def apply (now : Nat) (receipt : AttemptReceipt) : Mutation → AttemptReceipt
  | .begin owner =>
    if receipt.state = .prepared then
      { receipt with
        state := .running
        phase := .initializing
        startedAt := some now
        owner := some owner
        heartbeatAt := some now }
    else receipt
  | .touch =>
    if receipt.state = .running then { receipt with heartbeatAt := some now } else receipt
  | .training =>
    if receipt.state = .running then
      { receipt with phase := .training, trainingStartedAt := some now }
    else receipt
  | .finish ending =>
    if receipt.state.Terminal then receipt
    else
      { receipt with
        state := ending.state
        phase := ending.phase
        finishedAt := some now
        cancellationRequested := ending.cancellation.getD receipt.cancellationRequested
        cancellationAcknowledged := ending.cancellation.getD receipt.cancellationAcknowledged
        artifacts := ending.artifacts.getD receipt.artifacts
        error := ending.error.or receipt.error }

/-- What `_mutate_receipt` stores and returns. -/
def outcome (mutation : Mutation) (now : Nat) (before : AttemptReceipt) : AttemptReceipt :=
  let after := mutation.apply now before
  if before.state.Terminal ∧ ¬ after.state.Terminal then before
  else if after = before then before
  else { after with updatedAt := now }

end Mutation

/-- Where `_mutate_receipt` is. -/
inductive Held
  | waiting
  | locked
  | loaded (before : AttemptReceipt)
deriving DecidableEq

/-- The `_cancelled` checks of `execute_attempt` before training. -/
inductive Check
  | first | second | third | last
deriving DecidableEq

def Check.phase : Check → Phase
  | .first => .cancelledBeforeInitialization
  | .second => .cancelledBeforeValidation
  | .third => .cancelledBeforeTraining
  | .last => .cancelledBeforeTraining

/-- What `_final_artifacts` is called for, outside of `publish_boundary`. -/
inductive Sealing
  | completed
  | interrupted
  | unfinished
  | failed (error : String)
  | notLive
deriving DecidableEq

inductive Program
  -- `_prepare_attempt`
  | admitting (spawn : Bool)
  | admitted (spawn : Bool)
  | creating (spawn : Bool)
  | prepared (spawn : Bool)
  | committing (spawn : Bool) (work : Collecting)
  | launching (spawn : Bool)
  | returning
  -- `_mutate_receipt`
  | mutating (mutation : Mutation) (held : Held)
  -- `execute_attempt`
  | spawned
  | claiming
  | claimed
  | checking (check : Check)
  | validating
  | leasing
  | opening
  | publishing (training : Bool) (work : Collecting)
  | materializing
  | staging
  | training
  | stopped (error : String)
  | failing (error : String)
  | sealing (outcome : Sealing) (work : Collecting)
  | reporting (caller : Caller)
  | leaving (caller : Caller)
  | exiting
  -- `_heartbeat`
  | beating
  -- `status_worker`
  | observing
  | observed (receipt : AttemptReceipt)
  | reclaiming (receipt : AttemptReceipt)
  -- `cancel_attempt`
  | requesting
  | requested
  | marking (receipt : Option AttemptReceipt)
  | probing (receipt : AttemptReceipt)
  | closing (receipt : AttemptReceipt)
  | answering (receipt : AttemptReceipt)
  -- `flush_terminal`
  | flushing
  | flushed
deriving DecidableEq

def Check.next : Check → Program
  | .first => .validating
  | .second => .materializing
  | .third => .staging
  | .last => .mutating .training .waiting

def Check.cancelled (check : Check) : Ending where
  caller := .executor
  state := .interrupted
  phase := check.phase
  cancellation := some true
  artifacts := none
  error := none

def Ending.rejected (error : String) : Ending where
  caller := .executor
  state := .failed
  phase := .rejectedBeforeInitialization
  cancellation := none
  artifacts := none
  error := some error

def Sealing.next (marker : Bool) (artifacts : List Artifact) : Sealing → Program
  | .completed =>
    .mutating (.finish {
      caller := .executor, state := .complete, phase := .complete, cancellation := none
      artifacts := some artifacts, error := none }) .waiting
  | .interrupted =>
    .mutating (.finish {
      caller := .executor, state := .interrupted
      phase := if marker then .cancelled else .interrupted, cancellation := some marker
      artifacts := some artifacts, error := none }) .waiting
  | .unfinished => .failing "trainer returned without a terminal progress record"
  | .failed error =>
    .mutating (.finish {
      caller := .executor, state := .failed, phase := .failed, cancellation := none
      artifacts := some artifacts, error := some error }) .waiting
  | .notLive =>
    .mutating (.finish {
      caller := .status, state := .unknown, phase := .executorNotLive, cancellation := none
      artifacts := some artifacts
      error := some "executor and inherited resource holders are no longer live" }) .waiting

/-- What follows once `_mutate_receipt` returned `receipt`. -/
def Mutation.next (receipt : AttemptReceipt) : Mutation → Option Program
  | .begin _ => some (if receipt.state = .running then .opening else .leaving .executor)
  | .touch => if receipt.state = .running then some .beating else none
  | .training => some (if receipt.state = .running then .training else .leaving .executor)
  | .finish ending => some (.reporting ending.caller)

/-- The part of `execute_attempt` whose errors its handlers catch. -/
def Program.guarded : Program → Bool
  | .checking check => check ≠ .first
  | .opening | .publishing _ _ | .materializing | .staging | .training => true
  | .mutating .training _ => true
  | .sealing .completed _ | .sealing .interrupted _ | .sealing .unfinished _ => true
  | _ => false

def Program.executes : Program → Bool
  | .claiming | .claimed | .checking _ | .validating | .leasing | .opening | .publishing _ _
  | .materializing | .staging | .training | .stopped _ | .failing _ | .exiting => true
  | .mutating (.begin _) _ | .mutating .training _ => true
  | .mutating (.finish ending) _ => ending.caller = .executor
  | .sealing outcome _ => outcome ≠ .notLive
  | .reporting caller | .leaving caller => caller = .executor
  | _ => false

def Program.recopies : Program → Option Stream
  | .sealing .notLive (.copying stream _) => some stream
  | _ => none

/-- `_prepare_attempt`, under the admission lock. -/
inductive Prepares (worker : Worker) (process : Nat) :
    WorkerRoot → Program → WorkerRoot → Option Program → Prop
  | admitted (root spawn) (free : root.admission = none) :
      Prepares worker process root (.admitting spawn)
        { root with admission := some process } (some (.admitted spawn))
  | absent (root spawn) (missing : root.receipt = none) :
      Prepares worker process root (.admitted spawn) root (some (.creating spawn))
  | create (root spawn now) :
      Prepares worker process root (.creating spawn)
        { root with receipt := some (.expected now) } (some (.prepared spawn))
  | replay (root spawn receipt) (stored : root.receipt = some receipt)
      (again : receipt.state = .prepared) :
      Prepares worker process root (.admitted spawn) root (some (.prepared spawn))
  | known (root spawn receipt) (stored : root.receipt = some receipt)
      (begun : receipt.state ≠ .prepared) :
      Prepares worker process root (.admitted spawn) root (some .returning)
  | commit (root spawn) (bound : worker.relayBound = true)
      (unpublished : root.relayCommit = false) :
      Prepares worker process root (.prepared spawn) root
        (some (.committing spawn .scanning))
  | skip (root spawn) (published : worker.relayBound = true → root.relayCommit = true) :
      Prepares worker process root (.prepared spawn) root (some (.launching spawn))
  | collect (root spawn work collected remaining)
      (collects : worker.collect root work = some (collected, remaining)) :
      Prepares worker process root (.committing spawn work) collected
        (some (.committing spawn remaining))
  | publish (root spawn artifacts) :
      Prepares worker process root (.committing spawn (.collected artifacts))
        { root with relayCommit := true } (some (.launching spawn))
  | launch (root) :
      Prepares worker process root (.launching true)
        { root with
          spawned := root.spawned + 1
          live := fun stream => (root.live stream).or (some []) } (some .returning)
  | finish (root) :
      Prepares worker process root (.launching false) root (some .returning)
  | leave (root) :
      Prepares worker process root .returning { root with admission := none } none

/-- `_mutate_receipt`, under the receipt lock. -/
inductive Mutates (process : Nat) : WorkerRoot → Program → WorkerRoot → Option Program → Prop
  | lock (root mutation) (free : root.receiptLock = none) :
      Mutates process root (.mutating mutation .waiting)
        { root with receiptLock := some process } (some (.mutating mutation .locked))
  | load (root mutation before) (stored : root.receipt = some before) :
      Mutates process root (.mutating mutation .locked) root
        (some (.mutating mutation (.loaded before)))
  | store (root mutation before now after) (stored : after = mutation.outcome now before) :
      Mutates process root (.mutating mutation (.loaded before))
        { root with
          receipt := some after
          receiptLock := none
          began :=
            if before.state = .prepared ∧ after.state = .running then process :: root.began
            else root.began
          trained :=
            if mutation = .training ∧ after.state = .running then process :: root.trained
            else root.trained }
        (mutation.next after)
  | beat (root) : Mutates process root .beating root (some (.mutating .touch .waiting))
  | still (root) : Mutates process root .beating root none

/-- `execute_attempt`, which holds the claim from `claim` to `leave`. -/
inductive Executes (worker : Worker) (process : Nat) :
    WorkerRoot → Program → WorkerRoot → Option Program → Prop
  | start (root) (popened : 0 < root.spawned) (found : root.receipt ≠ none) :
      Executes worker process root .spawned { root with spawned := root.spawned - 1 }
        (some .claiming)
  | claim (root) (free : root.claim = none) :
      Executes worker process root .claiming { root with claim := some process }
        (some .claimed)
  | duplicate (root) (taken : root.claim ≠ none) :
      Executes worker process root .claiming root (some .exiting)
  | again (root receipt) (stored : root.receipt = some receipt)
      (fresh : receipt.state = .prepared) :
      Executes worker process root .claimed root (some (.checking .first))
  | begun (root receipt) (stored : root.receipt = some receipt)
      (other : receipt.state ≠ .prepared) :
      Executes worker process root .claimed root (some (.leaving .executor))
  | cancelled (root check) (marked : root.cancelMarker = true) :
      Executes worker process root (.checking check) root
        (some (.mutating (.finish check.cancelled) .waiting))
  | unmarked (root check) (absent : root.cancelMarker = false) :
      Executes worker process root (.checking check)
        { root with
          passed := if check = .last then process :: root.passed else root.passed }
        (some check.next)
  | reject (root error) :
      Executes worker process root .validating root
        (some (.mutating (.finish (.rejected error)) .waiting))
  | validate (root) : Executes worker process root .validating root (some .leasing)
  | lease (root) :
      Executes worker process root .leasing root
        (some (.mutating (.begin process) .waiting))
  | busy (root) : Executes worker process root .leasing root (some (.leaving .executor))
  | open (root) :
      Executes worker process root .opening root
        (some (if worker.relayBound then .publishing false .scanning else .checking .second))
  | collect (root inTraining work collected remaining)
      (collects : worker.collect root work = some (collected, remaining)) :
      Executes worker process root (.publishing inTraining work) collected
        (some (.publishing inTraining remaining))
  | publish (root inTraining artifacts) :
      Executes worker process root (.publishing inTraining (.collected artifacts))
        { root with relayCommit := true }
        (some (if inTraining then .training else .checking .second))
  | materialize (root) :
      Executes worker process root .materializing root (some (.checking .third))
  | stage (root) : Executes worker process root .staging root (some (.checking .last))
  | train (root runFiles declared) :
      Executes worker process root .training { root with runFiles, declared }
        (some .training)
  | checkpoint (root) (bound : worker.relayBound = true) :
      Executes worker process root .training root (some (.publishing true .scanning))
  | trained (root outcome) (ends : outcome ∈ [.completed, .interrupted, .unfinished]) :
      Executes worker process root .training root (some (.sealing outcome .scanning))
  | raise (root program error) (guarded : program.guarded = true) :
      Executes worker process root program (root.unlock process) (some (.failing error))
  | interrupt (root program error) (guarded : program.guarded = true) :
      Executes worker process root program (root.unlock process) (some (.stopped error))
  | stopped (root error) :
      Executes worker process root (.stopped error) root
        (some (if root.cancelMarker then .mutating (.finish Check.last.cancelled) .waiting
          else .sealing (.failed error) .scanning))
  | failed (root error receipt) (stored : root.receipt = some receipt) :
      Executes worker process root (.failing error) root
        (some (if receipt.state = .running then .sealing (.failed error) .scanning
          else .leaving .executor))
  | print (root program stream line) (executes : program.executes = true) :
      Executes worker process root program
        { root with
          live := Function.update root.live stream
            ((root.live stream).map (· ++ line)) } (some program)
  | exit (root) :
      Executes worker process root .exiting { root with ended := process :: root.ended }
        none

/-- What an executor and a status call both do: `_final_artifacts`, `_terminal_receipt`, and
closing the claim. -/
inductive Finalises (worker : Worker) (process : Nat) :
    WorkerRoot → Program → WorkerRoot → Option Program → Prop
  | collect (root outcome work collected remaining)
      (collects : worker.collect root work = some (collected, remaining)) :
      Finalises worker process root (.sealing outcome work) collected
        (some (.sealing outcome remaining))
  | inventory (root outcome artifacts) :
      Finalises worker process root (.sealing outcome (.collected artifacts)) root
        (some (outcome.next root.cancelMarker artifacts))
  | report (root caller) (published : Bool) :
      Finalises worker process root (.reporting caller)
        { root with
          relayCommit := root.relayCommit || worker.relayBound && published }
        (some (.leaving caller))
  | leave (root) :
      Finalises worker process root (.leaving .executor) { root with claim := none }
        (some .exiting)
  | release (root) :
      Finalises worker process root (.leaving .status) { root with claim := none } none

/-- `status_worker` for one attempt. -/
inductive Observes (process : Nat) : WorkerRoot → Program → WorkerRoot → Option Program → Prop
  | load (root receipt) (stored : root.receipt = some receipt) :
      Observes process root .observing root (some (.observed receipt))
  | report (root receipt) : Observes process root (.observed receipt) root none
  | dead (root receipt) (running : receipt.state = .running)
      (gone : ∀ owner, receipt.owner = some owner → owner ∈ root.ended) :
      Observes process root (.observed receipt) root (some (.reclaiming receipt))
  | busy (root receipt) : Observes process root (.reclaiming receipt) root none
  | claim (root receipt) (free : root.claim = none) :
      Observes process root (.reclaiming receipt) { root with claim := some process }
        (some (.sealing .notLive .scanning))

/-- `cancel_attempt`, under the receipt lock. -/
inductive Cancels (process : Nat) : WorkerRoot → Program → WorkerRoot → Option Program → Prop
  | lock (root) (free : root.receiptLock = none) :
      Cancels process root .requesting { root with receiptLock := some process }
        (some .requested)
  | finished (root receipt) (stored : root.receipt = some receipt)
      (terminal : receipt.state.Terminal) :
      Cancels process root .requested { root with receiptLock := none } none
  | load (root)
      (active : ∀ receipt, root.receipt = some receipt → ¬ receipt.state.Terminal) :
      Cancels process root .requested root (some (.marking root.receipt))
  | early (root) :
      Cancels process root (.marking none)
        { root with cancelMarker := true, receiptLock := none } none
  | mark (root receipt) :
      Cancels process root (.marking (some receipt)) { root with cancelMarker := true }
        (some (if receipt.state = .prepared
          then .probing { receipt with cancellationRequested := true }
          else .answering { receipt with cancellationRequested := true }))
  | executing (root receipt) (taken : root.claim ≠ none) :
      Cancels process root (.probing receipt) root (some (.answering receipt))
  | claim (root receipt) (free : root.claim = none) :
      Cancels process root (.probing receipt) { root with claim := some process }
        (some (.closing receipt))
  | close (root receipt now) :
      Cancels process root (.closing receipt) { root with claim := none }
        (some (.answering { receipt with
          state := .interrupted
          phase := .cancelledBeforeInitialization
          cancellationAcknowledged := true
          finishedAt := some now }))
  | answer (root receipt now) :
      Cancels process root (.answering receipt)
        { root with
          receipt := some { receipt with updatedAt := now }
          receiptLock := none } none

/-- `flush_terminal`. -/
inductive Flushes (worker : Worker) (process : Nat) :
    WorkerRoot → Program → WorkerRoot → Option Program → Prop
  | claim (root receipt) (stored : root.receipt = some receipt)
      (terminal : receipt.state.Terminal) (free : root.claim = none) :
      Flushes worker process root .flushing { root with claim := some process }
        (some .flushed)
  | publish (root) (bound : worker.relayBound = true) :
      Flushes worker process root .flushed { root with relayCommit := true }
        (some (.leaving .status))

inductive Turn (worker : Worker) (process : Nat) (root : WorkerRoot) (program : Program)
    (after : WorkerRoot) (next : Option Program) : Prop
  | prepare (turn : Prepares worker process root program after next)
  | mutate (turn : Mutates process root program after next)
  | execute (turn : Executes worker process root program after next)
  | finalise (turn : Finalises worker process root program after next)
  | observe (turn : Observes process root program after next)
  | cancel (turn : Cancels process root program after next)
  | flush (turn : Flushes worker process root program after next)

def Program.called : Program → Bool
  | .admitting _ | .spawned | .beating | .observing | .requesting | .flushing => true
  | _ => false

def executions (worker : Worker) : Protocol WorkerRoot Program where
  turn := Turn worker
  start program := program.called = true
  crash := WorkerRoot.crash

end SparseLab.Workers
