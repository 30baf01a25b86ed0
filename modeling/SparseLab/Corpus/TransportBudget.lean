import Mathlib.Algebra.BigOperators.Group.List.Basic
import Mathlib.Algebra.Ring.Int.Defs
import Mathlib.Order.Lattice
import SparseLab.Library.Outcomes
import SparseLab.Library.Texts
import SparseLab.Library.Transactions

/-! The transport ledger of `corpus/transport_budget.py`, in one SQLite row. -/

namespace SparseLab.Corpus

open Library

/-- The message of a `ValueError`. -/
inductive TransportFailure
  | refused (message : String)
  | index
deriving DecidableEq

inductive Mode | enforced | observational
deriving DecidableEq

inductive TransferStatus | started | interrupted | failed | complete
deriving DecidableEq

structure Timing (Stamp : Type) where
  startedAtUnix : Stamp
  startedMonotonicSeconds : Stamp
  lastProgressAtUnix : Option Stamp := none
  endedAtUnix : Option Stamp := none
deriving DecidableEq

/-- `resources` of a transfer. Only the expanded bytes may be unknown. -/
structure Readings where
  expandedBytes : Option Int
  peakStagingBytes : Int
  peakStagingInodes : Int
deriving DecidableEq

structure Transfer (Stamp : Type) where
  key : Text
  reserved : Int
  actual : Int
  status : TransferStatus
  sha256Verified : Option Bool := none
  timing : Option (Timing Stamp) := none
  resources : Option Readings := none
deriving DecidableEq

structure Provenance where
  owner : Text
  reference : Text
deriving DecidableEq

structure NetworkLimits where
  maxSourceBodyBytes : Int
  maxMetadataBodyBytes : Int
  maxTotalBodyBytes : Option Int
  initialBodyBytes : Option Int
  maxRetriesPerShard : Int
  maxTransfers : Int
  sourcePositive : 0 < maxSourceBodyBytes
  metadataPositive : 0 < maxMetadataBodyBytes
  transfersPositive : 0 < maxTransfers
  retriesNonnegative : 0 ≤ maxRetriesPerShard
deriving DecidableEq

structure TimeObservation (Stamp : Type) where
  provenance : Provenance
  selectedAt : Stamp
  plannedDeadline : Stamp
deriving DecidableEq

structure StorageObservation (Stamp : Type) where
  provenance : Provenance
  selectedAt : Stamp
  plannedMaxDiskBytes : Int
  minFreeBytes : Int
deriving DecidableEq

structure NetworkObservation (Stamp : Type) where
  provenance : Provenance
  selectedAt : Stamp
  plannedLimits : NetworkLimits
deriving DecidableEq

/-- `gate_review`. Without a stopped transfer the key `stopped_transfers` is absent. -/
structure GateReview where
  receiptSha256 : Text
  reportSha256 : Text
  approvalReference : Text
  stoppedTransfers : List (Text × Text) := []
deriving DecidableEq

structure Failure where
  sourceId : Text
  errorType : Text
  message : Text
deriving DecidableEq

/-- The one row of the table `state`. -/
structure TransportLedger (Stamp : Type) where
  binding : Text
  createdAt : Stamp
  deadline : Stamp
  wallClockMode : Mode := .enforced
  wallClockObservation : Option (TimeObservation Stamp) := none
  storageMode : Mode := .enforced
  storageObservation : Option (StorageObservation Stamp) := none
  networkMode : Mode := .enforced
  networkObservation : Option (NetworkObservation Stamp) := none
  sourceCharged : Int := 0
  sourceActual : Int := 0
  metadataCharged : Int := 0
  metadataActual : Int := 0
  transfers : List (Transfer Stamp) := []
  failures : List Failure := []
  gateReview : Option GateReview := none
deriving DecidableEq

/-- The specification of the project and the class of the ledger. `expires` adds
`max_wall_seconds` to a wall-clock reading, and `bodyLength` is the length of `json.dumps(state)`. -/
structure TransportPolicy (Stamp : Type) where
  binding : Text
  limits : NetworkLimits
  maxDiskBytes : Int
  expires : Stamp → Stamp
  totalBodyLimit : Option Int
  totalPositive : ∀ bound ∈ totalBodyLimit, 0 < bound
  initialBodyLimit : Option Int
  initialPositive : ∀ bound ∈ initialBodyLimit, 0 < bound
  corpusLedger : Bool
  boundedStorage : Bool
  bodyLength : TransportLedger Stamp → Nat

/-- What a transaction reads of the clocks: `now` before its update, and the rest within it. -/
structure Clock (Stamp : Type) where
  now : Stamp
  time : Stamp
  monotonic : Stamp

/-- `1 <= len(value.strip()) <= maximum and value == value.strip() and "\0" not in value` -/
def validReference (value : Text) (maximum : Nat) : Bool :=
  let stripped := strip whiteSpace value
  1 ≤ stripped.length && stripped.length ≤ maximum && value = stripped && !value.contains 0

/-- `_valid_time_provenance(owner, reference)` -/
def validTimeProvenance (provenance : Provenance) : Bool :=
  validReference provenance.owner 128 && validReference provenance.reference 512

/-- `_valid_stop_evidence(value)` -/
def validStopEvidence (value : List (Text × Text)) : Bool :=
  value.all fun (key, reference) => !blank key && !blank reference

namespace TransportLedger

variable {Stamp : Type} [LinearOrder Stamp] (policy : TransportPolicy Stamp)
  (state : TransportLedger Stamp)

def validMode : Bool :=
  match state.wallClockMode, state.wallClockObservation with
  | .enforced, none => true
  | .observational, some observation =>
    validTimeProvenance observation.provenance && state.createdAt ≤ observation.selectedAt &&
      observation.plannedDeadline = policy.expires state.createdAt
  | _, _ => false

def validStorage : Bool :=
  match state.storageMode, state.storageObservation with
  | .enforced, none => true
  | .observational, some storage =>
    policy.corpusLedger && validTimeProvenance storage.provenance &&
      state.createdAt ≤ storage.selectedAt &&
      storage.plannedMaxDiskBytes = policy.maxDiskBytes && 0 < storage.minFreeBytes
  | _, _ => false

def validNetwork : Bool :=
  match state.networkMode, state.networkObservation with
  | .enforced, none => true
  | .observational, some network =>
    policy.corpusLedger && validTimeProvenance network.provenance &&
      state.createdAt ≤ network.selectedAt && network.plannedLimits = policy.limits
  | _, _ => false

def observesNetwork : Bool := state.networkMode = .observational

def charged : Int := state.sourceCharged + state.metadataCharged

/-- A declared limit that `amount` exceeds. -/
def overLimit (limit : Option Int) (amount : Int) : Bool := limit.any (· < amount)

def validCounters : Bool :=
  state.validNetwork policy && state.validMode policy && state.validStorage policy &&
    state.deadline = policy.expires state.createdAt &&
    (state.observesNetwork || state.transfers.length ≤ policy.limits.maxTransfers) &&
    state.sourceCharged = (state.transfers.map (·.reserved)).sum &&
    state.sourceActual = (state.transfers.map (·.actual)).sum &&
    (0 ≤ state.sourceActual && state.sourceActual ≤ state.sourceCharged) &&
    (state.observesNetwork || state.sourceCharged ≤ policy.limits.maxSourceBodyBytes) &&
    (0 ≤ state.metadataActual && state.metadataActual ≤ state.metadataCharged) &&
    (state.observesNetwork || state.metadataCharged ≤ policy.limits.maxMetadataBodyBytes) &&
    state.transfers.all fun item => 0 ≤ item.actual && item.actual ≤ item.reserved

def validReview (review : GateReview) : Bool :=
  policy.initialBodyLimit.isSome && validStopEvidence review.stoppedTransfers &&
    !blank review.receiptSha256 && !blank review.reportSha256 && !blank review.approvalReference

def validReadings (readings : Readings) : Bool :=
  readings.expandedBytes.all (0 ≤ ·) && 0 ≤ readings.peakStagingBytes &&
    0 ≤ readings.peakStagingInodes

/-- `_validate_state(state)` -/
def validateState : Except TransportFailure Unit := do
  refuseIf (state.binding ≠ policy.binding) (.refused "transport budget binding changed")
  refuseIf (state.validCounters policy = false)
    (.refused "transport budget ledger counters are invalid")
  refuseIf (state.observesNetwork = false ∧ overLimit policy.totalBodyLimit state.charged = true)
    (.refused "transport budget cumulative total exceeded")
  refuseIf (state.observesNetwork = false ∧ state.gateReview = none ∧
      overLimit policy.initialBodyLimit state.charged = true)
    (.refused "transport budget initial gate exceeded")
  refuseIf (state.gateReview.any (fun review => !validReview policy review) = true)
    (.refused "transport budget gate review is invalid")
  refuseIf (state.transfers.any (fun item => item.resources.any fun readings =>
      !validReadings readings) = true)
    (.refused "transport budget resource counters are invalid")

abbrev TransportTransaction (Stamp : Type) := EStateM TransportFailure (TransportLedger Stamp)

/-- `_mutate(update, check_deadline=...)` up to its commit -/
def mutate {α : Type} (clock : Clock Stamp) (checkDeadline : Bool)
    (update : TransportTransaction Stamp α) : TransportTransaction Stamp α := do
  let state ← get
  orRaise (state.validateState policy)
  raiseIf (clock.now < state.createdAt ∨
      (checkDeadline = true ∧ state.wallClockMode = .enforced ∧ state.deadline ≤ clock.now))
    (.refused "transport budget deadline exceeded")
  let result ← update
  let written ← get
  raiseIf (policy.boundedStorage = true ∧ 16 * 1024 ^ 2 < policy.bodyLength written)
    (.refused "acquisition step transport metadata cap exceeded")
  pure result

def checkCombined (amount : Int) : Except TransportFailure Unit := do
  refuseIf (amount < 0)
    (.refused "transport reservation requires nonnegative integer bytes")
  let charged := state.charged + amount
  refuseIf (state.observesNetwork = false ∧ overLimit policy.totalBodyLimit charged = true)
    (.refused "transport budget cumulative source-plus-metadata allowance exhausted")
  refuseIf (state.observesNetwork = false ∧ state.gateReview = none ∧
      overLimit policy.initialBodyLimit charged = true)
    (.refused "transport initial feasibility gate requires an owner-reviewed report")

def prior (key : Text) : List (Transfer Stamp) :=
  state.transfers.filter fun item => item.key = key

def terminal (allowVerifiedRetry : Bool) (item : Transfer Stamp) : Bool :=
  item.status = .failed ||
    (item.status = .complete && (!allowVerifiedRetry || item.sha256Verified ≠ some true))

def checkTransfer (key : Text) (size : Int) (allowVerifiedRetry : Bool) :
    Except TransportFailure Unit := do
  state.checkCombined policy size
  refuseIf ((state.prior key).any (terminal allowVerifiedRetry) = true)
    (.refused "transport budget shard is already complete or terminal")
  refuseIf (state.observesNetwork = false ∧
      policy.limits.maxRetriesPerShard < (state.prior key).length)
    (.refused "transport budget shard retry allowance exhausted")
  refuseIf (state.observesNetwork = false ∧ policy.limits.maxTransfers ≤ state.transfers.length)
    (.refused "transport budget transfer count exhausted")
  refuseIf (state.observesNetwork = false ∧
      policy.limits.maxSourceBodyBytes - state.sourceCharged < size)
    (.refused "transport budget source body allowance exhausted")

def interrupt (item : Transfer Stamp) : Transfer Stamp :=
  if item.status = .started then { item with status := .interrupted } else item

/-- The started transfers of `key` give way to a new one. -/
def reserve (clock : Clock Stamp) (key : Text) (size : Int) : TransportLedger Stamp :=
  { state with
    sourceCharged := state.sourceCharged + size
    transfers := state.transfers.map (fun item => if item.key = key then interrupt item else item) ++
      [{ key, reserved := size, actual := 0, status := .started
         timing :=
          if state.observesNetwork then some ⟨clock.time, clock.monotonic, none, none⟩
          else none }] }

def transferKey (sourceId path : Text) : Text := sourceId ++ text ":" ++ path

def reserveTransfer (clock : Clock Stamp) (sourceId path : Text) (size : Int)
    (allowVerifiedRetry : Bool) : TransportTransaction Stamp Nat :=
  let key := transferKey sourceId path
  mutate policy clock true do
    let state ← get
    orRaise (state.checkTransfer policy key size allowVerifiedRetry)
    let reserved := state.reserve clock key size
    set reserved
    pure (reserved.transfers.length - 1)

/-- The position that `values[index]` reads. A negative index counts from the end. -/
def position (length : Nat) (index : Int) : Option Nat :=
  let place := if index < 0 then length + index else index
  if 0 ≤ place ∧ place < length then some place.toNat else none

def amend (place : Nat) (change : Transfer Stamp → Transfer Stamp) : TransportLedger Stamp :=
  { state with transfers := state.transfers.modify place change }

/-- `state["transfers"][index]`, with its position. -/
def transferAt (index : Int) : TransportTransaction Stamp (Nat × Transfer Stamp) := do
  let state ← get
  let place ← raiseIfNone .index (position state.transfers.length index)
  let transfer ← raiseIfNone .index state.transfers[place]?
  pure (place, transfer)

def charge (clock : Clock Stamp) (amount : Nat) (item : Transfer Stamp) : Transfer Stamp :=
  { item with
    actual := item.actual + amount
    timing :=
      if amount = 0 then item.timing
      else item.timing.map fun timing => { timing with lastProgressAtUnix := some clock.time } }

def chargeTransferActual (clock : Clock Stamp) (index : Int) (amount : Nat) :
    TransportTransaction Stamp Unit :=
  mutate policy clock false do
    let (place, transfer) ← transferAt index
    raiseIf (transfer.status ≠ .started ∨ transfer.reserved - transfer.actual < amount)
      (.refused "transport budget transfer body cap exceeded")
    modify fun state => state.amend place (charge clock amount)
    modify fun state => { state with sourceActual := state.sourceActual + amount }

def finish (clock : Clock Stamp) (success interrupted : Bool) (item : Transfer Stamp) :
    Transfer Stamp :=
  { item with
    status := if success then .complete else if interrupted then .interrupted else .failed
    sha256Verified := some success
    timing := item.timing.map fun timing => { timing with endedAtUnix := some clock.time } }

def finishTransfer (clock : Clock Stamp) (index : Int) (success interrupted : Bool) :
    TransportTransaction Stamp Unit :=
  mutate policy clock false do
    let (place, transfer) ← transferAt index
    raiseIf (transfer.status ≠ .started) (.refused "transport budget transfer already ended")
    modify fun state => state.amend place (finish clock success interrupted)

def recordFailure (clock : Clock Stamp) (failure : Failure) : TransportTransaction Stamp Unit :=
  mutate policy clock false do
    modify fun state => { state with failures := state.failures ++ [failure] }

def reserveMetadata (clock : Clock Stamp) (amount : Int) : TransportTransaction Stamp Unit :=
  mutate policy clock true do
    let state ← get
    orRaise (state.checkCombined policy amount)
    raiseIf (state.observesNetwork = false ∧
        policy.limits.maxMetadataBodyBytes - state.metadataCharged < amount)
      (.refused "transport budget metadata body allowance exhausted")
    set { state with metadataCharged := state.metadataCharged + amount }

def chargeMetadataActual (clock : Clock Stamp) (amount : Nat) : TransportTransaction Stamp Unit :=
  mutate policy clock false do
    modify fun state => { state with metadataActual := state.metadataActual + amount }
    let state ← get
    raiseIf (state.metadataCharged < state.metadataActual)
      (.refused "transport budget metadata accounting invalid")

def recordResources (clock : Clock Stamp) (index : Int) (readings : Readings) :
    TransportTransaction Stamp Unit :=
  mutate policy clock false do
    let (place, _) ← transferAt index
    modify fun state => state.amend place fun item => { item with resources := some readings }
    let state ← get
    orRaise (state.validateState policy)

def settled : Bool := !state.transfers.any fun item => item.status = .started

def observeNetwork (clock : Clock Stamp) (provenance : Provenance) :
    TransportTransaction Stamp (NetworkObservation Stamp) := do
  raiseIf (policy.corpusLedger = false)
    (.refused "network observation requires a corpus transport ledger")
  raiseIf (validTimeProvenance provenance = false)
    (.refused "owner and approval reference are required")
  mutate policy clock false do
    let state ← get
    raiseIf (state.networkMode = .observational)
      (.refused "transport network is already observational")
    raiseIf (state.settled = false)
      (.refused "cannot change network policy with an active shard transfer")
    let observation := ⟨provenance, clock.time, policy.limits⟩
    let written : TransportLedger Stamp :=
      { state with networkMode := .observational, networkObservation := some observation }
    set written
    orRaise (written.validateState policy)
    pure observation

def observeStorage (clock : Clock Stamp) (provenance : Provenance) (minFreeBytes : Int) :
    TransportTransaction Stamp (StorageObservation Stamp) := do
  raiseIf (policy.corpusLedger = false)
    (.refused "storage observation is supported only for a corpus transport ledger")
  raiseIf (validTimeProvenance provenance = false ∨ minFreeBytes ≤ 0)
    (.refused "owner, approval reference and positive free-space floor are required")
  mutate policy clock false do
    let state ← get
    raiseIf (state.storageMode = .observational)
      (.refused "transport storage is already observational")
    raiseIf (state.settled = false)
      (.refused "cannot change storage policy with an active shard transfer")
    let observation := ⟨provenance, clock.time, policy.maxDiskBytes, minFreeBytes⟩
    let written : TransportLedger Stamp :=
      { state with storageMode := .observational, storageObservation := some observation }
    set written
    orRaise (written.validateState policy)
    pure observation

def observeTime (clock : Clock Stamp) (provenance : Provenance) :
    TransportTransaction Stamp (TimeObservation Stamp) := do
  raiseIf (policy.corpusLedger = false)
    (.refused "observational time is supported only for a corpus transport ledger")
  raiseIf (validTimeProvenance provenance = false)
    (.refused "owner and approval reference are required")
  mutate policy clock false do
    let state ← get
    raiseIf (state.wallClockMode = .observational)
      (.refused "transport time is already observational")
    raiseIf (state.settled = false)
      (.refused "cannot change timing with an active shard transfer")
    let observation := ⟨provenance, clock.time, state.deadline⟩
    set { state with
      wallClockMode := .observational, wallClockObservation := some observation }
    pure observation

end TransportLedger

/-- A SHA-256 as `hexdigest` writes it. -/
structure HexDigest where
  written : Text
  hexadecimal : written.length = 64 ∧ ∀ digit ∈ written,
    (0x30 ≤ digit ∧ digit ≤ 0x39) ∨ (0x61 ≤ digit ∧ digit ≤ 0x66)
deriving DecidableEq

/-- The report file: the digest of its bytes, and the object they decode to. The receipt is
`none` where no ledger equals it. -/
structure GateReport (Stamp : Type) where
  sha256 : HexDigest
  ledgerReceipt : Option (TransportLedger Stamp)
  status : Text
deriving DecidableEq

/-- The review file. Without the key `stopped_transfers` nothing is stopped. -/
structure GateDecision where
  decision : Text
  reportSha256 : Text
  approvalReference : Text
  stoppedTransfers : List (Text × Text) := []
deriving DecidableEq

namespace TransportLedger

variable {Stamp : Type} [LinearOrder Stamp] (policy : TransportPolicy Stamp)
  (canonicalDigest : TransportLedger Stamp → HexDigest) (state : TransportLedger Stamp)

/-- `{item["key"] for item in transfers if item["status"] == "started"}` -/
def startedKeys : List Text :=
  (state.transfers.filter fun item => item.status = .started).map (·.key)

/-- `set(stopped) == started` -/
def stops (stopped : List (Text × Text)) : Bool :=
  (stopped.all fun entry => state.startedKeys.contains entry.1) &&
    state.startedKeys.all fun key => (stopped.map Prod.fst).contains key

def review (decision : GateDecision) : GateReview where
  receiptSha256 := (canonicalDigest state).written
  reportSha256 := decision.reportSha256
  approvalReference := decision.approvalReference
  stoppedTransfers := decision.stoppedTransfers

/-- `release_gate(report, review)`. A file that is not a regular one of at most a mebibyte, or
does not decode to an object with the keys and types it needs, is `none`. -/
def releaseGate (clock : Clock Stamp) (report : Option (GateReport Stamp))
    (decision : Option GateDecision) : TransportTransaction Stamp GateReview := do
  let report ← raiseIfNone (.refused "gate report and review require regular files") report
  let decision ← raiseIfNone (.refused "gate report and review require regular files") decision
  raiseIf (report.status ≠ text "ready")
    (.refused "gate report requires ledger_receipt and ready feasibility findings")
  raiseIf (validStopEvidence decision.stoppedTransfers = false ∨
      decision.decision ≠ text "continue" ∨ decision.reportSha256 ≠ report.sha256.written ∨
      blank decision.approvalReference = true)
    (.refused
      "gate review requires a report-bound continue decision and actual approval reference")
  mutate policy clock true do
    let state ← get
    raiseIf (policy.initialBodyLimit = none ∨ state.gateReview ≠ none)
      (.refused "transport initial gate is absent or already released")
    raiseIf (report.ledgerReceipt ≠ some state)
      (.refused "gate report is stale or belongs to another ledger")
    raiseIf (state.sourceCharged ≤ 0 ∨ state.stops decision.stoppedTransfers = false)
      (.refused ("gate report requires pilot reservations and explicit stop evidence " ++
        "for every started transfer"))
    let released := { state with gateReview := some (state.review canonicalDigest decision) }
    set released
    if decision.stoppedTransfers.isEmpty then pure ()
    else set { released with transfers := released.transfers.map interrupt }
    pure (state.review canonicalDigest decision)

end TransportLedger

/-- The state `initialize` inserts. -/
def initialLedger {Stamp : Type} (policy : TransportPolicy Stamp) (now : Stamp) :
    TransportLedger Stamp where
  binding := policy.binding
  createdAt := now
  deadline := policy.expires now

inductive TransportOperation (Stamp : Type)
  | reserveTransfer (sourceId path : Text) (size : Int) (allowVerifiedRetry : Bool)
  | chargeTransferActual (index : Int) (amount : Nat)
  | finishTransfer (index : Int) (success interrupted : Bool)
  | reserveMetadata (amount : Int)
  | chargeMetadataActual (amount : Nat)
  | recordFailure (failure : Failure)
  | recordResources (index : Int) (readings : Readings)
  | releaseGate (report : Option (GateReport Stamp)) (decision : Option GateDecision)
  | observeTime (provenance : Provenance)
  | observeNetwork (provenance : Provenance)
  | observeStorage (provenance : Provenance) (minFreeBytes : Int)

namespace TransportOperation

variable {Stamp : Type} [LinearOrder Stamp] (policy : TransportPolicy Stamp)
  (canonicalDigest : TransportLedger Stamp → HexDigest) (clock : Clock Stamp)

open TransportLedger in
def body : TransportOperation Stamp → TransportTransaction Stamp Unit
  | .reserveTransfer sourceId path size allowVerifiedRetry => do
      let _ ← TransportLedger.reserveTransfer policy clock sourceId path size allowVerifiedRetry
  | .chargeTransferActual index amount =>
    TransportLedger.chargeTransferActual policy clock index amount
  | .finishTransfer index success interrupted =>
    TransportLedger.finishTransfer policy clock index success interrupted
  | .reserveMetadata amount => TransportLedger.reserveMetadata policy clock amount
  | .chargeMetadataActual amount => TransportLedger.chargeMetadataActual policy clock amount
  | .recordFailure failure => TransportLedger.recordFailure policy clock failure
  | .recordResources index readings =>
    TransportLedger.recordResources policy clock index readings
  | .releaseGate report decision => do
      let _ ← TransportLedger.releaseGate policy canonicalDigest clock report decision
  | .observeTime provenance => do
      let _ ← TransportLedger.observeTime policy clock provenance
  | .observeNetwork provenance => do
      let _ ← TransportLedger.observeNetwork policy clock provenance
  | .observeStorage provenance minFreeBytes => do
      let _ ← TransportLedger.observeStorage policy clock provenance minFreeBytes

def perform (operation : TransportOperation Stamp) (state : TransportLedger Stamp) :
    Except TransportFailure Unit × TransportLedger Stamp :=
  transact (operation.body policy canonicalDigest clock) state

end TransportOperation

def TransportLedger.after {Stamp : Type} [LinearOrder Stamp] (policy : TransportPolicy Stamp)
    (canonicalDigest : TransportLedger Stamp → HexDigest) (state : TransportLedger Stamp)
    (operations : List (Clock Stamp × TransportOperation Stamp)) : TransportLedger Stamp :=
  operations.foldl (fun state (clock, operation) =>
    (operation.perform policy canonicalDigest clock state).2) state

end SparseLab.Corpus
