import Mathlib.Algebra.BigOperators.Group.List.Basic
import Mathlib.Algebra.GroupWithZero.Nat
import Mathlib.Algebra.Ring.Int.Defs
import SparseLab.Library.Transactions

/-! The attempt budget of `attempt_budget.py`: a ledger of reservations in one SQLite file. -/

namespace SparseLab.Training

open Library

inductive BudgetFailure
  | refused (message : String)
  | invalid (message : String)
  | overflow
deriving DecidableEq

@[ext] structure Counters where
  updates : Int
  targetPositions : Int
  generationCalls : Int
  generatedTokens : Int
deriving DecidableEq

namespace Counters

instance : Zero Counters := ⟨⟨0, 0, 0, 0⟩⟩

instance : Add Counters := ⟨fun left right => {
  updates := left.updates + right.updates
  targetPositions := left.targetPositions + right.targetPositions
  generationCalls := left.generationCalls + right.generationCalls
  generatedTokens := left.generatedTokens + right.generatedTokens }⟩

instance : Sub Counters := ⟨fun left right => {
  updates := left.updates - right.updates
  targetPositions := left.targetPositions - right.targetPositions
  generationCalls := left.generationCalls - right.generationCalls
  generatedTokens := left.generatedTokens - right.generatedTokens }⟩

def toList (counters : Counters) : List Int :=
  [counters.updates, counters.targetPositions, counters.generationCalls,
    counters.generatedTokens]

instance : LE Counters := ⟨fun left right =>
  left.updates ≤ right.updates ∧ left.targetPositions ≤ right.targetPositions ∧
    left.generationCalls ≤ right.generationCalls ∧
    left.generatedTokens ≤ right.generatedTokens⟩

instance (left right : Counters) : Decidable (left ≤ right) :=
  inferInstanceAs (Decidable (_ ∧ _ ∧ _ ∧ _))

def names : List String :=
  ["optimizer updates", "actual target positions", "generation calls", "generated tokens"]

def shortage (used requested maximum : Counters) : Option (String × Int × Int × Int) :=
  (names.zip (used.toList.zip (requested.toList.zip maximum.toList))).find?
    fun (_, charged, asked, approved) => decide (approved < charged + asked)

end Counters

/-- `str.isspace` of one character. -/
def isSpace (character : Char) : Bool :=
  let code := character.toNat
  (0x09 ≤ code && code ≤ 0x0d) || (0x1c ≤ code && code ≤ 0x20) || code = 0x85 || code = 0xa0 ||
    code = 0x1680 || (0x2000 ≤ code && code ≤ 0x200a) || code = 0x2028 || code = 0x2029 ||
    code = 0x202f || code = 0x205f || code = 0x3000

/-- `not label.strip()` -/
def blank (label : String) : Bool := label.toList.all isSpace

/-- `_SHA256.fullmatch` -/
def isDigest (value : String) : Bool :=
  value.length = 64 && value.toList.all fun digit =>
    ('0' ≤ digit && digit ≤ '9') || ('a' ≤ digit && digit ≤ 'f')

inductive Normalizer | structureV2 | structureV3
deriving DecidableEq

/-- The declared contract. `wallNanoseconds` is `int(max_wall_seconds * 1_000_000_000)`. -/
structure AttemptContract where
  maxOptimizerUpdates : Nat
  maxActualTargetPositions : Nat
  maxGenerationCalls : Nat
  maxGeneratedTokens : Nat
  maxFixedProfileForwardPositions : Option Nat := none
  maxNontrainingForwardPositions : Option Nat := none
  maxOperationalValidationBatches : Option Nat := none
  maxOperationalValidationForwardPositions : Option Nat := none
  wallNanoseconds : Nat
  contentIdentitySha256 : String
  monitorPolicySha256 : String
  workspaceBaselineSha256 : String
  acquisitionProjectSha256 : Option String := none
  preparationAcquisitionIdentitySha256 : Option String := none
  preparationNormalizer : Option Normalizer := none
  admissionLockSha256 : Option String := none
  admissionPolicySha256 : Option String := none
  admissionSelectionSha256 : Option String := none
  fixedProfileSha256 : Option String := none
  fixedFamilyInventorySha256 : Option String := none
  preparationMonitorPolicySha256 : Option String := none
  evaluationMonitorPolicySha256 : Option String := none
  requireResolvedTrainConfigBinding : Bool := false
  requireEvaluationBaselineBinding : Bool := false
  requireReleaseAcceptanceBinding : Bool := false
  requireAdmissionInspectionBinding : Bool := false
  requirePreledgerMonitorBinding : Bool := false
  offlineRetainedSourcesOnly : Bool := false
  preparationOnly : Bool := false
deriving DecidableEq

namespace AttemptContract

def maxima (contract : AttemptContract) : Counters where
  updates := contract.maxOptimizerUpdates
  targetPositions := contract.maxActualTargetPositions
  generationCalls := contract.maxGenerationCalls
  generatedTokens := contract.maxGeneratedTokens

def validSha256 (contract : AttemptContract) : Bool :=
  [contract.contentIdentitySha256, contract.monitorPolicySha256,
    contract.workspaceBaselineSha256].all isDigest

def validOptionalSha256 (contract : AttemptContract) : Bool :=
  [contract.preparationMonitorPolicySha256, contract.evaluationMonitorPolicySha256,
    contract.acquisitionProjectSha256, contract.preparationAcquisitionIdentitySha256,
    contract.admissionLockSha256, contract.admissionPolicySha256,
    contract.admissionSelectionSha256, contract.fixedProfileSha256,
    contract.fixedFamilyInventorySha256].all fun value => value.all isDigest

def uncovered (limit cover : Option Nat) : Prop :=
  ∃ bound ∈ limit, ∀ covering ∈ cover, covering < bound

instance (limit cover : Option Nat) : Decidable (uncovered limit cover) :=
  match limit, cover with
  | none, _ => isFalse (by simp [uncovered])
  | some _, none => isTrue (by simp [uncovered])
  | some bound, some covering =>
    decidable_of_iff (covering < bound) (by simp [uncovered])

def completeForwardLimits (contract : AttemptContract) : Except String AttemptContract :=
  if contract.preparationAcquisitionIdentitySha256.isNone !=
      contract.preparationNormalizer.isNone then
    .error "preparation identity and normalizer must be paired"
  else if contract.requireAdmissionInspectionBinding ∧
      (contract.admissionLockSha256 = none ∨ contract.admissionPolicySha256 = none ∨
        contract.admissionSelectionSha256 = none ∨ contract.preparationNormalizer = none) then
    .error "inspected admission requires lock, policy, selection and normalizer identities"
  else if contract.maxFixedProfileForwardPositions.isNone !=
      contract.maxNontrainingForwardPositions.isNone then
    .error "both forward-input limits must be declared together"
  else if uncovered contract.maxFixedProfileForwardPositions
      contract.maxNontrainingForwardPositions then
    .error "fixed-profile forward-input limit exceeds total"
  else if contract.maxOperationalValidationBatches.isNone !=
      contract.maxOperationalValidationForwardPositions.isNone then
    .error "both operational validation limits must be declared together"
  else if uncovered contract.maxOperationalValidationForwardPositions
      contract.maxNontrainingForwardPositions then
    .error "operational validation limit exceeds forward-input allocation"
  else .ok contract

end AttemptContract

structure Reservation where
  label : String
  reserved : Counters
  contentIdentitySha256 : String
  reservedNs : Int
  actual : Option Counters := none
  completedNs : Option Int := none
deriving DecidableEq

inductive ForwardKind | fixedProfile | operationalValidation | generation
deriving DecidableEq

structure ForwardReservation where
  label : String
  kind : ForwardKind
  positions : Int
  contentIdentitySha256 : String
  reservedNs : Int
deriving DecidableEq

/-- The single `budget` row and the reservation tables. -/
structure BudgetLedger where
  version : Int
  maximum : Counters
  used : Counters
  startedNs : Int
  deadlineNs : Int
  lastCheckedNs : Int
  contractPath : String
  contractSha256 : String
  contractJson : String
  reservations : List Reservation
  forwardReservations : Option (List ForwardReservation)
deriving DecidableEq

structure Moment where
  nowNs : Int
  stampNs : Int
  readBytes : String → Option String

def positionsOf (kind : ForwardKind) (rows : List ForwardReservation) : Int :=
  ((rows.filter fun row => row.kind = kind).map (·.positions)).sum

def totalPositions (rows : List ForwardReservation) : Int := (rows.map (·.positions)).sum

def batchesOf (kind : ForwardKind) (rows : List ForwardReservation) : Nat :=
  (rows.filter fun row => row.kind = kind).length

variable (sha256 : String → String) (decode : String → Option AttemptContract)

/-- `AttemptContract.model_validate_json`, with `decode` for the fields' own parsing. -/
def modelValidateJson (raw : String) : Option AttemptContract := do
  let contract ← decode raw
  guard (contract.validSha256 ∧ contract.validOptionalSha256)
  match contract.completeForwardLimits with
  | .ok complete => some complete
  | .error _ => none

def loadAttemptContract (readBytes : String → Option String) (path : String)
    (expectedSha256 : String) : Except BudgetFailure AttemptContract :=
  match readBytes path with
  | none => .error (.refused "invalid attempt contract")
  | some raw =>
    if sha256 raw ≠ expectedSha256 then
      .error (.refused "attempt contract digest mismatch")
    else match modelValidateJson decode raw with
      | none => .error (.refused "invalid attempt contract")
      | some contract => .ok contract

/-- The ledger `create_contract` leaves, once its monitor inputs have been checked. The
contract file is read twice, and `reread` is its text the second time. -/
def createContract (moment : Moment) (contractPath expectedSha256 : String)
    (reread : Option String) : Except BudgetFailure BudgetLedger := do
  let contract ← loadAttemptContract sha256 decode moment.readBytes contractPath expectedSha256
  match reread with
  | none => .error (.refused "attempt contract changed during initialization")
  | some raw =>
    let deadlineNs := moment.nowNs + contract.wallNanoseconds
    if sha256 raw ≠ expectedSha256 then
      .error (.refused "attempt contract changed during initialization")
    else if deadlineNs ≤ moment.nowNs ∨ 2 ^ 63 - 1 < deadlineNs then
      .error (.invalid "max_wall_seconds is outside the ledger clock range")
    else if contract.maxima.toList.any (2 ^ 63 - 1 < ·) then .error .overflow
    else .ok {
      version := 2
      maximum := contract.maxima
      used := 0
      startedNs := moment.nowNs
      deadlineNs
      lastCheckedNs := moment.nowNs
      contractPath
      contractSha256 := expectedSha256
      contractJson := raw
      reservations := []
      forwardReservations :=
        if contract.maxNontrainingForwardPositions.isSome then some [] else none }

namespace BudgetLedger

abbrev BudgetTransaction := EStateM BudgetFailure BudgetLedger

def malformedForward (contract : AttemptContract) (row : ForwardReservation) : Prop :=
  blank row.label ∨ row.positions ≤ 0 ∨
    row.contentIdentitySha256 ≠ contract.contentIdentitySha256 ∨ row.reservedNs ≤ 0

instance (contract : AttemptContract) (row : ForwardReservation) :
    Decidable (malformedForward contract row) :=
  inferInstanceAs (Decidable (_ ∨ _ ∨ _ ∨ _))

/-- A declared limit that `value` exceeds. -/
def exceeds (value : Int) (limit : Option Nat) : Prop := ∃ bound ∈ limit, (bound : Int) < value

instance (value : Int) (limit : Option Nat) : Decidable (exceeds value limit) :=
  match limit with
  | none => isFalse (by simp [exceeds])
  | some bound => decidable_of_iff ((bound : Int) < value) (by simp [exceeds])

def overForward (contract : AttemptContract) (rows : List ForwardReservation) : Prop :=
  contract.maxFixedProfileForwardPositions = none ∨
    exceeds (positionsOf .fixedProfile rows) contract.maxFixedProfileForwardPositions ∨
    exceeds (totalPositions rows) contract.maxNontrainingForwardPositions ∨
    exceeds (batchesOf .operationalValidation rows)
      contract.maxOperationalValidationBatches ∨
    exceeds (positionsOf .operationalValidation rows)
      contract.maxOperationalValidationForwardPositions

instance (contract : AttemptContract) (rows : List ForwardReservation) :
    Decidable (overForward contract rows) :=
  inferInstanceAs (Decidable (_ ∨ _ ∨ _ ∨ _ ∨ _))

/-- `_forward_state`, which returns the rows its four counters are computed from. -/
def forwardState (contract : AttemptContract) :
    BudgetTransaction (Option (List ForwardReservation)) := do
  let ledger ← get
  raiseIf (ledger.forwardReservations.isSome ≠ contract.maxNontrainingForwardPositions.isSome)
    (.refused "forward-input ledger schema disagrees with contract")
  let rows := ledger.forwardReservations.getD []
  raiseIf ((∃ row ∈ rows, malformedForward contract row) ∨ ¬ (rows.map (·.label)).Nodup)
    (.refused "invalid forward-input reservations")
  raiseIf (ledger.forwardReservations.isSome ∧ overForward contract rows)
    (.refused "forward-input reservation total exceeds contract")
  pure ledger.forwardReservations

def malformed (contract : AttemptContract) (row : Reservation) : Prop :=
  ¬ 0 ≤ row.reserved ∨ row.contentIdentitySha256 ≠ contract.contentIdentitySha256 ∨
    (∃ actual ∈ row.actual, ¬ (0 ≤ actual ∧ actual ≤ row.reserved) ∨ row.completedNs = none) ∨
    (row.actual = none ∧ row.completedNs ≠ none)

instance (contract : AttemptContract) (row : Reservation) :
    Decidable (malformed contract row) :=
  match actual : row.actual with
  | none => decidable_of_iff (¬ 0 ≤ row.reserved ∨
      row.contentIdentitySha256 ≠ contract.contentIdentitySha256 ∨ row.completedNs ≠ none)
      (by simp [malformed, actual])
  | some counters => decidable_of_iff (¬ 0 ≤ row.reserved ∨
      row.contentIdentitySha256 ≠ contract.contentIdentitySha256 ∨
      ¬ (0 ≤ counters ∧ counters ≤ row.reserved) ∨ row.completedNs = none)
      (by simp [malformed, actual])

/-- `charges`: what the granted reservations add up to. -/
def charges (ledger : BudgetLedger) : Counters := (ledger.reservations.map (·.reserved)).sum

def storedContract (ledger : BudgetLedger) : Option AttemptContract :=
  modelValidateJson decode ledger.contractJson

/-- `_row_v2`: every check of the ledger against its own rows and its contract. -/
def rowV2 (moment : Moment) : BudgetTransaction AttemptContract := do
  let ledger ← get
  raiseIf (ledger.version ≠ 2 ∨ ledger.deadlineNs ≤ ledger.lastCheckedNs)
    (.refused "invalid or expired v2 budget ledger")
  raiseIf (¬ (0 ≤ ledger.maximum ∧ 0 ≤ ledger.used ∧ ledger.used ≤ ledger.maximum))
    (.refused "invalid v2 budget counters")
  raiseIf (sha256 ledger.contractJson ≠ ledger.contractSha256)
    (.refused "stored attempt contract digest mismatch")
  let contract ← raiseIfNone (.refused "invalid stored attempt contract")
    (ledger.storedContract decode)
  let published ← orRaise
    (loadAttemptContract sha256 decode moment.readBytes ledger.contractPath
      ledger.contractSha256)
  raiseIf (published ≠ contract) (.refused "attempt contract content changed")
  raiseIf (ledger.maximum ≠ contract.maxima) (.refused "contract limits disagree with ledger")
  raiseIf (ledger.deadlineNs - ledger.startedNs ≠ contract.wallNanoseconds)
    (.refused "contract deadline disagrees with ledger")
  raiseIf (ledger.charges ≠ ledger.used ∨ ∃ row ∈ ledger.reservations, malformed contract row)
    (.refused "reservation total or identity disagrees with ledger")
  let _ ← forwardState contract
  pure contract

/-- `_check_v2`, which also records the clock reading it accepted. -/
def checkV2 (moment : Moment) : BudgetTransaction AttemptContract := do
  let contract ← rowV2 sha256 decode moment
  let ledger ← get
  raiseIf (moment.nowNs < ledger.lastCheckedNs)
    (.refused "clock moved backwards; budget fails closed")
  raiseIf (ledger.deadlineNs ≤ moment.nowNs) (.refused "shared wall-time limit reached")
  set { ledger with lastCheckedNs := moment.nowNs }
  pure contract

def requireVersion : BudgetTransaction Unit := do
  let ledger ← get
  raiseIf (ledger.version ≠ 2) (.refused "unsupported budget ledger version")

def requireIdentity (contract : AttemptContract) (contentIdentitySha256 : String) :
    BudgetTransaction Unit :=
  raiseIf (contentIdentitySha256 ≠ contract.contentIdentitySha256)
    (.refused "content identity differs from attempt contract")

def requireRoom (used requested maximum : Counters) : BudgetTransaction Unit :=
  match Counters.shortage used requested maximum with
  | some (name, charged, asked, approved) => throw (.refused
      s!"shared {name} limit: {charged} charged + {asked} requested > {approved} approved")
  | none => pure ()

def remainingSeconds (moment : Moment) : BudgetTransaction Int := do
  requireVersion
  let _ ← checkV2 sha256 decode moment
  let ledger ← get
  pure (ledger.deadlineNs - moment.nowNs)

def charge (ledger : BudgetLedger) (row : Reservation) : BudgetLedger :=
  { ledger with
    used := ledger.used + row.reserved
    reservations := ledger.reservations ++ [row] }

def chargeForward (ledger : BudgetLedger) (rows : List ForwardReservation)
    (row : ForwardReservation) : BudgetLedger :=
  { ledger with forwardReservations := some (rows ++ [row]) }

def reserveVector (moment : Moment) (label : String) (requested : Counters)
    (contentIdentitySha256 : String) : BudgetTransaction Counters := do
  raiseIf (blank label ∨ ¬ 0 ≤ requested)
    (.invalid "vector reservation requires a label and nonnegative integer counters")
  requireVersion
  let contract ← checkV2 sha256 decode moment
  requireIdentity contract contentIdentitySha256
  let ledger ← get
  raiseIf (∃ row ∈ ledger.reservations, row.label = label)
    (.refused "duplicate phase reservation label")
  requireRoom ledger.used requested ledger.maximum
  set (ledger.charge {
    label, reserved := requested, contentIdentitySha256, reservedNs := moment.stampNs })
  pure (ledger.maximum - (ledger.used + requested))

/-- The two allowances `reserve_forward_positions` reports back. -/
structure ForwardAllowance where
  fixedProfileForwardPositions : Int
  nontrainingForwardPositions : Int

def reserveForwardPositions (moment : Moment) (label : String) (kind : ForwardKind)
    (positions : Int) (contentIdentitySha256 : String) :
    BudgetTransaction ForwardAllowance := do
  raiseIf (blank label ∨ positions ≤ 0)
    (.invalid "forward reservation needs a label, kind and positive positions")
  requireVersion
  let contract ← checkV2 sha256 decode moment
  requireIdentity contract contentIdentitySha256
  let state ← forwardState contract
  match state, contract.maxFixedProfileForwardPositions,
      contract.maxNontrainingForwardPositions with
  | some rows, some fixedLimit, some totalLimit =>
    raiseIf (∃ row ∈ rows, row.label = label)
      (.refused "duplicate forward-input reservation label")
    let nextFixed := positionsOf .fixedProfile rows +
      if kind = .fixedProfile then positions else 0
    let nextTotal := totalPositions rows + positions
    raiseIf ((fixedLimit : Int) < nextFixed)
      (.refused "shared fixed-profile forward-input limit reached")
    raiseIf ((totalLimit : Int) < nextTotal)
      (.refused "shared nontraining forward-input limit reached")
    raiseIf (kind = .operationalValidation ∧
        (exceeds (batchesOf .operationalValidation rows + 1)
            contract.maxOperationalValidationBatches ∨
          exceeds (positionsOf .operationalValidation rows + positions)
            contract.maxOperationalValidationForwardPositions))
      (.refused "shared operational validation limit reached")
    -- The contract's limits are not stored as SQLite integers, so they bound nothing here.
    raiseIf (2 ^ 63 ≤ positions) .overflow
    let ledger ← get
    set (ledger.chargeForward rows {
      label, kind, positions, contentIdentitySha256, reservedNs := moment.stampNs })
    pure {
      fixedProfileForwardPositions := fixedLimit - nextFixed
      nontrainingForwardPositions := totalLimit - nextTotal }
  | _, _, _ => throw (.refused "attempt contract has no forward-input allocation")

def recordActual (ledger : BudgetLedger) (label : String) (actual : Counters)
    (completedNs : Int) : BudgetLedger :=
  { ledger with reservations := ledger.reservations.map fun row =>
      if row.label = label then { row with actual := some actual, completedNs } else row }

def recordVerifiedActual (moment : Moment) (label : String) (actual : Counters)
    (contentIdentitySha256 : String) : BudgetTransaction Unit := do
  raiseIf (blank label ∨ ¬ 0 ≤ actual) (.invalid "actual counters must be nonnegative integers")
  requireVersion
  let contract ← checkV2 sha256 decode moment
  requireIdentity contract contentIdentitySha256
  let ledger ← get
  match ledger.reservations.find? (·.label = label) with
  | none => throw (.refused "phase reservation is missing")
  | some row =>
    raiseIf (¬ actual ≤ row.reserved) (.refused "actual counter exceeds phase reservation")
    match row.actual with
    | some recorded =>
      raiseIf (recorded ≠ actual) (.refused "actual counters differ from recorded result")
    | none => set (ledger.recordActual label actual moment.stampNs)

end BudgetLedger

inductive BudgetCall
  | remainingSeconds
  | reserveVector (label : String) (requested : Counters) (contentIdentitySha256 : String)
  | reserveForwardPositions (label : String) (kind : ForwardKind) (positions : Int)
      (contentIdentitySha256 : String)
  | recordVerifiedActual (label : String) (actual : Counters) (contentIdentitySha256 : String)
deriving DecidableEq

namespace BudgetCall

def body (moment : Moment) : BudgetCall → BudgetLedger.BudgetTransaction Unit
  | .remainingSeconds => do
      let _ ← BudgetLedger.remainingSeconds sha256 decode moment
  | .reserveVector label requested identity => do
      let _ ← BudgetLedger.reserveVector sha256 decode moment label requested identity
  | .reserveForwardPositions label kind positions identity => do
      let _ ← BudgetLedger.reserveForwardPositions sha256 decode moment label kind positions
        identity
  | .recordVerifiedActual label actual identity =>
    BudgetLedger.recordVerifiedActual sha256 decode moment label actual identity

def perform (moment : Moment) (call : BudgetCall) (ledger : BudgetLedger) :
    Except BudgetFailure Unit × BudgetLedger :=
  transact (call.body sha256 decode moment) ledger

end BudgetCall

def BudgetLedger.after (ledger : BudgetLedger) (calls : List (Moment × BudgetCall)) :
    BudgetLedger :=
  calls.foldl (fun ledger (moment, call) => (call.perform sha256 decode moment ledger).2) ledger

end SparseLab.Training
