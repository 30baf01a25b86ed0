import SparseLab.Corpus.TransportBudget

/-! What the validator of the transport ledger asks for, and what each operation commits. -/

namespace SparseLab.Corpus

open Library

variable {Stamp : Type} {policy : TransportPolicy Stamp} {state written : TransportLedger Stamp}

namespace TransportLedger

@[simp] theorem overLimit_eq_false {limit : Option Int} {amount : Int} :
    overLimit limit amount = false ↔ ∀ bound ∈ limit, amount ≤ bound := by
  cases limit <;> simp [overLimit]

theorem any_not_eq_false {α : Type} {found : Option α} {check : α → Bool} :
    found.any (fun value => !check value) = false ↔ ∀ value ∈ found, check value = true := by
  cases found <;> simp

theorem checkCombined_ok {amount : Int} : state.checkCombined policy amount = .ok () ↔
    0 ≤ amount ∧
    (state.observesNetwork = false → ∀ bound ∈ policy.totalBodyLimit,
      state.charged + amount ≤ bound) ∧
    (state.observesNetwork = false → state.gateReview = none →
      ∀ bound ∈ policy.initialBodyLimit, state.charged + amount ≤ bound) := by
  unfold checkCombined
  simp only [refuseIf_bind_eq_ok, refuseIf_ok, Int.not_lt, not_and, Bool.not_eq_true,
    overLimit_eq_false]

theorem checkTransfer_ok {key : Text} {size : Int} {allowVerifiedRetry : Bool} :
    state.checkTransfer policy key size allowVerifiedRetry = .ok () ↔
      state.checkCombined policy size = .ok () ∧
      (∀ item ∈ state.prior key, terminal allowVerifiedRetry item = false) ∧
      (state.observesNetwork = false →
        ((state.prior key).length : Int) ≤ policy.limits.maxRetriesPerShard) ∧
      (state.observesNetwork = false →
        (state.transfers.length : Int) < policy.limits.maxTransfers) ∧
      (state.observesNetwork = false →
        size ≤ policy.limits.maxSourceBodyBytes - state.sourceCharged) := by
  unfold checkTransfer
  cases checked : state.checkCombined policy size with
  | error failure =>
    constructor
    · intro raised
      cases raised
    · intro both
      cases both.1
  | ok value =>
    change (refuseIf _ _ >>= _) = _ ↔ _
    simp only [refuseIf_bind_eq_ok, refuseIf_ok, not_and, Int.not_lt, Int.not_le,
      Bool.not_eq_true, List.any_eq_false, true_and]

theorem commits_transferAt {index : Int}
    {good : Nat × Transfer Stamp → TransportLedger Stamp → Prop} :
    Commits (transferAt index) state good ↔
      ∀ place transfer, position state.transfers.length index = some place →
        state.transfers[place]? = some transfer → good (place, transfer) state := by
  unfold transferAt
  simp only [commits_bind, commits_get, commits_raiseIfNone, commits_pure]
  constructor
  · intro commits place transfer found read
    exact commits place found transfer read
  · intro commits place found transfer read
    exact commits place transfer found read

variable [LinearOrder Stamp]

/-- What `_validate_state` asks for. -/
structure Valid (policy : TransportPolicy Stamp) (state : TransportLedger Stamp) : Prop where
  binding : state.binding = policy.binding
  network : state.validNetwork policy = true
  mode : state.validMode policy = true
  storage : state.validStorage policy = true
  deadline : state.deadline = policy.expires state.createdAt
  transferCap : state.observesNetwork = false →
    (state.transfers.length : Int) ≤ policy.limits.maxTransfers
  sourceCharged : state.sourceCharged = (state.transfers.map (·.reserved)).sum
  sourceActual : state.sourceActual = (state.transfers.map (·.actual)).sum
  sourceBounds : 0 ≤ state.sourceActual ∧ state.sourceActual ≤ state.sourceCharged
  sourceCap : state.observesNetwork = false →
    state.sourceCharged ≤ policy.limits.maxSourceBodyBytes
  metadataBounds : 0 ≤ state.metadataActual ∧ state.metadataActual ≤ state.metadataCharged
  metadataCap : state.observesNetwork = false →
    state.metadataCharged ≤ policy.limits.maxMetadataBodyBytes
  transfers : ∀ item ∈ state.transfers, 0 ≤ item.actual ∧ item.actual ≤ item.reserved
  total : state.observesNetwork = false → ∀ bound ∈ policy.totalBodyLimit, state.charged ≤ bound
  gate : state.observesNetwork = false → state.gateReview = none →
    ∀ bound ∈ policy.initialBodyLimit, state.charged ≤ bound
  review : ∀ review ∈ state.gateReview, validReview policy review = true
  readings : ∀ item ∈ state.transfers, ∀ readings ∈ item.resources, validReadings readings = true

theorem or_iff_imp {flag : Bool} {claim : Prop} [Decidable claim] :
    (flag || decide claim) = true ↔ (flag = false → claim) := by
  cases flag <;> simp

theorem validCounters_iff : state.validCounters policy = true ↔
    state.validNetwork policy = true ∧ state.validMode policy = true ∧
    state.validStorage policy = true ∧ state.deadline = policy.expires state.createdAt ∧
    (state.observesNetwork = false →
      (state.transfers.length : Int) ≤ policy.limits.maxTransfers) ∧
    state.sourceCharged = (state.transfers.map (·.reserved)).sum ∧
    state.sourceActual = (state.transfers.map (·.actual)).sum ∧
    (0 ≤ state.sourceActual ∧ state.sourceActual ≤ state.sourceCharged) ∧
    (state.observesNetwork = false →
      state.sourceCharged ≤ policy.limits.maxSourceBodyBytes) ∧
    (0 ≤ state.metadataActual ∧ state.metadataActual ≤ state.metadataCharged) ∧
    (state.observesNetwork = false →
      state.metadataCharged ≤ policy.limits.maxMetadataBodyBytes) ∧
    ∀ item ∈ state.transfers, 0 ≤ item.actual ∧ item.actual ≤ item.reserved := by
  unfold validCounters
  simp only [Bool.and_eq_true, or_iff_imp, decide_eq_true_eq, List.all_eq_true, and_assoc]

theorem validateState_ok : state.validateState policy = .ok () ↔ Valid policy state := by
  unfold validateState
  simp only [refuseIf_bind_eq_ok, refuseIf_ok, not_not, Bool.not_eq_false, validCounters_iff,
    not_and, Bool.not_eq_true, overLimit_eq_false, any_not_eq_false]
  constructor
  · rintro ⟨binding, counters, total, gate, review, readings⟩
    obtain ⟨network, mode, storage, deadline, transferCap, sourceCharged, sourceActual,
      sourceBounds, sourceCap, metadataBounds, metadataCap, transfers⟩ := counters
    refine ⟨binding, network, mode, storage, deadline, transferCap, sourceCharged, sourceActual,
      sourceBounds, sourceCap, metadataBounds, metadataCap, transfers, total, gate, review, ?_⟩
    · simpa [any_not_eq_false] using readings
  · intro valid
    refine ⟨valid.binding, ⟨valid.network, valid.mode, valid.storage, valid.deadline,
      valid.transferCap, valid.sourceCharged, valid.sourceActual, valid.sourceBounds,
      valid.sourceCap, valid.metadataBounds, valid.metadataCap, valid.transfers⟩, valid.total,
      valid.gate, valid.review, ?_⟩
    · simpa [any_not_eq_false] using valid.readings

structure Admitted (policy : TransportPolicy Stamp) (clock : Clock Stamp) (checkDeadline : Bool)
    (state : TransportLedger Stamp) : Prop where
  valid : Valid policy state
  forward : state.createdAt ≤ clock.now
  inTime : checkDeadline = true → state.wallClockMode = .enforced → clock.now < state.deadline

theorem commits_mutate {α : Type} {clock : Clock Stamp} {checkDeadline : Bool}
    {update : TransportTransaction Stamp α} {good : α → TransportLedger Stamp → Prop}
    (commits : Admitted policy clock checkDeadline state → Commits update state good) :
    Commits (mutate policy clock checkDeadline update) state good := by
  unfold mutate
  simp only [commits_bind, commits_get, commits_orRaise, commits_raiseIf, commits_pure]
  intro checked valid inTime
  rw [validateState_ok] at valid
  simp only [not_or, not_lt, not_and, not_le] at inTime
  refine (commits ⟨valid, inTime.1, inTime.2⟩).mono ?_
  intro value written holds fits
  exact holds

end TransportLedger

open TransportLedger

variable [LinearOrder Stamp]

inductive Step (policy : TransportPolicy Stamp)
    (canonicalDigest : TransportLedger Stamp → HexDigest) (clock : Clock Stamp)
    (state : TransportLedger Stamp) :
    TransportOperation Stamp → TransportLedger Stamp → Prop
  | reserved {sourceId path : Text} {size : Int} {allowVerifiedRetry : Bool}
      (admitted : Admitted policy clock true state)
      (checked : state.checkTransfer policy (transferKey sourceId path) size
        allowVerifiedRetry = .ok ()) :
      Step policy canonicalDigest clock state
        (.reserveTransfer sourceId path size allowVerifiedRetry)
        (state.reserve clock (transferKey sourceId path) size)
  | charged {index : Int} {amount place : Nat} {item : Transfer Stamp}
      (admitted : Admitted policy clock false state)
      (found : state.transfers[place]? = some item) (started : item.status = .started)
      (room : amount ≤ item.reserved - item.actual) :
      Step policy canonicalDigest clock state (.chargeTransferActual index amount)
        { state.amend place (charge clock amount) with
          sourceActual := state.sourceActual + amount }
  | finished {index : Int} {success interrupted : Bool} {place : Nat} {item : Transfer Stamp}
      (admitted : Admitted policy clock false state)
      (found : state.transfers[place]? = some item) (started : item.status = .started) :
      Step policy canonicalDigest clock state (.finishTransfer index success interrupted)
        (state.amend place (finish clock success interrupted))
  | reservedMetadata {amount : Int} (admitted : Admitted policy clock true state)
      (checked : state.checkCombined policy amount = .ok ())
      (room : state.observesNetwork = false →
        amount ≤ policy.limits.maxMetadataBodyBytes - state.metadataCharged) :
      Step policy canonicalDigest clock state (.reserveMetadata amount)
        { state with metadataCharged := state.metadataCharged + amount }
  | chargedMetadata {amount : Nat} (admitted : Admitted policy clock false state)
      (room : state.metadataActual + amount ≤ state.metadataCharged) :
      Step policy canonicalDigest clock state (.chargeMetadataActual amount)
        { state with metadataActual := state.metadataActual + amount }
  | failed {failure : Failure} (admitted : Admitted policy clock false state) :
      Step policy canonicalDigest clock state (.recordFailure failure)
        { state with failures := state.failures ++ [failure] }
  | measured {index : Int} {readings : Readings} {place : Nat} {item : Transfer Stamp}
      (admitted : Admitted policy clock false state)
      (found : state.transfers[place]? = some item)
      (valid : Valid policy
        (state.amend place fun item => { item with resources := some readings })) :
      Step policy canonicalDigest clock state (.recordResources index readings)
        (state.amend place fun item => { item with resources := some readings })
  | released {report : Option (GateReport Stamp)} {decision : GateDecision}
      (admitted : Admitted policy clock true state)
      (gated : policy.initialBodyLimit ≠ none) (unreleased : state.gateReview = none)
      (evidence : validStopEvidence decision.stoppedTransfers = true)
      (bound : ∃ digest : HexDigest, decision.reportSha256 = digest.written)
      (approved : blank decision.approvalReference = false)
      (stops : state.stops decision.stoppedTransfers = true) :
      Step policy canonicalDigest clock state (.releaseGate report (some decision))
        { state with
          gateReview := some (state.review canonicalDigest decision)
          transfers :=
            if decision.stoppedTransfers.isEmpty then state.transfers
            else state.transfers.map interrupt }
  | observedTime {provenance : Provenance} (admitted : Admitted policy clock false state)
      (provided : validTimeProvenance provenance = true) :
      Step policy canonicalDigest clock state (.observeTime provenance)
        { state with
          wallClockMode := .observational
          wallClockObservation := some ⟨provenance, clock.time, state.deadline⟩ }
  | observedNetwork {provenance : Provenance} (admitted : Admitted policy clock false state)
      (valid : Valid policy { state with
        networkMode := .observational
        networkObservation := some ⟨provenance, clock.time, policy.limits⟩ }) :
      Step policy canonicalDigest clock state (.observeNetwork provenance)
        { state with
          networkMode := .observational
          networkObservation := some ⟨provenance, clock.time, policy.limits⟩ }
  | observedStorage {provenance : Provenance} {minFreeBytes : Int}
      (admitted : Admitted policy clock false state)
      (valid : Valid policy { state with
        storageMode := .observational
        storageObservation :=
          some ⟨provenance, clock.time, policy.maxDiskBytes, minFreeBytes⟩ }) :
      Step policy canonicalDigest clock state (.observeStorage provenance minFreeBytes)
        { state with
          storageMode := .observational
          storageObservation :=
            some ⟨provenance, clock.time, policy.maxDiskBytes, minFreeBytes⟩ }

section

variable (canonicalDigest : TransportLedger Stamp → HexDigest) (clock : Clock Stamp)

theorem body_commits (operation : TransportOperation Stamp) :
    Commits (operation.body policy canonicalDigest clock) state fun _ written =>
      Step policy canonicalDigest clock state operation written := by
  cases operation with
  | reserveTransfer sourceId path size allowVerifiedRetry =>
    simp only [TransportOperation.body, commits_bind, commits_pure]
    apply commits_mutate
    intro admitted
    simp only [commits_bind, commits_get, commits_orRaise, commits_set, commits_pure]
    intro checked passed
    exact Step.reserved admitted passed
  | chargeTransferActual index amount =>
    apply commits_mutate
    intro admitted
    simp only [commits_bind, commits_transferAt, commits_raiseIf, commits_modify, not_or,
      not_not, Int.not_lt]
    intro place item at_index found room
    exact Step.charged admitted found room.1 room.2
  | finishTransfer index success interrupted =>
    apply commits_mutate
    intro admitted
    simp only [commits_bind, commits_transferAt, commits_raiseIf, commits_modify, not_not]
    intro place item at_index found started
    exact Step.finished admitted found started
  | reserveMetadata amount =>
    apply commits_mutate
    intro admitted
    simp only [commits_bind, commits_get, commits_orRaise, commits_raiseIf, commits_set,
      not_and, Int.not_lt]
    intro checked passed room
    exact Step.reservedMetadata admitted passed room
  | chargeMetadataActual amount =>
    apply commits_mutate
    intro admitted
    simp only [commits_bind, commits_get, commits_raiseIf, commits_modify, Int.not_lt]
    exact Step.chargedMetadata admitted
  | recordFailure failure =>
    apply commits_mutate
    intro admitted
    simp only [commits_modify]
    exact Step.failed admitted
  | recordResources index readings =>
    apply commits_mutate
    intro admitted
    simp only [commits_bind, commits_get, commits_transferAt, commits_modify, commits_orRaise]
    intro place item at_index found checked valid
    exact Step.measured admitted found (validateState_ok.mp valid)
  | releaseGate report decision =>
    simp only [TransportOperation.body, TransportLedger.releaseGate, commits_bind,
      commits_pure, commits_raiseIf, commits_raiseIfNone, not_or, not_not]
    rintro report rfl decision rfl - evidence
    apply commits_mutate
    intro admitted
    simp only [commits_bind, commits_get, commits_raiseIf, commits_set, commits_pure, not_or,
      not_not, commits_ite]
    intro gated receipt stops
    have released : Step policy canonicalDigest clock state
        (.releaseGate (some report) (some decision)) _ := Step.released admitted
      gated.1 gated.2 (by simpa using evidence.1) ⟨report.sha256, evidence.2.2.1⟩
      (by simpa using evidence.2.2.2) (by simpa using stops.2)
    constructor
    · intro none_stopped
      rw [if_pos none_stopped] at released
      exact released
    · intro some_stopped
      rw [if_neg some_stopped] at released
      exact released
  | observeTime provenance =>
    simp only [TransportOperation.body, TransportLedger.observeTime, commits_bind,
      commits_pure, commits_raiseIf, Bool.not_eq_false]
    intro corpus provided
    apply commits_mutate
    intro admitted
    simp only [commits_bind, commits_get, commits_raiseIf, commits_set, commits_pure]
    intro enforced settled
    exact Step.observedTime admitted provided
  | observeNetwork provenance =>
    simp only [TransportOperation.body, TransportLedger.observeNetwork, commits_bind,
      commits_pure, commits_raiseIf, Bool.not_eq_false]
    intro corpus provided
    apply commits_mutate
    intro admitted
    simp only [commits_bind, commits_get, commits_raiseIf, commits_set, commits_pure,
      commits_orRaise]
    intro enforced settled checked valid
    exact Step.observedNetwork admitted (validateState_ok.mp valid)
  | observeStorage provenance minFreeBytes =>
    simp only [TransportOperation.body, TransportLedger.observeStorage, commits_bind,
      commits_pure, commits_raiseIf, not_or, Bool.not_eq_false]
    intro corpus provided
    apply commits_mutate
    intro admitted
    simp only [commits_bind, commits_get, commits_raiseIf, commits_set, commits_pure,
      commits_orRaise]
    intro enforced settled checked valid
    exact Step.observedStorage admitted (validateState_ok.mp valid)

theorem perform_ok {operation : TransportOperation Stamp}
    (committed : (operation.perform policy canonicalDigest clock state).1 = .ok ()) :
    Step policy canonicalDigest clock state operation
      (operation.perform policy canonicalDigest clock state).2 :=
  transact_ok (body_commits canonicalDigest clock operation) committed

theorem perform_error {operation : TransportOperation Stamp} {failure : TransportFailure}
    (refused : (operation.perform policy canonicalDigest clock state).1 = .error failure) :
    (operation.perform policy canonicalDigest clock state).2 = state :=
  transact_error refused

end

end SparseLab.Corpus
