import SparseLab.Corpus.TransportRuns

/-! What holds of the transport ledger after any operations, committed or refused. -/

namespace SparseLab.Corpus

open Library TransportLedger

variable {Stamp : Type}

theorem no_two_started {items : List (Transfer Stamp)} (ordered : items.Pairwise Precedes)
    (key : Text) : (items.filter fun item => item.key = key ∧ item.status = .started).length ≤ 1 := by
  let live := items.filter fun item => item.key = key ∧ item.status = .started
  have kept : live.Pairwise Precedes := ordered.filter _
  have facts : ∀ item ∈ live, item.key = key ∧ item.status = .started := by
    intro item member
    simpa using (List.mem_filter.mp member).2
  change live.length ≤ 1
  cases found : live with
  | nil => exact Nat.zero_le 1
  | cons first rest =>
    cases rest with
    | nil => exact Nat.le_refl 1
    | cons second rest =>
      rw [found] at kept facts
      have one := facts first List.mem_cons_self
      have other := facts second (List.mem_cons_of_mem _ List.mem_cons_self)
      have ended := (List.pairwise_cons.mp kept).1 second List.mem_cons_self
        (one.1.trans other.1.symm)
      exact absurd one.2 ended.1

variable [LinearOrder Stamp]

def ReadsForward (createdAt : Stamp) (operations : List (Clock Stamp × TransportOperation Stamp)) :
    Prop :=
  ∀ entry ∈ operations, ∀ provenance, entry.2 = .observeTime provenance →
    createdAt ≤ entry.1.time

def committed (policy : TransportPolicy Stamp)
    (canonicalDigest : TransportLedger Stamp → HexDigest) (state : TransportLedger Stamp) :
    List (Clock Stamp × TransportOperation Stamp) → List (TransportOperation Stamp)
  | [] => []
  | (clock, operation) :: operations =>
    let (result, written) := operation.perform policy canonicalDigest clock state
    let later := committed policy canonicalDigest written operations
    match result with
    | .ok _ => operation :: later
    | .error _ => later

structure Sound (policy : TransportPolicy Stamp) (createdAt : Stamp)
    (state : TransportLedger Stamp) : Prop where
  valid : Valid policy state
  created : state.createdAt = createdAt
  ordered : state.transfers.Pairwise Precedes
  retries : WithinRetries policy state

section

variable {policy : TransportPolicy Stamp} {canonicalDigest : TransportLedger Stamp → HexDigest}
  {createdAt : Stamp} {state : TransportLedger Stamp}

theorem initialLedger_valid (policy : TransportPolicy Stamp) (now : Stamp) :
    Valid policy (initialLedger policy now) where
  binding := rfl
  network := rfl
  mode := rfl
  storage := rfl
  deadline := rfl
  transferCap := fun _ => Int.le_of_lt policy.limits.transfersPositive
  sourceCharged := rfl
  sourceActual := rfl
  sourceBounds := ⟨Int.le_refl 0, Int.le_refl 0⟩
  sourceCap := fun _ => Int.le_of_lt policy.limits.sourcePositive
  metadataBounds := ⟨Int.le_refl 0, Int.le_refl 0⟩
  metadataCap := fun _ => Int.le_of_lt policy.limits.metadataPositive
  transfers := List.forall_mem_nil _
  total := fun _ bound member => Int.le_of_lt (policy.totalPositive bound member)
  gate := fun _ _ bound member => Int.le_of_lt (policy.initialPositive bound member)
  review := by
    intro review absent
    cases absent
  readings := List.forall_mem_nil _

theorem initialLedger_sound (policy : TransportPolicy Stamp) (now : Stamp) :
    Sound policy now (initialLedger policy now) where
  valid := initialLedger_valid policy now
  created := rfl
  ordered := List.Pairwise.nil
  retries := by
    intro enforced key
    have nonnegative := policy.limits.retriesNonnegative
    simp only [reservations, initialLedger, List.map_nil, List.count_nil]
    omega

theorem perform_sound {clock : Clock Stamp} {operation : TransportOperation Stamp}
    (sound : Sound policy createdAt state)
    (forward : ∀ provenance, operation = .observeTime provenance → createdAt ≤ clock.time) :
    Sound policy createdAt (operation.perform policy canonicalDigest clock state).2 := by
  cases result : (operation.perform policy canonicalDigest clock state).1 with
  | error failure =>
    rw [perform_error canonicalDigest clock result]
    exact sound
  | ok value =>
    have step := perform_ok canonicalDigest clock result
    have started := sound.created
    refine ⟨step_valid step ?_, (step_createdAt step).trans started,
      step_precedes step sound.ordered, step_retries step sound.retries⟩
    intro provenance same
    rw [started]
    exact forward provenance same

theorem after_sound {operations : List (Clock Stamp × TransportOperation Stamp)}
    (sound : Sound policy createdAt state) (forward : ReadsForward createdAt operations) :
    Sound policy createdAt (state.after policy canonicalDigest operations) := by
  induction operations generalizing state with
  | nil => exact sound
  | cons entry operations ih =>
    refine ih (perform_sound sound (forward entry List.mem_cons_self)) ?_
    intro later member
    exact forward later (List.mem_cons_of_mem _ member)

theorem committed_error {clock : Clock Stamp} {operation : TransportOperation Stamp}
    {failure : TransportFailure} (operations : List (Clock Stamp × TransportOperation Stamp))
    (result : (operation.perform policy canonicalDigest clock state).1 = .error failure) :
    committed policy canonicalDigest state ((clock, operation) :: operations) =
      committed policy canonicalDigest state operations := by
  have same := perform_error canonicalDigest clock result
  simp only [committed, result, same]

theorem committed_ok {clock : Clock Stamp} {operation : TransportOperation Stamp}
    (operations : List (Clock Stamp × TransportOperation Stamp))
    (result : (operation.perform policy canonicalDigest clock state).1 = .ok ()) :
    committed policy canonicalDigest state ((clock, operation) :: operations) =
      operation :: committed policy canonicalDigest
        (operation.perform policy canonicalDigest clock state).2 operations := by
  simp only [committed, result]

theorem reserveTransfer_failed_key {clock : Clock Stamp} {sourceId path : Text} {size : Int}
    {retry : Bool} {item : Transfer Stamp} (member : item ∈ state.transfers)
    (key : item.key = transferKey sourceId path) (failed : item.status = .failed) :
    ((TransportOperation.reserveTransfer sourceId path size retry).perform policy canonicalDigest
      clock state).1 ≠ .ok () := by
  intro accepted
  have step := perform_ok canonicalDigest clock accepted
  generalize ((TransportOperation.reserveTransfer sourceId path size retry).perform policy
    canonicalDigest clock state).2 = written at step
  cases step with
  | reserved admitted checked =>
    have prior : item ∈ state.prior (transferKey sourceId path) :=
      List.mem_filter.mpr ⟨member, by simpa using key⟩
    have open_key := (checkTransfer_ok.mp checked).2.1 item prior
    simp [terminal, failed] at open_key

def Reserves : TransportOperation Stamp → Prop
  | .reserveTransfer _ _ _ _ => True
  | .reserveMetadata _ => True
  | _ => False

theorem reserves_before_deadline {clock : Clock Stamp} {operation : TransportOperation Stamp}
    (reserves : Reserves operation) (enforced : state.wallClockMode = .enforced)
    (accepted : (operation.perform policy canonicalDigest clock state).1 = .ok ()) :
    clock.now < state.deadline := by
  have step := perform_ok canonicalDigest clock accepted
  generalize (operation.perform policy canonicalDigest clock state).2 = written at step
  cases step with
  | reserved admitted checked => exact admitted.inTime rfl enforced
  | reservedMetadata admitted checked room => exact admitted.inTime rfl enforced
  | _ => exact absurd reserves id

end

section

variable (policy : TransportPolicy Stamp) (canonicalDigest : TransportLedger Stamp → HexDigest)
  (state : TransportLedger Stamp)

theorem after_cons (clock : Clock Stamp) (operation : TransportOperation Stamp)
    (operations : List (Clock Stamp × TransportOperation Stamp)) :
    state.after policy canonicalDigest ((clock, operation) :: operations) =
      (operation.perform policy canonicalDigest clock state).2.after policy canonicalDigest
        operations := rfl

theorem after_charges (operations : List (Clock Stamp × TransportOperation Stamp)) :
    (state.after policy canonicalDigest operations).sourceCharged = state.sourceCharged +
      ((committed policy canonicalDigest state operations).map sourceReservation).sum ∧
    (state.after policy canonicalDigest operations).metadataCharged = state.metadataCharged +
      ((committed policy canonicalDigest state operations).map metadataReservation).sum := by
  induction operations generalizing state with
  | nil => simp [after, committed]
  | cons entry operations ih =>
    obtain ⟨clock, operation⟩ := entry
    rw [after_cons]
    cases result : (operation.perform policy canonicalDigest clock state).1 with
    | error failure =>
      rw [committed_error operations result, perform_error canonicalDigest clock result]
      exact ih state
    | ok value =>
      obtain ⟨source, metadata⟩ := ih (operation.perform policy canonicalDigest clock state).2
      have charges := step_charges (perform_ok canonicalDigest clock result)
      rw [committed_ok operations result]
      simp only [List.map_cons, List.sum_cons]
      omega

theorem after_append (earlier later : List (Clock Stamp × TransportOperation Stamp)) :
    state.after policy canonicalDigest (earlier ++ later) =
      (state.after policy canonicalDigest earlier).after policy canonicalDigest later :=
  List.foldl_append

theorem after_grows (operations : List (Clock Stamp × TransportOperation Stamp)) :
    state.sourceCharged ≤ (state.after policy canonicalDigest operations).sourceCharged ∧
      state.metadataCharged ≤ (state.after policy canonicalDigest operations).metadataCharged := by
  induction operations generalizing state with
  | nil => exact ⟨Int.le_refl _, Int.le_refl _⟩
  | cons entry operations ih =>
    obtain ⟨clock, operation⟩ := entry
    have later := ih (operation.perform policy canonicalDigest clock state).2
    have here : state.sourceCharged ≤
        (operation.perform policy canonicalDigest clock state).2.sourceCharged ∧
        state.metadataCharged ≤
        (operation.perform policy canonicalDigest clock state).2.metadataCharged := by
      cases result : (operation.perform policy canonicalDigest clock state).1 with
      | error failure =>
        rw [perform_error canonicalDigest clock result]
        exact ⟨Int.le_refl _, Int.le_refl _⟩
      | ok value =>
        have step := perform_ok canonicalDigest clock result
        have charges := step_charges step
        have nonnegative := step_nonnegative step
        omega
    exact ⟨Int.le_trans here.1 later.1, Int.le_trans here.2 later.2⟩

end

section

variable (policy : TransportPolicy Stamp) (canonicalDigest : TransportLedger Stamp → HexDigest)
  (now : Stamp) (operations : List (Clock Stamp × TransportOperation Stamp))

/-- The ledger over every run whose time observations read a clock that is not behind it. -/
theorem transport_ledger_sound (forward : ReadsForward now operations) :
    let state := (initialLedger policy now).after policy canonicalDigest operations
    let granted := committed policy canonicalDigest (initialLedger policy now) operations
    state.validateState policy = .ok () ∧
    state.sourceCharged = (state.transfers.map (·.reserved)).sum ∧
    state.sourceCharged = (granted.map sourceReservation).sum ∧
    state.metadataCharged = (granted.map metadataReservation).sum ∧
    (∀ earlier later, operations = earlier ++ later →
      let past := (initialLedger policy now).after policy canonicalDigest earlier
      past.sourceCharged ≤ state.sourceCharged ∧ past.metadataCharged ≤ state.metadataCharged) ∧
    (∀ item ∈ state.transfers, 0 ≤ item.actual ∧ item.actual ≤ item.reserved) ∧
    state.sourceActual ≤ state.sourceCharged ∧ state.metadataActual ≤ state.metadataCharged ∧
    (∀ key, (state.transfers.filter fun item =>
      item.key = key ∧ item.status = .started).length ≤ 1) ∧
    state.transfers.Pairwise (fun earlier later =>
      earlier.key = later.key → earlier.status ≠ .failed) ∧
    (∀ item ∈ state.transfers, item.status = .failed →
      ∀ clock sourceId path size retry, item.key = transferKey sourceId path →
        ((TransportOperation.reserveTransfer sourceId path size retry).perform policy
          canonicalDigest clock state).1 ≠ .ok ()) ∧
    (state.networkMode = .enforced →
      (state.transfers.length : Int) ≤ policy.limits.maxTransfers ∧
      state.sourceCharged ≤ policy.limits.maxSourceBodyBytes ∧
      state.metadataCharged ≤ policy.limits.maxMetadataBodyBytes ∧
      (∀ bound ∈ policy.totalBodyLimit, state.sourceCharged + state.metadataCharged ≤ bound) ∧
      (state.gateReview = none → ∀ bound ∈ policy.initialBodyLimit,
        state.sourceCharged + state.metadataCharged ≤ bound) ∧
      ∀ key : Text, ((state.transfers.map (·.key)).count key : Int) ≤
        policy.limits.maxRetriesPerShard + 1) ∧
    (state.wallClockMode = .enforced → ∀ (clock : Clock Stamp) (operation : TransportOperation Stamp),
      Reserves operation →
      (operation.perform policy canonicalDigest clock state).1 = .ok () →
      clock.now < state.deadline) ∧
    ∀ (clock : Clock Stamp) (operation : TransportOperation Stamp) (failure : TransportFailure),
      (operation.perform policy canonicalDigest clock state).1 = .error failure →
      (operation.perform policy canonicalDigest clock state).2 = state := by
  intro state granted
  have sound : Sound policy now state := after_sound (initialLedger_sound policy now) forward
  have valid := sound.valid
  obtain ⟨source, metadata⟩ :=
    after_charges policy canonicalDigest (initialLedger policy now) operations
  refine ⟨validateState_ok.mpr valid, valid.sourceCharged, ?_, ?_, ?_, valid.transfers,
    valid.sourceBounds.2, valid.metadataBounds.2, no_two_started sound.ordered, ?_, ?_, ?_, ?_, ?_⟩
  · exact source.trans (Int.zero_add _)
  · exact metadata.trans (Int.zero_add _)
  · rintro earlier later rfl
    have grows := after_grows policy canonicalDigest
      ((initialLedger policy now).after policy canonicalDigest earlier) later
    rw [← after_append] at grows
    exact grows
  · refine sound.ordered.imp ?_
    intro earlier later precedes same
    exact (precedes same).2
  · intro item member failed clock sourceId path size retry key
    exact reserveTransfer_failed_key member key failed
  · intro enforced
    have network : state.observesNetwork = false := by
      simp [observesNetwork, enforced]
    exact ⟨valid.transferCap network, valid.sourceCap network, valid.metadataCap network,
      valid.total network, valid.gate network, sound.retries network⟩
  · intro enforced clock operation reserves accepted
    exact reserves_before_deadline reserves enforced accepted
  · intro clock operation failure refused
    exact perform_error canonicalDigest clock refused

end

def pilotLimits : NetworkLimits where
  maxSourceBodyBytes := 100
  maxMetadataBodyBytes := 20
  maxTotalBodyBytes := some 110
  initialBodyBytes := some 60
  maxRetriesPerShard := 1
  maxTransfers := 4
  sourcePositive := by decide
  metadataPositive := by decide
  transfersPositive := by decide
  retriesNonnegative := by decide

def pilotPolicy : TransportPolicy Nat where
  binding := text "pilot"
  limits := pilotLimits
  maxDiskBytes := 1000
  expires := (· + 50)
  totalBodyLimit := some 110
  totalPositive := by simp
  initialBodyLimit := some 60
  initialPositive := by simp
  corpusLedger := true
  boundedStorage := false
  bodyLength := fun _ => 0

def pilotDigest (_ : TransportLedger Nat) : HexDigest where
  written := List.replicate 64 0x61
  hexadecimal := by decide

def pilotProvenance : Provenance := ⟨text "owner", text "ticket 7"⟩

def pilotRun : List (Clock Nat × TransportOperation Nat) :=
  [(⟨10, 10, 0⟩, .reserveTransfer (text "a") (text "x") 25 false),
    (⟨11, 11, 1⟩, .chargeTransferActual 0 20),
    (⟨12, 12, 2⟩, .finishTransfer (-1) false true),
    (⟨13, 13, 3⟩, .reserveTransfer (text "a") (text "x") 25 false),
    (⟨14, 14, 4⟩, .chargeTransferActual 1 26),
    (⟨15, 15, 5⟩, .finishTransfer 1 true false),
    (⟨16, 16, 6⟩, .reserveMetadata 10),
    (⟨17, 17, 7⟩, .observeTime pilotProvenance)]

theorem pilot_ledger_sound :
    let state := (initialLedger pilotPolicy 10).after pilotPolicy pilotDigest pilotRun
    state.validateState pilotPolicy = .ok () ∧ state.sourceCharged = 50 ∧
      state.wallClockMode = .observational := by
  have forward : ReadsForward 10 pilotRun := by
    intro entry member provenance same
    simp only [pilotRun, List.mem_cons, List.not_mem_nil, or_false] at member
    rcases member with rfl | rfl | rfl | rfl | rfl | rfl | rfl | rfl <;> simp_all
  have sound := transport_ledger_sound pilotPolicy pilotDigest 10 pilotRun forward
  exact ⟨sound.1, by decide +kernel, by decide +kernel⟩

theorem time_observed_behind_ledger :
    let observed := (TransportOperation.observeTime pilotProvenance).perform pilotPolicy
      pilotDigest ⟨10, 9, 0⟩ (initialLedger pilotPolicy 10)
    observed.1 = .ok () ∧ observed.2.validateState pilotPolicy =
      .error (.refused "transport budget ledger counters are invalid") := by
  decide +kernel

end SparseLab.Corpus
