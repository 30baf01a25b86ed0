import SparseLab.Corpus.TransportSafety
import SparseLab.Data.BoundedAcquisition

/-! What one step of an acquisition keeps of the ledger and of the cache, however it ends. -/

namespace SparseLab.Data.Acquisition

open Library Corpus

structure History where
  asked : List Row := []
  blamed : List Text := []
  source : Int := 0
  metadata : Int := 0
  requests : Int := 0
  verification : Int := 0
  cached : List (HexDigest × Bytes) := []
  opened : Bool := false

def History.blame (history : History) (keys : List Text) : History :=
  { history with blamed := keys ++ history.blamed }

variable {Stamp : Type} [LinearOrder Stamp]

structure LedgerSound (env : Environment Stamp) (admission : Admission Stamp) (history : History)
    (tick : Nat) (state : AcquisitionLedger Stamp) : Prop where
  valid : TransportLedger.Valid admission.policy state.transport
  created : state.transport.createdAt ≤ env.clock tick
  requests : 0 ≤ state.requests ∧ state.requests ≤ admission.maxRequests
  verification : 0 ≤ state.verificationBytes ∧
    state.verificationBytes ≤ admission.maxVerificationBytes
  rows : state.scannedRows = 0 ∧ state.scannedRowsObserved = 0
  hits : 0 ≤ state.cacheHits ∧ state.cacheHits ≤ history.asked.length
  peaks : (0 ≤ state.peakOwnedBytes ∧ state.peakOwnedBytes ≤ 2 ^ 63 - 1) ∧
    0 ≤ state.peakOwnedInodes ∧ state.peakOwnedInodes ≤ 2 ^ 63 - 1
  floor : history.source ≤ state.transport.sourceCharged ∧
    history.metadata ≤ state.transport.metadataCharged ∧
    history.requests ≤ state.requests ∧ history.verification ≤ state.verificationBytes
  failed : ∀ item ∈ state.transport.transfers, item.status = .failed → item.key ∈ history.blamed
  completed : ∀ item ∈ state.transport.transfers,
    item.status = .complete → item.sha256Verified = some true

structure Sound (env : Environment Stamp) (admission : Admission Stamp) (hashes : Hashes)
    (history : History) (world : World Stamp) (state : AcquisitionLedger Stamp) : Prop where
  ledger : world.ledger = .row state
  owner : world.owner = some admission.policy.binding
  state : LedgerSound env admission history world.tick state
  published : ∀ key content, world.members.read ⟨key, .bin⟩ = some content →
    ∃ row ∈ history.asked, hashes.digest row = key ∧ authentic hashes row content = true
  cached : ∀ entry ∈ history.cached, world.members.read ⟨entry.1, .bin⟩ = some entry.2

def Failure.reason : Failure → Option Reason
  | .died => none
  | .value reason _ | .os reason _ | .interrupted reason _ => some reason

def Plain (history : History) (reason : Reason) : Prop :=
  reason ∈ [.allowance, .deadline, .cancelled, .answer] ∨
    (reason = .hits ∧ 2 ^ 63 ≤ history.asked.length)

def Excused (history : History) (failure : Failure) : Prop :=
  ∀ reason ∈ failure.reason, Plain history reason

theorem excused_died (history : History) : Excused history .died := by
  intro reason member
  cases member

section

variable {env : Environment Stamp} {admission : Admission Stamp} {hashes : Hashes}
  {history : History} {tick : Nat} {state : AcquisitionLedger Stamp}

theorem LedgerSound.later (sound : LedgerSound env admission history tick state) :
    LedgerSound env admission history (tick + 1) state :=
  { sound with created := le_trans sound.created (env.forward tick (tick + 1) (Nat.le_succ tick)) }

theorem LedgerSound.validate (sound : LedgerSound env admission history tick state) :
    validateState admission state = .ok () ∨
      (validateState admission state = .error (.refused "invalid acquisition operational counter") ∧
        2 ^ 63 ≤ history.asked.length) := by
  unfold validateState
  rw [TransportLedger.validateState_ok.mpr sound.valid]
  have requests := sound.requests
  have verification := sound.verification
  have positive := admission.positive
  have rows := sound.rows
  have peaks := sound.peaks
  have low := sound.hits
  have counters : validCounters admission state = false ↔ 2 ^ 63 - 1 < state.cacheHits := by
    simp only [validCounters, List.all_cons, List.all_nil, Bool.and_true, Bool.and_eq_false_iff,
      decide_eq_false_iff_not]
    omega
  by_cases full : 2 ^ 63 - 1 < state.cacheHits
  · refine .inr ⟨?_, by omega⟩
    change refuseIf _ _ = _
    rw [refuseIf, if_pos (counters.mpr full)]
  · exact .inl (refuseIf_ok.mpr (mt counters.mp full))

variable {α : Type} {good : α → AcquisitionLedger Stamp → Prop}
  {bad : TransportFailure → AcquisitionLedger Stamp → Prop}

omit [LinearOrder Stamp] in
theorem ends_inherited {update : TransportLedger.TransportTransaction Stamp α} :
    Ends (inherited update) state good bad ↔
      Ends update state.transport (fun value transport => good value { state with transport })
        fun failure transport => bad failure { state with transport } := by
  unfold Library.Ends inherited
  cases update state.transport <;> rfl

theorem ends_validate {rest : LedgerUpdate Stamp α}
    (sound : LedgerSound env admission history tick state)
    (full : 2 ^ 63 ≤ history.asked.length →
      bad (.refused "invalid acquisition operational counter") state)
    (passes : Ends rest state good bad) :
    Ends (do orRaise (validateState admission (← get)); rest) state good bad := by
  rw [ends_bind, ends_get]
  rcases sound.validate with valid | ⟨refused, many⟩
  · rw [valid]
    exact passes
  · rw [refused]
    exact full many

theorem ends_mutate {clock : Clock Stamp} {transport : TransportLedger Stamp}
    {checkDeadline : Bool} {update : TransportLedger.TransportTransaction Stamp α}
    {good : α → TransportLedger Stamp → Prop} {bad : TransportFailure → TransportLedger Stamp → Prop}
    (valid : TransportLedger.Valid admission.policy transport)
    (created : transport.createdAt ≤ clock.now)
    (late : checkDeadline = true → bad (.refused "transport budget deadline exceeded") transport)
    (passes : TransportLedger.Admitted admission.policy clock checkDeadline transport →
      Ends update transport good bad) :
    Ends (TransportLedger.mutate admission.policy clock checkDeadline update) transport good bad := by
  unfold TransportLedger.mutate
  rw [ends_bind, ends_get, ends_orRaise_bind (TransportLedger.validateState_ok.mpr valid)]
  by_cases passed : clock.now < transport.createdAt ∨ (checkDeadline = true ∧
      transport.wallClockMode = .enforced ∧ transport.deadline ≤ clock.now)
  · rw [raiseIf, if_pos passed]
    exact late (passed.elim (fun back => absurd back (not_lt.mpr created)) And.left)
  · rw [ends_raiseIf_bind passed, ends_bind]
    simp only [not_or, not_lt, not_and, not_le] at passed
    refine (passes ⟨valid, passed.1, passed.2⟩).mono (fun value written held => ?_)
      fun failure written => id
    rw [ends_bind, ends_get, ends_raiseIf_bind (by rw [admission.unbounded]; simp)]
    exact held

end

section

variable {env : Environment Stamp} {admission : Admission Stamp} {hashes : Hashes}
  {history : History} {world : World Stamp} {state : AcquisitionLedger Stamp} {α : Type}
  {good : α → World Stamp → Prop} {bad : Failure → World Stamp → Prop}

def World.next (world : World Stamp) : World Stamp := { world with tick := world.tick + 1 }

theorem ends_step {site : Site} {good : Nat → World Stamp → Prop} (died : bad .died world.next)
    (lives : good world.tick world.next) : Ends (step env site) world good bad := by
  unfold Library.Ends step
  by_cases dies : env.dies site world.tick = true
  · simp only [if_pos dies]
    exact died
  · simp only [if_neg dies]
    exact lives

omit [LinearOrder Stamp] in
theorem ends_opened {message : String} {good : AcquisitionLedger Stamp → World Stamp → Prop}
    (ledger : world.ledger = .row state) :
    Ends (opened message) world good bad ↔ good state world := by
  unfold Library.Ends opened
  rw [ledger]

theorem ends_transaction {update : Clock Stamp → LedgerUpdate Stamp α}
    (ledger : world.ledger = .row state) (died : bad .died world.next)
    (body : Ends (update (instant env world.tick)) state
      (fun value written => good value { world.next with ledger := .row written })
      fun failure _ => bad (raised failure) world.next) :
    Ends (transaction env update) world good bad := by
  unfold transaction
  rw [ends_bind]
  refine ends_step died ?_
  have same : world.next.ledger = .row state := ledger
  rw [ends_bind, ends_opened same]
  unfold Library.Ends at body
  unfold transact
  cases ended : update (instant env world.tick) state with
  | ok value written =>
    rw [ended] at body
    exact body
  | error failure written =>
    rw [ended] at body
    exact body

theorem Sound.next (sound : Sound env admission hashes history world state) :
    Sound env admission hashes history world.next state where
  ledger := sound.ledger
  owner := sound.owner
  state := sound.state.later
  published := sound.published
  cached := sound.cached

theorem Sound.write {written : AcquisitionLedger Stamp}
    (sound : Sound env admission hashes history world state)
    (changed : LedgerSound env admission history world.tick written) :
    Sound env admission hashes history { world.next with ledger := .row written } written where
  ledger := rfl
  owner := sound.owner
  state := changed.later
  published := sound.published
  cached := sound.cached

variable (env admission hashes history) in
/-- The world is sound, and `holds` of its inherited ledger and its cache. -/
def Held (holds : TransportLedger Stamp → Volume Member Bytes → Prop) (world : World Stamp) : Prop :=
  ∃ state, Sound env admission hashes history world state ∧ holds state.transport world.members

variable {holds : TransportLedger Stamp → Volume Member Bytes → Prop}

theorem Held.next (held : Held env admission hashes history holds world) :
    Held env admission hashes history holds world.next := by
  obtain ⟨state, sound, here⟩ := held
  exact ⟨state, sound.next, here⟩

theorem excused_plain {reason : Reason} {message : String}
    (plain : reason ∈ [Reason.allowance, .deadline, .cancelled, .answer]) :
    Excused history (.value reason message) ∧ Excused history (.os reason message) ∧
      Excused history (.interrupted reason message) := by
  have excused : Plain history reason := .inl plain
  refine ⟨?_, ?_, ?_⟩
  all_goals
    intro found same
    cases same
    exact excused

theorem excused_deadline :
    Excused history (raised (.refused "transport budget deadline exceeded")) :=
  (excused_plain (by simp [reasonOf, allowances])).1

theorem excused_hits (many : 2 ^ 63 ≤ history.asked.length) :
    Excused history (raised (.refused "invalid acquisition operational counter")) := by
  intro reason same
  cases same
  exact .inr ⟨by simp [reasonOf, allowances], many⟩

theorem keeps_step (site : Site) :
    Keeps (Held env admission hashes history holds) (Excused history) (step env site) :=
  fun _ held => ends_step ⟨excused_died history, held.next⟩ held.next

theorem ends_mutation {update : LedgerUpdate Stamp α}
    (holds : TransportLedger Stamp → Volume Member Bytes → Prop)
    (sound : Sound env admission hashes history world state)
    (here : holds state.transport world.members)
    (updates : Ends update state
      (fun value written => good value { world.next with ledger := .row written })
      fun failure _ => Excused history (raised failure)) :
    Ends (mutate env admission update) world good
      fun failure later => Excused history failure ∧
        Held env admission hashes history holds later := by
  have kept : Held env admission hashes history holds world.next := ⟨state, sound.next, here⟩
  refine ends_transaction sound.ledger ⟨excused_died history, kept⟩ ?_
  refine ends_validate sound.state (fun many => ⟨excused_hits many, kept⟩) ?_
  rw [ends_bind, ends_inherited]
  refine ends_mutate sound.state.valid sound.state.created
    (fun _ => ⟨excused_deadline, kept⟩) fun _ => ?_
  exact updates.mono (fun _ _ => id) fun _ _ excused => ⟨excused, kept⟩

theorem keeps_mutate {update : LedgerUpdate Stamp α}
    (updates : ∀ tick state, LedgerSound env admission history tick state →
      Ends update state
        (fun _ written => LedgerSound env admission history tick written ∧
          written.transport = state.transport)
        fun failure _ => Excused history (raised failure)) :
    Keeps (Held env admission hashes history holds) (Excused history)
      (mutate env admission update) := by
  rintro world ⟨state, sound, here⟩
  refine ends_mutation holds sound here ((updates world.tick state sound.state).mono ?_ fun _ _ => id)
  rintro value written ⟨changed, same⟩
  exact ⟨written, sound.write changed, by rw [same]; exact here⟩

theorem keeps_readLedger :
    Keeps (Held env admission hashes history holds) (Excused history)
      (readLedger env admission) := by
  intro world held
  obtain ⟨state, sound, here⟩ := held
  unfold readLedger
  rw [ends_bind]
  refine ends_step ⟨excused_died history, state, sound.next, here⟩ ?_
  rw [ends_bind, ends_opened sound.next.ledger]
  rcases sound.state.validate with valid | ⟨refused, many⟩
  · rw [valid]
    dsimp only
    rw [ends_raiseIf_bind (not_lt.mpr sound.state.created)]
    exact ⟨state, sound.next, here⟩
  · rw [refused]
    exact ⟨excused_hits many, state, sound.next, here⟩

theorem keeps_remainingSeconds :
    Keeps (Held env admission hashes history holds) (Excused history)
      (remainingSeconds env admission) := by
  refine (keeps_step .look).bind fun now => ?_
  refine Keeps.raiseIf_bind (fun _ => (excused_plain (by simp)).2.2) fun _ => ?_
  refine keeps_readLedger.bind fun state => (keeps_step .look).bind fun later => ?_
  exact Keeps.raiseIf fun _ => (excused_plain (by simp)).1

theorem keeps_consume (counter : Counter) (amount : Nat) :
    Keeps (Held env admission hashes history holds) (Excused history)
      (consume env admission counter amount) := by
  refine keeps_mutate fun tick state sound => ?_
  rw [ends_bind, ends_get]
  by_cases spent : counter.maximum admission - counter.read state < amount
  · rw [raiseIf, if_pos spent]
    cases counter
    all_goals exact (excused_plain (by simp [reasonOf, allowances, Counter.spent])).1
  · rw [ends_raiseIf_bind spent]
    have requests := sound.requests
    have verification := sound.verification
    have floor := sound.floor
    cases counter with
    | requests =>
      simp only [Counter.maximum, Counter.read] at spent
      refine ⟨{ sound with requests := ?_, floor := ?_ }, rfl⟩
      · simp only [Counter.add]
        omega
      · simp only [Counter.add]
        omega
    | verificationBytes =>
      simp only [Counter.maximum, Counter.read] at spent
      refine ⟨{ sound with verification := ?_, floor := ?_ }, rfl⟩
      · simp only [Counter.add]
        omega
      · simp only [Counter.add]
        omega

theorem keeps_recordPeaks {size count : Nat} (bounds : size < 2 ^ 63 ∧ count < 2 ^ 63) :
    Keeps (Held env admission hashes history holds) (Excused history)
      (recordPeaks env admission size count) := by
  refine keeps_mutate fun tick state sound => ?_
  have peaks := sound.peaks
  refine ⟨{ sound with peaks := ?_ }, rfl⟩
  dsimp only
  omega

theorem keeps_observe :
    Keeps (Held env admission hashes history holds) (Excused history) (observe env admission) := by
  refine keeps_remainingSeconds.bind fun _ => (keeps_step .look).bind fun now => ?_
  refine (keeps_recordPeaks (env.ownedBounds now)).bind fun _ => ?_
  exact Keeps.raiseIf fun _ => (excused_plain (by simp)).1

theorem keeps_readWithDeadline :
    Keeps (Held env admission hashes history holds) (Excused history)
      (readWithDeadline env admission) :=
  keeps_remainingSeconds.bind fun _ => (keeps_step .read).bind fun _ => Keeps.pure _

theorem keeps_remote (broken : Bool) :
    Keeps (Held env admission hashes history holds) (Excused history) (remote broken) :=
  Keeps.raiseIf fun _ => (excused_plain (by simp)).2.1

end

section

variable {env : Environment Stamp} {admission : Admission Stamp} {hashes : Hashes}
  {history : History} {world : World Stamp} {state : AcquisitionLedger Stamp} {α : Type}
  {holds : TransportLedger Stamp → Volume Member Bytes → Prop}

theorem ends_operate (keys : List Text) {operation : Clock Stamp → TransportLedger.TransportTransaction Stamp α}
    {written : α → TransportLedger Stamp → Volume Member Bytes → Prop} {allowed : Failure → Prop}
    (sound : Sound env admission hashes history world state)
    (here : holds state.transport world.members)
    (excused : ∀ failure, Excused history failure → allowed failure)
    (operates : Ends (operation (instant env world.tick)) state.transport
      (fun value transport =>
        LedgerSound env admission (history.blame keys) world.tick { state with transport } ∧
          written value transport world.members)
      fun failure _ => allowed (raised failure)) :
    Ends (operate env admission operation) world
      (fun value => Held env admission hashes (history.blame keys) (written value))
      fun failure later => allowed failure ∧ Held env admission hashes history holds later := by
  have kept : Held env admission hashes history holds world.next := ⟨state, sound.next, here⟩
  refine ends_transaction sound.ledger ⟨excused _ (excused_died history), kept⟩ ?_
  refine ends_validate sound.state
    (fun many => ⟨excused _ (excused_hits many), kept⟩) ?_
  rw [ends_inherited]
  refine operates.mono ?_ fun failure _ refused => ⟨refused, kept⟩
  rintro value transport ⟨changed, holding⟩
  exact ⟨_, ⟨rfl, sound.owner, changed.later, sound.published, sound.cached⟩, holding⟩

theorem metadata_valid {transport : TransportLedger Stamp} {charged actual : Int}
    (valid : TransportLedger.Valid admission.policy transport)
    (bounds : 0 ≤ actual ∧ actual ≤ charged)
    (cap : transport.observesNetwork = false →
      charged ≤ admission.policy.limits.maxMetadataBodyBytes) :
    TransportLedger.Valid admission.policy
      { transport with metadataCharged := charged, metadataActual := actual } where
  binding := valid.binding
  network := valid.network
  mode := valid.mode
  storage := valid.storage
  deadline := valid.deadline
  transferCap := valid.transferCap
  sourceCharged := valid.sourceCharged
  sourceActual := valid.sourceActual
  sourceBounds := valid.sourceBounds
  sourceCap := valid.sourceCap
  metadataBounds := bounds
  metadataCap := cap
  transfers := valid.transfers
  total := by
    intro _ bound member
    rw [admission.noTotal] at member
    cases member
  gate := by
    intro _ _ bound member
    rw [admission.noInitial] at member
    cases member
  review := valid.review
  readings := valid.readings

variable {flight : List (Transfer Stamp) → Volume Member Bytes → Prop}

def Spare (amount : Int) (flight : List (Transfer Stamp) → Volume Member Bytes → Prop)
    (transport : TransportLedger Stamp) (members : Volume Member Bytes) : Prop :=
  flight transport.transfers members ∧
    transport.metadataActual + amount ≤ transport.metadataCharged

omit [LinearOrder Stamp] in
theorem checkCombined_nonnegative (transport : TransportLedger Stamp) (amount : Nat) :
    transport.checkCombined admission.policy amount = .ok () := by
  refine TransportLedger.checkCombined_ok.mpr ⟨Int.natCast_nonneg amount, ?_, ?_⟩
  · rw [admission.noTotal]
    exact fun _ bound member => absurd member (by simp)
  · rw [admission.noInitial]
    exact fun _ _ bound member => absurd member (by simp)

theorem ends_reserveMetadata (spare amount : Nat)
    (held : Held env admission hashes history (Spare spare flight) world) :
    Ends (operate env admission fun clock =>
        TransportLedger.reserveMetadata admission.policy clock amount) world
      (fun _ => Held env admission hashes history (Spare (spare + amount : Nat) flight))
      fun failure later => Excused history failure ∧
        Held env admission hashes history (Spare spare flight) later := by
  obtain ⟨state, sound, here⟩ := held
  refine ends_operate [] sound here (fun _ => id) ?_
  refine ends_mutate sound.state.valid sound.state.created (fun _ => excused_deadline)
    fun admitted => ?_
  rw [ends_bind, ends_get, ends_orRaise_bind (checkCombined_nonnegative state.transport amount)]
  by_cases spent : state.transport.observesNetwork = false ∧
      admission.policy.limits.maxMetadataBodyBytes - state.transport.metadataCharged < amount
  · rw [raiseIf, if_pos spent]
    exact (excused_plain (by simp [reasonOf, allowances])).1
  · rw [ends_raiseIf_bind spent]
    have bounds := sound.state.valid.metadataBounds
    have floor := sound.state.floor
    refine ⟨{ sound.state with valid := ?_, floor := ?_ }, here.1, ?_⟩
    · refine metadata_valid sound.state.valid (by omega) fun observes => ?_
      simp only [not_and, not_lt] at spent
      have room := spent observes
      omega
    · dsimp only [History.blame]
      omega
    · have left := here.2
      dsimp only
      omega

theorem ends_chargeMetadataActual (spare amount : Nat) (fits : amount ≤ spare)
    (held : Held env admission hashes history (Spare spare flight) world) :
    Ends (operate env admission fun clock =>
        TransportLedger.chargeMetadataActual admission.policy clock amount) world
      (fun _ => Held env admission hashes history (Spare (spare - amount : Nat) flight))
      fun failure later => Excused history failure ∧
        Held env admission hashes history (Spare spare flight) later := by
  obtain ⟨state, sound, here⟩ := held
  refine ends_operate [] sound here (fun _ => id) ?_
  refine ends_mutate sound.state.valid sound.state.created (fun _ => excused_deadline)
    fun admitted => ?_
  have left := here.2
  have bounds := sound.state.valid.metadataBounds
  rw [ends_bind, ends_modify, ends_bind, ends_get]
  have room : ¬ state.transport.metadataCharged < state.transport.metadataActual + amount := by
    omega
  unfold raiseIf
  rw [if_neg room, ends_pure]
  refine ⟨{ sound.state with valid := ?_ }, here.1, ?_⟩
  · exact metadata_valid sound.state.valid (by omega) sound.state.valid.metadataCap
  · dsimp only
    omega

def ExcusedFor (admission : Admission Stamp) (hashes : Hashes) (history : History) (row : Row)
    (failure : Failure) : Prop :=
  ∀ reason ∈ failure.reason, Plain history reason ∨
    (reason = .terminal ∧
      TransportLedger.transferKey admission.repoId row.path ∈ history.blamed) ∨
    (reason = .content ∧ ∃ other ∈ history.asked, other ≠ row ∧
      hashes.digest other = hashes.digest row)

omit [LinearOrder Stamp] in
theorem Excused.forRow {failure : Failure} (excused : Excused history failure) (row : Row) :
    ExcusedFor admission hashes history row failure :=
  fun reason member => .inl (excused reason member)

def Reserved (admission : Admission Stamp) (row : Row) (index received : Nat)
    (transfers : List (Transfer Stamp)) : Prop :=
  ∃ item, transfers[index]? = some item ∧
    item.key = TransportLedger.transferKey admission.repoId row.path ∧ item.status = .started ∧
    item.reserved = row.size ∧ item.actual = (received : Int)

omit [LinearOrder Stamp] in
theorem checkTransfer_refuses {transport : TransportLedger Stamp} {key : Text} {size : Int}
    {failure : TransportFailure} (combined : transport.checkCombined admission.policy size = .ok ())
    (refused : transport.checkTransfer admission.policy key size true = .error failure) :
    ∃ message, failure = .refused message ∧ (reasonOf message = .allowance ∨
      (reasonOf message = .terminal ∧
        ∃ item ∈ transport.prior key, TransportLedger.terminal true item = true)) := by
  unfold TransportLedger.checkTransfer at refused
  rw [combined] at refused
  change (refuseIf _ _ >>= _) = _ at refused
  by_cases terminal : (transport.prior key).any (TransportLedger.terminal true) = true
  · rw [refuseIf_raises terminal] at refused
    cases refused
    exact ⟨_, rfl, .inr ⟨by simp [reasonOf, allowances], List.any_eq_true.mp terminal⟩⟩
  rw [refuseIf_bind terminal] at refused
  by_cases retries : transport.observesNetwork = false ∧
      admission.policy.limits.maxRetriesPerShard < (transport.prior key).length
  · rw [refuseIf_raises retries] at refused
    cases refused
    exact ⟨_, rfl, .inl (by simp [reasonOf, allowances])⟩
  rw [refuseIf_bind retries] at refused
  by_cases count : transport.observesNetwork = false ∧
      admission.policy.limits.maxTransfers ≤ transport.transfers.length
  · rw [refuseIf_raises count] at refused
    cases refused
    exact ⟨_, rfl, .inl (by simp [reasonOf, allowances])⟩
  rw [refuseIf_bind count, refuseIf] at refused
  split at refused
  next spent =>
    cases refused
    exact ⟨_, rfl, .inl (by simp [reasonOf, allowances])⟩
  next => cases refused

omit [LinearOrder Stamp] in
theorem interruptKey_status (key : Text) (item : Transfer Stamp) :
    (interruptKey key item = item) ∨ (interruptKey key item).status = .interrupted := by
  unfold interruptKey TransportLedger.interrupt
  split_ifs
  · exact .inr rfl
  · exact .inl rfl
  · exact .inl rfl

theorem reserve_sound {tick : Nat} {clock : Clock Stamp} {row : Row}
    (sound : LedgerSound env admission history tick state)
    (checked : state.transport.checkTransfer admission.policy
      (TransportLedger.transferKey admission.repoId row.path) row.size true = .ok ()) :
    LedgerSound env admission history tick
      { state with
        transport := state.transport.reserve clock
          (TransportLedger.transferKey admission.repoId row.path) row.size } := by
  have settled : ∀ item ∈ (state.transport.reserve clock
      (TransportLedger.transferKey admission.repoId row.path) row.size).transfers,
      item.status = .failed ∨ item.status = .complete → item ∈ state.transport.transfers := by
    intro item member ended
    rcases List.mem_append.mp member with old | new
    · obtain ⟨earlier, known, rfl⟩ := List.mem_map.mp old
      rcases interruptKey_status (TransportLedger.transferKey admission.repoId row.path) earlier
        with same | interrupted
      · rw [interruptKey] at same
        rw [same]
        exact known
      · rw [interruptKey] at interrupted
        rw [interrupted] at ended
        cases ended <;> contradiction
    · rw [List.mem_singleton.mp new] at ended
      cases ended <;> contradiction
  have floor := sound.floor
  refine { sound with
    valid := reserve_valid sound.valid checked, floor := ?_, failed := ?_, completed := ?_ }
  · dsimp only [TransportLedger.reserve]
    omega
  · exact fun item member failed => sound.failed item (settled item member (.inl failed)) failed
  · exact fun item member complete =>
      sound.completed item (settled item member (.inr complete)) complete

theorem ends_reserveTransfer (row : Row)
    (held : Held env admission hashes history holds world) :
    Ends (reserveTransfer env admission row) world
      (fun index => Held env admission hashes history fun transport members =>
        members = world.members ∧ Reserved admission row index 0 transport.transfers)
      fun failure later => ExcusedFor admission hashes history row failure ∧
        Held env admission hashes history holds later := by
  obtain ⟨state, sound, here⟩ := held
  refine ends_operate [] sound here (fun _ excused => excused.forRow row) ?_
  refine ends_mutate sound.state.valid sound.state.created
    (fun _ => excused_deadline.forRow row) fun admitted => ?_
  rw [ends_bind, ends_get, ends_bind]
  cases checked : state.transport.checkTransfer admission.policy
      (TransportLedger.transferKey admission.repoId row.path) row.size true with
  | error failure =>
    obtain ⟨message, rfl, reason⟩ := checkTransfer_refuses
      (checkCombined_nonnegative state.transport row.size) checked
    intro found same
    cases same
    rcases reason with allowance | ⟨terminal, item, prior, ended⟩
    · exact .inl (.inl (by rw [allowance]; simp))
    · refine .inr (.inl ⟨terminal, ?_⟩)
      obtain ⟨known, keyed⟩ := List.mem_filter.mp prior
      rw [← of_decide_eq_true keyed]
      refine sound.state.failed item known ?_
      unfold TransportLedger.terminal at ended
      by_contra other
      have complete : item.status = .complete := by
        simp only [other, decide_false, Bool.false_or, Bool.and_eq_true, decide_eq_true_eq]
          at ended
        exact ended.1
      have verified := sound.state.completed item known complete
      simp [complete, verified] at ended
  | ok passed =>
    refine ⟨reserve_sound sound.state checked, rfl, ?_⟩
    have last : (state.transport.reserve (instant env world.tick)
        (TransportLedger.transferKey admission.repoId row.path) row.size).transfers.getLast? =
        some _ := List.getLast?_concat
    rw [List.getLast?_eq_getElem?] at last
    exact ⟨_, last, rfl, rfl, rfl, rfl⟩

omit [LinearOrder Stamp] in
theorem ends_transferAt {transport : TransportLedger Stamp} {index : Nat} {item : Transfer Stamp}
    {good : Nat × Transfer Stamp → TransportLedger Stamp → Prop}
    {bad : TransportFailure → TransportLedger Stamp → Prop}
    (found : transport.transfers[index]? = some item) :
    Ends (TransportLedger.transferAt (index : Int)) transport good bad ↔
      good (index, item) transport := by
  have within := (List.getElem?_eq_some_iff.mp found).1
  have placed : TransportLedger.position transport.transfers.length index = some index := by
    have forward : ¬ (index : Int) < 0 := by omega
    unfold TransportLedger.position
    dsimp only
    rw [if_neg forward, if_pos (by omega), Int.toNat_natCast]
  unfold TransportLedger.transferAt
  rw [ends_bind, ends_get, ends_raiseIfNone_bind placed, ends_raiseIfNone_bind found, ends_pure]

variable {resting : Volume Member Bytes → Prop} {row : Row} {index received : Nat}

theorem amend_sound {tick : Nat} {item : Transfer Stamp} {change : Transfer Stamp → Transfer Stamp}
    {transport : TransportLedger Stamp} (sound : LedgerSound env admission history tick state)
    (found : state.transport.transfers[index]? = some item)
    (valid : TransportLedger.Valid admission.policy transport)
    (created : transport.createdAt = state.transport.createdAt)
    (source : transport.sourceCharged = state.transport.sourceCharged)
    (metadata : transport.metadataCharged = state.transport.metadataCharged)
    (transfers : transport.transfers = state.transport.transfers.modify index change)
    (failed : (change item).status = .failed → (change item).key ∈ history.blamed)
    (completed : (change item).status = .complete → (change item).sha256Verified = some true) :
    LedgerSound env admission history tick { state with transport } := by
  obtain ⟨before, after, split, changed⟩ := modify_split found
  have members : ∀ other ∈ transport.transfers,
      other = change item ∨ other ∈ state.transport.transfers := by
    intro other member
    rw [transfers, changed] at member
    rw [split]
    simp only [List.mem_append, List.mem_cons] at member ⊢
    tauto
  refine { sound with
    valid := valid, created := ?_, floor := ?_, failed := ?_, completed := ?_ }
  · rw [created]
    exact sound.created
  · rw [source, metadata]
    exact sound.floor
  · intro other member ended
    rcases members other member with rfl | known
    · exact failed ended
    · exact sound.failed other known ended
  · intro other member ended
    rcases members other member with rfl | known
    · exact completed ended
    · exact sound.completed other known ended

theorem ends_chargeTransfer {amount : Nat} (room : received + amount ≤ row.size)
    (held : Held env admission hashes history (fun transport members =>
      resting members ∧ Reserved admission row index received transport.transfers) world) :
    Ends (chargeTransfer env admission index amount) world
      (fun _ => Held env admission hashes history fun transport members =>
        resting members ∧ Reserved admission row index (received + amount) transport.transfers)
      fun failure later => Excused history failure ∧
        Held env admission hashes history (fun transport members =>
          resting members ∧ Reserved admission row index received transport.transfers) later := by
  obtain ⟨state, sound, rests, item, found, keyed, started, reserved, actual⟩ := held
  refine ends_operate [] sound ⟨rests, item, found, keyed, started, reserved, actual⟩
    (fun _ => id) ?_
  refine ends_mutate sound.state.valid sound.state.created (fun _ => excused_deadline)
    fun admitted => ?_
  have fits : ¬ (item.status ≠ .started ∨ item.reserved - item.actual < amount) := by
    rw [reserved, actual]
    simp only [started, ne_eq, not_true_eq_false, false_or]
    omega
  rw [ends_bind, ends_transferAt found]
  dsimp only
  rw [ends_raiseIf_bind fits, ends_bind, ends_modify, ends_modify]
  refine ⟨amend_sound sound.state found (charge_valid sound.state.valid found (by omega))
    rfl rfl rfl rfl ?_ ?_, rests, ?_⟩
  · intro failed
    rw [TransportLedger.charge, started] at failed
    cases failed
  · intro complete
    rw [TransportLedger.charge, started] at complete
    cases complete
  · refine ⟨TransportLedger.charge (instant env world.tick) amount item, ?_, keyed, started,
      reserved, ?_⟩
    · simp only [TransportLedger.amend, List.getElem?_modify, found, if_true]
      rfl
    · simp only [TransportLedger.charge, actual]
      omega

def failing (admission : Admission Stamp) (row : Row) (success interrupted : Bool) : List Text :=
  if success || interrupted then [] else [TransportLedger.transferKey admission.repoId row.path]

theorem ends_finishTransfer {success interrupted : Bool}
    (held : Held env admission hashes history (fun transport members =>
      resting members ∧ Reserved admission row index received transport.transfers) world) :
    Ends (finishTransfer env admission index success interrupted) world
      (fun _ => Held env admission hashes
        (history.blame (failing admission row success interrupted)) fun _ => resting)
      fun failure later => Excused history failure ∧
        Held env admission hashes history (fun transport members =>
          resting members ∧ Reserved admission row index received transport.transfers) later := by
  obtain ⟨state, sound, rests, item, found, keyed, started, reserved, actual⟩ := held
  refine ends_operate (failing admission row success interrupted) sound ⟨rests, item, found, keyed, started, reserved, actual⟩
    (fun _ => id) ?_
  refine ends_mutate sound.state.valid sound.state.created (fun _ => excused_deadline)
    fun admitted => ?_
  rw [ends_bind, ends_transferAt found]
  dsimp only
  rw [ends_raiseIf_bind (by simp [started]), ends_modify]
  have grown : LedgerSound env admission
      (history.blame (failing admission row success interrupted)) world.tick state :=
    { sound.state with
      failed := fun other member ended =>
        List.mem_append_right _ (sound.state.failed other member ended) }
  refine ⟨amend_sound grown found
    (weighed_valid sound.state.valid (related_amend weighs_refl found ⟨rfl, rfl, rfl⟩)) rfl rfl rfl rfl
    ?_ ?_, rests⟩
  · intro failed
    change item.key ∈ failing admission row success interrupted ++ history.blamed
    rw [keyed]
    cases success with
    | true => cases failed
    | false =>
      cases interrupted with
      | true => cases failed
      | false => exact List.mem_cons_self
  · intro complete
    cases success with
    | true => rfl
    | false =>
      cases interrupted with
      | true => cases complete
      | false => cases complete

end

end SparseLab.Data.Acquisition
