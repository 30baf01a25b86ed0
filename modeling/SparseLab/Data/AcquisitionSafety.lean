import Mathlib.Tactic.NormNum
import SparseLab.Data.AcquisitionFiles

/-! Sequences of calls whose processes die: what they return, keep and refuse. -/

namespace SparseLab.Data.Acquisition

open Library Corpus

variable {Stamp : Type} [LinearOrder Stamp] {env : Environment Stamp}
  {admission : Admission Stamp} {hashes : Hashes} {history : History} {world : World Stamp}

section

def Spared (env : Environment Stamp) : Prop :=
  ∀ tick, env.dies .writeOwner tick = false ∧ env.dies .createTable tick = false ∧
    env.dies .insertRow tick = false

def Untouched (history : History) : Prop :=
  history.source ≤ 0 ∧ history.metadata ≤ 0 ∧ history.requests ≤ 0 ∧ history.verification ≤ 0 ∧
    history.cached = [] ∧ history.opened = false

structure Unopened (history : History) (world : World Stamp) : Prop where
  ledger : world.ledger = .absent
  members : world.members = ∅
  journal : world.journal = false
  untouched : Untouched history

def Claimed (env : Environment Stamp) (admission : Admission Stamp) (hashes : Hashes)
    (history : History) (world : World Stamp) : Prop :=
  (Unopened history world ∧ world.owner = some admission.policy.binding) ∨
    Held env admission hashes history (fun _ _ => True) world

def Standing (env : Environment Stamp) (admission : Admission Stamp) (hashes : Hashes)
    (history : History) (world : World Stamp) : Prop :=
  (Unopened history world ∧ world.owner = none) ∨ Claimed env admission hashes history world

omit [LinearOrder Stamp] in
theorem Unopened.next (unopened : Unopened history world) : Unopened history world.next :=
  ⟨unopened.ledger, unopened.members, unopened.journal, unopened.untouched⟩

theorem Claimed.next (claimed : Claimed env admission hashes history world) :
    Claimed env admission hashes history world.next :=
  claimed.imp (fun unopened => ⟨unopened.1.next, unopened.2⟩) Held.next

theorem ends_spared {site : Site} {good : Nat → World Stamp → Prop}
    {bad : Failure → World Stamp → Prop} (spared : env.dies site world.tick = false) :
    Ends (step env site) world good bad ↔ good world.tick world.next := by
  unfold Library.Ends step
  rw [spared]
  rfl

theorem ends_claimCache (spared : Spared env) (unopened : Unopened history world)
    (free : world.owner = none) :
    Ends (claimCache env admission) world (fun _ => Claimed env admission hashes history)
      fun failure later => Excused history failure ∧
        Standing env admission hashes history later := by
  have empty : ¬ world.members.keys ≠ [] := by
    rw [unopened.members]
    exact not_not.mpr rfl
  unfold claimCache
  rw [ends_bind, ends_get, ends_raiseIf_bind empty, ends_bind]
  refine ends_step ⟨excused_died history, .inl ⟨unopened.next, free⟩⟩ ?_
  rw [ends_bind, ends_modify, ends_bind, ends_spared (spared _).1, ends_bind, ends_modify]
  have claimed : Claimed env admission hashes history
      { world.next.next with owner := some admission.policy.binding } :=
    .inl ⟨⟨unopened.ledger, unopened.members, unopened.journal, unopened.untouched⟩, rfl⟩
  rw [ends_bind]
  exact ends_step ⟨excused_died history, .inr claimed.next⟩ claimed.next

theorem ends_checkOwner (spared : Spared env)
    (standing : Standing env admission hashes history world) :
    Ends (checkOwner env admission) world (fun _ => Claimed env admission hashes history)
      fun failure later => Excused history failure ∧
        Standing env admission hashes history later := by
  unfold checkOwner
  rw [ends_bind, ends_get]
  rcases standing with ⟨unopened, free⟩ | claimed
  · rw [free]
    exact ends_claimCache spared unopened free
  · have owned : world.owner = some admission.policy.binding := by
      rcases claimed with ⟨-, owned⟩ | ⟨_, sound, -⟩
      · exact owned
      · exact sound.owner
    rw [owned]
    dsimp only
    rw [raiseIf, if_neg (not_not.mpr rfl)]
    exact claimed

theorem initial_sound {tick : Nat} (untouched : Untouched history) :
    LedgerSound env admission history (tick + 1)
      { transport := initialLedger admission.policy (env.clock tick) } where
  valid := initialLedger_valid admission.policy (env.clock tick)
  created := env.forward tick (tick + 1) (Nat.le_succ tick)
  requests := ⟨Int.le_refl 0, Int.le_of_lt admission.positive.1⟩
  verification := ⟨Int.le_refl 0, Int.le_of_lt admission.positive.2.2⟩
  rows := ⟨rfl, rfl⟩
  hits := ⟨Int.le_refl 0, Int.natCast_nonneg _⟩
  peaks := ⟨⟨Int.le_refl 0, by norm_num⟩, Int.le_refl 0, by norm_num⟩
  floor := ⟨untouched.1, untouched.2.1, untouched.2.2.1, untouched.2.2.2.1⟩
  failed := List.forall_mem_nil _
  completed := List.forall_mem_nil _

theorem ends_createLedger (spared : Spared env) (unopened : Unopened history world)
    (owned : world.owner = some admission.policy.binding) :
    Ends (createLedger env admission) world
      (fun _ => Held env admission hashes history fun _ _ => True)
      fun failure later => Excused history failure ∧
        Standing env admission hashes history later := by
  have fresh : ¬ (world.members.keys ≠ [] ∨ world.journal = true) := by
    rw [unopened.members, unopened.journal]
    simp [AList.keys_empty]
  unfold createLedger
  rw [ends_bind, ends_get, ends_raiseIf_bind fresh, ends_bind]
  refine ends_step ⟨excused_died history, .inr (.inl ⟨unopened.next, owned⟩)⟩ ?_
  rw [ends_bind, ends_modify, ends_bind, ends_spared (spared _).2.1, ends_bind, ends_modify,
    ends_bind, ends_spared (spared _).2.2, ends_modify]
  refine ⟨_, ⟨rfl, owned, initial_sound unopened.untouched, ?_, ?_⟩, trivial⟩
  · intro key content found
    have absent : world.members.read ⟨key, .bin⟩ = some content := found
    rw [unopened.members] at absent
    cases absent
  · intro entry member
    rw [unopened.untouched.2.2.2.2.1] at member
    cases member

theorem ends_checkLedger (spared : Spared env)
    (claimed : Claimed env admission hashes history world) :
    Ends (checkLedger env admission) world
      (fun _ => Held env admission hashes history fun _ _ => True)
      fun failure later => Excused history failure ∧
        Standing env admission hashes history later := by
  unfold checkLedger
  rw [ends_bind, ends_get]
  rcases claimed with ⟨unopened, owned⟩ | held
  · rw [unopened.ledger]
    exact ends_createLedger spared unopened owned
  · have kept := held
    obtain ⟨state, sound, -⟩ := held
    rw [sound.ledger]
    exact kept

theorem ends_initializeTransport (spared : Spared env)
    (standing : Standing env admission hashes history world) :
    Ends (initializeTransport env admission) world
      (fun _ => Held env admission hashes history fun _ _ => True)
      fun failure later => Excused history failure ∧
        Standing env admission hashes history later := by
  have rooted : Standing env admission hashes history { world with root := true } := by
    rcases standing with ⟨unopened, free⟩ | ⟨unopened, owned⟩ | ⟨state, sound, -⟩
    · exact .inl ⟨⟨unopened.ledger, unopened.members, unopened.journal, unopened.untouched⟩, free⟩
    · exact .inr (.inl ⟨⟨unopened.ledger, unopened.members, unopened.journal,
        unopened.untouched⟩, owned⟩)
    · exact .inr (.inr ⟨state, ⟨sound.ledger, sound.owner, sound.state, sound.published,
        sound.cached⟩, trivial⟩)
  unfold initializeTransport
  rw [ends_bind, ends_modify, ends_bind]
  refine (ends_checkOwner spared rooted).mono (fun _ owned claimed => ?_) fun _ _ => id
  rw [ends_bind]
  refine (ends_checkLedger spared claimed).mono (fun _ opened held => ?_) fun _ _ => id
  exact (keeps_readLedger.bind fun _ => keeps_observe) opened held |>.mono (fun _ _ => id)
    fun _ _ ends => ⟨ends.1, .inr (.inr ends.2)⟩

end

section

def History.note (admission : Admission Stamp) (history : History) (report : Report) : History :=
  match report.call with
  | .initializeTransport => history
  | .file row =>
    match report.result with
    | .ok _ => history.ask row
    | .error failure => (history.ask row).blame (Acquisition.blamed admission row failure)

def History.notes (admission : Admission Stamp) (history : History) (reports : List Report) :
    History :=
  reports.foldl (History.note admission) history

def Answers (admission : Admission Stamp) (hashes : Hashes) (history : History) (report : Report)
    (later : World Stamp) : Prop :=
  match report.call, report.result with
  | .initializeTransport, .ok _ => True
  | .initializeTransport, .error failure => Excused history failure
  | .file row, .error failure => ExcusedFor admission hashes (history.ask row) row failure
  | .file row, .ok found => found = some (hashes.digest row) ∧
      Published hashes row (hashes.digest row) later.members

theorem ends_report {call : Call} {good : Option HexDigest → World Stamp → Prop}
      {bad : Failure → World Stamp → Prop} (holds : Report → World Stamp → Prop)
    (ends : Ends (call.perform env admission hashes) world good bad)
    (returned : ∀ value later, good value later → holds ⟨call, .ok value⟩ later)
    (refused : ∀ failure later, bad failure later → holds ⟨call, .error failure⟩ later) :
    holds (Report.of call (call.perform env admission hashes world)).1
      (Report.of call (call.perform env admission hashes world)).2 := by
  unfold Library.Ends at ends
  cases ended : call.perform env admission hashes world with
  | ok value later =>
    rw [ended] at ends
    exact returned value later ends
  | error failure later =>
    rw [ended] at ends
    exact refused failure later ends

theorem call_stands (spared : Spared env) {call : Call}
    (standing : Standing env admission hashes history world)
    (ready : ∀ row, call = .file row → ∃ state, world.ledger = .row state) :
    let done := Report.of call (call.perform env admission hashes world)
    Standing env admission hashes (history.note admission done.1) done.2 ∧
      Answers admission hashes history done.1 done.2 := by
  cases call with
  | initializeTransport =>
    have ends : Ends (Call.initializeTransport.perform env admission hashes) world
        (fun _ => Held env admission hashes history fun _ _ => True)
        fun failure later => Excused history failure ∧
          Standing env admission hashes history later := by
      unfold Call.perform
      rw [ends_bind]
      exact (ends_initializeTransport spared standing).mono (fun _ _ => id) fun _ _ => id
    exact ends_report (fun report later =>
      Standing env admission hashes (history.note admission report) later ∧
        Answers admission hashes history report later) ends
      (fun _ _ held => ⟨.inr (.inr held), trivial⟩) fun _ _ refused => ⟨refused.2, refused.1⟩
  | file row =>
    obtain ⟨state, opened⟩ := ready row rfl
    have held : Held env admission hashes history (fun _ _ => True) world := by
      rcases standing with ⟨unopened, -⟩ | ⟨unopened, -⟩ | held
      · rw [unopened.ledger] at opened
        cases opened
      · rw [unopened.ledger] at opened
        cases opened
      · exact held
    have ends : Ends ((Call.file row).perform env admission hashes) world
        (fun found later => found = some (hashes.digest row) ∧
          Held env admission hashes (history.ask row)
            (fun _ => Published hashes row (hashes.digest row)) later)
        (Ended env admission hashes (history.ask row) row) := by
      unfold Call.perform
      rw [ends_bind]
      refine (ends_file row held).mono (fun key later found => ?_) fun _ _ => id
      obtain ⟨rfl, found⟩ := found
      exact ⟨rfl, found⟩
    refine ends_report (fun report later =>
      Standing env admission hashes (history.note admission report) later ∧
        Answers admission hashes history report later) ends
      (fun value later found => ?_) fun _ _ refused => ⟨.inr (.inr refused.2), refused.1⟩
    obtain ⟨rfl, state, sound, published⟩ := found
    exact ⟨.inr (.inr ⟨state, sound, trivial⟩), rfl, published⟩

variable (env admission hashes) in
def Orderly (world : World Stamp) : List Call → Prop
  | [] => True
  | call :: calls =>
    (∀ row, call = .file row → ∃ state, world.ledger = .row state) ∧
      Orderly (Report.of call (call.perform env admission hashes world)).2 calls

theorem orderly_append {before after : List Call} :
    Orderly env admission hashes world (before ++ after) ↔
      Orderly env admission hashes world before ∧
        Orderly env admission hashes (runCalls env admission hashes world before).2 after := by
  induction before generalizing world with
  | nil => exact ⟨fun orderly => ⟨trivial, orderly⟩, And.right⟩
  | cons call before ih =>
    rw [List.cons_append, Orderly, Orderly, ih, and_assoc]
    rfl

theorem run_stands (spared : Spared env) (calls : List Call) :
    ∀ {history : History} {world : World Stamp}, Standing env admission hashes history world →
    Orderly env admission hashes world calls →
    Standing env admission hashes
      (history.notes admission (runCalls env admission hashes world calls).1)
      (runCalls env admission hashes world calls).2 := by
  induction calls with
  | nil => exact fun standing _ => standing
  | cons call calls ih =>
    intro history world standing orderly
    exact ih (call_stands spared standing orderly.1).1 orderly.2

omit [LinearOrder Stamp] in
theorem notes_floor (admission : Admission Stamp) (history : History) (reports : List Report) : ∃ asked blamed,
    history.notes admission reports = { history with asked, blamed } := by
  induction reports generalizing history with
  | nil => exact ⟨history.asked, history.blamed, rfl⟩
  | cons report reports ih =>
    obtain ⟨asked, blamed, same⟩ := ih (history.note admission report)
    refine ⟨asked, blamed, same.trans ?_⟩
    unfold History.note
    split
    · rfl
    · split <;> rfl

omit [LinearOrder Stamp] in
theorem notes_asked {history : History} {reports : List Report} :
    (history.notes admission reports).asked.length ≤ history.asked.length + reports.length ∧
      ∀ row ∈ (history.notes admission reports).asked,
        row ∈ history.asked ∨ ∃ report ∈ reports, report.call = .file row := by
  induction reports generalizing history with
  | nil => exact ⟨Nat.le_refl _, fun row member => .inl member⟩
  | cons report reports ih =>
    obtain ⟨fewer, known⟩ := @ih (history.note admission report)
    have noted : (history.note admission report).asked = history.asked ∨
        ∃ row, report.call = .file row ∧
          (history.note admission report).asked = row :: history.asked := by
      unfold History.note
      split
      · exact .inl rfl
      next row stated => split <;> exact .inr ⟨row, stated, rfl⟩
    constructor
    · change ((history.note admission report).notes admission reports).asked.length ≤ _
      rw [List.length_cons]
      rcases noted with same | ⟨row, -, same⟩
      · rw [same] at fewer
        omega
      · rw [same, List.length_cons] at fewer
        omega
    · intro row member
      rcases known row member with old | ⟨later, there, stated⟩
      · rcases noted with same | ⟨other, stated, same⟩
        · rw [same] at old
          exact .inl old
        · rw [same] at old
          rcases List.mem_cons.mp old with rfl | old
          · exact .inr ⟨report, List.mem_cons_self, stated⟩
          · exact .inl old
      · exact .inr ⟨later, List.mem_cons_of_mem _ there, stated⟩

def RefusedAt (path : Text) (report : Report) : Prop :=
  ∃ row reason message, report.call = .file row ∧ row.path = path ∧
    report.result = .error (.value reason message) ∧ reason ≠ .terminal

omit [LinearOrder Stamp] in
theorem notes_blamed {history : History} {reports : List Report} {path : Text}
    (member : TransportLedger.transferKey admission.repoId path ∈
      (history.notes admission reports).blamed) :
    TransportLedger.transferKey admission.repoId path ∈ history.blamed ∨
      ∃ report ∈ reports, RefusedAt path report := by
  induction reports generalizing history with
  | nil => exact .inl member
  | cons report reports ih =>
    rcases ih member with old | ⟨later, there, refused⟩
    case inr => exact .inr ⟨later, List.mem_cons_of_mem _ there, refused⟩
    unfold History.note at old
    split at old
    next => exact .inl old
    next row stated =>
      split at old
      next => exact .inl old
      next failure ended =>
        rcases List.mem_append.mp old with new | old
        case inr => exact .inl old
        refine .inr ⟨report, List.mem_cons_self, row, ?_⟩
        unfold Acquisition.blamed at new
        split at new
        next => cases new
        next reason message other =>
          have same := List.mem_singleton.mp new
          refine ⟨reason, message, stated, ?_, ended, other⟩
          exact (List.append_cancel_left same).symm
        next => cases new

end

section

variable (admission hashes) in
structure WithinCaps (state : AcquisitionLedger Stamp) : Prop where
  source : 0 ≤ state.transport.sourceCharged ∧
    state.transport.sourceCharged ≤ admission.policy.limits.maxSourceBodyBytes
  metadata : 0 ≤ state.transport.metadataCharged ∧
    state.transport.metadataCharged ≤ admission.policy.limits.maxMetadataBodyBytes
  requests : 0 ≤ state.requests ∧ state.requests ≤ admission.maxRequests
  verification : 0 ≤ state.verificationBytes ∧
    state.verificationBytes ≤ admission.maxVerificationBytes

structure Continues (earlier later : World Stamp) : Prop where
  charges : ∀ state, earlier.ledger = .row state → ∃ state', later.ledger = .row state' ∧
    state.transport.sourceCharged ≤ state'.transport.sourceCharged ∧
    state.transport.metadataCharged ≤ state'.transport.metadataCharged ∧
    state.requests ≤ state'.requests ∧ state.verificationBytes ≤ state'.verificationBytes
  files : ∀ key content, earlier.members.read ⟨key, .bin⟩ = some content →
    later.members.read ⟨key, .bin⟩ = some content

def Refusal (hashes : Hashes) (earlier : List Report) (call : Call) (failure : Failure) : Prop :=
  ∀ reason ∈ failure.reason,
    reason ∈ [.allowance, .deadline, .cancelled, .answer] ∨
    (reason = .hits ∧ 2 ^ 63 ≤ earlier.length + 1) ∨
    ∃ row, call = .file row ∧
      ((reason = .terminal ∧ ∃ report ∈ earlier, RefusedAt row.path report) ∨
        (reason = .content ∧ ∃ report ∈ earlier, ∃ other, report.call = .file other ∧
          other ≠ row ∧ hashes.digest other = hashes.digest row))

theorem Sound.withinCaps {state : AcquisitionLedger Stamp}
    (sound : Sound env admission hashes history world state) : WithinCaps admission state := by
  have valid := sound.state.valid
  have enforced : state.transport.observesNetwork = false := by
    have network := valid.network
    unfold TransportLedger.validNetwork at network
    unfold TransportLedger.observesNetwork
    split at network
    next mode _ => rw [mode]; rfl
    next =>
      rw [admission.derived] at network
      simp at network
    next => cases network
  have source := valid.sourceBounds
  have metadata := valid.metadataBounds
  exact ⟨⟨by omega, valid.sourceCap enforced⟩, ⟨by omega, valid.metadataCap enforced⟩,
    sound.state.requests, sound.state.verification⟩

theorem Standing.held {state : AcquisitionLedger Stamp}
    (standing : Standing env admission hashes history world) (opened : world.ledger = .row state) :
    Sound env admission hashes history world state := by
  rcases standing with ⟨unopened, -⟩ | ⟨unopened, -⟩ | ⟨found, sound, -⟩
  · rw [unopened.ledger] at opened
    cases opened
  · rw [unopened.ledger] at opened
    cases opened
  · rw [sound.ledger] at opened
    rw [← LedgerFile.row.inj opened]
    exact sound

def History.raise (history : History) (state : AcquisitionLedger Stamp)
    (cached : List (HexDigest × Bytes)) : History :=
  { history with
    source := state.transport.sourceCharged
    metadata := state.transport.metadataCharged
    requests := state.requests
    verification := state.verificationBytes
    cached := cached
    opened := true }

theorem Sound.raise {state : AcquisitionLedger Stamp} {cached : List (HexDigest × Bytes)}
    (sound : Sound env admission hashes history world state)
    (present : ∀ entry ∈ cached, world.members.read ⟨entry.1, .bin⟩ = some entry.2) :
    Sound env admission hashes (history.raise state cached) world state :=
  { sound with
    state := { sound.state with
      floor := ⟨Int.le_refl _, Int.le_refl _, Int.le_refl _, Int.le_refl _⟩ }
    cached := present }

theorem run_raises (spared : Spared env) {calls : List Call} {state : AcquisitionLedger Stamp}
    (cached : List (HexDigest × Bytes)) (sound : Sound env admission hashes history world state)
    (present : ∀ entry ∈ cached, world.members.read ⟨entry.1, .bin⟩ = some entry.2)
    (orderly : Orderly env admission hashes world calls) :
    ∃ asked blamed state', Sound env admission hashes
      { history.raise state cached with asked, blamed }
      (runCalls env admission hashes world calls).2 state' := by
  have stands := run_stands spared calls (.inr (.inr ⟨state, sound.raise present, trivial⟩)) orderly
  obtain ⟨asked, blamed, same⟩ := notes_floor admission (history.raise state cached)
    (runCalls env admission hashes world calls).1
  rw [same] at stands
  rcases stands with ⟨unopened, -⟩ | ⟨unopened, -⟩ | ⟨state', sound', -⟩
  · cases unopened.untouched.2.2.2.2.2
  · cases unopened.untouched.2.2.2.2.2
  · exact ⟨asked, blamed, state', sound'⟩

theorem run_continues (spared : Spared env) {calls : List Call}
    (standing : Standing env admission hashes history world)
    (orderly : Orderly env admission hashes world calls) :
    Continues world (runCalls env admission hashes world calls).2 where
  charges := by
    intro state opened
    obtain ⟨asked, blamed, state', sound⟩ := run_raises spared [] (standing.held opened)
      (List.forall_mem_nil _) orderly
    exact ⟨state', sound.ledger, sound.state.floor⟩
  files := by
    intro key content found
    rcases standing with ⟨unopened, -⟩ | ⟨unopened, -⟩ | ⟨state, sound, -⟩
    · rw [unopened.members] at found
      cases found
    · rw [unopened.members] at found
      cases found
    · obtain ⟨asked, blamed, state', kept⟩ := run_raises spared [(key, content)] sound
        (by simpa using found) orderly
      exact kept.cached (key, content) List.mem_cons_self

theorem standing_start : Standing env admission hashes {} ({} : World Stamp) :=
  .inl ⟨⟨rfl, rfl, rfl, by simp [Untouched]⟩, rfl⟩

omit [LinearOrder Stamp] in
theorem answers_refusal (admission : Admission Stamp) {earlier : List Report} {call : Call} {failure : Failure}
    {later : World Stamp}
    (answers : Answers admission hashes (History.notes admission {} earlier)
      ⟨call, .error failure⟩ later) : Refusal hashes earlier call failure := by
  obtain ⟨fewer, known⟩ := @notes_asked Stamp admission {} earlier
  rw [List.length_nil, Nat.zero_add] at fewer
  intro reason member
  cases call with
  | initializeTransport =>
    rcases answers reason member with plain | ⟨hits, many⟩
    · exact .inl plain
    · exact .inr (.inl ⟨hits, by omega⟩)
  | file row =>
    rcases answers reason member with (plain | ⟨hits, many⟩) | terminal | content
    · exact .inl plain
    · refine .inr (.inl ⟨hits, ?_⟩)
      simp only [History.ask, List.length_cons] at many
      omega
    · refine .inr (.inr ⟨row, rfl, .inl ⟨terminal.1, ?_⟩⟩)
      rcases notes_blamed terminal.2 with none | found
      · cases none
      · exact found
    · obtain ⟨reason, other, asked, different, same⟩ := content
      refine .inr (.inr ⟨row, rfl, .inr ⟨reason, ?_⟩⟩)
      rcases List.mem_cons.mp asked with rfl | old
      · exact absurd rfl different
      · rcases known other old with none | ⟨report, there, stated⟩
        · cases none
        · exact ⟨report, there, other, stated, different, same⟩

/-- Wherever processes die but between the creation of the two files and their first content, every
call of a run from nothing returns pinned content, keeps to the caps, refunds and replaces nothing
and refuses only for what no death has caused. -/
theorem acquisition_crash_safe (spared : Spared env) (before after : List Call) (call : Call)
    (orderly : Orderly env admission hashes {} (before ++ call :: after)) :
    let reached := runCalls env admission hashes {} before
    let done := Report.of call (call.perform env admission hashes reached.2)
    let last := (runCalls env admission hashes done.2 after).2
    (∀ state, last.ledger = .row state → WithinCaps admission state) ∧
      Continues reached.2 last ∧ Continues done.2 last ∧
      (∀ row found, call = .file row → done.1.result = .ok found →
        found = some (hashes.digest row) ∧
          Published hashes row (hashes.digest row) done.2.members) ∧
      ∀ failure, done.1.result = .error failure → Refusal hashes reached.1 call failure := by
  intro reached done last
  obtain ⟨first, orderly⟩ := orderly_append.mp orderly
  have standing := run_stands spared before standing_start first
  obtain ⟨stands, answers⟩ := call_stands spared standing orderly.1
  have stated : done.1.call = call := by
    change (Report.of call _).1.call = call
    cases call.perform env admission hashes reached.2 <;> rfl
  refine ⟨fun state opened => ?_, run_continues spared standing orderly,
    run_continues spared stands orderly.2, ?_, ?_⟩
  · exact ((run_stands spared after stands orderly.2).held opened).withinCaps
  · rintro row found rfl returned
    unfold Answers at answers
    rw [show done.1.call = .file row from stated, returned] at answers
    exact answers
  · intro failure refused
    have same : done.1 = ⟨call, .error failure⟩ := by
      rw [← stated, ← refused]
    have answers : Answers admission hashes (History.notes admission {} reached.1) done.1 done.2 :=
      answers
    rw [same] at answers
    exact answers_refusal admission answers

end

section

def LedgerFile.hasRow : LedgerFile Stamp → Bool
  | .row _ => true
  | _ => false

omit [LinearOrder Stamp] in
theorem exists_row {ledger : LedgerFile Stamp} (holds : ledger.hasRow = true) :
    ∃ state, ledger = .row state := by
  cases ledger with
  | row state => exact ⟨state, rfl⟩
  | _ => cases holds

def zeros : HexDigest := ⟨List.replicate 64 0x30, by decide, by decide⟩

def smallAdmission : Admission Nat where
  policy := {
    binding := text "binding"
    limits := ⟨10, 10, none, none, 1, 5, by decide, by decide, by decide, Int.one_nonneg⟩
    maxDiskBytes := 0
    expires := fun now => now + 1000
    totalBodyLimit := none
    totalPositive := fun _ member => absurd member (by simp)
    initialBodyLimit := none
    initialPositive := fun _ member => absurd member (by simp)
    corpusLedger := false
    boundedStorage := false
    bodyLength := fun _ => 0 }
  maxRequests := 5
  maxScannedRows := 5
  maxVerificationBytes := 20
  maxCacheBytes := 10
  maxCacheFiles := 2
  maxObservedOwnedBytes := 100
  maxObservedOwnedInodes := 100
  repoId := text "repo"
  noTotal := rfl
  noInitial := rfl
  derived := rfl
  unbounded := rfl
  positive := by decide

def plainHashes : Hashes where
  sha256 := fun content => content.map UInt8.toNat
  sha1 := fun content => content.map UInt8.toNat
  digest := fun _ => zeros

def smallRow : Row := ⟨text "part.parquet", 2, some [7, 8], [], by decide⟩

def smallEnvironment (dies : Site → Nat → Bool) : Environment Nat where
  dies := dies
  clock := id
  forward := fun _ _ => id
  owned := fun _ => (0, 0)
  ownedBounds := fun _ => by decide
  cancelled := fun _ => false
  answer := fun _ => .replied ⟨true, 200, false, .bytes 2, [[7], [8]], false, none⟩

def results (dies : Site → Nat → Bool) (calls : List Call) :
    List (Except Failure (Option HexDigest)) :=
  (runCalls (smallEnvironment dies) smallAdmission plainHashes {} calls).1.map Report.result

def unpublished (site : Site) (tick : Nat) : Bool := site = .rename && tick < 60

theorem acquisition_crash_safe_publication :
    results unpublished [.initializeTransport, .file smallRow, .file smallRow] =
        [.ok none, .error .died, .ok (some zeros)] ∧
      Published plainHashes smallRow zeros
        (Report.of (.file smallRow) ((Call.file smallRow).perform (smallEnvironment unpublished)
          smallAdmission plainHashes (runCalls (smallEnvironment unpublished) smallAdmission
            plainHashes {} [.initializeTransport, .file smallRow]).2)).2.members := by
  have orderly : Orderly (smallEnvironment unpublished) smallAdmission plainHashes {}
      ([.initializeTransport, .file smallRow] ++ .file smallRow :: []) := by
    refine ⟨fun row stated => ?_, fun _ _ => exists_row ?_, fun _ _ => exists_row ?_, trivial⟩
    · cases stated
    · decide +kernel
    · decide +kernel
  have returned := (acquisition_crash_safe (fun _ => ⟨rfl, rfl, rfl⟩)
    [.initializeTransport, .file smallRow] [] (.file smallRow) orderly).2.2.2.1 smallRow
      (some zeros) rfl (by decide +kernel)
  exact ⟨by decide +kernel, returned.2⟩

theorem unfinished_files_refuse :
    results (fun site _ => site = .writeOwner) [.initializeTransport, .initializeTransport] =
        [.error .died, .error (.value .foreign "cache belongs to another acquisition admission")] ∧
      results (fun site _ => site = .createTable) [.initializeTransport, .initializeTransport] =
        [.error .died, .error (.value .foreign "transport budget ledger is invalid")] ∧
      results (fun site _ => site = .insertRow) [.initializeTransport, .initializeTransport] =
        [.error .died, .error (.value .foreign "transport budget ledger is incomplete")] := by
  decide +kernel

end

end SparseLab.Data.Acquisition
