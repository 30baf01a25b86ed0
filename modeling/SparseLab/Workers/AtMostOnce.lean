import SparseLab.Workers.Execution

/-! At most one executor of an attempt begins and trains. -/

namespace SparseLab.Workers

open Library

namespace Program

def claims : Program → Bool
  | .claimed | .checking _ | .validating | .leasing | .opening | .publishing _ _ | .materializing
  | .staging | .training | .stopped _ | .failing _ | .sealing _ _ | .reporting _ | .leaving _
  | .closing _ | .flushed => true
  | .mutating mutation _ => mutation ≠ .touch
  | _ => false

def locks : Program → Bool
  | .mutating _ .locked | .mutating _ (.loaded _) | .requested | .marking _ | .probing _
  | .closing _ | .answering _ => true
  | _ => false

def admits : Program → Bool
  | .admitted _ | .creating _ | .prepared _ | .committing _ _ | .launching _ | .returning => true
  | _ => false

def creates : Program → Bool
  | .creating _ => true
  | _ => false

/-- An executor that saw `PREPARED` under its claim and has not begun. -/
def unbegun : Program → Bool
  | .checking check => check = .first
  | .validating | .leasing | .mutating (.begin _) _ => true
  | _ => false

def starting : Program → Bool
  | .checking check => check ≠ .first
  | .publishing inTraining _ => !inTraining
  | .opening | .materializing | .staging | .mutating .training _ => true
  | _ => false

def ready : Program → Bool
  | .mutating .training _ => true
  | _ => false

def acknowledges : Program → Bool
  | .mutating (.finish ending) _ => ending.cancellation = some true
  | .probing _ | .closing _ | .answering _ => true
  | _ => false

def ends : Program → Prop
  | .mutating (.finish ending) _ => ending.state.Terminal
  | _ => True

end Program

structure Answers (stored written : AttemptReceipt) : Prop where
  active : ¬ stored.state.Terminal
  prepared : written.state = .prepared → stored.state = .prepared
  running : written.state = .running ↔ stored.state = .running
  artifacts : written.artifacts = stored.artifacts

def Knows (root : WorkerRoot) : Program → Prop
  | .mutating _ (.loaded before) => root.receipt = some before
  | .marking (some receipt) => root.receipt = some receipt ∧ ¬ receipt.state.Terminal
  | .probing receipt | .closing receipt =>
    ∃ stored, root.receipt = some stored ∧ Answers stored receipt ∧ receipt.state = .prepared
  | .answering receipt => ∃ stored, root.receipt = some stored ∧ Answers stored receipt
  | _ => True

structure Fits (root : WorkerRoot) (process : Nat) (program : Program) : Prop where
  claim : program.claims → root.claim = some process
  receiptLock : program.locks → root.receiptLock = some process
  admission : program.admits → root.admission = some process
  absent : program.creates → root.receipt = none
  knows : Knows root program
  unbegun : program.unbegun → ∀ receipt, root.receipt = some receipt → receipt.state ≠ .running
  starting : program.starting → root.began = [process] ∧ root.trained = []
  ready : program.ready → process ∈ root.passed
  marked : program.acknowledges → root.cancelMarker
  terminal : program.ends

structure Recorded (root : WorkerRoot) : Prop where
  unprepared : root.receipt = none → root.began = []
  prepared : ∀ receipt, root.receipt = some receipt → receipt.state = .prepared → root.began = []
  began : root.began.length ≤ 1
  trained : root.trained.length ≤ 1
  order : ∀ process ∈ root.trained, process ∈ root.began ∧ process ∈ root.passed
  marked : ∀ receipt, root.receipt = some receipt → receipt.cancellationAcknowledged →
    root.cancelMarker

def onceInvariant : Protocol.Invariant WorkerRoot Program where
  shared := Recorded
  fits := Fits

structure Rewrites (process : Nat) (root root' : WorkerRoot)
    (stored written : AttemptReceipt) : Prop where
  terminal : stored.state.Terminal → written = stored
  prepared : written.state = .prepared → stored.state = .prepared
  running : written.state = .running → stored.state = .running ∨ root.claim = some process
  stopped : stored.state = .running → written.state = .running ∨ root.claim = some process
  marked : written.cancellationAcknowledged → stored.cancellationAcknowledged ∨ root'.cancelMarker

structure Effect (process : Nat) (root root' : WorkerRoot) : Prop where
  admission : ∀ other, process ≠ other → root.admission = some other →
    root'.admission = some other
  receiptLock : ∀ other, process ≠ other → root.receiptLock = some other →
    root'.receiptLock = some other
  claim : ∀ other, process ≠ other → root.claim = some other → root'.claim = some other
  receipt : root'.receipt = root.receipt ∨
    (∃ now, root.admission = some process ∧ root.receipt = none ∧
      root'.receipt = some (.expected now)) ∨
    ∃ stored written, root.receiptLock = some process ∧ root.receipt = some stored ∧
      root'.receipt = some written ∧ Rewrites process root root' stored written
  marker : root.cancelMarker → root'.cancelMarker
  began : root'.began = root.began ∨
    root.began = [] ∧ root'.began = [process] ∧ root.claim = some process ∧
      ∃ written, root'.receipt = some written ∧ written.state = .running
  passed : root'.passed = root.passed ∨
    root'.passed = process :: root.passed ∧ root.cancelMarker = false
  trained : root'.trained = root.trained ∨
    root.trained = [] ∧ root'.trained = [process] ∧ root.began = [process] ∧
      process ∈ root.passed

theorem Effect.refl (process : Nat) (root : WorkerRoot) : Effect process root root := by
  constructor <;> simp

namespace Mutation

variable (mutation : Mutation) (now : Nat) (before : AttemptReceipt) {held : Held}

theorem outcome_cases : mutation.outcome now before = before ∨
    mutation.outcome now before = { mutation.apply now before with updatedAt := now } := by
  unfold outcome
  dsimp only
  split
  · exact .inl rfl
  · split
    · exact .inl rfl
    · exact .inr rfl

theorem apply_terminal (terminal : before.state.Terminal) :
    mutation.apply now before = before := by
  cases mutation <;> cases stored : before.state <;>
    simp_all [apply, ReceiptState.Terminal]

theorem outcome_terminal (terminal : before.state.Terminal) :
    mutation.outcome now before = before := by
  simp [outcome, mutation.apply_terminal now before terminal]

theorem outcome_prepared (ends : Program.ends (.mutating mutation held))
    (prepared : (mutation.outcome now before).state = .prepared) : before.state = .prepared := by
  obtain same | written := mutation.outcome_cases now before
  · rwa [same] at prepared
  · rw [written] at prepared
    cases mutation <;> simp only [apply] at prepared <;> split at prepared <;> simp_all
    next ending _ => simp [Program.ends, prepared, ReceiptState.Terminal] at ends

theorem outcome_running (ends : Program.ends (.mutating mutation held))
    (running : (mutation.outcome now before).state = .running) :
    before.state = .running ∨ mutation ≠ .touch := by
  obtain same | written := mutation.outcome_cases now before
  · rw [same] at running
    exact .inl running
  · rw [written] at running
    cases mutation <;> simp only [apply] at running <;> split at running <;> simp_all

theorem outcome_stopped (running : before.state = .running) :
    (mutation.outcome now before).state = .running ∨ mutation ≠ .touch := by
  cases mutation with
  | touch =>
    obtain same | written := touch.outcome_cases now before
    · rw [same]
      exact .inl running
    · rw [written]
      simp [apply, running]
  | _ => simp

theorem outcome_acknowledged (acknowledged :
    (mutation.outcome now before).cancellationAcknowledged = true) :
    before.cancellationAcknowledged = true ∨
      Program.acknowledges (.mutating mutation held) = true := by
  obtain same | written := mutation.outcome_cases now before
  · rw [same] at acknowledged
    exact .inl acknowledged
  · rw [written] at acknowledged
    cases mutation <;> simp only [apply] at acknowledged <;> split at acknowledged <;>
      simp_all [Program.acknowledges]
    next ending _ => cases given : ending.cancellation <;> simp_all

theorem outcome_begun (owner : Nat)
    (running : ((begin owner).outcome now before).state = .running)
    (idle : before.state ≠ .running) : before.state = .prepared := by
  by_cases terminal : before.state.Terminal
  · rw [outcome_terminal _ now before terminal] at running
    exact absurd running idle
  · cases stored : before.state <;> simp_all [ReceiptState.Terminal]

end Mutation

theorem Worker.collect_logs {worker : Worker} {root collected : WorkerRoot}
    {work remaining : Collecting} (collects : worker.collect root work = some (collected, remaining)) :
    ∃ logs, collected = { root with logs } := by
  cases work with
  | scanning =>
    cases collects
    exact ⟨_, rfl⟩
  | copying stream found =>
    cases collects
    exact ⟨_, rfl⟩
  | hashing stream found => cases stream <;> cases collects <;> exact ⟨_, rfl⟩
  | collected artifacts => cases collects

section

variable {worker : Worker} {process : Nat} {root root' : WorkerRoot} {program : Program}
  {next : Option Program}

theorem Effect.logs (logs : Stream → Option (List UInt8)) :
    Effect process root { root with logs } := by
  constructor <;> simp

theorem Effect.unlock (process : Nat) (root : WorkerRoot) :
    Effect process root (root.unlock process) := by
  constructor <;> simp [WorkerRoot.unlock]
  intro other different held
  refine ⟨?_, held⟩
  intro same
  rw [held] at same
  exact different (by simpa using same.symm)

theorem Prepares.effect (turn : Prepares worker process root program root' next)
    (fits : Fits root process program) : Effect process root root' := by
  have admission := fits.admission
  have absent := fits.absent
  cases turn with
  | collect spawn work _ remaining collects =>
    obtain ⟨logs, rfl⟩ := Worker.collect_logs collects
    exact .logs logs
  | _ => constructor <;> simp_all [Program.admits, Program.creates]

theorem Mutation.rewrites (mutation : Mutation) (now : Nat) (before : AttemptReceipt)
    (fits : Fits root process (.mutating mutation (.loaded before)))
    (kept : root.cancelMarker = true → root'.cancelMarker = true) :
    Rewrites process root root' before (mutation.outcome now before) := by
  have claim := fits.claim
  have ends := fits.terminal
  have marked := fits.marked
  refine ⟨mutation.outcome_terminal now before, mutation.outcome_prepared now before ends,
    ?_, ?_, ?_⟩
  · intro running
    obtain running | changes := mutation.outcome_running now before ends running
    · exact .inl running
    · exact .inr (claim (by simpa [Program.claims] using changes))
  · intro running
    obtain running | changes := mutation.outcome_stopped now before running
    · exact .inl running
    · exact .inr (claim (by simpa [Program.claims] using changes))
  · intro acknowledged
    obtain before | acknowledges := mutation.outcome_acknowledged now before acknowledged
    · exact .inl before
    · exact .inr (kept (marked acknowledges))

theorem Mutates.effect (turn : Mutates process root program root' next)
    (fits : Fits root process program) (recorded : Recorded root) :
    Effect process root root' := by
  cases turn with
  | lock mutation free => constructor <;> simp_all
  | load => exact .refl process root
  | beat => exact .refl process root
  | still => exact .refl process root
  | store mutation before now after written =>
    have stored : root.receipt = some before := fits.knows
    have locked := fits.receiptLock rfl
    have unprepared := recorded.prepared before stored
    have rewrites : Rewrites process root root before after := by
      rw [written]
      exact mutation.rewrites now before fits id
    refine ⟨by simp, by simp_all, by simp, .inr (.inr ⟨before, after, locked, stored, rfl, ?_⟩),
      by simp, ?_, by simp, ?_⟩
    · rw [written]
      exact mutation.rewrites now before fits id
    · dsimp only
      split
      next begun =>
        have claimed : root.claim = some process := by
          obtain running | claimed := rewrites.running begun.2
          · rw [begun.1] at running
            cases running
          · exact claimed
        exact .inr ⟨unprepared begun.1, by rw [unprepared begun.1], claimed, after, rfl, begun.2⟩
      next => exact .inl rfl
    · dsimp only
      split
      next begun =>
        obtain ⟨rfl, _⟩ := begun
        obtain ⟨began, trained⟩ := fits.starting rfl
        exact .inr ⟨trained, by rw [trained], began, fits.ready rfl⟩
      next => exact .inl rfl

theorem Executes.effect (turn : Executes worker process root program root' next)
    (fits : Fits root process program) : Effect process root root' := by
  have claim := fits.claim
  have receiptLock := fits.receiptLock
  cases turn with
  | collect spawn work _ remaining collects =>
    obtain ⟨logs, rfl⟩ := Worker.collect_logs collects
    exact .logs logs
  | unmarked check absent => cases check <;> constructor <;> simp_all
  | raise => exact .unlock process root
  | interrupt => exact .unlock process root
  | _ => constructor <;> simp_all [Program.claims]

theorem Finalises.effect (turn : Finalises worker process root program root' next)
    (fits : Fits root process program) : Effect process root root' := by
  have claim := fits.claim
  cases turn with
  | collect spawn work _ remaining collects =>
    obtain ⟨logs, rfl⟩ := Worker.collect_logs collects
    exact .logs logs
  | _ => constructor <;> simp_all [Program.claims]

theorem Observes.effect (turn : Observes process root program root' next)
    (fits : Fits root process program) : Effect process root root' := by
  cases turn <;> constructor <;> simp_all

theorem Flushes.effect (turn : Flushes worker process root program root' next)
    (fits : Fits root process program) : Effect process root root' := by
  cases turn <;> constructor <;> simp_all

theorem Cancels.effect (turn : Cancels process root program root' next)
    (fits : Fits root process program) : Effect process root root' := by
  have claim := fits.claim
  have receiptLock := fits.receiptLock
  have knows := fits.knows
  have marked := fits.marked
  cases turn with
  | answer receipt now =>
    obtain ⟨stored, known, answers⟩ := knows
    refine ⟨by simp, by simp_all [Program.locks], by simp,
      .inr (.inr ⟨stored, _, receiptLock rfl, known, rfl, ?_⟩), by simp, by simp, by simp, by simp⟩
    exact ⟨fun terminal => absurd terminal answers.active, answers.prepared,
      fun running => .inl (answers.running.mp running),
      fun running => .inl (answers.running.mpr running), fun _ => .inr (marked rfl)⟩
  | _ => constructor <;> simp_all [Program.claims, Program.locks]

theorem Turn.effect (turn : Turn worker process root program root' next)
    (fits : Fits root process program) (recorded : Recorded root) :
    Effect process root root' := by
  cases turn with
  | prepare turn => exact turn.effect fits
  | mutate turn => exact turn.effect fits recorded
  | execute turn => exact turn.effect fits
  | finalise turn => exact turn.effect fits
  | observe turn => exact turn.effect fits
  | cancel turn => exact turn.effect fits
  | flush turn => exact turn.effect fits

end

section

variable {process : Nat} {root root' : WorkerRoot}

theorem Effect.prepared (effect : Effect process root root') {written : AttemptReceipt}
    (after : root'.receipt = some written) (prepared : written.state = .prepared) :
    root.receipt = none ∨ ∃ stored, root.receipt = some stored ∧ stored.state = .prepared := by
  obtain same | ⟨_, _, absent, _⟩ | ⟨stored, rewritten, _, before, after', rewrites⟩ :=
    effect.receipt
  · exact .inr ⟨written, same ▸ after, prepared⟩
  · exact .inl absent
  · rw [after] at after'
    cases after'
    exact .inr ⟨stored, before, rewrites.prepared prepared⟩

theorem Effect.absent (effect : Effect process root root') (after : root'.receipt = none) :
    root.receipt = none := by
  obtain same | ⟨_, _, absent, _⟩ | ⟨_, _, _, _, after', _⟩ := effect.receipt
  · rwa [same] at after
  · exact absent
  · rw [after] at after'
    cases after'

theorem Effect.unbegun (effect : Effect process root root') (none : root.began = [])
    (idle : ∀ written, root'.receipt = some written → written.state ≠ .running) :
    root'.began = [] := by
  obtain same | ⟨_, _, _, written, after, running⟩ := effect.began
  · rw [same, none]
  · exact absurd running (idle written after)

theorem Effect.recorded (effect : Effect process root root') (recorded : Recorded root) :
    Recorded root' := by
  constructor
  · intro after
    refine effect.unbegun (recorded.unprepared (effect.absent after)) ?_
    simp [after]
  · intro written after prepared
    have idle : ∀ other, root'.receipt = some other → other.state ≠ .running := by
      intro other same running
      rw [after] at same
      cases same
      rw [prepared] at running
      cases running
    obtain absent | ⟨stored, before, prepared⟩ := effect.prepared after prepared
    · exact effect.unbegun (recorded.unprepared absent) idle
    · exact effect.unbegun (recorded.prepared stored before prepared) idle
  · obtain same | ⟨_, one, _⟩ := effect.began
    · rw [same]
      exact recorded.began
    · simp [one]
  · obtain same | ⟨_, one, _⟩ := effect.trained
    · rw [same]
      exact recorded.trained
    · simp [one]
  · intro other member
    have began : ∀ earlier ∈ root.began, earlier ∈ root'.began := by
      obtain same | ⟨none, _⟩ := effect.began
      · simp [same]
      · simp [none]
    have passed : ∀ earlier ∈ root.passed, earlier ∈ root'.passed := by
      obtain same | ⟨more, _⟩ := effect.passed
      · simp [same]
      · simp +contextual [more]
    obtain same | ⟨_, one, began', passed'⟩ := effect.trained
    · rw [same] at member
      exact (recorded.order other member).imp (began other) (passed other)
    · rw [one, List.mem_singleton] at member
      subst member
      exact ⟨began other (by simp [began']), passed other passed'⟩
  · intro written after acknowledged
    obtain same | ⟨_, _, _, after'⟩ | ⟨stored, rewritten, _, before, after', rewrites⟩ :=
      effect.receipt
    · exact effect.marker (recorded.marked written (same ▸ after) acknowledged)
    · rw [after] at after'
      cases after'
      cases acknowledged
    · rw [after] at after'
      cases after'
      obtain earlier | marker := rewrites.marked acknowledged
      · exact effect.marker (recorded.marked stored before earlier)
      · exact marker

theorem Effect.locked (effect : Effect process root root') {other : Nat}
    (different : process ≠ other) (held : root.receiptLock = some other)
    (present : root.receipt ≠ none) : root'.receipt = root.receipt := by
  obtain same | ⟨_, _, absent, _⟩ | ⟨_, _, own, _⟩ := effect.receipt
  · exact same
  · exact absurd absent present
  · rw [held] at own
    cases own
    exact absurd rfl different

theorem Effect.knows (effect : Effect process root root') {other : Nat} {program : Program}
    (different : process ≠ other) (fits : Fits root other program) : Knows root' program := by
  have knows := fits.knows
  have locks := fits.receiptLock
  unfold Knows at knows ⊢
  split at knows
  next => exact (effect.locked different (locks rfl) (by simp [knows])).trans knows
  next => exact ⟨(effect.locked different (locks rfl) (by simp [knows])).trans knows.1, knows.2⟩
  next =>
      obtain ⟨stored, known, answers⟩ := knows
      exact ⟨stored, (effect.locked different (locks rfl) (by simp [known])).trans known, answers⟩
  next =>
      obtain ⟨stored, known, answers⟩ := knows
      exact ⟨stored, (effect.locked different (locks rfl) (by simp [known])).trans known, answers⟩
  next =>
      obtain ⟨stored, known, answers⟩ := knows
      exact ⟨stored, (effect.locked different (locks rfl) (by simp [known])).trans known, answers⟩
  next => exact trivial

theorem Program.creates_admits {program : Program} (creates : program.creates = true) :
    program.admits = true := by
  cases program <;> simp_all [Program.creates, Program.admits]

theorem Program.unbegun_claims {program : Program} (unbegun : program.unbegun = true) :
    program.claims = true := by
  cases program with
  | mutating mutation held => cases mutation <;> simp_all [Program.unbegun, Program.claims]
  | _ => simp_all [Program.unbegun, Program.claims]

theorem Program.guarded_claims {program : Program} (guarded : program.guarded = true) :
    program.claims = true := by
  cases program with
  | mutating mutation held => cases mutation <;> simp_all [Program.guarded, Program.claims]
  | _ => simp_all [Program.guarded, Program.claims]

theorem Effect.fits (effect : Effect process root root') {other : Nat} {program : Program}
    (different : process ≠ other) (fits : Fits root other program) :
    Fits root' other program := by
  constructor
  · intro claims
    exact effect.claim other different (fits.claim claims)
  · intro locks
    exact effect.receiptLock other different (fits.receiptLock locks)
  · intro admits
    exact effect.admission other different (fits.admission admits)
  · intro creates
    have admitted := fits.admission (Program.creates_admits creates)
    have absent := fits.absent creates
    obtain same | ⟨_, own, _⟩ | ⟨_, _, _, before, _⟩ := effect.receipt
    · rw [same, absent]
    · rw [admitted] at own
      exact absurd (Option.some.inj own).symm different
    · rw [absent] at before
      cases before
  · exact effect.knows different fits
  · intro unbegun receipt after running
    have claimed := fits.claim (Program.unbegun_claims unbegun)
    have idle := fits.unbegun unbegun
    obtain same | ⟨_, _, _, after'⟩ | ⟨stored, _, _, before, after', rewrites⟩ := effect.receipt
    · exact idle receipt (same ▸ after) running
    · rw [after] at after'
      cases after'
      cases running
    · rw [after] at after'
      cases after'
      obtain earlier | own := rewrites.running running
      · exact idle stored before earlier
      · rw [claimed] at own
        exact different (Option.some.inj own).symm
  · intro starting
    obtain ⟨began, trained⟩ := fits.starting starting
    constructor
    · obtain same | ⟨none, _⟩ := effect.began
      · rw [same, began]
      · rw [began] at none
        cases none
    · obtain same | ⟨_, _, own, _⟩ := effect.trained
      · rw [same, trained]
      · rw [began] at own
        exact absurd (List.singleton_injective own).symm different
  · intro ready
    have passed := fits.ready ready
    obtain same | ⟨more, _⟩ := effect.passed
    · rwa [same]
    · simp [more, passed]
  · intro acknowledges
    exact effect.marker (fits.marked acknowledges)
  · exact fits.terminal

end

section

variable {worker : Worker} {process : Nat} {root root' : WorkerRoot} {program next : Program}

attribute [local simp] Program.claims Program.locks Program.admits Program.creates Knows
  Program.unbegun Program.starting Program.ready Program.acknowledges Program.ends

theorem Prepares.fits (turn : Prepares worker process root program root' (some next))
    (fits : Fits root process program) : Fits root' process next := by
  have admission := fits.admission
  cases turn with
  | collect spawn work _ remaining collects =>
    obtain ⟨logs, rfl⟩ := Worker.collect_logs collects
    constructor <;> simp_all
  | _ => constructor <;> simp_all

theorem Executes.fits (turn : Executes worker process root program root' (some next))
    (fits : Fits root process program) : Fits root' process next := by
  have claim := fits.claim
  have starting := fits.starting
  have unbegun := fits.unbegun
  cases turn with
  | collect spawn work _ remaining collects =>
    obtain ⟨logs, rfl⟩ := Worker.collect_logs collects
    constructor <;> simp_all
  | cancelled check marked => constructor <;> simp_all [Check.cancelled, ReceiptState.Terminal]
  | unmarked check absent => cases check <;> constructor <;> simp_all [Check.next]
  | reject error => constructor <;> simp_all [Ending.rejected, ReceiptState.Terminal]
  | «open» => split <;> constructor <;> simp_all
  | publish inTraining artifacts => cases inTraining <;> constructor <;> simp_all
  | raise _ error guarded =>
    have claimed := claim (Program.guarded_claims guarded)
    clear claim starting unbegun
    constructor <;> simp_all [WorkerRoot.unlock]
  | interrupt _ error guarded =>
    have claimed := claim (Program.guarded_claims guarded)
    clear claim starting unbegun
    constructor <;> simp_all [WorkerRoot.unlock]
  | stopped error => split <;> constructor <;> simp_all [Check.cancelled, ReceiptState.Terminal]
  | failed error receipt stored => split <;> constructor <;> simp_all
  | print stream line executes =>
    exact ⟨fits.claim, fits.receiptLock, fits.admission, fits.absent, fits.knows, fits.unbegun,
      fits.starting, fits.ready, fits.marked, fits.terminal⟩
  | _ => constructor <;> simp_all

theorem Finalises.fits (turn : Finalises worker process root program root' (some next))
    (fits : Fits root process program) : Fits root' process next := by
  have claim := fits.claim
  cases turn with
  | collect outcome work _ remaining collects =>
    obtain ⟨logs, rfl⟩ := Worker.collect_logs collects
    constructor <;> simp_all
  | inventory outcome artifacts =>
    cases outcome <;> constructor <;> simp_all [Sealing.next, ReceiptState.Terminal]
  | _ => constructor <;> simp_all

theorem Observes.fits (turn : Observes process root program root' (some next)) :
    Fits root' process next := by
  cases turn <;> constructor <;> simp_all

theorem Flushes.fits (turn : Flushes worker process root program root' (some next))
    (fits : Fits root process program) : Fits root' process next := by
  have claim := fits.claim
  cases turn <;> constructor <;> simp_all

theorem Cancels.fits (turn : Cancels process root program root' (some next))
    (fits : Fits root process program) : Fits root' process next := by
  have claim := fits.claim
  have receiptLock := fits.receiptLock
  have knows := fits.knows
  have marked := fits.marked
  cases turn with
  | load active =>
    cases found : root.receipt with
    | none => constructor <;> simp_all
    | some receipt => constructor <;> simp_all
  | mark receipt =>
    have answers : Answers receipt { receipt with cancellationRequested := true } :=
      ⟨knows.2, id, Iff.rfl, rfl⟩
    have stored : root.receipt = some receipt := knows.1
    split <;> constructor <;> simp_all
  | executing receipt taken =>
    obtain ⟨stored, known, answers, _⟩ := knows
    constructor <;> simp_all
  | close receipt now =>
    obtain ⟨stored, known, answers, _⟩ := knows
    have cancelled : Answers stored { receipt with
        state := .interrupted
        phase := .cancelledBeforeInitialization
        cancellationAcknowledged := true
        finishedAt := some now } := by
      have idle : stored.state ≠ .running := by
        intro running
        have same := answers.running.mpr running
        simp_all
      refine ⟨answers.active, ?_, ?_, answers.artifacts⟩ <;> simp [idle]
    constructor <;> simp_all
  | _ => constructor <;> simp_all

theorem Mutates.fits {found : Option Program} (turn : Mutates process root program root' found)
    (continues : found = some next) (fits : Fits root process program)
    (recorded : Recorded root) : Fits root' process next := by
  have claim := fits.claim
  cases turn with
  | store mutation before now after written =>
    have stored : root.receipt = some before := fits.knows
    cases mutation with
    | begin owner =>
      cases continues
      by_cases running : after.state = .running
      · have prepared : before.state = .prepared :=
          Mutation.outcome_begun now before owner (written ▸ running) (fits.unbegun rfl before stored)
        have began := recorded.prepared before stored prepared
        have trained : root.trained = [] := by
          rw [List.eq_nil_iff_forall_not_mem]
          intro other member
          have earlier := (recorded.order other member).1
          simp [began] at earlier
        clear written
        constructor <;> simp_all
      · clear written
        constructor <;> simp_all
    | touch =>
      simp only [Mutation.next] at continues
      split at continues
      next => cases continues; constructor <;> simp_all
      next => cases continues
    | training =>
      cases continues
      clear written
      by_cases running : after.state = .running <;> constructor <;> simp_all
    | finish ending =>
      cases continues
      constructor <;> simp_all
  | lock mutation free =>
    cases mutation <;> cases continues <;>
      exact ⟨fits.claim, fun _ => rfl, by simp, by simp, trivial, fits.unbegun, fits.starting,
        fits.ready, fits.marked, fits.terminal⟩
  | load mutation before stored =>
    cases mutation <;> cases continues <;>
      exact ⟨fits.claim, fits.receiptLock, by simp, by simp, stored, fits.unbegun, fits.starting,
        fits.ready, fits.marked, fits.terminal⟩
  | beat => cases continues; constructor <;> simp
  | still => cases continues

theorem Turn.fits (turn : Turn worker process root program root' (some next))
    (fits : Fits root process program) (recorded : Recorded root) : Fits root' process next := by
  cases turn with
  | prepare turn => exact turn.fits fits
  | mutate turn => exact turn.fits rfl fits recorded
  | execute turn => exact turn.fits fits
  | finalise turn => exact turn.fits fits
  | observe turn => exact turn.fits
  | cancel turn => exact turn.fits fits
  | flush turn => exact turn.fits fits

theorem Program.called_fits (called : program.called = true) : Fits root process program := by
  cases program with
  | mutating mutation held => cases called
  | _ => constructor <;> simp_all [Program.called]

end

theorem crash_effect (process : Nat) (root : WorkerRoot) :
    Effect process root (root.crash process) := by
  have kept : ∀ (held : Option Nat) (other : Nat), process ≠ other → held = some other →
      (if held = some process then none else held) = some other := by
    rintro held other different rfl
    rw [if_neg (by simpa using different.symm)]
  constructor <;> simp only [WorkerRoot.crash]
  · exact kept root.admission
  · exact kept root.receiptLock
  · exact kept root.claim
  all_goals simp

theorem preserves_once (worker : Worker) :
    Protocol.Preserves (executions worker) onceInvariant where
  start _ _ _ called _ := Program.called_fits called
  crash root process recorded := (crash_effect process root).recorded recorded
  crashed root process other program different _ fits :=
    (crash_effect process root).fits different.symm fits
  turn process root program root' next turn recorded fits := by
    refine ⟨(Turn.effect turn fits recorded).recorded recorded, ?_⟩
    intro program' continues
    cases continues
    exact Turn.fits turn fits recorded
  stable process root program root' next turn recorded fits other program' different other_fits :=
    (Turn.effect turn fits recorded).fits different.symm other_fits

structure Follows (before after : WorkerRoot) : Prop where
  terminal : ∀ receipt, before.receipt = some receipt → receipt.state.Terminal →
    after.receipt = some receipt
  began : ∀ process ∈ before.began, process ∈ after.began
  trained : ∀ process ∈ before.trained, process ∈ after.trained
  marker : before.cancelMarker → after.cancelMarker
  passed : before.cancelMarker → after.passed = before.passed

theorem Effect.follows {process : Nat} {before after : WorkerRoot}
    (effect : Effect process before after) : Follows before after := by
  constructor
  · intro receipt stored terminal
    obtain same | ⟨_, _, absent, _⟩ | ⟨_, _, _, stored', written, rewrites⟩ := effect.receipt
    · rw [same, stored]
    · rw [stored] at absent
      cases absent
    · rw [stored] at stored'
      cases stored'
      rw [written, rewrites.terminal terminal]
  · obtain same | ⟨none, _⟩ := effect.began
    · simp [same]
    · simp [none]
  · obtain same | ⟨none, _⟩ := effect.trained
    · simp [same]
    · simp [none]
  · exact effect.marker
  · intro marked
    obtain same | ⟨_, unmarked⟩ := effect.passed
    · exact same
    · rw [marked] at unmarked
      cases unmarked

def untouched : Threads WorkerRoot Program where
  shared := .initial
  program _ := none
  used := []

theorem untouched_good : Protocol.Good onceInvariant untouched := by
  refine ⟨?_, by simp [untouched]⟩
  constructor <;> simp [untouched, WorkerRoot.initial]

theorem follows_run (worker : Worker) {before after : Threads WorkerRoot Program}
    (good : Protocol.Good onceInvariant before) (run : (executions worker).Run before after) :
    Follows before.shared after.shared := by
  refine Protocol.Preserves.related (preserves_once worker) ?_ ?_ ?_ ?_ good run
  · intro root
    exact ⟨fun _ stored _ => stored, fun _ => id, fun _ => id, id, fun _ => rfl⟩
  · intro first middle last earlier later
    constructor
    · intro receipt stored terminal
      exact later.terminal receipt (earlier.terminal receipt stored terminal) terminal
    · intro process member
      exact later.began process (earlier.began process member)
    · intro process member
      exact later.trained process (earlier.trained process member)
    · intro marked
      exact later.marker (earlier.marker marked)
    · intro marked
      exact (later.passed (earlier.marker marked)).trans (earlier.passed marked)
  · intro process root program root' next turn recorded fits
    exact (Turn.effect turn fits recorded).follows
  · intro root process
    exact (crash_effect process root).follows

/-- At most one executor begins and trains, and it is the same; a terminal receipt stays as it
is; an acknowledgement comes after the marker; and an executor that has not passed its last check
when the marker is there never trains. -/
theorem at_most_one_training (worker : Worker) (before after : Threads WorkerRoot Program)
    (reached : (executions worker).Run untouched before)
    (later : (executions worker).Run before after) :
    (after.shared.began.length ≤ 1 ∧ after.shared.trained.length ≤ 1 ∧
      ∀ process ∈ after.shared.trained, process ∈ after.shared.began) ∧
    (∀ receipt, before.shared.receipt = some receipt → receipt.state.Terminal →
      after.shared.receipt = some receipt) ∧
    (∀ receipt, after.shared.receipt = some receipt → receipt.cancellationAcknowledged →
      after.shared.cancelMarker) ∧
    (before.shared.cancelMarker → ∀ process, process ∉ before.shared.passed →
      process ∉ after.shared.trained) := by
  have good := (preserves_once worker).run untouched_good reached
  have recorded : Recorded after.shared := ((preserves_once worker).run good later).shared
  have follows := follows_run worker good later
  refine ⟨⟨recorded.began, recorded.trained, fun process member => (recorded.order process member).1⟩,
    follows.terminal, recorded.marked, ?_⟩
  intro marked process unpassed trained
  have passed := (recorded.order process trained).2
  rw [follows.passed marked] at passed
  exact unpassed passed

section

def unbound : Worker where
  relayBound := false
  sha256 content := toString content

def launchedRoot : WorkerRoot :=
  { WorkerRoot.initial with
    receipt := some (.expected 0)
    spawned := 1
    live := fun _ => some [] }

def trainingReceipt : AttemptReceipt :=
  Mutation.training.outcome 2 ((Mutation.begin 1).outcome 1 (.expected 0))

def trainingRoot : WorkerRoot :=
  { WorkerRoot.initial with
    receipt := some trainingReceipt
    live := fun _ => some []
    claim := some 1
    began := [1]
    passed := [1]
    trained := [1] }

variable (protocol : Protocol WorkerRoot Program)
  (includes : ∀ process root program root' next, program.recopies = none →
    Turn unbound process root program root' next → protocol.turn process root program root' next)

include includes

theorem launch_turns : protocol.Turns 0 .initial (.admitting true)
    launchedRoot none :=
  .step (includes _ _ _ _ _ rfl (.prepare (.admitted _ _ rfl))) <|
  .step (includes _ _ _ _ _ rfl (.prepare (.absent _ _ rfl))) <|
  .step (includes _ _ _ _ _ rfl (.prepare (.create _ _ 0))) <|
  .step (includes _ _ _ _ _ rfl (.prepare (.skip _ _ (by simp [unbound])))) <|
  .step (includes _ _ _ _ _ rfl (.prepare (.launch _))) <|
  .last (includes _ _ _ _ _ rfl (.prepare (.leave _)))

theorem training_turns : protocol.Turns 1 launchedRoot .spawned
    trainingRoot (some .training) :=
  .step (includes _ _ _ _ _ rfl (.execute (.start _ (by decide) (by simp [launchedRoot])))) <|
  .step (includes _ _ _ _ _ rfl (.execute (.claim _ rfl))) <|
  .step (includes _ _ _ _ _ rfl (.execute (.again _ _ rfl rfl))) <|
  .step (includes _ _ _ _ _ rfl (.execute (.unmarked _ _ rfl))) <|
  .step (includes _ _ _ _ _ rfl (.execute (.validate _))) <|
  .step (includes _ _ _ _ _ rfl (.execute (.lease _))) <|
  .step (includes _ _ _ _ _ rfl (.mutate (.lock _ _ rfl))) <|
  .step (includes _ _ _ _ _ rfl (.mutate (.load _ _ _ rfl))) <|
  .step (includes _ _ _ _ _ rfl (.mutate (.store _ _ _ 1 _ rfl))) <|
  .step (includes _ _ _ _ _ rfl (.execute (.open _))) <|
  .step (includes _ _ _ _ _ rfl (.execute (.unmarked _ _ rfl))) <|
  .step (includes _ _ _ _ _ rfl (.execute (.materialize _))) <|
  .step (includes _ _ _ _ _ rfl (.execute (.unmarked _ _ rfl))) <|
  .step (includes _ _ _ _ _ rfl (.execute (.stage _))) <|
  .step (includes _ _ _ _ _ rfl (.execute (.unmarked _ _ rfl))) <|
  .step (includes _ _ _ _ _ rfl (.mutate (.lock _ _ rfl))) <|
  .step (includes _ _ _ _ _ rfl (.mutate (.load _ _ _ rfl))) <|
  .last (includes _ _ _ _ _ rfl (.mutate (.store _ _ _ 2 _ rfl)))

omit includes

theorem training_run : (executions unbound).Run untouched ⟨trainingRoot, Function.update
    (Function.update (Function.update (Function.update (fun _ => none) 0 (some (.admitting true)))
      0 none) 1 (some .spawned)) 1 (some .training), [1, 0]⟩ := by
  have idle : (executions unbound).Run untouched untouched := .refl _
  have launch := idle.start 0 (.admitting true) (by simp) rfl
  have launched := launch.turns rfl (launch_turns _ fun _ _ _ _ _ _ => id)
  have spawned := launched.start 1 .spawned (by simp) rfl
  exact spawned.turns rfl (training_turns _ fun _ _ _ _ _ _ => id)

theorem at_most_one_training_started : trainingRoot.trained = [1] ∧
    trainingRoot.began.length ≤ 1 ∧ trainingRoot.trained.length ≤ 1 := by
  have once := (at_most_one_training unbound untouched _ (.refl _) training_run).1
  exact ⟨rfl, once.1, once.2.1⟩

end

end SparseLab.Workers
