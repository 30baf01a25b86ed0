import SparseLab.Workers.AtMostOnce

/-! When the inventory of a terminal receipt stays true of the files. -/

namespace SparseLab.Workers

open Library

inductive Worker.Current (worker : Worker) (root : WorkerRoot) : Artifact → Prop
  | run (file : RunFile) (kept : file ∈ root.runFiles) :
      Current worker root (worker.artifact (.run file.relativePath) file.content)
  | log (stream : Stream) (content : List UInt8) (kept : root.logs stream = some content) :
      Current worker root (worker.artifact (.log stream) content)

theorem Worker.Current.size {worker : Worker} {root : WorkerRoot} {artifact : Artifact}
    (current : worker.Current root artifact) {stream : Stream}
    (listed : artifact.relativePath = .log stream) :
    ∃ content, root.logs stream = some content ∧ artifact.sizeBytes = content.length := by
  cases current with
  | run file kept => cases listed
  | log stream content kept =>
    cases listed
    exact ⟨content, kept, rfl⟩

def Worker.Whole (worker : Worker) (root : WorkerRoot) (artifacts : List Artifact) : Prop :=
  ∀ artifact ∈ artifacts, worker.Current root artifact

def WorkerRoot.Settled (root : WorkerRoot) (stream : Stream) : Prop :=
  ∀ receipt, root.receipt = some receipt → receipt.state.Terminal →
    (∃ artifact ∈ receipt.artifacts, artifact.relativePath = .log stream) →
      ∀ content, root.live stream = some content → root.logs stream = some content

def Ungrown (root : WorkerRoot) (program : Program) : Prop :=
  ∀ stream, program.recopies = some stream → root.Settled stream

def Ready (worker : Worker) (root : WorkerRoot) : Prop :=
  worker.relayBound = true → root.relayCommit = true

def Open (root : WorkerRoot) : Prop :=
  ∀ receipt, root.receipt = some receipt → ¬ receipt.state.Terminal

def Running (root : WorkerRoot) : Prop :=
  ∃ receipt, root.receipt = some receipt ∧ receipt.state = .running

def Unexecuted (root : WorkerRoot) : Prop :=
  root.relayCommit = false ∨
    ∃ receipt, root.receipt = some receipt ∧ receipt.state.Terminal ∧ receipt.artifacts = []

namespace Collecting

def found : Collecting → List Artifact
  | .scanning => []
  | .copying _ found | .hashing _ found => found
  | .collected artifacts => artifacts

def Ordered : Collecting → Prop
  | .copying stream found | .hashing stream found =>
    (∀ artifact ∈ found, artifact.relativePath ≠ .log stream) ∧
      (stream = .stdout → ∀ artifact ∈ found, artifact.relativePath ≠ .log .stderr)
  | _ => True

end Collecting

namespace Program

def active : Program → Bool
  | .checking check => check ≠ .first
  | .opening | .publishing _ _ | .materializing | .staging | .training | .stopped _ => true
  | .failing _ => true
  | .sealing outcome _ => outcome ≠ .notLive
  | .mutating .training _ => true
  | _ => false

def committed : Program → Bool
  | .launching _ | .claiming | .claimed | .checking _ | .validating | .leasing | .opening
  | .publishing _ _ | .materializing | .staging | .training | .stopped _ | .failing _
  | .sealing _ _ | .reporting _ | .reclaiming _ => true
  | .mutating mutation _ => mutation ≠ .touch
  | .observed receipt => receipt.state = .running
  | _ => false

def commits : Program → Bool
  | .committing _ _ => true
  | _ => false

def flushes : Program → Bool
  | .flushed => true
  | _ => false

def listed : Program → List Artifact
  | .sealing _ work => work.found
  | .mutating (.finish ending) _ => ending.artifacts.getD []
  | _ => []

def Ordered : Program → Prop
  | .sealing _ work => work.Ordered
  | _ => True

end Program

structure Lists (worker : Worker) (root : WorkerRoot) (program : Program) : Prop where
  active : program.active → Running root
  committed : program.committed → Ready worker root
  commits : program.commits → worker.relayBound = true ∧ Unexecuted root
  flushes : program.flushes →
    ∃ receipt, root.receipt = some receipt ∧ receipt.state.Terminal
  listed : Open root → worker.Whole root program.listed
  ordered : program.Ordered

structure Sound (worker : Worker) (root : WorkerRoot) (receipt : AttemptReceipt) : Prop where
  whole : receipt.state.Terminal → worker.Whole root receipt.artifacts
  empty : ¬ receipt.state.Terminal → receipt.artifacts = []
  running : receipt.state = .running → Ready worker root
  listed : receipt.artifacts ≠ [] → Ready worker root

structure Sealed (worker : Worker) (root : WorkerRoot) : Prop where
  receipt : ∀ receipt, root.receipt = some receipt → Sound worker root receipt
  spawned : 0 < root.spawned → Ready worker root

def sealedInvariant (worker : Worker) : Protocol.Invariant WorkerRoot Program where
  shared root := Recorded root ∧ Sealed worker root
  fits root process program := Fits root process program ∧ Lists worker root program

inductive Writes (worker : Worker) (process : Nat) (root root' : WorkerRoot) : Prop
  | nothing (logs : root'.logs = root.logs) (runFiles : root'.runFiles = root.runFiles)
  | executor (claimed : root.claim = some process) (running : Running root)
      (receipt : root'.receipt = root.receipt)
  | preparation (bound : worker.relayBound = true) (unexecuted : Unexecuted root)
      (receipt : root'.receipt = root.receipt) (runFiles : root'.runFiles = root.runFiles)
  | status (stream : Stream) (claimed : root.claim = some process) (settled : root.Settled stream)
      (receipt : root'.receipt = root.receipt) (runFiles : root'.runFiles = root.runFiles)
      (logs : root'.logs = Function.update root.logs stream
        ((root.live stream).or (root.logs stream)))

structure Extends (worker : Worker) (process : Nat) (root root' : WorkerRoot) : Prop where
  commit : root.relayCommit = true → root'.relayCommit = true
  committed : root'.relayCommit = root.relayCommit ∨ root.admission = some process ∨
    Ready worker root ∨ ∃ receipt, root.receipt = some receipt ∧ receipt.state.Terminal
  spawned : 0 < root'.spawned → 0 < root.spawned ∨ Ready worker root
  writes : Writes worker process root root'
  receipt : ∀ written, root'.receipt = some written →
    root.receipt = some written ∨ Sound worker root' written

section

variable {worker : Worker} {process : Nat} {root root' : WorkerRoot} {program : Program}
  {next : Option Program}

theorem Extends.idle (receipt : root'.receipt = root.receipt)
    (commit : root'.relayCommit = root.relayCommit) (spawned : root'.spawned ≤ root.spawned)
    (logs : root'.logs = root.logs) (runFiles : root'.runFiles = root.runFiles) :
    Extends worker process root root' := by
  refine ⟨?_, .inl commit, ?_, .nothing logs runFiles, ?_⟩
  · intro committed
    rwa [commit]
  · intro some
    exact .inl (by omega)
  · intro written after
    exact .inl (receipt ▸ after)

theorem Worker.Whole.moved {artifacts : List Artifact} (whole : worker.Whole root artifacts)
    (logs : root'.logs = root.logs) (runFiles : root'.runFiles = root.runFiles) :
    worker.Whole root' artifacts := by
  intro artifact member
  cases whole artifact member with
  | run file kept => exact .run file (runFiles ▸ kept)
  | log stream content kept => exact .log stream content (logs ▸ kept)

theorem Sound.moved {receipt : AttemptReceipt} (sound : Sound worker root receipt)
    (logs : root'.logs = root.logs) (runFiles : root'.runFiles = root.runFiles)
    (commit : root.relayCommit = true → root'.relayCommit = true) :
    Sound worker root' receipt := by
  refine ⟨?_, sound.empty, ?_, ?_⟩
  · intro terminal
    exact (sound.whole terminal).moved logs runFiles
  · intro running bound
    exact commit (sound.running running bound)
  · intro listed bound
    exact commit (sound.listed listed bound)

theorem Sound.of_empty {receipt : AttemptReceipt} (empty : receipt.artifacts = [])
    (running : receipt.state = .running → Ready worker root) : Sound worker root receipt := by
  refine ⟨?_, fun _ => empty, running, fun listed => absurd empty listed⟩
  intro _ artifact member
  simp [empty] at member

theorem Mutation.sound (mutation : Mutation) (now : Nat) {before : AttemptReceipt}
    (sound : Sound worker root before)
    (fits : Fits root process (.mutating mutation (.loaded before)))
    (lists : Lists worker root (.mutating mutation (.loaded before))) :
    Sound worker root (mutation.outcome now before) := by
  by_cases terminal : before.state.Terminal
  · rwa [mutation.outcome_terminal now before terminal]
  have empty := sound.empty terminal
  have stored : root.receipt = some before := fits.knows
  obtain same | written := mutation.outcome_cases now before
  · rwa [same]
  rw [written]
  cases mutation with
  | begin owner =>
    refine .of_empty ?_ fun _ => lists.committed rfl
    simp only [apply]
    split <;> exact empty
  | touch =>
    simp only [apply]
    split
    next running => exact .of_empty empty fun _ => sound.running running
    next => exact .of_empty empty sound.running
  | training =>
    refine .of_empty ?_ fun _ => lists.committed rfl
    simp only [apply]
    split <;> exact empty
  | finish ending =>
    have ends : ending.state.Terminal := fits.terminal
    have opened : Open root := by
      intro receipt found
      rw [stored] at found
      cases found
      exact terminal
    have whole := lists.listed opened
    simp only [apply, if_neg terminal, empty]
    refine ⟨fun _ => whole, fun active => absurd ends active, ?_, fun _ => lists.committed rfl⟩
    intro running
    dsimp only at running
    rw [running] at ends
    cases ends

theorem Sound.expected (now : Nat) : Sound worker root (.expected now) := by
  constructor <;> simp [AttemptReceipt.expected, ReceiptState.Terminal]

theorem Prepares.extension (turn : Prepares worker process root program root' next)
    (fits : Fits root process program) (lists : Lists worker root program) :
    Extends worker process root root' := by
  cases turn with
  | create spawn now =>
    refine ⟨id, .inl rfl, .inl, .nothing rfl rfl, ?_⟩
    intro written after
    cases after
    exact .inr (.expected now)
  | collect spawn work _ remaining collects =>
    obtain ⟨logs, rfl⟩ := Worker.collect_logs collects
    obtain ⟨bound, unexecuted⟩ := lists.commits rfl
    exact ⟨id, .inl rfl, .inl, .preparation bound unexecuted rfl rfl, fun _ => .inl⟩
  | publish spawn artifacts =>
    exact ⟨fun _ => rfl, .inr (.inl (fits.admission rfl)), .inl, .nothing rfl rfl, fun _ => .inl⟩
  | launch =>
    exact ⟨id, .inl rfl, fun _ => .inr (lists.committed rfl), .nothing rfl rfl, fun _ => .inl⟩
  | _ => exact .idle rfl rfl (Nat.le_refl _) rfl rfl

theorem Executes.extension (turn : Executes worker process root program root' next)
    (fits : Fits root process program) (lists : Lists worker root program) :
    Extends worker process root root' := by
  cases turn with
  | start popened found => exact .idle rfl rfl (Nat.sub_le _ _) rfl rfl
  | collect inTraining work _ remaining collects =>
    obtain ⟨logs, rfl⟩ := Worker.collect_logs collects
    exact ⟨id, .inl rfl, .inl, .executor (fits.claim rfl) (lists.active rfl) rfl, fun _ => .inl⟩
  | publish inTraining artifacts =>
    exact ⟨fun _ => rfl, .inr (.inr (.inl (lists.committed rfl))), .inl, .nothing rfl rfl,
      fun _ => .inl⟩
  | train runFiles declared =>
    exact ⟨id, .inl rfl, .inl, .executor (fits.claim rfl) (lists.active rfl) rfl, fun _ => .inl⟩
  | _ => exact .idle rfl rfl (Nat.le_refl _) rfl rfl

theorem Finalises.extension (turn : Finalises worker process root program root' next)
    (ungrown : Ungrown root program) (fits : Fits root process program)
    (lists : Lists worker root program) : Extends worker process root root' := by
  cases turn with
  | collect outcome work _ remaining collects =>
    by_cases status : outcome = .notLive
    · subst status
      cases work with
      | copying stream found =>
        cases collects
        exact ⟨id, .inl rfl, .inl,
          .status stream (fits.claim rfl) (ungrown stream rfl) rfl rfl rfl, fun _ => .inl⟩
      | hashing stream found =>
        cases stream <;> cases collects <;> exact .idle rfl rfl (Nat.le_refl _) rfl rfl
      | _ => cases collects <;> exact .idle rfl rfl (Nat.le_refl _) rfl rfl
    · obtain ⟨logs, rfl⟩ := Worker.collect_logs collects
      have running := lists.active (by simpa [Program.active] using status)
      exact ⟨id, .inl rfl, .inl, .executor (fits.claim rfl) running rfl, fun _ => .inl⟩
  | report caller published =>
    refine ⟨?_, .inr (.inr (.inl (lists.committed rfl))), .inl, .nothing rfl rfl, fun _ => .inl⟩
    intro committed
    simp [committed]
  | _ => exact .idle rfl rfl (Nat.le_refl _) rfl rfl

theorem Observes.extension (turn : Observes process root program root' next) :
    Extends worker process root root' := by
  cases turn <;> exact .idle rfl rfl (Nat.le_refl _) rfl rfl

theorem Flushes.extension (turn : Flushes worker process root program root' next)
    (lists : Lists worker root program) : Extends worker process root root' := by
  cases turn with
  | claim => exact .idle rfl rfl (Nat.le_refl _) rfl rfl
  | publish bound =>
    exact ⟨fun _ => rfl, .inr (.inr (.inr (lists.flushes rfl))), .inl, .nothing rfl rfl,
      fun _ => .inl⟩

theorem Cancels.extension (turn : Cancels process root program root' next)
    (fits : Fits root process program) (sound : Sealed worker root) :
    Extends worker process root root' := by
  cases turn with
  | answer receipt now =>
    obtain ⟨stored, known, answers⟩ := fits.knows
    have earlier := sound.receipt stored known
    have empty : receipt.artifacts = [] := answers.artifacts.trans (earlier.empty answers.active)
    refine ⟨id, .inl rfl, .inl, .nothing rfl rfl, ?_⟩
    intro written after
    cases after
    refine .inr (.of_empty empty ?_)
    intro running
    exact earlier.running (answers.running.mp running)
  | _ => exact .idle rfl rfl (Nat.le_refl _) rfl rfl

theorem Mutates.extension (turn : Mutates process root program root' next)
    (fits : Fits root process program) (lists : Lists worker root program)
    (sound : Sealed worker root) : Extends worker process root root' := by
  cases turn with
  | store mutation before now after written =>
    have stored : root.receipt = some before := fits.knows
    refine ⟨id, .inl rfl, .inl, .nothing rfl rfl, ?_⟩
    intro _ same
    cases same
    rw [written]
    exact .inr ((mutation.sound now (sound.receipt before stored) fits lists).moved rfl rfl id)
  | _ => exact .idle rfl rfl (Nat.le_refl _) rfl rfl

theorem Turn.extension (turn : Turn worker process root program root' next)
    (ungrown : Ungrown root program) (fits : Fits root process program)
    (lists : Lists worker root program) (sound : Sealed worker root) :
    Extends worker process root root' := by
  cases turn with
  | prepare turn => exact turn.extension fits lists
  | mutate turn => exact turn.extension fits lists sound
  | execute turn => exact turn.extension fits lists
  | finalise turn => exact turn.extension ungrown fits lists
  | observe turn => exact turn.extension
  | cancel turn => exact turn.extension fits sound
  | flush turn => exact turn.extension lists

end

section

variable {worker : Worker} {process : Nat} {root root' : WorkerRoot}

theorem Ready.extend (ready : Ready worker root) (extends' : Extends worker process root root') :
    Ready worker root' :=
  fun bound => extends'.commit (ready bound)

theorem Worker.Whole.settled {artifacts : List Artifact} (whole : worker.Whole root artifacts)
    {stream : Stream} (runFiles : root'.runFiles = root.runFiles)
    (logs : root'.logs = Function.update root.logs stream
      ((root.live stream).or (root.logs stream)))
    (settled : (∃ artifact ∈ artifacts, artifact.relativePath = .log stream) →
      ∀ content, root.live stream = some content → root.logs stream = some content) :
    worker.Whole root' artifacts := by
  intro artifact member
  cases whole artifact member with
  | run file kept => exact .run file (runFiles ▸ kept)
  | log listed content kept =>
    refine .log listed content ?_
    rw [logs]
    by_cases same : listed = stream
    · subst same
      rw [Function.update_self]
      cases grown : root.live listed with
      | none => simpa using kept
      | some bytes =>
        rw [← kept, settled ⟨_, member, rfl⟩ bytes grown]
        rfl
    · rwa [Function.update_of_ne same]

theorem Extends.sealed (extends' : Extends worker process root root')
    (sound : Sealed worker root) : Sealed worker root' := by
  constructor
  · intro written after
    obtain before | sound' := extends'.receipt written after
    · have earlier := sound.receipt written before
      cases extends'.writes with
      | nothing logs runFiles => exact earlier.moved logs runFiles extends'.commit
      | executor _ running _ =>
        obtain ⟨receipt, found, active⟩ := running
        rw [before] at found
        cases found
        refine .of_empty (earlier.empty (by simp [active, ReceiptState.Terminal])) ?_
        intro running
        exact (earlier.running running).extend extends'
      | preparation bound unexecuted _ _ =>
        have empty : written.artifacts = [] := by
          by_contra listed
          obtain unpublished | ⟨receipt, found, _, empty⟩ := unexecuted
          · rw [earlier.listed listed bound] at unpublished
            cases unpublished
          · rw [before] at found
            cases found
            exact listed empty
        exact .of_empty empty fun running => (earlier.running running).extend extends'
      | status stream _ settled _ runFiles logs =>
        refine ⟨?_, earlier.empty, ?_, ?_⟩
        · intro terminal
          exact (earlier.whole terminal).settled runFiles logs (settled written before terminal)
        · intro running
          exact (earlier.running running).extend extends'
        · intro listed
          exact (earlier.listed listed).extend extends'
    · exact sound'
  · intro spawned
    obtain earlier | ready := extends'.spawned spawned
    · exact (sound.spawned earlier).extend extends'
    · exact ready.extend extends'

theorem Open.earlier (effect : Effect process root root') (later : Open root') : Open root := by
  intro receipt found terminal
  exact later receipt (effect.follows.terminal receipt found terminal) terminal

theorem Running.kept (effect : Effect process root root') {other : Nat}
    (different : process ≠ other) (claimed : root.claim = some other) (running : Running root) :
    Running root' := by
  obtain ⟨receipt, found, active⟩ := running
  obtain same | ⟨_, _, absent, _⟩ | ⟨stored, written, _, before, after, rewrites⟩ := effect.receipt
  · exact ⟨receipt, same.trans found, active⟩
  · rw [found] at absent
    cases absent
  · rw [found] at before
    cases before
    obtain kept | own := rewrites.stopped active
    · exact ⟨written, after, kept⟩
    · rw [claimed] at own
      cases own
      exact absurd rfl different

theorem Unexecuted.kept (effect : Effect process root root')
    (extends' : Extends worker process root root') (sound : Sealed worker root) {other : Nat}
    (different : process ≠ other) (admitted : root.admission = some other)
    (bound : worker.relayBound = true) (unexecuted : Unexecuted root) : Unexecuted root' := by
  obtain unpublished | ⟨receipt, found, terminal, empty⟩ := unexecuted
  · obtain same | own | ready | ⟨receipt, found, terminal⟩ := extends'.committed
    · exact .inl (same.trans unpublished)
    · rw [admitted] at own
      cases own
      exact absurd rfl different
    · rw [ready bound] at unpublished
      cases unpublished
    · have empty : receipt.artifacts = [] := by
        by_contra listed
        rw [(sound.receipt receipt found).listed listed bound] at unpublished
        cases unpublished
      exact .inr ⟨receipt, effect.follows.terminal receipt found terminal, terminal, empty⟩
  · exact .inr ⟨receipt, effect.follows.terminal receipt found terminal, terminal, empty⟩

theorem Program.active_claims {program : Program} (active : program.active = true) :
    program.claims = true := by
  cases program with
  | mutating mutation held => cases mutation <;> simp_all [Program.active, Program.claims]
  | _ => simp_all [Program.active, Program.claims]

theorem Program.listed_claims {program : Program} :
    program.listed = [] ∨ program.claims = true ∧ program.committed = true := by
  cases program with
  | mutating mutation held =>
    cases mutation <;> simp [Program.listed, Program.claims, Program.committed]
  | _ => simp [Program.listed, Program.claims, Program.committed]

theorem Lists.kept {other : Nat} {program : Program} (lists : Lists worker root program)
    (effect : Effect process root root') (extends' : Extends worker process root root')
    (sound : Sealed worker root) (different : process ≠ other)
    (fits : Fits root other program) : Lists worker root' program := by
  constructor
  · intro active
    exact (lists.active active).kept effect different (fits.claim (Program.active_claims active))
  · intro committed
    exact (lists.committed committed).extend extends'
  · intro commits
    obtain ⟨bound, unexecuted⟩ := lists.commits commits
    refine ⟨bound, unexecuted.kept effect extends' sound different (fits.admission ?_) bound⟩
    cases program <;> simp_all [Program.commits, Program.admits]
  · intro flushes
    obtain ⟨receipt, found, terminal⟩ := lists.flushes flushes
    exact ⟨receipt, effect.follows.terminal receipt found terminal, terminal⟩
  · intro later
    have earlier := Open.earlier effect later
    have whole := lists.listed earlier
    obtain empty | ⟨claims, committed⟩ := program.listed_claims
    · rw [empty]
      intro artifact member
      cases member
    · have claimed := fits.claim claims
      cases extends'.writes with
      | nothing logs runFiles => exact whole.moved logs runFiles
      | executor own =>
        rw [claimed] at own
        cases own
        exact absurd rfl different
      | preparation bound unexecuted =>
        obtain unpublished | ⟨receipt, found, terminal, _⟩ := unexecuted
        · rw [lists.committed committed bound] at unpublished
          cases unpublished
        · exact absurd terminal (earlier receipt found)
      | status _ own =>
        rw [claimed] at own
        cases own
        exact absurd rfl different
  · exact lists.ordered

end

section

variable {worker : Worker} {process : Nat} {root root' : WorkerRoot} {program next : Program}

theorem Worker.runArtifacts_whole (worker : Worker) (root : WorkerRoot) :
    worker.Whole root (worker.runArtifacts root) := by
  intro artifact member
  simp only [Worker.runArtifacts, List.mem_map, List.mem_filter] at member
  obtain ⟨file, ⟨kept, _⟩, rfl⟩ := member
  exact .run file kept

theorem Worker.runArtifacts_unlogged (worker : Worker) (root : WorkerRoot) (stream : Stream) :
    ∀ artifact ∈ worker.runArtifacts root, artifact.relativePath ≠ .log stream := by
  intro artifact member
  simp only [Worker.runArtifacts, List.mem_map] at member
  obtain ⟨file, _, rfl⟩ := member
  simp [Worker.artifact]

theorem Worker.logArtifact_whole (worker : Worker) (root : WorkerRoot) (stream : Stream) :
    worker.Whole root (worker.logArtifact root stream) := by
  intro artifact member
  simp only [Worker.logArtifact, Option.mem_toList, Option.map_eq_some_iff] at member
  obtain ⟨content, kept, rfl⟩ := member
  exact .log stream content kept

theorem Worker.logArtifact_path {artifact : Artifact} {stream : Stream}
    (member : artifact ∈ worker.logArtifact root stream) : artifact.relativePath = .log stream := by
  simp only [Worker.logArtifact, Option.mem_toList, Option.map_eq_some_iff] at member
  obtain ⟨content, _, rfl⟩ := member
  rfl

theorem Worker.Whole.append {first second : List Artifact} (left : worker.Whole root first)
    (right : worker.Whole root second) : worker.Whole root (first ++ second) := by
  intro artifact member
  obtain member | member := List.mem_append.mp member
  · exact left artifact member
  · exact right artifact member

theorem Worker.collect_ordered {work remaining : Collecting}
    (collects : worker.collect root work = some (root', remaining)) (ordered : work.Ordered) :
    remaining.Ordered := by
  cases work with
  | scanning =>
    cases collects
    exact ⟨worker.runArtifacts_unlogged root _, fun _ => worker.runArtifacts_unlogged root _⟩
  | copying stream found =>
    cases collects
    exact ordered
  | hashing stream found =>
    cases stream with
    | stdout =>
      cases collects
      refine ⟨?_, by simp⟩
      intro artifact member
      obtain member | member := List.mem_append.mp member
      · exact ordered.2 rfl artifact member
      · simp [Worker.logArtifact_path member]
    | stderr =>
      cases collects
      exact trivial
  | collected artifacts => cases collects

theorem Worker.collect_whole {work remaining : Collecting}
    (collects : worker.collect root work = some (root', remaining)) (ordered : work.Ordered)
    (whole : worker.Whole root work.found) : worker.Whole root' remaining.found := by
  cases work with
  | scanning =>
    cases collects
    exact worker.runArtifacts_whole root
  | copying stream found =>
    cases collects
    intro artifact member
    have unlisted := ordered.1 artifact member
    cases whole artifact member with
    | run file kept => exact .run file kept
    | log listed content kept =>
      have different : listed ≠ stream := by
        rintro rfl
        exact unlisted rfl
      exact .log listed content (by simpa [Function.update_of_ne different] using kept)
  | hashing stream found =>
    have longer := whole.append (worker.logArtifact_whole root stream)
    cases stream <;> cases collects <;> exact longer
  | collected artifacts => cases collects

attribute [local simp] Program.active Program.committed Program.commits Program.flushes
  Program.listed Program.Ordered Worker.Whole Running Ready

theorem Program.guarded_active {program : Program} (guarded : program.guarded = true) :
    program.active = true := by
  cases program with
  | mutating mutation held => cases mutation <;> simp_all [Program.guarded]
  | sealing outcome work => cases outcome <;> simp_all [Program.guarded]
  | _ => simp_all [Program.guarded]

theorem Program.guarded_committed {program : Program} (guarded : program.guarded = true) :
    program.committed = true := by
  cases program with
  | mutating mutation held => cases mutation <;> simp_all [Program.guarded]
  | _ => simp_all [Program.guarded]

theorem Prepares.lists (turn : Prepares worker process root program root' (some next))
    (lists : Lists worker root program) : Lists worker root' next := by
  have commits := lists.commits
  cases turn with
  | collect spawn work _ remaining collects =>
    obtain ⟨logs, rfl⟩ := Worker.collect_logs collects
    constructor <;> simp_all [Unexecuted]
  | commit spawn bound unpublished => constructor <;> simp_all [Unexecuted]
  | _ => constructor <;> simp_all

theorem Executes.lists (turn : Executes worker process root program root' (some next))
    (lists : Lists worker root program) (sound : Sealed worker root) : Lists worker root' next := by
  have active := lists.active
  have committed := lists.committed
  cases turn with
  | start popened found =>
    have ready := sound.spawned popened
    constructor <;> simp_all
  | collect spawn work _ remaining collects =>
    obtain ⟨logs, rfl⟩ := Worker.collect_logs collects
    constructor <;> simp_all
  | cancelled check marked => constructor <;> simp_all [Check.cancelled]
  | unmarked check absent => cases check <;> constructor <;> simp_all [Check.next]
  | reject error => constructor <;> simp_all [Ending.rejected]
  | «open» => split <;> constructor <;> simp_all
  | publish inTraining artifacts => cases inTraining <;> constructor <;> simp_all
  | trained outcome ends =>
    constructor <;> simp_all [Collecting.found, Collecting.Ordered]
  | raise _ error guarded =>
    have running := active (Program.guarded_active guarded)
    have ready := committed (Program.guarded_committed guarded)
    clear active committed
    constructor <;> simp_all [WorkerRoot.unlock]
  | interrupt _ error guarded =>
    have running := active (Program.guarded_active guarded)
    have ready := committed (Program.guarded_committed guarded)
    clear active committed
    constructor <;> simp_all [WorkerRoot.unlock]
  | stopped error =>
    split <;> constructor <;>
      simp_all [Check.cancelled, Collecting.found, Collecting.Ordered]
  | failed error receipt stored =>
    split <;> constructor <;> simp_all [Collecting.found, Collecting.Ordered]
  | print stream line executes =>
    exact ⟨lists.active, lists.committed, lists.commits, lists.flushes,
      fun opened => (lists.listed opened).moved rfl rfl, lists.ordered⟩
  | _ => constructor <;> simp_all

theorem Finalises.lists (turn : Finalises worker process root program root' (some next))
    (lists : Lists worker root program) : Lists worker root' next := by
  have active := lists.active
  have committed := lists.committed
  have listed := lists.listed
  cases turn with
  | collect outcome work _ remaining collects =>
    have whole := fun opened => Worker.collect_whole collects lists.ordered (listed opened)
    have ordered := Worker.collect_ordered collects lists.ordered
    obtain ⟨logs, rfl⟩ := Worker.collect_logs collects
    exact ⟨active, committed, lists.commits, lists.flushes, whole, ordered⟩
  | inventory outcome artifacts =>
    cases outcome <;> constructor <;> simp_all [Sealing.next, Collecting.found]
  | _ => constructor <;> simp_all

theorem Observes.lists (turn : Observes process root program root' (some next))
    (lists : Lists worker root program) (sound : Sealed worker root) : Lists worker root' next := by
  have committed := lists.committed
  cases turn with
  | load receipt stored =>
    have running := (sound.receipt receipt stored).running
    constructor <;> simp_all
  | _ => constructor <;> simp_all [Collecting.found, Collecting.Ordered]

theorem Flushes.lists (turn : Flushes worker process root program root' (some next)) :
    Lists worker root' next := by
  cases turn <;> constructor <;> simp_all

theorem Cancels.lists (turn : Cancels process root program root' (some next)) :
    Lists worker root' next := by
  cases turn with
  | mark receipt => split <;> constructor <;> simp
  | _ => constructor <;> simp

theorem Mutates.lists {found : Option Program} (turn : Mutates process root program root' found)
    (continues : found = some next) (lists : Lists worker root program) :
    Lists worker root' next := by
  have committed := lists.committed
  have active := lists.active
  cases turn with
  | store mutation before now after written =>
    clear written
    cases mutation with
    | touch =>
      simp only [Mutation.next] at continues
      split at continues
      next => cases continues; constructor <;> simp
      next => cases continues
    | finish ending => cases continues; constructor <;> simp_all
    | _ =>
      cases continues
      by_cases running : after.state = .running <;> constructor <;> simp_all
  | lock mutation free =>
    cases mutation <;> cases continues <;>
      exact ⟨lists.active, lists.committed, lists.commits, lists.flushes,
        fun opened => (lists.listed opened).moved rfl rfl, trivial⟩
  | load mutation before stored =>
    cases mutation <;> cases continues <;>
      exact ⟨lists.active, lists.committed, lists.commits, lists.flushes, lists.listed, trivial⟩
  | beat => cases continues; constructor <;> simp
  | still => cases continues

theorem Turn.lists (turn : Turn worker process root program root' (some next))
    (lists : Lists worker root program) (sound : Sealed worker root) :
    Lists worker root' next := by
  cases turn with
  | prepare turn => exact turn.lists lists
  | mutate turn => exact turn.lists rfl lists
  | execute turn => exact turn.lists lists sound
  | finalise turn => exact turn.lists lists
  | observe turn => exact turn.lists lists sound
  | cancel turn => exact turn.lists
  | flush turn => exact turn.lists

theorem Program.called_lists (called : program.called = true) : Lists worker root program := by
  cases program with
  | mutating mutation held => cases called
  | _ => constructor <;> simp_all [Program.called]

end

theorem crash_extension (worker : Worker) (process : Nat) (root : WorkerRoot) :
    Extends worker process root (root.crash process) :=
  .idle rfl rfl (Nat.le_refl _) rfl rfl

theorem preserves_sealed (worker : Worker) :
    Protocol.Preserves ((executions worker).within Ungrown) (sealedInvariant worker) where
  start _ _ _ called _ := ⟨Program.called_fits called, Program.called_lists called⟩
  crash root process good :=
    ⟨(crash_effect process root).recorded good.1,
      (crash_extension worker process root).sealed good.2⟩
  crashed root process other program different good fits :=
    ⟨(crash_effect process root).fits different.symm fits.1,
      fits.2.kept (crash_effect process root) (crash_extension worker process root) good.2
        different.symm fits.1⟩
  turn process root program root' next turn good fits := by
    have effect := Turn.effect turn.2 fits.1 good.1
    have extension := Turn.extension turn.2 turn.1 fits.1 fits.2 good.2
    refine ⟨⟨effect.recorded good.1, extension.sealed good.2⟩, ?_⟩
    intro program' continues
    cases continues
    exact ⟨Turn.fits turn.2 fits.1 good.1, Turn.lists turn.2 fits.2 good.2⟩
  stable process root program root' next turn good fits other program' different other_fits := by
    have effect := Turn.effect turn.2 fits.1 good.1
    have extension := Turn.extension turn.2 turn.1 fits.1 fits.2 good.2
    exact ⟨effect.fits different.symm other_fits.1,
      other_fits.2.kept effect extension good.2 different.symm other_fits.1⟩

theorem untouched_sealed (worker : Worker) :
    Protocol.Good (sealedInvariant worker) untouched := by
  refine ⟨⟨untouched_good.shared, ?_⟩, by simp [untouched]⟩
  constructor <;> simp [untouched, WorkerRoot.initial]

/-- As long as no status call copies a log that has grown since a terminal receipt listed it,
every artifact of a terminal receipt is a file as it is now. -/
theorem terminal_inventory_current (worker : Worker) (threads : Threads WorkerRoot Program)
    (run : ((executions worker).within Ungrown).Run untouched threads) :
    ∀ receipt, threads.shared.receipt = some receipt → receipt.state.Terminal →
      ∀ artifact ∈ receipt.artifacts, worker.Current threads.shared artifact := by
  intro receipt stored terminal
  have good := (preserves_sealed worker).run (untouched_sealed worker) run
  exact (good.shared.2.receipt receipt stored).whole terminal

section

theorem calm {worker : Worker} {process : Nat} {root root' : WorkerRoot} {program : Program}
    {next : Option Program} (free : program.recopies = none)
    (turn : Turn worker process root program root' next) :
    ((executions worker).within Ungrown).turn process root program root' next := by
  refine ⟨?_, turn⟩
  intro stream copied
  rw [free] at copied
  cases copied

theorem observing_turns : ((executions unbound).within Ungrown).Turns 2 trainingRoot .observing
    trainingRoot (some (.observed trainingReceipt)) :=
  .last (calm rfl (.observe (.load _ _ rfl)))

def failure : String := "RuntimeError: loss is not finite"

def failedReceipt : AttemptReceipt :=
  { trainingReceipt with
    state := .failed
    phase := .failed
    finishedAt := some 3
    updatedAt := 3
    error := some failure
    artifacts := [unbound.artifact (.log .stdout) [], unbound.artifact (.log .stderr) []] }

def failedRoot : WorkerRoot :=
  { trainingRoot with
    receipt := some failedReceipt
    live := Function.update (fun _ => some []) .stderr (some [10])
    logs := Function.update (Function.update (fun _ => none) .stdout (some [])) .stderr (some [])
    claim := none
    ended := [1] }

theorem failing_turns : ((executions unbound).within Ungrown).Turns 1 trainingRoot .training
    failedRoot none :=
  .step (calm rfl (.execute (.raise _ _ failure rfl))) <|
  .step (calm rfl (.execute (.failed _ _ _ rfl))) <|
  .step (calm rfl (.finalise (.collect _ _ _ _ _ rfl))) <|
  .step (calm rfl (.finalise (.collect _ _ _ _ _ rfl))) <|
  .step (calm rfl (.finalise (.collect _ _ _ _ _ rfl))) <|
  .step (calm rfl (.finalise (.collect _ _ _ _ _ rfl))) <|
  .step (calm rfl (.finalise (.collect _ _ _ _ _ rfl))) <|
  .step (calm rfl (.finalise (.inventory _ _ _))) <|
  .step (calm rfl (.mutate (.lock _ _ rfl))) <|
  .step (calm rfl (.mutate (.load _ _ _ rfl))) <|
  .step (calm rfl (.mutate (.store _ _ _ 3 _ rfl))) <|
  .step (calm rfl (.finalise (.report _ _ false))) <|
  .step (calm rfl (.finalise (.leave _))) <|
  .step (calm rfl (.execute (.print _ _ .stderr [10] rfl))) <|
  .last (calm rfl (.execute (.exit _)))

def failedPrograms : Nat → Option Program :=
  Function.update (Function.update (Function.update (Function.update (Function.update
    (Function.update (Function.update (fun _ => none) 0 (some (.admitting true))) 0 none) 1
    (some .spawned)) 1 (some .training)) 2 (some .observing)) 2 (some (.observed trainingReceipt)))
    1 none

theorem failed_run : ((executions unbound).within Ungrown).Run untouched
    ⟨failedRoot, failedPrograms, [2, 1, 0]⟩ := by
  have idle : ((executions unbound).within Ungrown).Run untouched untouched := .refl _
  have launch := idle.start 0 (.admitting true) (by simp) rfl
  have launched := launch.turns rfl (launch_turns _ fun _ _ _ _ _ => calm)
  have spawned := launched.start 1 .spawned (by simp) rfl
  have training := spawned.turns rfl (training_turns _ fun _ _ _ _ _ => calm)
  have status := training.start 2 .observing (by simp) rfl
  have observed := status.turns rfl observing_turns
  exact observed.turns rfl failing_turns

theorem terminal_inventory_current_failed :
    failedReceipt.state.Terminal ∧ ∀ artifact ∈ failedReceipt.artifacts,
      unbound.Current failedRoot artifact :=
  ⟨trivial, terminal_inventory_current unbound _ failed_run failedReceipt rfl trivial⟩

def recopiedRoot : WorkerRoot :=
  { failedRoot with
    claim := some 2
    logs := Function.update (Function.update failedRoot.logs .stdout (some [])) .stderr
      (some [10]) }

theorem recopying_turns : (executions unbound).Turns 2 failedRoot (.observed trainingReceipt)
    recopiedRoot (some (.sealing .notLive (.hashing .stderr [unbound.artifact (.log .stdout) []]))) :=
  .step (.observe (.dead _ _ rfl (by decide))) <|
  .step (.observe (.claim _ _ rfl)) <|
  .step (.finalise (.collect _ _ _ _ _ rfl)) <|
  .step (.finalise (.collect _ _ _ _ _ rfl)) <|
  .step (.finalise (.collect _ _ _ _ _ rfl)) <|
  .last (.finalise (.collect _ _ _ _ _ rfl))

theorem terminal_inventory_changed :
    ¬ ∀ (worker : Worker) (threads : Threads WorkerRoot Program),
      (executions worker).Run untouched threads →
        ∀ receipt, threads.shared.receipt = some receipt → receipt.state.Terminal →
          ∀ artifact ∈ receipt.artifacts, worker.Current threads.shared artifact := by
  intro claimed
  have recopied := (Protocol.Run.of_within failed_run).turns rfl recopying_turns
  have current := claimed unbound _ recopied failedReceipt rfl trivial
    (unbound.artifact (.log .stderr) []) (by simp [failedReceipt])
  obtain ⟨content, kept, size⟩ := current.size rfl
  have grown : recopiedRoot.logs .stderr = some [10] := rfl
  rw [show content = [10] from Option.some.inj (kept.symm.trans grown)] at size
  cases size

end

end SparseLab.Workers
