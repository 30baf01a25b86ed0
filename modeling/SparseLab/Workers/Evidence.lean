import SparseLab.Workers.QueueInvariants

/-! The evidence of an attempt: contradictions, stale copies of receipts, and what every run keeps. -/

namespace SparseLab.Workers

open Library Queue

def Contradicted (row : Attempt) : Prop := row.recovery ≠ none ∧ conflicted row.ingestionError

instance (row : Attempt) : Decidable (Contradicted row) := inferInstanceAs (Decidable (_ ∧ _))

def KeepsMark (system : System) : Action → Prop
  | .ingestionError attemptId message => ∀ row ∈ system.queue.attempts,
      row.attemptId = attemptId → Contradicted row → conflicted (some message)
  | _ => True

def Attempt.Fenced (row : Attempt) : Prop :=
  row.recovery ≠ none → row.terminalReceipt = none ∧ row.status ≠ .queued

theorem conflicted_recoveryConflict : conflicted (some recoveryConflict) := by
  decide

section

variable {action : Action} {row row' : Attempt}

theorem Change.fenced (change : Change action row row') (fenced : row.Fenced) :
    row'.Fenced := by
  cases change with
  | assigned _ workerId queued => exact fun recovered => ⟨(fenced recovered).1, by simp⟩
  | received _ durable receipt status named fresh first reconciled =>
    intro recovered
    unfold Queue.received at recovered
    split at recovered <;> exact absurd fresh recovered
  | recovered _ observation workerId specDigest bundleDigest owned fresh openEnd =>
    exact fun _ => ⟨openEnd, by simp⟩
  | unreachable _ attempt reason named openEnd =>
    intro recovered
    refine ⟨openEnd, ?_⟩
    by_cases requested : row.status = .cancelRequested <;> simp [requested]
  | cancelled _ queued => exact fun recovered => absurd queued (fenced recovered).2
  | cancelRequested _ started =>
    intro recovered
    refine ⟨(fenced recovered).1, ?_⟩
    change (if _ then row.status else QueueStatus.cancelRequested) ≠ _
    rw [if_pos (.inr (.inr recovered))]
    exact started
  | _ => exact fenced

theorem Change.contradicted {system : System} (change : Change action row row')
    (fenced : row.Fenced) (member : row ∈ system.queue.attempts)
    (keeps : KeepsMark system action)
    (contradicted : Contradicted row) :
    Contradicted row' ∧
      (row'.ingestionStatus = .complete → row.ingestionStatus = .complete) := by
  cases change with
  | conflicting _ durable receipt named recovered terminal =>
    exact ⟨⟨recovered, conflicted_recoveryConflict⟩, fun complete => complete⟩
  | received _ durable receipt status named fresh first reconciled =>
    exact absurd fresh contradicted.1
  | recovered _ observation workerId specDigest bundleDigest owned fresh openEnd =>
    exact absurd fresh contradicted.1
  | ingested _ evident settled => exact absurd contradicted.2 settled
  | notRequired _ terminal => exact absurd (fenced contradicted.1).1 terminal
  | failed _ message evident =>
    exact ⟨⟨contradicted.1, keeps row member rfl contradicted⟩,
      fun complete => by cases complete⟩
  | cancelled _ queued => exact absurd queued (fenced contradicted.1).2
  | _ => exact ⟨contradicted, fun complete => complete⟩

end

theorem fresh_fenced (row : Attempt) (fresh : Fresh row) : row.Fenced := by
  intro recovered
  rw [fresh] at recovered
  exact absurd rfl recovered

def Queue.ConflictSticks (before after : Queue) : Prop :=
  ∀ row ∈ before.attempts, Contradicted row → ∀ row' ∈ after.attempts,
    row'.attemptId = row.attemptId →
      (row'.ingestionStatus = .complete → row.ingestionStatus = .complete) ∧ ¬ Resumable row'

def Sticks (row row' : Attempt) : Prop :=
  Contradicted row → Contradicted row' ∧
    (row'.ingestionStatus = .complete → row.ingestionStatus = .complete)

theorem recovery_conflict_sticks {earlier later : List Action} {before after : System}
    (reached : System.after {} earlier = some before) (meets : before.Meets KeepsMark later)
    (continued : before.after later = some after) :
    before.queue.ConflictSticks after.queue := by
  have kept (action : Action) (row row' : Attempt) (change : Change action row row') :
      row.Fenced → row'.Fenced := change.fenced
  obtain ⟨keyed, fenced⟩ := after_rows fresh_fenced kept keyed_empty (by simp) reached
  have extend (system : System) (action : Action) (row row' row'' : Attempt)
      (keeps : KeepsMark system action) (member : row ∈ system.queue.attempts)
      (fenced : row.Fenced) (change : Change action row row') (rest : Sticks row' row'') :
      Sticks row row'' := by
    intro contradicted
    obtain ⟨contradicted', marked⟩ := change.contradicted fenced member keeps contradicted
    obtain ⟨contradicted'', marked'⟩ := rest contradicted'
    exact ⟨contradicted'', fun complete => marked (marked' complete)⟩
  intro row member contradicted row' member' named
  obtain ⟨contradicted', marked⟩ :=
    after_related fresh_fenced kept (fun _ contradicted => ⟨contradicted, id⟩) extend keyed
      fenced meets continued member member' named contradicted
  exact ⟨marked, fun resumable => resumable.2.2 contradicted'.2⟩

section

def lossObservation : RecoveryObservation where
  reason := "HOSTED_WORKER_LOST"
  commitSha256 := "commit"
  confirmedAt := { text := "2026-01-01T00:00:00+00:00", zoned := true }
  instanceId := "instance-1"

def contradictedActions : List Action :=
  startedActions ++ [
    .recordRecovery "attempt-1" lossObservation "worker-1" "spec" "bundle",
    .reconcile assignedReading (workerReceipt .interrupted)]

/-- How the handler words the refusal of `mark_ingestion_complete`. -/
def refusal : String := "ValueError: conflicting evidence requires explicit reconciliation"

def retryActions : List Action :=
  [.ingested "attempt-1",
    .ingestionError "attempt-1" refusal,
    .ingested "attempt-1"]

def contradictedRow : Attempt :=
  { assignedReading.row with
    status := .unknown
    recovery := some lossObservation
    ingestionError := some recoveryConflict }

def retriedRow : Attempt :=
  { contradictedRow with ingestionStatus := .complete, ingestionError := none }

def lostSystem (row : Attempt) (raised : List (String × String)) : System where
  queue := {
    attempts := [row]
    experiments := [{
      experimentId := "experiment-1", spec := queuedEntry.spec, status := .unknown }] }
  seen := [assignedReading, queuedReading]
  raised

theorem contradictedActions_after :
    System.after {} contradictedActions = some (lostSystem contradictedRow []) := by
  decide +kernel

theorem retryActions_after :
    (lostSystem contradictedRow []).after retryActions =
      some (lostSystem retriedRow [("attempt-1", refusal)]) := by
  decide +kernel

theorem recovery_conflict_lost : ¬ ∀ (earlier later : List Action) (before after : System),
    System.after {} earlier = some before → before.after later = some after →
      before.queue.ConflictSticks after.queue := by
  intro sticks
  have contradicted : Contradicted contradictedRow := by decide
  have resumable : Resumable retriedRow := by decide
  exact (sticks _ _ _ _ contradictedActions_after retryActions_after contradictedRow
    List.mem_cons_self contradicted retriedRow List.mem_cons_self rfl).2 resumable

theorem recovery_conflict_sticks_refused :
    (lostSystem contradictedRow []).queue.ConflictSticks
      (lostSystem contradictedRow [("attempt-1", refusal)]).queue :=
  @recovery_conflict_sticks contradictedActions [.ingested "attempt-1"] _ _
    contradictedActions_after ⟨trivial, fun _ _ => trivial⟩ (by decide +kernel)

end

def Receipt.point (receipt : Receipt) : Nat :=
  match receipt.state with
  | none => 0
  | some .prepared => 1
  | some .running => 2
  | some _ => 3

namespace Attempt

def receiptPoint (row : Attempt) : Nat := (row.receipt.map Receipt.point).getD 0

def statusPoint (row : Attempt) : Option Nat :=
  match row.status with
  | .assigned => some 1
  | .running => some 2
  | .complete | .failed | .interrupted => some 3
  | .cancelled | .unknown => if row.terminalReceipt ≠ none then some 3 else none
  | .queued | .cancelRequested => none

structure Forward (row row' : Attempt) : Prop where
  receipt : row.receiptPoint ≤ row'.receiptPoint
  status : ∀ point ∈ row.statusPoint, ∀ point' ∈ row'.statusPoint, point ≤ point'

structure Placed (row : Attempt) : Prop where
  queued : row.status = .queued →
    row.workerId = none ∧ row.receipt = none ∧ row.terminalReceipt = none
  assigned : row.status = .assigned → row.receiptPoint ≤ 1
  running : row.status = .running → row.receiptPoint = 2
  ended : row.status = .complete ∨ row.status = .failed ∨ row.status = .interrupted →
    row.terminalReceipt ≠ none
  terminal : row.receiptPoint = 3 → row.terminalReceipt ≠ none

end Attempt

def InOrder (system : System) : Action → Prop
  | .reconcile durable receipt => ∀ row ∈ system.queue.attempts,
      row.attemptId = durable.row.attemptId → row.recovery = none → row.terminalReceipt = none →
        row.receiptPoint = 2 → receipt.point ≠ 1
  | _ => True

theorem point_le_three (receipt : Receipt) : receipt.point ≤ 3 := by
  unfold Receipt.point
  split <;> omega

theorem terminal_of_point {receipt : Receipt} (last : receipt.point = 3) :
    receipt.Terminal := by
  unfold Receipt.point at last
  split at last
  next => omega
  next => omega
  next => omega
  next state notPrepared notRunning stated =>
    refine ⟨state, stated, ?_⟩
    cases state with
    | prepared => exact absurd rfl notPrepared
    | running => exact absurd rfl notRunning
    | _ => trivial

theorem reconciledStatus_point {durable : Reading} {receipt : Receipt} {status : QueueStatus}
    (reconciled : reconciledStatus durable receipt = .ok status) :
    0 < receipt.point ∧ (status = .assigned → receipt.point = 1) ∧
      (status = .running → receipt.point = 2) ∧
      (status = .complete ∨ status = .failed ∨ status = .interrupted → receipt.point = 3) := by
  unfold reconciledStatus at reconciled
  unfold Receipt.point
  split at reconciled
  next => cases reconciled
  next =>
    split at reconciled
    next => cases reconciled
    next stated => cases reconciled; simp [stated]
    next stated => cases reconciled; simp [stated]
    next stated => cases reconciled; simp [stated]
    next stated => cases reconciled; simp [stated]
    next stated =>
      cases reconciled
      cases receipt.cancellationAcknowledged <;> simp [stated]
    next stated => cases reconciled; simp [stated]

section

variable {action : Action} {row row' : Attempt}

theorem receiptPoint_le_three (row : Attempt) : row.receiptPoint ≤ 3 := by
  unfold Attempt.receiptPoint
  cases row.receipt with
  | none => exact Nat.zero_le _
  | some receipt => exact point_le_three receipt

@[simp] theorem received_receiptPoint (receipt : Receipt) (status : QueueStatus) :
    (received receipt status row).receiptPoint = receipt.point := by
  unfold received
  split <;> rfl

@[simp] theorem status_received (receipt : Receipt) (status : QueueStatus) :
    (received receipt status row).status = status := by
  unfold received
  split <;> rfl

theorem received_terminal {receipt : Receipt} (status : QueueStatus) (last : receipt.point = 3) :
    (received receipt status row).terminalReceipt ≠ none := by
  unfold received
  rw [if_pos (terminal_of_point last)]
  simp

theorem placed_elsewhere
    (elsewhere : row'.status = .unknown ∨ row'.status = .cancelRequested ∨
      row'.status = .cancelled)
    (terminal : row'.receiptPoint = 3 → row'.terminalReceipt ≠ none) : row'.Placed := by
  constructor
  · intro queued
    rw [queued] at elsewhere
    simp at elsewhere
  · intro assigned
    rw [assigned] at elsewhere
    simp at elsewhere
  · intro running
    rw [running] at elsewhere
    simp at elsewhere
  · rintro (complete | failed | interrupted)
    · rw [complete] at elsewhere
      simp at elsewhere
    · rw [failed] at elsewhere
      simp at elsewhere
    · rw [interrupted] at elsewhere
      simp at elsewhere
  · exact terminal

theorem received_last (receipt : Receipt) (status : QueueStatus)
    (last : (received receipt status row).receiptPoint = 3) :
    (received receipt status row).terminalReceipt ≠ none := by
  rw [received_receiptPoint] at last
  exact received_terminal status last

theorem received_placed {durable : Reading} {receipt : Receipt} {status : QueueStatus}
    (reconciled : reconciledStatus durable receipt = .ok status) :
    (received receipt status row).Placed := by
  obtain ⟨_, assigned, running, ended⟩ := reconciledStatus_point reconciled
  have waiting := reconciledStatus_ne_queued reconciled
  constructor
  · intro queued
    rw [status_received] at queued
    exact absurd queued waiting
  · intro other
    rw [status_received] at other
    rw [received_receiptPoint, assigned other]
  · intro other
    rw [status_received] at other
    rw [received_receiptPoint, running other]
  · intro other
    rw [status_received] at other
    exact received_terminal _ (ended other)
  · exact received_last receipt status

theorem Change.placed (change : Change action row row') (placed : row.Placed) :
    row'.Placed := by
  cases change with
  | assigned _ workerId queued =>
    obtain ⟨_, unread, openEnd⟩ := placed.queued queued
    constructor
    · exact fun queued => by simp at queued
    · exact fun _ => by simp [Attempt.receiptPoint, unread]
    · exact fun running => by simp at running
    · exact fun ended => by simp at ended
    · exact fun last => placed.terminal last
  | received _ durable receipt status named fresh first reconciled =>
    by_cases held : row.status = .cancelRequested ∧ ¬ receipt.Terminal
    · rw [if_pos held]
      exact placed_elsewhere (.inr (.inl (status_received _ _))) (received_last _ _)
    · rw [if_neg held]
      exact received_placed reconciled
  | recovered _ observation workerId specDigest bundleDigest owned fresh openEnd =>
    exact placed_elsewhere (.inl rfl) placed.terminal
  | unreachable _ attempt reason named openEnd =>
    refine placed_elsewhere ?_ placed.terminal
    by_cases requested : row.status = .cancelRequested
    · exact .inr (.inl (if_pos requested))
    · exact .inl (if_neg requested)
  | cancelled _ queued => exact placed_elsewhere (.inr (.inr rfl)) placed.terminal
  | cancelRequested _ started =>
    by_cases settled : row.status.Terminal ∨ row.terminalReceipt ≠ none ∨ row.recovery ≠ none
    · simp only [if_pos settled]
      exact ⟨placed.queued, placed.assigned, placed.running, placed.ended, placed.terminal⟩
    · simp only [if_neg settled]
      exact placed_elsewhere (.inr (.inl rfl)) placed.terminal
  | _ => exact ⟨placed.queued, placed.assigned, placed.running, placed.ended, placed.terminal⟩

theorem Change.receiptPoint {system : System} (change : Change action row row')
    (placed : row.Placed) (member : row ∈ system.queue.attempts)
    (ordered : InOrder system action) : row.receiptPoint ≤ row'.receiptPoint := by
  cases change with
  | received _ durable receipt status named fresh first reconciled =>
    have started := (reconciledStatus_point reconciled).1
    have bounded := receiptPoint_le_three row
    have unfinished : row.receiptPoint ≠ 3 := fun last => placed.terminal last first
    have recent := ordered row member named.symm fresh first
    rw [received_receiptPoint]
    by_cases running : row.receiptPoint = 2
    · have later := recent running
      omega
    · omega
  | _ => exact Nat.le_refl _

theorem Change.ended (change : Change action row row') (placed : row.Placed)
    (ended : row.terminalReceipt ≠ none) :
    row'.terminalReceipt ≠ none ∧ row'.status = row.status := by
  cases change with
  | assigned _ workerId queued => exact absurd (placed.queued queued).2.2 ended
  | received _ durable receipt status named fresh first reconciled => exact absurd first ended
  | recovered _ observation workerId specDigest bundleDigest owned fresh openEnd =>
    exact absurd openEnd ended
  | unreachable _ attempt reason named openEnd => exact absurd openEnd ended
  | cancelled _ queued => exact absurd (placed.queued queued).2.2 ended
  | cancelRequested _ started => exact ⟨ended, if_pos (.inr (.inl ended))⟩
  | _ => exact ⟨ended, rfl⟩

theorem statusPoint_pos {point : Nat} (stated : point ∈ row.statusPoint) : 0 < point := by
  unfold Attempt.statusPoint at stated
  split at stated
  next => cases stated; omega
  next => cases stated; omega
  next => cases stated; omega
  next => cases stated; omega
  next => cases stated; omega
  next =>
    split at stated <;> cases stated
    omega
  next =>
    split at stated <;> cases stated
    omega
  next => cases stated
  next => cases stated

theorem Attempt.Placed.running_of_point (placed : row.Placed)
    (openEnd : row.terminalReceipt = none) {point : Nat} (stated : point ∈ row.statusPoint)
    (later : 1 < point) : point = 2 ∧ row.receiptPoint = 2 := by
  unfold Attempt.statusPoint at stated
  split at stated
  next => cases stated; omega
  next running =>
    cases stated
    exact ⟨rfl, placed.running running⟩
  next ended => exact absurd openEnd (placed.ended (.inl ended))
  next ended => exact absurd openEnd (placed.ended (.inr (.inl ended)))
  next ended => exact absurd openEnd (placed.ended (.inr (.inr ended)))
  next => simp [openEnd] at stated
  next => simp [openEnd] at stated
  next => cases stated
  next => cases stated

theorem Attempt.Placed.assigned_of_point (placed : row.Placed) {point : Nat}
    (stated : point ∈ row.statusPoint) (early : point ≤ 1) : row.receiptPoint ≤ 1 := by
  unfold Attempt.statusPoint at stated
  split at stated
  next assigned => exact placed.assigned assigned
  next => cases stated; omega
  next => cases stated; omega
  next => cases stated; omega
  next => cases stated; omega
  next =>
    split at stated <;> cases stated
    omega
  next =>
    split at stated <;> cases stated
    omega
  next => cases stated
  next => cases stated

theorem Attempt.Placed.forward (placed : row.Placed) (placed' : row'.Placed)
    (receipt : row.receiptPoint ≤ row'.receiptPoint)
    (ended : row.terminalReceipt ≠ none →
      row'.terminalReceipt ≠ none ∧ row'.status = row.status) :
    row.Forward row' := by
  refine ⟨receipt, ?_⟩
  intro point stated point' stated'
  by_cases openEnd : row.terminalReceipt = none
  · by_contra back
    have positive := statusPoint_pos stated'
    obtain ⟨second, reached⟩ := placed.running_of_point openEnd stated (by omega)
    have early := placed'.assigned_of_point stated' (by omega)
    omega
  · obtain ⟨ended', same⟩ := ended openEnd
    have equal : row'.statusPoint = row.statusPoint := by
      unfold Attempt.statusPoint
      rw [same, if_pos ended', if_pos openEnd]
    rw [equal, Option.mem_def.mp stated] at stated'
    cases stated'
    exact Nat.le_refl _

end

theorem fresh_placed (row : Attempt) (fresh : Fresh row) : row.Placed := by
  rw [fresh]
  constructor
  · exact fun _ => ⟨rfl, rfl, rfl⟩
  · exact fun _ => Nat.zero_le _
  · exact fun running => by simp at running
  · exact fun ended => by simp at ended
  · exact fun last => by simp [Attempt.receiptPoint] at last

structure Attempt.Advances (row row' : Attempt) : Prop where
  receipt : row.receiptPoint ≤ row'.receiptPoint
  ended : row.terminalReceipt ≠ none → row'.terminalReceipt ≠ none ∧ row'.status = row.status

def Queue.Forward (before after : Queue) : Prop :=
  ∀ row ∈ before.attempts, ∀ row' ∈ after.attempts, row'.attemptId = row.attemptId →
    row.Forward row'

theorem receipts_move_forward {earlier later : List Action} {before after : System}
    (reached : System.after {} earlier = some before) (ordered : before.Meets InOrder later)
    (continued : before.after later = some after) : before.queue.Forward after.queue := by
  have kept (action : Action) (row row' : Attempt) (change : Change action row row') :
      row.Placed → row'.Placed := change.placed
  obtain ⟨keyed, placed⟩ := after_rows fresh_placed kept keyed_empty (by simp) reached
  have placed' := (after_rows fresh_placed kept keyed placed continued).2
  have extend (system : System) (action : Action) (row row' row'' : Attempt)
      (ordered : InOrder system action) (member : row ∈ system.queue.attempts)
      (placed : row.Placed) (change : Change action row row') (rest : row'.Advances row'') :
      row.Advances row'' := by
    have further := change.receiptPoint placed member ordered
    refine ⟨Nat.le_trans further rest.receipt, ?_⟩
    intro ended
    obtain ⟨ended', same⟩ := change.ended placed ended
    obtain ⟨ended'', same'⟩ := rest.ended ended'
    exact ⟨ended'', same'.trans same⟩
  intro row member row' member' named
  have advances : row.Advances row' :=
    after_related fresh_placed kept (fun _ => ⟨Nat.le_refl _, fun ended => ⟨ended, rfl⟩⟩)
      extend keyed placed ordered continued member member' named
  exact (placed row member).forward (placed' row' member') advances.receipt advances.ended

section

def runningActions : List Action :=
  startedActions ++ [.reconcile assignedReading (workerReceipt .running)]

def workingSystem (state : ReceiptState) (status : QueueStatus) : System where
  queue := {
    attempts := [{ assignedReading.row with receipt := some (workerReceipt state), status }]
    experiments := [{
      experimentId := "experiment-1", spec := queuedEntry.spec, status }] }
  seen := [assignedReading, queuedReading]

theorem runningActions_after :
    System.after {} runningActions = some (workingSystem .running .running) := by
  decide +kernel

def launchReply : List Action := [.reconcile assignedReading (workerReceipt .prepared)]

theorem launchReply_after : (workingSystem .running .running).after launchReply =
    some (workingSystem .prepared .assigned) := by
  decide +kernel

theorem receipts_move_back : ¬ ∀ (earlier later : List Action) (before after : System),
    System.after {} earlier = some before → before.after later = some after →
      before.queue.Forward after.queue := by
  intro forward
  have moved := (forward _ _ _ _ runningActions_after launchReply_after _ List.mem_cons_self _
    List.mem_cons_self rfl).receipt
  revert moved
  decide

theorem receipts_move_forward_again : (workingSystem .running .running).queue.Forward
    (workingSystem .running .running).queue := by
  refine @receipts_move_forward runningActions
    [.reconcile assignedReading (workerReceipt .running)] _ _ runningActions_after ?_
    (by decide +kernel)
  refine ⟨?_, fun _ _ => trivial⟩
  intro _ _ _ _ _ _
  decide

end

structure Attempt.Evidenced (row : Attempt) : Prop where
  placed : row.Placed
  fenced : row.Fenced
  complete : row.ingestionStatus = .complete → Evident row

structure Attempt.Settles (row row' : Attempt) : Prop where
  worker : ∀ workerId, row.workerId = some workerId → row'.workerId = some workerId
  terminal : ∀ receipt, row.terminalReceipt = some receipt →
    row'.terminalReceipt = some receipt ∧ row'.status = row.status ∧ row'.recovery = none
  recovery : ∀ observation, row.recovery = some observation →
    row'.recovery = some observation ∧ row'.terminalReceipt = none

variable {action : Action} {row row' : Attempt}

theorem Attempt.Fenced.unrecovered (fenced : row.Fenced) (ended : row.terminalReceipt ≠ none) :
    row.recovery = none :=
  not_not.mp fun recovered => ended (fenced recovered).1

theorem Change.complete (change : Change action row row')
    (complete : row.ingestionStatus = .complete → Evident row) :
    row'.ingestionStatus = .complete → Evident row' := by
  intro completed
  cases change with
  | received _ durable receipt status named fresh first reconciled =>
    unfold Queue.received at completed
    split at completed
    · cases completed
    · exact absurd (complete completed) (by simp [Evident, fresh, first])
  | recovered | notRequired | failed | cancelled => cases completed
  | ingested _ evident settled => exact evident
  | _ => exact complete completed

theorem Change.evidenced (change : Change action row row') (evidenced : row.Evidenced) :
    row'.Evidenced :=
  ⟨change.placed evidenced.placed, change.fenced evidenced.fenced,
    change.complete evidenced.complete⟩

theorem fresh_evidenced (row : Attempt) (fresh : Fresh row) : row.Evidenced := by
  refine ⟨fresh_placed row fresh, fresh_fenced row fresh, fun completed => ?_⟩
  rw [fresh] at completed
  cases completed

theorem Change.settles (change : Change action row row') (evidenced : row.Evidenced) :
    row.Settles row' where
  worker workerId owned := by
    cases change with
    | assigned _ other queued =>
      exact absurd ((evidenced.placed.queued queued).1.symm.trans owned) (by simp)
    | received => unfold Queue.received; split <;> exact owned
    | _ => exact owned
  terminal receipt ended := by
    have some : row.terminalReceipt ≠ none := by simp [ended]
    refine ⟨?_, (change.ended evidenced.placed some).2,
      (change.recovery some).trans (evidenced.fenced.unrecovered some)⟩
    cases change with
    | received _ durable other status named fresh first reconciled => exact absurd first some
    | _ => exact ended
  recovery observation recovered := by
    have some : row.recovery ≠ none := by simp [recovered]
    obtain ⟨unended, started⟩ := evidenced.fenced some
    cases change with
    | assigned _ other queued => exact absurd queued started
    | received _ durable other status named fresh first reconciled => exact absurd fresh some
    | recovered _ other workerId specDigest bundleDigest owned fresh openEnd =>
      exact absurd fresh some
    | _ => exact ⟨recovered, unended⟩

theorem Attempt.Settles.trans {middle : Attempt} (first : row.Settles middle)
    (second : middle.Settles row') : row.Settles row' where
  worker workerId owned := second.worker workerId (first.worker workerId owned)
  terminal receipt ended := by
    obtain ⟨ended', same, -⟩ := first.terminal receipt ended
    obtain ⟨ended'', same', unrecovered⟩ := second.terminal receipt ended'
    exact ⟨ended'', same'.trans same, unrecovered⟩
  recovery observation recovered :=
    second.recovery observation (first.recovery observation recovered).1

theorem Attempt.Evidenced.settles (evidenced : row.Evidenced) : row.Settles row :=
  (Change.kept .read row).settles evidenced

theorem meets_true (actions : List Action) (system : System) :
    system.Meets (fun _ _ => True) actions := by
  induction actions generalizing system with
  | nil => trivial
  | cons action actions ih => exact ⟨trivial, fun next _ => ih next⟩

/-- Whatever the interleaving, the first evidence of an attempt is the only one: neither a later
receipt nor a later loss replaces it, and no parent that can be resumed is without it. -/
theorem evidence_settles {earlier later : List Action} {before after : System}
    (reached : System.after {} earlier = some before)
    (continued : before.after later = some after) :
    (∀ row ∈ before.queue.attempts, ∀ row' ∈ after.queue.attempts,
      row'.attemptId = row.attemptId → row.Settles row') ∧
    ∀ row ∈ after.queue.attempts,
      (row.terminalReceipt = none ∨ row.recovery = none) ∧ (Resumable row → Evident row) := by
  have kept (action : Action) (row row' : Attempt) (change : Change action row row') :
      row.Evidenced → row'.Evidenced := change.evidenced
  obtain ⟨keyed, evidenced⟩ := after_rows fresh_evidenced kept keyed_empty (by simp) reached
  have extend (system : System) (action : Action) (row row' row'' : Attempt) (_ : True)
      (_ : row ∈ system.queue.attempts) (evidenced : row.Evidenced)
      (change : Change action row row') (rest : row'.Evidenced → row'.Settles row'') :
      row.Evidenced → row.Settles row'' :=
    fun _ => (change.settles evidenced).trans (rest (change.evidenced evidenced))
  constructor
  · intro row member row' member' named
    exact after_related fresh_evidenced kept (fun _ evidenced => evidenced.settles) extend keyed
      evidenced (meets_true later before) continued member member' named (evidenced row member)
  · intro row member
    have settled := (after_rows fresh_evidenced kept keyed evidenced continued).2 row member
    refine ⟨?_, fun resumable => settled.complete resumable.2.1⟩
    by_cases recovered : row.recovery = none
    · exact .inr recovered
    · exact .inl (settled.fenced recovered).1

theorem evidence_settles_retried :
    contradictedRow.Settles retriedRow ∧ Resumable retriedRow ∧ Evident retriedRow := by
  have settles := evidence_settles contradictedActions_after retryActions_after
  have resumable : Resumable retriedRow := by decide +kernel
  exact ⟨settles.1 _ (.head _) _ (.head _) rfl, resumable, (settles.2 _ (.head _)).2 resumable⟩

end SparseLab.Workers
