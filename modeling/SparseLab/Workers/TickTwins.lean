import SparseLab.Workers.QueueInvariants
import SparseLab.Workers.TickRoutines

/-! The routines of other attempts cannot tell whether an attempt is on the desk. -/

namespace SparseLab.Workers.Ticks

open Library Workers.Queue

def PlainReading (reading reading' : Reading) : Prop :=
  ∃ reason, reading' = ⟨{ reading.row with queuedReason := reason }, reading.spec⟩

section

variable {victim : Victim} {own : Attempt → Prop} {queue queue' : Queue}

theorem filterMap_plain {rows rows' : List Attempt} {specs : String → Option Spec}
    (related : List.Forall₂ Plain rows rows') :
    List.Forall₂ PlainReading
      (rows.filterMap fun row => (specs row.experimentId).map fun spec => ⟨row, spec⟩)
      (rows'.filterMap fun row => (specs row.experimentId).map fun spec => ⟨row, spec⟩) := by
  induction related with
  | nil => exact .nil
  | @cons row row' rows rows' plain related ih =>
    obtain ⟨reason, rfl⟩ := plain.eq
    rw [List.filterMap_cons, List.filterMap_cons]
    cases specs row.experimentId with
    | none => exact ih
    | some spec => exact .cons ⟨reason, rfl⟩ ih

theorem filter_readings (queue : Queue) (name : String) :
    queue.readings.filter (·.row.attemptId ≠ name) =
      (queue.attempts.filter (·.attemptId ≠ name)).filterMap fun row =>
        (queue.specOf row.experimentId).map fun spec => ⟨row, spec⟩ := by
  unfold Queue.readings
  rw [List.filter_filterMap, List.filterMap_filter]
  congr 1
  funext row
  cases queue.specOf row.experimentId <;> by_cases same : row.attemptId = name <;> simp [same]

theorem Aside.readings (aside : Aside victim own queue queue') :
    List.Forall₂ PlainReading (queue.readings.filter (·.row.attemptId ≠ victim.name))
      queue'.readings := by
  rw [filter_readings]
  unfold Queue.readings
  rw [aside.specs, aside.specs']
  exact filterMap_plain aside.rows

end

section

variable {victim : Victim} {own : Attempt → Prop} {env : Environment} {place : Place}
  {attempt : Reading}

theorem alike_attemptByRun {run : String} (different : run ≠ victim.run) :
    Alike (Apart victim own)
      (fun found found' => (found = none ∧ found' = none) ∨
        ∃ durable durable', found = some durable ∧ found' = some durable' ∧
          durable.row.runId = run ∧ durable.row.attemptId ≠ victim.name ∧
            PlainReading durable durable')
      (attemptByRun run) (attemptByRun run) := by
  intro desk desk' apart
  have kept : ∀ reading ∈ desk.queue.readings, decide (reading.row.runId = run) = true →
      decide (reading.row.attemptId ≠ victim.name) = true := by
    intro reading member named
    have present := mem_readings member
    simp only [decide_eq_true_eq] at named ⊢
    exact fun same => different (named.symm.trans ((apart.queue.runs _ present).mpr same))
  have found := find?_related (fun reading : Reading => decide (reading.row.runId = run))
    apart.queue.readings fun reading reading' plain => by
      obtain ⟨reason, rfl⟩ := plain
      rfl
  rw [find?_filter kept] at found
  refine .ok ?_ apart
  obtain absent | ⟨durable, durable', stored, stored', plain⟩ := found
  · exact .inl absent
  · have named : durable.row.runId = run := by simpa using List.find?_some stored
    have listed := kept durable (List.mem_of_find?_eq_some stored) (by simpa using named)
    exact .inr ⟨durable, durable', stored, stored', named, by simpa using listed, plain⟩

section

variable (different : attempt.row.attemptId ≠ victim.name)

include different

theorem alike_reconcile (differentRun : attempt.row.runId ≠ victim.run) (receipt : Receipt) :
    Blind victim own (reconcileReceipt env place attempt receipt) := by
  refine (alike_attemptByRun differentRun).bind fun found found' same => ?_
  obtain ⟨rfl, rfl⟩ | ⟨durable, durable', rfl, rfl, _, _, plain⟩ := same
  · exact .throw _
  have read : Alike (Apart victim own) PlainReading
      (raiseIfNone (.protocol "receipt has no durable attempt") (some durable) : Routine Reading)
      (raiseIfNone (.protocol "receipt has no durable attempt") (some durable')) := .pure plain
  refine read.bind fun durable durable' plain => ?_
  obtain ⟨reason, rfl⟩ := plain
  refine .bind_same (.raiseIf _ _) fun _ => .bind_same (.raiseIfNone _ _) fun state => ?_
  refine .bind_same (alike_commit (uniform_setReceipt different receipt _)) fun _ => ?_
  refine .bind_same (.orRaise _) fun delivery => ?_
  cases delivery with
  | none => exact .pure rfl
  | some delivery =>
    exact .ite (fun _ => .pure rfl) fun _ => .bind_same (.raiseIf _ _) fun _ => .orRaise _

theorem alike_admission (worker : Worker) :
    Blind victim own (admitLaunch env place attempt worker) := by
  have replay : Blind victim own (admitLaunch.assignOrReplay env place attempt worker) := by
    refine .bind_same (.orRaise _) fun _ => .ite (fun _ => ?_) fun _ => ?_
    · exact alike_commit (uniform_assign different worker.workerId)
    · exact .bind_same (.raiseIf _ _) fun _ => .pure rfl
  refine .ite (fun _ => ?_) fun _ => replay
  refine .bind_same (.orRaise _) fun _ => .bind_same (.orRaise _) fun delivery => ?_
  cases delivery with
  | none => exact replay
  | some delivery =>
    exact .ite (fun _ => .bind_same (.orRaise _) fun _ => .pure rfl) fun _ => .pure rfl

theorem alike_installBundle (worker : Worker) :
    Blind victim own (installBundle env place attempt worker) := by
  refine .bind_same (.orRaise _) fun manifest => .bind_same (.orRaise _) fun _ => ?_
  refine .bind_same (alike_send different _ _) fun _ => ?_
  refine .bind_same (.orRaise _) fun _ => .bind_same (.raiseIfNone _ _) fun missing => ?_
  refine .bind_same (.raiseIf _ _) fun _ => .bind_same (alike_send different _ _) fun _ => ?_
  exact .bind_same (.orRaise _) fun installed => .raiseIf _ _

theorem alike_deliver (differentRun : attempt.row.runId ≠ victim.run) (worker : Worker) :
    Blind victim own (deliver env place attempt worker) := by
  refine .bind_same (.orRaise _) fun _ => .bind_same (alike_send different _ _) fun _ => ?_
  refine .bind_same (.orRaise _) fun _ => .bind_same (.raiseIfNone _ _) fun receipt => ?_
  refine .bind_same (alike_reconcile different differentRun receipt) fun _ => ?_
  refine .ite (fun _ => ?_) fun _ => .pure rfl
  refine .bind_same (.orRaise _) fun _ => .bind_same (.orRaise _) fun delivery => ?_
  cases delivery with
  | none => exact .throw _
  | some delivery => exact .ite (fun _ => .orRaise _) fun _ => .pure rfl

theorem alike_launch (differentRun : attempt.row.runId ≠ victim.run) (workerId : String) :
    Blind victim own (launch env place attempt workerId) := by
  refine .bind_same (.raiseIfNone _ _) fun worker => ?_
  have delivered : Blind victim own
      (do
        installBundle env place attempt worker
        deliver env place attempt worker : Routine Unit) :=
    .bind_same (alike_installBundle different worker) fun _ =>
      alike_deliver different differentRun worker
  refine .bind_same (alike_admission different worker) fun goes => .ite (fun _ => ?_) fun _ => .pure rfl
  exact .ite (fun _ => .bind_same (.orRaise _) fun _ => delivered) fun _ => delivered

theorem alike_askStatus (worker : Worker) :
    Blind victim own (askStatus env place attempt worker) := by
  refine .bind_same (alike_send different _ _) fun _ => .bind_same (.orRaise _) fun answer => ?_
  exact .bind_same (.raiseIf _ _) fun _ => .pure rfl

theorem alike_callCancel (differentRun : attempt.row.runId ≠ victim.run) (worker : Worker) :
    Blind victim own (callCancel env place attempt worker) := by
  refine .bind_same (alike_send different _ _) fun _ => ?_
  refine .bind_same (.attempting (.bind_same (.orRaise _) fun _ => .pure rfl)
    fun _ _ => .pure rfl) fun answered => ?_
  cases answered with
  | none => exact .pure rfl
  | some receipt =>
    cases receipt with
    | none => exact .pure rfl
    | some receipt => exact alike_reconcile different differentRun receipt

end

theorem alike_cancel (differentRun : attempt.row.runId ≠ victim.run) :
    Blind victim own (cancel env place attempt.row.runId) := by
  refine .bind_same (alike_commit (uniform_requestCancel differentRun)) fun status => ?_
  refine .ite (fun _ => .pure rfl) fun _ => ?_
  refine (alike_attemptByRun differentRun).bind fun found found' same => ?_
  obtain ⟨rfl, rfl⟩ | ⟨durable, durable', rfl, rfl, run, name, plain⟩ := same
  · exact .throw _
  have read : Alike (Apart victim own) (fun found found' => found.row.runId = attempt.row.runId ∧
        found.row.attemptId ≠ victim.name ∧ PlainReading found found')
      (raiseIfNone ⟨.other, "AssertionError", ""⟩ (some durable) : Routine Reading)
      (raiseIfNone ⟨.other, "AssertionError", ""⟩ (some durable')) := .pure ⟨run, name, plain⟩
  refine read.bind fun durable durable' same => ?_
  obtain ⟨run, name, ⟨reason, rfl⟩⟩ := same
  cases workerForAttempt env durable.row.workerId with
  | none => exact .pure rfl
  | some worker =>
    have called : Blind victim own (callCancel env place durable worker) :=
      alike_callCancel name (by rw [run]; exact differentRun) worker
    refine .ite (fun _ => .bind_same (.orRaise _) fun delivery => ?_) fun _ => called
    exact .ite (fun _ => .attempting (.orRaise _) fun _ _ => .pure rfl) fun _ => called

theorem alike_collectRelay (different : attempt.row.attemptId ≠ victim.name)
    (differentRun : attempt.row.runId ≠ victim.run) :
    Blind victim own (collectRelay env place attempt) := by
  refine .bind_same (.forM fun write => ?_) fun _ => .orRaise _
  cases write with
  | receipt receipt => exact alike_reconcile different differentRun receipt
  | unreachable reason => exact alike_commit (uniform_markUnknown different reason)
  | notRequired => exact alike_commit (uniform_notRequired different)
  | complete => exact alike_commit (uniform_complete different)

theorem alike_relayRecords (quiet : env.act place .relayRecords victim.name = .ok ())
    {readings readings' : List Reading}
    (related : List.Forall₂ PlainReading (readings.filter (·.row.attemptId ≠ victim.name))
      readings') :
    Alike (Apart victim own) (· = ·)
      (readings.forM fun reading => ask (env.act place .relayRecords reading.row.attemptId))
      (readings'.forM fun reading => ask (env.act place .relayRecords reading.row.attemptId)) := by
  induction readings generalizing readings' with
  | nil =>
    cases related
    exact .pure rfl
  | cons reading readings ih =>
    by_cases same : reading.row.attemptId = victim.name
    · rw [List.filter_cons_of_neg (by simp [same])] at related
      have skipped : ask (env.act place .relayRecords reading.row.attemptId) =
          (pure () : Routine Unit) := by
        rw [same, quiet]
        rfl
      rw [List.forM, skipped]
      exact ih related
    · rw [List.filter_cons_of_pos (by simp [same])] at related
      obtain ⟨reading', rest, ⟨reason, rfl⟩, later, rfl⟩ := List.forall₂_cons_left_iff.mp related
      exact .bind_same (.orRaise _) fun _ => ih later

theorem alike_ingestRecords (quiet : env.act place .relayRecords victim.name = .ok ())
    (worker : Worker) :
    Blind victim own (ingestRecords env place attempt worker) := by
  refine .ite (fun _ => ?_) fun _ => .orRaise _
  intro desk desk' apart
  refine alike_relayRecords quiet ?_ desk desk' apart
  rw [List.filter_comm]
  refine List.rel_filter (fun reading reading' plain => ?_) apart.queue.readings
  obtain ⟨reason, rfl⟩ := plain
  rfl

section

variable (different : attempt.row.attemptId ≠ victim.name)

include different

theorem alike_ingest (differentRun : attempt.row.runId ≠ victim.run)
    (quiet : env.act place .relayRecords victim.name = .ok ()) (worker : Worker)
    (receipt : Receipt) :
    Blind victim own (ingest env place attempt worker receipt) := by
  refine .ite (fun _ => alike_collectRelay different differentRun) fun _ => ?_
  refine .bind_same (.orRaise _) fun free => .ite (fun _ => ?_) fun _ => ?_
  · exact alike_commit (uniform_notRequired different)
  · refine .bind_same (alike_ingestRecords quiet worker) fun _ => ?_
    refine .bind_same (.orRaise _) fun _ => .bind_same (.orRaise _) fun _ => ?_
    exact alike_commit (uniform_complete different)

theorem alike_pollReceipt (differentRun : attempt.row.runId ≠ victim.run) (worker : Worker) :
    Blind victim own (pollReceipt env attempt worker) := by
  have asked : Blind victim own
      (askStatus env .poll attempt worker >>= reconcileAnswer env attempt) := by
    refine .bind_same (alike_askStatus different worker) fun answer => ?_
    unfold reconcileAnswer
    cases answer.receipt with
    | none => exact .pure rfl
    | some receipt =>
      exact .bind_same (alike_reconcile different differentRun receipt) fun _ => .pure rfl
  exact .ite (fun _ => .bind_same (alike_cancel differentRun) fun _ => asked) fun _ => asked

theorem alike_pollFailed
    (differentRun : attempt.row.runId ≠ victim.run) (worker : Worker) (fault : Fault) :
    Blind victim own (pollFailed env attempt worker fault) := by
  refine .ite (fun _ => .pure rfl) fun _ => ?_
  refine .bind_same (alike_commit (uniform_markUnknown different _)) fun _ => ?_
  refine .ite (fun _ => ?_) fun _ => .pure rfl
  exact .attempting (alike_collectRelay different differentRun) fun _ _ => .pure rfl

theorem alike_pollActive (differentRun : attempt.row.runId ≠ victim.run)
    (quiet : env.act .poll .relayRecords victim.name = .ok ()) :
    Blind victim own (pollActive env attempt) := by
  refine .ite (fun _ => .pure rfl) fun _ => ?_
  cases workerForAttempt env attempt.row.workerId with
  | none => exact alike_commit (uniform_markUnknown different _)
  | some worker =>
    refine .bind_same (.attempting (alike_pollReceipt different differentRun worker)
      fun fault _ => .bind_same (alike_pollFailed different differentRun worker fault)
        fun _ => .pure rfl) fun polled => ?_
    cases polled with
    | none => exact .pure rfl
    | some found =>
      refine .bind_same (.raiseIfNone _ _) fun _ => .attempting (.ite (fun _ => ?_) fun _ => ?_)
        fun fault _ => .ite (fun _ => .pure rfl) fun _ => .ite (fun _ => ?_) fun _ => .pure rfl
      · exact alike_ingest different differentRun quiet worker found.1
      · exact alike_ingestRecords quiet worker
      · exact alike_commit (uniform_ingestionError different _)

theorem alike_replayLaunch (differentRun : attempt.row.runId ≠ victim.run) (worker : Worker) :
    Blind victim own (replayLaunch env attempt worker) := by
  have launched : Blind victim own
      (do
        launch env .replay attempt worker.workerId
        pure true : Routine Bool) :=
    .bind_same (alike_launch different differentRun worker.workerId) fun _ => .pure rfl
  refine .attempting (.ite (fun _ => ?_) fun _ => launched) fun _ _ => .pure rfl
  exact .bind_same (alike_send different _ _) fun _ => .bind_same (.orRaise _) fun _ => launched

theorem alike_replayAssigned (differentRun : attempt.row.runId ≠ victim.run) :
    Blind victim own (replayAssigned env attempt) := by
  refine .ite (fun _ => .pure rfl) fun _ => ?_
  cases workerForAttempt env attempt.row.workerId with
  | none => exact .pure rfl
  | some worker =>
    refine .bind_same (.orRaise _) fun delivery => .ite (fun _ => .pure rfl) fun _ => ?_
    refine .bind_same (.attempting (.bind_same (alike_askStatus different worker)
      fun _ => .pure rfl) fun _ _ => .pure rfl) fun answered => ?_
    cases answered with
    | none => exact .pure rfl
    | some answer =>
      have launched : Blind victim own (replayLaunch env attempt worker) :=
        alike_replayLaunch different differentRun worker
      cases stored : answer.receipt with
      | none =>
        dsimp only
        rw [stored]
        exact launched
      | some receipt =>
        dsimp only
        rw [stored]
        refine .bind_same (alike_reconcile different differentRun receipt) fun _ => ?_
        exact .ite (fun _ => .pure rfl) fun _ => launched

theorem alike_retryIngestion (differentRun : attempt.row.runId ≠ victim.run)
    (quiet : env.act .ingestion .relayRecords victim.name = .ok ()) :
    Blind victim own (retryIngestion env attempt) := by
  unfold retryIngestion
  cases workerForAttempt env attempt.row.workerId with
  | none => exact .pure rfl
  | some worker =>
    have marked : ∀ message, Blind victim own
        (commit (markIngestionError attempt.row.attemptId message)) :=
      fun message => alike_commit (uniform_ingestionError different message)
    refine .ite (fun _ => ?_) fun _ => ?_
    · exact .attempting (alike_collectRelay different differentRun) fun fault _ => marked fault.text
    · cases attempt.row.terminalReceipt with
      | none => exact .pure rfl
      | some receipt =>
        refine .attempting (.bind_same (alike_askStatus different worker) fun answer => ?_)
          fun fault _ => .ite (fun _ => .pure rfl) fun _ => marked fault.text
        exact .bind_same (.raiseIfNone _ _) fun _ =>
          alike_ingest different differentRun quiet worker receipt

end

end

end SparseLab.Workers.Ticks
