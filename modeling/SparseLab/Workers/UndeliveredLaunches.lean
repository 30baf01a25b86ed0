import SparseLab.Workers.TickIsolation

/-! What the routines of a tick mean for a launch that never reached its worker. -/

namespace SparseLab.Workers.Ticks

open Library Workers.Queue

section

variable {env : Environment} {place : Place} {attempt : Reading} {worker : Worker} {call : Sent}

abbrev Grows {α : Type} (call : Sent) (routine : Routine α) : Prop :=
  Keeps (fun desk : Desk => call ∈ desk.sent) (fun _ => True) routine

theorem grows_ask {α : Type} (answer : Except Fault α) : Grows call (ask answer) :=
  .orRaise fun _ _ => trivial

theorem grows_commit {α : Type} (body : QueueTransaction α) : Grows call (commit body) := by
  intro desk told
  unfold Ends commit
  generalize transact body desk.queue = result
  obtain ⟨failure | value, queue⟩ := result
  · exact ⟨trivial, told⟩
  · exact told

theorem grows_send (attemptId workerId : String) (other : Call) :
    Grows call (send attemptId workerId other) :=
  fun _ told => List.mem_append_left _ told

theorem grows_raiseIf {condition : Prop} [Decidable condition] (fault : Fault) :
    Grows call (raiseIf condition fault) :=
  .raiseIf fun _ => trivial

theorem grows_raiseIfNone {α : Type} (fault : Fault) (found : Option α) :
    Grows call (raiseIfNone fault found) := by
  cases found with
  | some value => exact .pure value
  | none => exact .throw trivial

theorem grows_attempting {α : Type} {caught : Fault → Prop} [DecidablePred caught]
    {body : Routine α} {handler : Fault → Routine α} (tried : Grows call body)
    (handled : ∀ fault, Grows call (handler fault)) : Grows call (attempting caught body handler) :=
  .attempting tried (fun fault _ _ => handled fault) fun _ _ _ => trivial

theorem grows_attemptByRun (runId : String) : Grows call (attemptByRun runId) :=
  Keeps.get.bind fun _ => .pure _

theorem grows_reconcile (receipt : Receipt) :
    Grows call (reconcileReceipt env place attempt receipt) := by
  refine (grows_attemptByRun _).bind fun _ => (grows_raiseIfNone _ _).bind fun _ => ?_
  refine (grows_raiseIf _).bind fun _ => (grows_raiseIfNone _ _).bind fun state => ?_
  refine (grows_commit _).bind fun _ => (grows_ask _).bind fun delivery => ?_
  cases delivery with
  | none => exact .pure _
  | some delivery =>
    refine .ite (fun _ => .pure _) fun _ => ?_
    exact (grows_raiseIf _).bind fun _ => grows_ask _

theorem grows_admission : Grows call (admitLaunch env place attempt worker) := by
  have assigned : Grows call (admitLaunch.assignOrReplay env place attempt worker) := by
    refine (grows_ask _).bind fun _ => .ite (fun _ => grows_commit _) fun _ => ?_
    exact (grows_raiseIf _).bind fun _ => .pure _
  refine .ite (fun _ => ?_) fun _ => assigned
  refine (grows_ask _).bind fun _ => (grows_ask _).bind fun delivery => ?_
  cases delivery with
  | none => exact assigned
  | some delivery => exact .ite (fun _ => (grows_ask _).bind fun _ => .pure _) fun _ => .pure _

theorem grows_installBundle : Grows call (installBundle env place attempt worker) := by
  refine (grows_ask _).bind fun _ => (grows_ask _).bind fun _ => (grows_send _ _ _).bind fun _ => ?_
  refine (grows_ask _).bind fun _ => (grows_raiseIfNone _ _).bind fun _ => ?_
  refine (grows_raiseIf _).bind fun _ => (grows_send _ _ _).bind fun _ => ?_
  exact (grows_ask _).bind fun _ => grows_raiseIf _

theorem grows_launched : Grows call (do
    let receipt ← raiseIfNone (.type "launch response omitted receipt")
      (← ask (env.launch place attempt.row.attemptId))
    reconcileReceipt env place attempt receipt
    if worker.hosted ∧ receipt.state = some .prepared then do
      ask (env.act place .recordPrepared attempt.row.attemptId)
      let delivery ← ask (env.delivery place .prepared attempt.row.attemptId)
      match delivery with
      | some delivery =>
        if delivery.prepared then ask (env.act place .issue attempt.row.attemptId) else pure ()
      | none => throw (.type "'NoneType' object is not subscriptable")
    else pure ()) := by
  refine (grows_ask _).bind fun _ => (grows_raiseIfNone _ _).bind fun _ => ?_
  refine (grows_reconcile _).bind fun _ => .ite (fun _ => ?_) fun _ => .pure _
  refine (grows_ask _).bind fun _ => (grows_ask _).bind fun delivery => ?_
  cases delivery with
  | none => exact .throw trivial
  | some delivery => exact .ite (fun _ => grows_ask _) fun _ => .pure _

theorem grows_launch (workerId : String) : Grows call (launch env place attempt workerId) := by
  refine (grows_raiseIfNone _ _).bind fun worker => grows_admission.bind fun goes => ?_
  refine .ite (fun _ => ?_) fun _ => .pure _
  have assigned : Grows call (if worker.relay then
      ask (env.act place .assignment attempt.row.attemptId) else pure ()) :=
    .ite (fun _ => grows_ask _) fun _ => .pure _
  refine .ite (fun _ => (grows_ask _).bind fun _ => ?_) fun _ => ?_
  all_goals
    refine grows_installBundle.bind fun _ => ?_
    exact (grows_ask _).bind fun _ => (grows_send _ _ _).bind fun _ => grows_launched

theorem grows_askStatus : Grows call (askStatus env place attempt worker) := by
  refine (grows_send _ _ _).bind fun _ => (grows_ask _).bind fun _ => ?_
  exact (grows_raiseIf _).bind fun _ => .pure _

theorem grows_collectRelay : Grows call (collectRelay env place attempt) := by
  refine Keeps.bind (.forM fun write _ => ?_) fun _ => grows_ask _
  cases write with
  | receipt receipt => exact grows_reconcile receipt
  | unreachable reason => exact grows_commit _
  | notRequired => exact grows_commit _
  | complete => exact grows_commit _

theorem grows_ingestRecords : Grows call (ingestRecords env place attempt worker) := by
  refine .ite (fun _ => ?_) fun _ => grows_ask _
  exact Keeps.get.bind fun _ => .forM fun _ _ => grows_ask _

theorem grows_ingest (receipt : Receipt) : Grows call (ingest env place attempt worker receipt) := by
  refine .ite (fun _ => grows_collectRelay) fun _ => ?_
  refine (grows_ask _).bind fun _ => .ite (fun _ => grows_commit _) fun _ => ?_
  refine grows_ingestRecords.bind fun _ => (grows_ask _).bind fun _ => ?_
  exact (grows_ask _).bind fun _ => grows_commit _

theorem grows_replayLaunch : Grows call (replayLaunch env attempt worker) := by
  refine grows_attempting ?_ fun _ => .pure _
  refine .ite (fun _ => ?_) fun _ => (grows_launch _).bind fun _ => .pure _
  refine (grows_send _ _ _).bind fun _ => (grows_ask _).bind fun _ => ?_
  exact (grows_launch _).bind fun _ => .pure _

theorem grows_replayAssigned : Grows call (replayAssigned env attempt) := by
  refine .ite (fun _ => .pure _) fun _ => ?_
  cases workerForAttempt env attempt.row.workerId with
  | none => exact .pure _
  | some worker =>
    refine (grows_ask _).bind fun delivery => .ite (fun _ => .pure _) fun _ => ?_
    refine (grows_attempting (grows_askStatus.bind fun _ => .pure _) fun _ => .pure _).bind
      fun answer => ?_
    cases answer with
    | none => exact .pure _
    | some answer =>
      dsimp only
      cases answer.receipt with
      | none => exact grows_replayLaunch
      | some receipt =>
        refine (grows_reconcile _).bind fun _ => ?_
        exact .ite (fun _ => .pure _) fun _ => grows_replayLaunch

theorem grows_retryIngestion : Grows call (retryIngestion env attempt) := by
  unfold retryIngestion
  cases workerForAttempt env attempt.row.workerId with
  | none => exact .pure _
  | some worker =>
    refine .ite (fun _ => grows_attempting grows_collectRelay fun _ => grows_commit _) fun _ => ?_
    cases attempt.row.terminalReceipt with
    | none => exact .pure _
    | some receipt =>
      refine grows_attempting ?_ fun _ => .ite (fun _ => .pure _) fun _ => grows_commit _
      refine grows_askStatus.bind fun _ => (grows_raiseIfNone _ _).bind fun _ => ?_
      exact grows_ingest receipt

end

section

/-- The worker can be reached and has never heard of the attempt: every question about it is
answered without a receipt, and all that a delivery asks for before the launch itself is there. -/
structure Unheard (env : Environment) (identity : Identity) (worker : Worker) : Prop where
  registered : workerForAttempt env (some worker.workerId) = some worker
  status : ∀ place, ∃ originId,
    env.status place identity.attemptId worker.workerId = .ok ⟨none, originId⟩
  cancel : ∀ place, env.cancel place identity.attemptId = .ok none
  cancelling : ∃ delivery, env.delivery .poll .cancelling identity.attemptId = .ok delivery
  acts : ∀ act ∈ [Act.budget, .assignment, .verifyBundle, .writeSpec],
    env.act .replay act identity.attemptId = .ok ()
  bundle : ∃ manifest missing, dispatchBundle identity.spec.dispatchBundleDigest
      (env.bundles .replay identity.attemptId) = .ok manifest ∧
    env.check .replay identity.attemptId = .ok (some missing) ∧
      ∀ digest ∈ missing, digest ∈ manifest.files
  install : env.install .replay identity.attemptId = .ok (some identity.spec.dispatchBundleDigest)

def launchOf (attempt : Reading) (worker : Worker) : Sent :=
  ⟨attempt.row.attemptId, worker.workerId, .launch (launchPayload attempt)⟩

variable {env : Environment} {attempt : Reading} {worker : Worker}

theorem launch_delivers (unheard : Unheard env (identityOf attempt) worker)
    (native : worker.hosted = false) (owned : attempt.row.workerId = some worker.workerId)
    (waiting : attempt.row.status ∈ [QueueStatus.assigned, .cancelRequested]) (desk : Desk) :
    Ends (launch env .replay attempt worker.workerId) desk
      (fun _ written => launchOf attempt worker ∈ written.sent)
      fun _ written => launchOf attempt worker ∈ written.sent := by
  have unqueued : attempt.row.status ≠ .queued := by
    intro queued
    rw [queued] at waiting
    revert waiting
    decide
  obtain ⟨manifest, missing, found, checked, listed⟩ := unheard.bundle
  refine (ends_raiseIfNone_bind unheard.registered).mpr (ends_bind.mpr ?_)
  have admitted : ∀ desk, Ends (admitLaunch env .replay attempt worker) desk
      (fun goes written => goes = true ∧ written = desk) fun _ _ => False := by
    intro desk
    unfold admitLaunch
    rw [native, if_neg Bool.false_ne_true]
    refine (ends_orRaise_bind (unheard.acts .budget (by decide))).mpr ?_
    rw [if_neg unqueued]
    refine (ends_raiseIf_bind ?_).mpr (ends_pure.mpr ⟨rfl, rfl⟩)
    exact fun other => other.elim (fun absent => absent waiting) fun differs => differs owned
  refine (admitted desk).mono ?_ fun _ _ => False.elim
  rintro goes written ⟨rfl, rfl⟩
  have delivered : ∀ desk, Ends (do
      installBundle env .replay attempt worker
      deliver env .replay attempt worker) desk
      (fun _ written => launchOf attempt worker ∈ written.sent)
      fun _ written => launchOf attempt worker ∈ written.sent := by
    intro desk
    refine ends_bind.mpr ((ends_orRaise_bind found).mpr ?_)
    refine (ends_orRaise_bind (unheard.acts .verifyBundle (by decide))).mpr (ends_bind.mpr ?_)
    refine ends_modify.mpr ((ends_orRaise_bind checked).mpr ?_)
    refine (ends_raiseIfNone_bind rfl).mpr ((ends_raiseIf_bind ?_).mpr (ends_bind.mpr ?_))
    · rintro ⟨digest, member, absent⟩
      exact absent (listed digest member)
    refine ends_modify.mpr ((ends_orRaise_bind unheard.install).mpr ?_)
    unfold raiseIf
    rw [if_neg (not_not.mpr rfl)]
    refine ends_pure.mpr ((ends_orRaise_bind (unheard.acts .writeSpec (by decide))).mpr (ends_bind.mpr ?_))
    refine ends_modify.mpr ((grows_launched _ ?_).mono (fun _ _ => id) fun _ _ => And.right)
    exact List.mem_append_right _ List.mem_cons_self
  rw [if_pos rfl]
  by_cases relay : worker.relay
  · rw [if_pos relay]
    exact (ends_orRaise_bind (unheard.acts .assignment (by decide))).mpr (delivered _)
  · rw [if_neg relay]
    exact delivered _

theorem replay_delivers (unheard : Unheard env (identityOf attempt) worker)
    (native : worker.hosted = false) (owned : attempt.row.workerId = some worker.workerId)
    (waiting : attempt.row.status ∈ [QueueStatus.assigned, .cancelRequested])
    (present : attempt.row.recovery = none) (desk : Desk) :
    Ends (replayAssigned env attempt) desk
      (fun _ written => launchOf attempt worker ∈ written.sent)
      fun _ written => launchOf attempt worker ∈ written.sent := by
  obtain ⟨originId, answered⟩ := unheard.status .replay
  have replayed : ∀ desk, Ends (replayLaunch env attempt worker) desk
      (fun _ written => launchOf attempt worker ∈ written.sent)
      fun _ written => launchOf attempt worker ∈ written.sent := by
    intro desk
    have launched : ∀ desk, Ends (do
        launch env .replay attempt worker.workerId
        pure true) desk
        (fun _ written => launchOf attempt worker ∈ written.sent)
        fun fault written => if fault.Transport then
          Ends (pure false : Routine Bool) written
            (fun _ written => launchOf attempt worker ∈ written.sent)
            fun _ written => launchOf attempt worker ∈ written.sent
          else launchOf attempt worker ∈ written.sent := by
      intro desk
      refine ends_bind.mpr ((launch_delivers unheard native owned waiting desk).mono
        (fun _ _ => id) fun fault written told => ?_)
      split
      · exact told
      · exact told
    refine ends_attempting.mpr ?_
    by_cases cancels : attempt.row.status = .cancelRequested
    · rw [if_pos cancels]
      refine ends_bind.mpr (ends_modify.mpr ?_)
      exact (ends_orRaise_bind (unheard.cancel .replay)).mpr (launched _)
    · rw [if_neg cancels]
      exact launched desk
  unfold replayAssigned
  rw [if_neg (not_not.mpr present), owned, unheard.registered]
  dsimp only
  rw [native, if_neg Bool.false_ne_true]
  refine (ends_orRaise_bind rfl).mpr ?_
  rw [if_neg (by simp)]
  refine ends_bind.mpr (ends_attempting.mpr (ends_bind.mpr (ends_bind.mpr (ends_modify.mpr ?_))))
  refine (ends_orRaise_bind answered).mpr ?_
  rw [native]
  refine (ends_raiseIf_bind (fun hosted => Bool.false_ne_true hosted.1)).mpr ?_
  exact replayed _

end

section

def nameOf (row : Attempt) : String × String × String := (row.attemptId, row.runId, row.experimentId)

structure Watched (start : Queue) (launch : Sent) (kept : List Reading) (desk : Desk) : Prop where
  unique : (desk.queue.attempts.map (·.attemptId)).Nodup
  specs : desk.queue.specOf = start.specOf
  named : ∀ key, key ∈ desk.queue.attempts.map nameOf ↔ key ∈ start.attempts.map nameOf
  rows : ∀ reading ∈ kept, ∃ row ∈ desk.queue.attempts, Plain row reading.row
  unsent : launch ∉ desk.sent

variable {start : Queue} {launch : Sent} {kept : List Reading} {desk desk' written : Desk}
  {reading : Reading}

theorem names_of {rows rows' : List Attempt}
    (same : ∀ key, key ∈ rows.map nameOf ↔ key ∈ rows'.map nameOf) {row : Attempt}
    (member : row ∈ rows) : ∃ row' ∈ rows', nameOf row' = nameOf row :=
  List.mem_map.mp ((same _).mp (List.mem_map_of_mem member))

theorem nameOf_eq {row row' : Attempt} (same : nameOf row' = nameOf row) :
    row'.attemptId = row.attemptId ∧ row'.runId = row.runId ∧
      row'.experimentId = row.experimentId :=
  ⟨congrArg Prod.fst same, congrArg (·.2.1) same, congrArg (·.2.2) same⟩

theorem plain_nameOf {row row' : Attempt} (plain : Plain row row') : nameOf row' = nameOf row := by
  obtain ⟨reason, rfl⟩ := plain.eq
  rfl

theorem plain_same {row row' row'' : Attempt} (plain : Plain row row') :
    Plain row' row'' ↔ Plain row row'' := by
  obtain ⟨reason, rfl⟩ := plain.eq
  rfl

theorem reading_joined {queue : Queue} (member : reading ∈ queue.readings) :
    queue.specOf reading.row.experimentId = some reading.spec := by
  obtain ⟨row, _, stored⟩ := List.mem_filterMap.mp member
  obtain ⟨spec, joined, rfl⟩ := Option.map_eq_some_iff.mp stored
  exact joined

theorem Watched.identity (watched : Watched start launch kept desk)
    (member : reading ∈ desk.queue.readings) :
    ∃ earlier ∈ start.readings, identityOf earlier = identityOf reading := by
  obtain ⟨row', member', same⟩ := names_of watched.named (mem_readings member)
  obtain ⟨name, run, experiment⟩ := nameOf_eq same
  have joined := reading_joined member
  rw [watched.specs, ← experiment] at joined
  refine ⟨⟨row', reading.spec⟩, List.mem_filterMap.mpr ⟨row', member', by rw [joined]; rfl⟩, ?_⟩
  rw [identityOf, name, run, experiment]

variable (keyed : start.Keyed)

include keyed

theorem watched_start (unsent : launch ∉ desk.sent) (same : desk.queue = start)
    (members : ∀ reading ∈ kept, reading ∈ start.readings) : Watched start launch kept desk := by
  subst same
  exact ⟨keyed.attempts, rfl, fun _ => Iff.rfl,
    fun reading member => ⟨_, mem_readings (members reading member), rfl⟩, unsent⟩

theorem Watched.lacking (watched : Watched start launch kept desk) {earlier : Reading}
    (listed : earlier ∈ start.readings) (same : identityOf earlier = identityOf reading) :
    Lacking reading start.specOf anyWorker
      ⟨withoutAttempt desk.queue reading.row.attemptId,
        desk.sent.filter (·.attemptId ≠ reading.row.attemptId)⟩ desk := by
  obtain ⟨name, run, experiment, _⟩ := identity_eq same
  have present := mem_readings listed
  refine ⟨⟨plain_refl _, watched.specs, watched.specs, fun row member => ?_,
    fun row member named => ⟨?_, fun _ _ => trivial⟩, ?_, watched.unique⟩, rfl⟩
  · obtain ⟨row', member', same⟩ := names_of watched.named member
    obtain ⟨name', run', _⟩ := nameOf_eq same
    constructor
    · intro runs
      have equal := List.inj_on_of_nodup_map keyed.runs member' present
        (run'.trans (runs.trans run.symm))
      rw [← name', equal]
      exact name
    · intro named
      have equal := List.inj_on_of_nodup_map keyed.attempts member' present
        (name'.trans (named.trans name.symm))
      rw [← run', equal]
      exact run
  · obtain ⟨row', member', same⟩ := names_of watched.named member
    obtain ⟨name', _, experiment'⟩ := nameOf_eq same
    have equal := List.inj_on_of_nodup_map keyed.attempts member' present
      (name'.trans (named.trans name.symm))
    rw [← experiment', equal]
    exact experiment
  · obtain ⟨row, member, same⟩ := names_of (fun key => (watched.named key).symm) present
    exact ⟨row, member, (nameOf_eq same).1.trans name⟩

theorem Watched.others (watched : Watched start launch kept desk) {earlier : Reading}
    (listed : earlier ∈ start.readings) (same : identityOf earlier = identityOf reading)
    (different : launch.attemptId ≠ reading.row.attemptId) {rest : List Reading}
    (remaining : ∀ other ∈ rest, other ∈ kept ∧ other.row.attemptId ≠ reading.row.attemptId)
    (lacking : Lacking reading start.specOf anyWorker
      ⟨withoutAttempt desk.queue reading.row.attemptId,
        desk.sent.filter (·.attemptId ≠ reading.row.attemptId)⟩ written) :
    Watched start launch rest written := by
  obtain ⟨name, run, experiment, _⟩ := identity_eq same
  have moved : ∀ test : Attempt → Prop, (∀ row row', Plain row row' → (test row' ↔ test row)) →
      ((∃ row ∈ written.queue.attempts, row.attemptId ≠ reading.row.attemptId ∧ test row) ↔
        ∃ row ∈ desk.queue.attempts, row.attemptId ≠ reading.row.attemptId ∧ test row) := by
    intro test respects
    have related := exists_related test lacking.queue.rows respects
    simpa [withoutAttempt, List.mem_filter, and_assoc] using related.symm
  have own : ∀ row ∈ written.queue.attempts, row.attemptId = reading.row.attemptId →
      nameOf row = nameOf earlier.row := by
    intro row member named
    have runs := (lacking.queue.runs row member).mpr named
    have stays := (lacking.queue.own row member named).1
    rw [nameOf, nameOf, named, runs, stays, name, run, experiment]
  refine ⟨lacking.queue.unique, lacking.queue.specs, fun key => ?_, fun other member => ?_,
    fun told => ?_⟩
  · by_cases named : key.1 = reading.row.attemptId
    · have before : key ∈ start.attempts.map nameOf ↔ key = nameOf earlier.row := by
        constructor
        · intro member
          obtain ⟨row, present, rfl⟩ := List.mem_map.mp member
          rw [List.inj_on_of_nodup_map keyed.attempts present (mem_readings listed)
            (named.trans name.symm)]
        · rintro rfl
          exact List.mem_map_of_mem (mem_readings listed)
      have after : key ∈ written.queue.attempts.map nameOf ↔ key = nameOf earlier.row := by
        constructor
        · intro member
          obtain ⟨row, present, rfl⟩ := List.mem_map.mp member
          exact own row present named
        · rintro rfl
          obtain ⟨row, present, same⟩ := lacking.queue.present
          exact List.mem_map.mpr ⟨row, present, own row present same⟩
      rw [before, after]
    · have elsewhere := moved (nameOf · = key) fun row row' plain => by rw [plain_nameOf plain]
      rw [← watched.named key, List.mem_map, List.mem_map]
      constructor
      · rintro ⟨row, member, rfl⟩
        obtain ⟨row', member', _, same⟩ := elsewhere.mp ⟨row, member, named, rfl⟩
        exact ⟨row', member', same⟩
      · rintro ⟨row, member, rfl⟩
        obtain ⟨row', member', _, same⟩ := elsewhere.mpr ⟨row, member, named, rfl⟩
        exact ⟨row', member', same⟩
  · obtain ⟨stays, apart⟩ := remaining other member
    obtain ⟨row, present, plain⟩ := watched.rows other stays
    have elsewhere : row.attemptId ≠ reading.row.attemptId := plain.names.1 ▸ apart
    obtain ⟨row', member', _, plain'⟩ := (moved (Plain · other.row) fun _ _ => plain_same).mpr
      ⟨row, present, elsewhere, plain⟩
    exact ⟨row', member', plain'⟩
  · have filtered : launch ∈ written.sent.filter (·.attemptId ≠ reading.row.attemptId) :=
      List.mem_filter.mpr ⟨told, decide_eq_true different⟩
    rw [← lacking.sent] at filtered
    exact watched.unsent (List.mem_filter.mp filtered).1

end

section

variable {env : Environment} {place : Place} {process : Reading → Routine Progress}
  {before : List Reading → Desk → Prop} {goal : Desk → Prop} {bad : Fault → Desk → Prop}

theorem ends_goOn {rest : Routine Nat} {progress : Progress} {desk : Desk}
    (goes : progress ≠ .stop) (later : Ends rest desk (fun _ => goal) bad) :
    Ends (goOn rest progress) desk (fun _ => goal) bad := by
  cases progress with
  | stop => exact absurd rfl goes
  | skipped => exact later
  | assigned => exact ends_bind.mpr (later.mono (fun _ _ => id) fun _ _ => id)

variable (never : ∀ moment, env.late moment = false)

include never

theorem eachAttempt_keeps (before : List Reading → Desk → Prop) {readings : List Reading}
    (each : ∀ reading rest, reading :: rest <:+ readings → ∀ desk, before (reading :: rest) desk →
      Ends (process reading) desk (fun progress written => progress ≠ .stop ∧ before rest written)
        bad) {desk : Desk} (holds : before readings desk) :
    Ends (eachAttempt env place process readings) desk (fun _ => before []) bad := by
  induction readings generalizing desk with
  | nil => exact holds
  | cons reading rest ih =>
    rw [eachAttempt_cons never]
    refine ends_bind.mpr ((each reading rest List.suffix_rfl desk holds).mono ?_ fun _ _ => id)
    rintro progress written ⟨goes, kept⟩
    refine ends_goOn goes (ih (fun later rest remaining => ?_) kept)
    exact each later rest (remaining.trans (List.suffix_cons reading _))

theorem eachAttempt_passes (before : List Reading → Desk → Prop) {readings : List Reading} {target : Reading} (member : target ∈ readings)
    (unique : (readings.map (·.row.attemptId)).Nodup)
    (others : ∀ reading rest, reading :: rest <:+ readings →
      reading.row.attemptId ≠ target.row.attemptId → ∀ desk, before (reading :: rest) desk →
        Ends (process reading) desk (fun progress written => progress ≠ .stop ∧ before rest written)
          bad)
    (itself : ∀ rest desk, before (target :: rest) desk →
      Ends (process target) desk (fun progress written => progress ≠ .stop ∧ goal written) bad)
    (after : ∀ reading ∈ readings, reading.row.attemptId ≠ target.row.attemptId → ∀ desk, goal desk →
      Ends (process reading) desk (fun progress written => progress ≠ .stop ∧ goal written) bad)
    {desk : Desk} (holds : before readings desk) :
    Ends (eachAttempt env place process readings) desk (fun _ => goal) bad := by
  induction readings generalizing desk with
  | nil => cases member
  | cons reading rest ih =>
    rw [List.map_cons, List.nodup_cons] at unique
    rw [eachAttempt_cons never]
    by_cases same : reading.row.attemptId = target.row.attemptId
    · have found : target = reading := by
        refine (List.mem_cons.mp member).resolve_right fun later => unique.1 ?_
        rw [same]
        exact List.mem_map_of_mem later
      subst found
      refine ends_bind.mpr ((itself rest desk holds).mono ?_ fun _ _ => id)
      rintro progress written ⟨goes, kept⟩
      refine ends_goOn goes (eachAttempt_keeps never (fun _ => goal) ?_ kept)
      intro later tail remaining
      have listed : later ∈ rest := remaining.subset List.mem_cons_self
      refine after later (List.mem_cons_of_mem _ listed) fun named => unique.1 ?_
      rw [← named]
      exact List.mem_map_of_mem listed
    · have later := (List.mem_cons.mp member).resolve_left fun found => same (found ▸ rfl)
      have started := others reading rest List.suffix_rfl same desk holds
      refine ends_bind.mpr (started.mono ?_ fun _ _ => id)
      rintro progress written ⟨goes, kept⟩
      refine ends_goOn goes (ih later unique.2 (fun other tail remaining => ?_)
        (fun other listed => after other (List.mem_cons_of_mem _ listed)) kept)
      exact others other tail (remaining.trans (List.suffix_cons reading _))

end

section

theorem withStatus_unique {queue : Queue} (unique : (queue.attempts.map (·.attemptId)).Nodup)
    (statuses : List QueueStatus) :
    ((withStatus statuses queue).map (·.row.attemptId)).Nodup :=
  (List.filter_sublist.map _).nodup (readings_unique unique)

variable {start : Queue} {launch : Sent} {kept : List Reading} {desk : Desk} {env : Environment}
  (keyed : start.Keyed) (never : ∀ moment, env.late moment = false)
  (calm : ∀ other ∈ start.readings, other.row.attemptId ≠ launch.attemptId → Manageable env other)

include calm

theorem Watched.manageable (watched : Watched start launch kept desk) {reading : Reading}
    (member : reading ∈ desk.queue.readings) (different : reading.row.attemptId ≠ launch.attemptId) :
    ∃ earlier ∈ start.readings, identityOf earlier = identityOf reading ∧ Manageable env earlier ∧
      start.specOf reading.row.experimentId = some reading.spec := by
  obtain ⟨earlier, listed, same⟩ := watched.identity member
  have joined := reading_joined member
  rw [watched.specs] at joined
  exact ⟨earlier, listed, same, calm earlier listed ((identity_eq same).1 ▸ different), joined⟩

include keyed

theorem poll_watched_others (own : ∀ reading ∈ kept, reading.row.attemptId = launch.attemptId)
    {desk' : Desk} (read : Watched start launch kept desk') {reading : Reading}
    (member : reading ∈ desk'.queue.readings) (different : reading.row.attemptId ≠ launch.attemptId)
    (watched : Watched start launch kept desk) {bad : Fault → Desk → Prop} :
    Ends (do
        if reading.row.terminalReceipt = none then pollActive env reading else pure ()
        pure Progress.skipped) desk
      (fun progress written => progress ≠ .stop ∧ Watched start launch kept written) bad := by
  obtain ⟨earlier, listed, same, manageable, joined⟩ :=
    read.manageable calm member different
  have pollable := manageable.pollable
  rw [same] at pollable
  by_cases open' : reading.row.terminalReceipt = none
  · have polled : ∀ desk', Keeps (Lacking reading start.specOf anyWorker desk') (fun _ => False)
        (pollActive env reading) := fun _ => keeps_pollActive joined pollable
    rw [if_pos open']
    refine ends_bind.mpr ((polled _ desk (watched.lacking keyed listed same)).mono ?_
      fun _ _ failed => failed.1.elim)
    intro _ written lacking
    exact ⟨Progress.noConfusion, watched.others keyed listed same different.symm
      (fun other member => ⟨member, (own other member).trans_ne different.symm⟩) lacking⟩
  · rw [if_neg open']
    exact ⟨Progress.noConfusion, watched⟩

theorem replay_watched_others {desk' : Desk} {attempt : Reading}
    (read : Watched start launch kept desk') {readings : List Reading}
    (listed : ∀ reading ∈ readings, reading ∈ desk'.queue.readings ∧
      reading.row.status ∈ [QueueStatus.assigned, .cancelRequested])
    (unique : (readings.map (·.row.attemptId)).Nodup)
    (own : attempt.row.attemptId = launch.attemptId) {reading : Reading} {rest : List Reading}
    (remaining : reading :: rest <:+ readings) (different : reading.row.attemptId ≠ launch.attemptId)
    (watched : Watched start launch (attempt :: reading :: rest) desk)
    {bad : Fault → Desk → Prop} :
    Ends (do pure (if ← replayAssigned env reading then Progress.assigned else .skipped)) desk
      (fun progress written => progress ≠ .stop ∧ Watched start launch (attempt :: rest) written)
      bad := by
  obtain ⟨member, waiting⟩ := listed reading (remaining.subset List.mem_cons_self)
  obtain ⟨earlier, started, same, manageable, joined⟩ :=
    read.manageable calm member different
  have replayable := manageable.replayable
  rw [same] at replayable
  have lacking := watched.lacking keyed started same
  obtain ⟨row, present, plain⟩ := watched.rows reading (by simp)
  have own' : ∀ other ∈ desk.queue.attempts, other.attemptId = reading.row.attemptId →
      Settled reading other := by
    intro other member named
    obtain rfl := List.inj_on_of_nodup_map watched.unique member present
      (named.trans plain.names.1)
    obtain ⟨reason, eq⟩ := plain.eq
    rw [Settled, eq]
    exact ⟨rfl, rfl⟩
  have settled := Apart.mk { lacking.queue with own := own' } lacking.sent
  refine ends_bind.mpr ((replayAssigned_kept joined replayable waiting settled).mono ?_
    fun _ _ => False.elim)
  intro replayed written kept
  have apart := List.nodup_cons.mp ((remaining.sublist.map _).nodup unique)
  have others : ∀ other ∈ attempt :: rest, other ∈ attempt :: reading :: rest ∧
      other.row.attemptId ≠ reading.row.attemptId := by
    intro other member
    obtain rfl | member := List.mem_cons.mp member
    · exact ⟨List.mem_cons_self, fun named => different (named.symm.trans own)⟩
    · refine ⟨List.mem_cons_of_mem _ (List.mem_cons_of_mem _ member), fun named => apart.1 ?_⟩
      rw [← named]
      exact List.mem_map_of_mem member
  have after := watched.others keyed started same different.symm others kept
  cases replayed with
  | true => exact ⟨Progress.noConfusion, after⟩
  | false => exact ⟨Progress.noConfusion, after⟩

include never

theorem queued_watched
    (assigned : ∀ reading ∈ start.readings, reading.row.attemptId = launch.attemptId →
      reading.row.status ≠ .queued)
    (own : ∀ reading ∈ kept, reading.row.attemptId = launch.attemptId)
    (watched : Watched start launch kept desk) :
    Ends (eachAttempt env .queued (scheduleQueued env) (withStatus [.queued] start)) desk
      (fun _ => Watched start launch kept) fun _ _ => False := by
  refine eachAttempt_keeps never (fun _ => Watched start launch kept) ?_ watched
  intro reading rest remaining desk watched
  obtain ⟨listed, queued⟩ := List.mem_filter.mp (remaining.subset List.mem_cons_self)
  have queued : reading.row.status = .queued := by simpa using queued
  have different : reading.row.attemptId ≠ launch.attemptId :=
    fun same => assigned reading listed same queued
  refine (scheduleQueued_kept never (reading_joined listed) ((calm _ listed different).schedulable queued) queued
    (fun _ _ => trivial) (watched.lacking keyed listed rfl)).mono ?_ fun _ _ => id
  rintro progress written ⟨goes, lacking⟩
  exact ⟨goes, watched.others keyed listed rfl different.symm
    (fun other member => ⟨member, (own other member).trans_ne different.symm⟩) lacking⟩

theorem ingestion_watched (own : ∀ reading ∈ kept, reading.row.attemptId = launch.attemptId)
    (idle : ∀ row ∈ desk.queue.attempts, row.attemptId = launch.attemptId → ¬ Pending row)
    (watched : Watched start launch kept desk) :
    Ends (whenTime env .ingestion pendingIngestion fun attempt => do
        retryIngestion env attempt
        pure .skipped) desk
      (fun _ => Watched start launch kept) fun _ _ => False := by
  unfold whenTime
  rw [never, if_neg Bool.false_ne_true]
  refine eachAttempt_keeps never (fun _ => Watched start launch kept) ?_ watched
  intro reading rest remaining current kept
  obtain ⟨member, pending⟩ := List.mem_filter.mp (remaining.subset List.mem_cons_self)
  have different : reading.row.attemptId ≠ launch.attemptId :=
    fun same => idle _ (mem_readings member) same (of_decide_eq_true pending)
  obtain ⟨earlier, listed, same, manageable, joined⟩ :=
    watched.manageable calm member different
  have retryable := manageable.retryable
  rw [same] at retryable
  refine ends_bind.mpr ((keeps_retryIngestion joined retryable current
    (kept.lacking keyed listed same)).mono ?_ fun _ _ => And.left)
  intro _ written lacking
  exact ⟨Progress.noConfusion, kept.others keyed listed same different.symm
    (fun other member => ⟨member, (own other member).trans_ne different.symm⟩) lacking⟩

end

end SparseLab.Workers.Ticks
