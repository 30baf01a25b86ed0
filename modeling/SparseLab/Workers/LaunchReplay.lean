import SparseLab.Workers.UndeliveredLaunches

/-! An attempt that was assigned, but whose launch never reached its worker. -/

namespace SparseLab.Workers.Ticks

open Library Workers.Queue

section

variable {start : Queue} {attempt : Reading} {worker : Worker} {desk : Desk} {env : Environment}

structure Waits (attempt : Reading) (worker : Worker) : Prop where
  owned : attempt.row.workerId = some worker.workerId
  status : attempt.row.status.Reconcilable
  recovery : attempt.row.recovery = none
  unfinished : attempt.row.terminalReceipt = none

abbrev because (attempt : Reading) (reason : Option String) : Reading :=
  ⟨{ attempt.row with queuedReason := reason }, attempt.spec⟩

abbrev Untold (start : Queue) (attempt : Reading) (worker : Worker) : Desk → Prop :=
  Watched start (launchOf attempt worker) [attempt]

theorem untold_send (watched : Untold start attempt worker desk) (attemptId workerId : String)
    (call : Call) (other : call ≠ .launch (launchPayload attempt)) :
    Untold start attempt worker { desk with sent := desk.sent ++ [⟨attemptId, workerId, call⟩] } := by
  refine ⟨watched.unique, watched.specs, watched.named, watched.rows, fun told => ?_⟩
  obtain earlier | now := List.mem_append.mp told
  · exact watched.unsent earlier
  · exact other (congrArg Sent.call (List.mem_singleton.mp now)).symm

variable (keyed : start.Keyed) (member : attempt ∈ start.readings) (waits : Waits attempt worker)
  (unheard : Unheard env (identityOf attempt) worker)

include keyed member

theorem Watched.row (watched : Untold start attempt worker desk) :
    ∃ row ∈ desk.queue.attempts, desk.queue.byRun attempt.row.runId = some row ∧
      Plain row attempt.row ∧
        ∀ other ∈ desk.queue.attempts, other.attemptId = attempt.row.attemptId → other = row := by
  obtain ⟨row, present, plain⟩ := watched.rows attempt List.mem_cons_self
  have single : ∀ other ∈ desk.queue.attempts, other.attemptId = attempt.row.attemptId →
      other = row := fun other listed named =>
    List.inj_on_of_nodup_map watched.unique listed present (named.trans plain.names.1)
  refine ⟨row, present, ?_, plain, single⟩
  cases found : desk.queue.byRun attempt.row.runId with
  | none =>
    have absent := List.find?_eq_none.mp found row present
    exact absurd (decide_eq_true plain.names.2.symm) absent
  | some other =>
    have listed := List.mem_of_find?_eq_some found
    have runs : other.runId = attempt.row.runId := by simpa using List.find?_some found
    obtain ⟨earlier, started, same⟩ := names_of watched.named listed
    obtain ⟨name, run, _⟩ := nameOf_eq same
    have equal := List.inj_on_of_nodup_map keyed.runs started (mem_readings member)
      (run.trans runs)
    exact congrArg some (single other listed (name.symm.trans (congrArg Attempt.attemptId equal)))

theorem Watched.listed (watched : Untold start attempt worker desk) :
    ∃ reason, because attempt reason ∈ desk.queue.readings := by
  obtain ⟨row, present, _, plain, _⟩ := watched.row keyed member
  have joined := reading_joined member
  obtain ⟨reason, same⟩ := plain.eq
  refine ⟨row.queuedReason, List.mem_filterMap.mpr ⟨row, present, ?_⟩⟩
  rw [because, same]
  rw [same] at joined
  rw [watched.specs, joined]
  rfl

include waits

theorem cancel_again (watched : Untold start attempt worker desk)
    (cancels : attempt.row.status = .cancelRequested) :
    Ends (commit (requestCancel attempt.row.runId)) desk
      (fun status written => status = .cancelRequested ∧ Untold start attempt worker written)
      fun _ _ => False := by
  obtain ⟨row, present, found, plain, single⟩ := watched.row keyed member
  obtain ⟨reason, same⟩ := plain.eq
  have status : row.status = .cancelRequested := by simpa [same] using cancels
  have unfinished : row.terminalReceipt = none := by simpa [same] using waits.unfinished
  have recovery : row.recovery = none := by simpa [same] using waits.recovery
  have unchanged : (desk.queue.attempts.map fun other => if other.attemptId = row.attemptId then
      { other with status := .cancelRequested } else other) = desk.queue.attempts := by
    refine (List.map_congr_left fun other listed => ?_).trans (List.map_id _)
    split
    next named =>
      rw [single other listed (named.trans plain.names.1.symm), ← status]
      rfl
    next => rfl
  have written : transact (requestCancel attempt.row.runId) desk.queue =
      (.ok .cancelRequested, (desk.queue.update row.attemptId fun row =>
        { row with status := .cancelRequested }).mirror row.attemptId .cancelRequested) := by
    unfold requestCancel
    rw [transact_get_bind, found, transact_some_bind]
    simp only [status, unfinished, recovery, QueueStatus.Terminal]
    rfl
  unfold Ends commit
  rw [written]
  refine ⟨rfl, ?_, ?_, ?_, ?_, watched.unsent⟩
  · rw [mirror_attempts, update_attempts, unchanged]
    exact watched.unique
  · rw [mirror_specOf, update_specOf]
    exact watched.specs
  · rw [mirror_attempts, update_attempts, unchanged]
    exact watched.named
  · rw [mirror_attempts, update_attempts, unchanged]
    exact watched.rows

include unheard

theorem cancel_unheard (watched : Untold start attempt worker desk)
    (cancels : attempt.row.status = .cancelRequested) :
    Ends (cancel env .poll attempt.row.runId) desk (fun _ => Untold start attempt worker)
      fun fault written => ¬ fault.Transport ∧ worker.hosted = true ∧
        Untold start attempt worker written := by
  have called : ∀ durable : Reading, durable.row.attemptId = attempt.row.attemptId →
      ∀ desk, Untold start attempt worker desk →
        Ends (callCancel env .poll durable worker) desk (fun _ => Untold start attempt worker)
          fun fault written => ¬ fault.Transport ∧ worker.hosted = true ∧
            Untold start attempt worker written := by
    intro durable named desk watched
    refine ends_bind.mpr (ends_modify.mpr (ends_bind.mpr (ends_attempting.mpr (ends_bind.mpr ?_))))
    rw [named, unheard.cancel .poll]
    exact untold_send watched _ _ .cancel Call.noConfusion
  refine ends_bind.mpr ((cancel_again keyed member waits watched cancels).mono ?_
    fun _ _ => False.elim)
  rintro status desk ⟨rfl, watched⟩
  rw [if_neg (not_not.mpr rfl)]
  obtain ⟨row, _, _, plain, single⟩ := watched.row keyed member
  obtain ⟨durable, found, named, _⟩ := attemptByRun_found
    (watched.lacking keyed member rfl) (fun _ own => own.1) (reading_joined member)
  have equal := single durable.row (mem_readings (List.mem_of_find?_eq_some found)) named
  have owned : durable.row.workerId = some worker.workerId := by
    obtain ⟨reason, same⟩ := plain.eq
    rw [equal, ← waits.owned, same]
  change Ends (raiseIfNone _ (desk.queue.readings.find? _) >>= _) desk _ _
  refine (ends_raiseIfNone_bind found).mpr ?_
  rw [owned, unheard.registered]
  dsimp only
  by_cases hosted : worker.hosted = true
  · obtain ⟨delivery, glance⟩ := unheard.cancelling
    rw [if_pos hosted, named]
    refine (ends_orRaise_bind glance).mpr ?_
    split
    · refine ends_attempting.mpr ?_
      cases env.act .poll .cancelIntent attempt.row.attemptId with
      | ok value => exact watched
      | error fault =>
        change if fault.Refused then _ else _
        by_cases refused : fault.Refused
        · rw [if_pos refused]
          exact watched
        · rw [if_neg refused]
          exact ⟨fun transport => refused (.inl transport), hosted, watched⟩
    · exact called durable named desk watched
  · rw [if_neg hosted]
    exact called durable named desk watched

theorem poll_unheard (watched : Untold start attempt worker desk) (reason : Option String) :
    Ends (pollActive env (because attempt reason)) desk
      (fun _ written => worker.hosted = false ∧ Untold start attempt worker written)
      fun _ written => worker.hosted = true ∧ Untold start attempt worker written := by
  obtain ⟨originId, answered⟩ := unheard.status .poll
  have asked : ∀ desk, Untold start attempt worker desk → Ends
      (askStatus env .poll (because attempt reason) worker >>=
        reconcileAnswer env (because attempt reason)) desk
      (fun polled written => polled = none ∧ worker.hosted = false ∧
        Untold start attempt worker written)
      fun fault written => ¬ fault.Transport ∧ worker.hosted = true ∧
        Untold start attempt worker written := by
    intro desk watched
    have watched := untold_send watched attempt.row.attemptId worker.workerId
      .status Call.noConfusion
    refine ends_bind.mpr (ends_bind.mpr (ends_modify.mpr ((ends_orRaise_bind answered).mpr ?_)))
    unfold raiseIf
    cases hosted : worker.hosted with
    | true =>
      rw [if_pos ⟨rfl, by simp⟩]
      exact ⟨by decide, rfl, watched⟩
    | false =>
      rw [if_neg (fun mismatch => Bool.false_ne_true mismatch.1)]
      exact ⟨rfl, rfl, watched⟩
  unfold pollActive
  dsimp only
  rw [if_neg (not_not.mpr waits.recovery), waits.owned, unheard.registered]
  dsimp only
  refine ends_bind.mpr (ends_attempting.mpr ?_)
  have polled : Ends (pollReceipt env (because attempt reason) worker) desk
      (fun polled written => polled = none ∧ worker.hosted = false ∧
        Untold start attempt worker written)
      fun fault written => ¬ fault.Transport ∧ worker.hosted = true ∧
        Untold start attempt worker written := by
    unfold pollReceipt
    dsimp only
    by_cases cancels : attempt.row.status = .cancelRequested
    · rw [if_pos cancels]
      exact ends_bind.mpr ((cancel_unheard keyed member waits unheard watched cancels).mono
        (fun _ written => asked written) fun _ _ => id)
    · rw [if_neg cancels]
      exact asked desk watched
  refine polled.mono ?_ ?_
  · rintro polled written ⟨rfl, kept⟩
    exact kept
  · rintro fault written ⟨escapes, kept⟩
    rw [if_neg escapes]
    exact kept

theorem poll_watched (never : ∀ moment, env.late moment = false)
    (calm : ∀ other ∈ start.readings, other.row.attemptId ≠ attempt.row.attemptId →
      Manageable env other) (watched : Untold start attempt worker desk) :
    Ends (whenTime env .poll (withStatus [.assigned, .running, .cancelRequested, .unknown])
        fun attempt => do
          if attempt.row.terminalReceipt = none then pollActive env attempt else pure ()
          pure .skipped) desk
      (fun _ written => worker.hosted = false ∧ Untold start attempt worker written)
      fun _ written => worker.hosted = true ∧ Untold start attempt worker written := by
  unfold whenTime
  rw [never, if_neg Bool.false_ne_true]
  obtain ⟨reason, listed⟩ := watched.listed keyed member
  have target : because attempt reason ∈
      withStatus [.assigned, .running, .cancelRequested, .unknown] desk.queue :=
    List.mem_filter.mpr ⟨listed, decide_eq_true waits.status⟩
  refine eachAttempt_passes never (fun _ => Untold start attempt worker) target
    (withStatus_unique watched.unique _) ?_ ?_ ?_ watched
  · intro reading rest remaining different current kept
    have present := (List.mem_filter.mp (remaining.subset List.mem_cons_self)).1
    exact poll_watched_others keyed calm (by simp [launchOf]) watched present different kept
  · intro rest current kept
    dsimp only
    rw [if_pos waits.unfinished]
    refine ends_bind.mpr ((poll_unheard keyed member waits unheard kept reason).mono ?_
      fun _ _ => id)
    exact fun _ written kept => ⟨Progress.noConfusion, kept⟩
  · rintro reading present different current ⟨native, kept⟩
    have present := (List.mem_filter.mp present).1
    refine (poll_watched_others keyed calm (by simp [launchOf]) watched present different
      kept).mono ?_ fun _ _ => id
    exact fun progress written kept => ⟨kept.1, native, kept.2⟩

end

section

variable {start : Queue} {attempt : Reading} {worker : Worker} {desk : Desk} {env : Environment}

theorem Watched.reads (watched : Untold start attempt worker desk) (statuses : List QueueStatus) :
    Watched start (launchOf attempt worker) (attempt :: withStatus statuses desk.queue) desk := by
  refine ⟨watched.unique, watched.specs, watched.named, fun reading listed => ?_, watched.unsent⟩
  obtain rfl | listed := List.mem_cons.mp listed
  · exact watched.rows _ List.mem_cons_self
  · exact ⟨_, mem_readings (List.mem_filter.mp listed).1, rfl⟩

theorem replay_unheard (unheard : Unheard env (identityOf attempt) worker)
    (native : worker.hosted = false) (waits : Waits attempt worker)
    (waiting : attempt.row.status ∈ [QueueStatus.assigned, .cancelRequested])
    (reason : Option String) (desk : Desk) :
    Ends (replayAssigned env (because attempt reason)) desk
      (fun _ written => launchOf attempt worker ∈ written.sent)
      fun _ written => launchOf attempt worker ∈ written.sent :=
  replay_delivers unheard native waits.owned waiting waits.recovery desk

variable (keyed : start.Keyed) (never : ∀ moment, env.late moment = false)
  (calm : ∀ other ∈ start.readings, other.row.attemptId ≠ attempt.row.attemptId →
    Manageable env other)

include keyed calm

theorem replayed_others (watched : Untold start attempt worker desk) {bad : Fault → Desk → Prop} :
    ∀ reading rest, reading :: rest <:+ withStatus [.assigned, .cancelRequested] desk.queue →
      reading.row.attemptId ≠ attempt.row.attemptId →
        ∀ current, Watched start (launchOf attempt worker) (attempt :: reading :: rest) current →
          Ends (do pure (if ← replayAssigned env reading then Progress.assigned else .skipped))
            current (fun progress written => progress ≠ .stop ∧
              Watched start (launchOf attempt worker) (attempt :: rest) written) bad := by
  intro reading rest remaining different current kept
  refine replay_watched_others keyed calm watched (fun other listed => ?_)
    (withStatus_unique watched.unique _) rfl remaining different kept
  obtain ⟨present, waiting⟩ := List.mem_filter.mp listed
  exact ⟨present, of_decide_eq_true waiting⟩

include never

theorem replay_watched (member : attempt ∈ start.readings) (waits : Waits attempt worker)
    (unheard : Unheard env (identityOf attempt) worker) (native : worker.hosted = false)
    (waiting : attempt.row.status ∈ [QueueStatus.assigned, .cancelRequested])
    (watched : Untold start attempt worker desk) :
    Ends (whenTime env .replay (withStatus [.assigned, .cancelRequested])
        fun attempt => do pure (if ← replayAssigned env attempt then .assigned else .skipped)) desk
      (fun _ written => launchOf attempt worker ∈ written.sent)
      fun _ written => launchOf attempt worker ∈ written.sent := by
  unfold whenTime
  rw [never, if_neg Bool.false_ne_true]
  obtain ⟨reason, listed⟩ := watched.listed keyed member
  have target : because attempt reason ∈ withStatus [.assigned, .cancelRequested] desk.queue :=
    List.mem_filter.mpr ⟨listed, decide_eq_true waiting⟩
  refine eachAttempt_passes never
    (fun remaining => Watched start (launchOf attempt worker) (attempt :: remaining)) target
    (withStatus_unique watched.unique _) (replayed_others keyed calm watched) ?_ ?_
    (watched.reads _)
  · intro rest current _
    have delivered := replay_unheard unheard native waits waiting reason current
    refine ends_bind.mpr (delivered.mono ?_ fun _ _ => id)
    intro replayed written told
    cases replayed with
    | true => exact ⟨Progress.noConfusion, told⟩
    | false => exact ⟨Progress.noConfusion, told⟩
  · intro reading _ _ current told
    refine ends_bind.mpr ((grows_replayAssigned current told).mono ?_ fun _ _ => And.right)
    intro replayed written told
    cases replayed with
    | true => exact ⟨Progress.noConfusion, told⟩
    | false => exact ⟨Progress.noConfusion, told⟩

theorem replay_passes (elsewhere : attempt.row.status ∉ [QueueStatus.assigned, .cancelRequested])
    (watched : Untold start attempt worker desk) :
    Ends (whenTime env .replay (withStatus [.assigned, .cancelRequested])
        fun attempt => do pure (if ← replayAssigned env attempt then .assigned else .skipped)) desk
      (fun _ => Untold start attempt worker) fun _ _ => False := by
  unfold whenTime
  rw [never, if_neg Bool.false_ne_true]
  refine eachAttempt_keeps never
    (fun remaining => Watched start (launchOf attempt worker) (attempt :: remaining)) ?_
    (watched.reads _)
  intro reading rest remaining current kept
  refine replayed_others keyed calm watched reading rest remaining (fun same => ?_) current kept
  obtain ⟨present, waiting⟩ := List.mem_filter.mp (remaining.subset List.mem_cons_self)
  obtain ⟨row, stays, plain⟩ := watched.rows attempt List.mem_cons_self
  have equal := List.inj_on_of_nodup_map watched.unique (mem_readings present) stays
    (same.trans plain.names.1)
  obtain ⟨reason, eq⟩ := plain.eq
  refine elsewhere ?_
  rw [eq, ← equal]
  exact of_decide_eq_true waiting

end

section

variable {start : Queue} {attempt : Reading} {worker : Worker} {env : Environment}

theorem Watched.keyed {launch : Sent} {kept : List Reading} {desk : Desk}
    (watched : Watched start launch kept desk) (keyed : start.Keyed) : desk.queue.Keyed := by
  have rows := List.Nodup.of_map _ watched.unique
  refine ⟨watched.unique, (List.nodup_map_iff_inj_on rows).mpr fun row present row' present' same => ?_,
    fun row present => ?_⟩
  · obtain ⟨earlier, started, equal⟩ := names_of watched.named present
    obtain ⟨earlier', started', equal'⟩ := names_of watched.named present'
    obtain ⟨name, run, _⟩ := nameOf_eq equal
    obtain ⟨name', run', _⟩ := nameOf_eq equal'
    have found := List.inj_on_of_nodup_map keyed.runs started started'
      (run.trans (same.trans run'.symm))
    refine List.inj_on_of_nodup_map watched.unique present present' ?_
    exact name.symm.trans ((congrArg Attempt.attemptId found).trans name')
  · obtain ⟨earlier, started, equal⟩ := names_of watched.named present
    rw [watched.specs, ← (nameOf_eq equal).2.2]
    exact keyed.joined earlier started

variable (keyed : start.Keyed) (member : attempt ∈ start.readings) (waits : Waits attempt worker)
  (unheard : Unheard env (identityOf attempt) worker)
  (never : ∀ moment, env.late moment = false)
  (calm : ∀ other ∈ start.readings, other.row.attemptId ≠ attempt.row.attemptId →
    Manageable env other)

include keyed member waits unheard never calm

theorem tick_polls {good : Nat × Nat → Desk → Prop} {bad : Fault → Desk → Prop}
    (hosted : ∀ fault desk, worker.hosted = true → Untold start attempt worker desk → bad fault desk)
    (later : ∀ first desk, worker.hosted = false → Untold start attempt worker desk → Ends (do
      let second ← whenTime env .replay (withStatus [.assigned, .cancelRequested])
        fun attempt => do pure (if ← replayAssigned env attempt then .assigned else .skipped)
      let _ ← whenTime env .ingestion pendingIngestion fun attempt => do
        retryIngestion env attempt
        pure .skipped
      pure ((withStatus [.queued] start).length, first + second)) desk good bad) :
    Ends (tick env) ⟨start, []⟩ good bad := by
  have started : Untold start attempt worker ⟨start, []⟩ := by
    refine watched_start keyed (by simp) rfl fun reading listed => ?_
    rwa [List.mem_singleton.mp listed]
  have assigned : ∀ reading ∈ start.readings, reading.row.attemptId = attempt.row.attemptId →
      reading.row.status ≠ .queued := by
    intro reading listed same queued
    have equal := List.inj_on_of_nodup_map keyed.attempts (mem_readings listed)
      (mem_readings member) same
    have status := waits.status
    rw [← equal, queued] at status
    revert status
    decide
  change Ends (eachAttempt env .queued (scheduleQueued env) (withStatus [.queued] start) >>= _)
    ⟨start, []⟩ _ _
  have scheduled := queued_watched keyed never calm assigned
    (fun reading listed => by rw [List.mem_singleton.mp listed]; rfl) started
  refine ends_bind.mpr (scheduled.mono (fun first desk watched => ?_) fun _ _ => False.elim)
  refine ends_bind.mpr ((poll_watched keyed member waits unheard never calm watched).mono ?_ ?_)
  · exact fun _ desk kept => later first desk kept.1 kept.2
  · exact fun fault desk kept => hosted fault desk kept.1 kept.2

theorem tick_delivers (native : worker.hosted = false)
    (waiting : attempt.row.status ∈ [QueueStatus.assigned, .cancelRequested]) :
    launchOf attempt worker ∈ (lastState (tick env ⟨start, []⟩)).sent := by
  refine Ends.last (fun desk : Desk => launchOf attempt worker ∈ desk.sent) ?_
  refine tick_polls keyed member waits unheard never calm (fun _ _ hosted => ?_)
    fun first desk _ watched => ?_
  · exact absurd (native.symm.trans hosted) Bool.false_ne_true
  refine ends_bind.mpr ((replay_watched keyed never calm member waits unheard native waiting
    watched).mono ?_ fun _ _ => id)
  intro second desk told
  refine ends_bind.mpr ?_
  unfold whenTime
  rw [never, if_neg Bool.false_ne_true]
  refine eachAttempt_keeps never (fun _ desk => launchOf attempt worker ∈ desk.sent) ?_ told
  intro reading rest _ current told
  exact ends_bind.mpr ((grows_retryIngestion current told).mono
    (fun _ _ told => ⟨Progress.noConfusion, told⟩) fun _ _ => And.right)

theorem tick_forgets
    (missed : ¬ (worker.hosted = false ∧
      attempt.row.status ∈ [QueueStatus.assigned, .cancelRequested])) :
    Untold start attempt worker (lastState (tick env ⟨start, []⟩)) := by
  refine Ends.last (Untold start attempt worker) ?_
  refine tick_polls keyed member waits unheard never calm (fun _ _ _ => id)
    fun first desk native watched => ?_
  have elsewhere := fun waiting => missed ⟨native, waiting⟩
  refine ends_bind.mpr ((replay_passes keyed never calm elsewhere watched).mono ?_
    fun _ _ => False.elim)
  intro second desk watched
  have idle : ∀ row ∈ desk.queue.attempts, row.attemptId = attempt.row.attemptId → ¬ Pending row := by
    intro row present same pending
    obtain ⟨found, _, _, plain, single⟩ := watched.row keyed member
    obtain rfl := single row present same
    obtain ⟨reason, equal⟩ := plain.eq
    have unfinished := waits.unfinished
    have recovery := waits.recovery
    rw [equal] at unfinished recovery
    exact pending.1.elim (fun evident => evident unfinished) fun evident => evident recovery
  exact ends_bind.mpr ((ingestion_watched keyed never calm
    (fun reading listed => by rw [List.mem_singleton.mp listed]; rfl) idle watched).mono
      (fun _ _ => id) fun _ _ => False.elim)

end

section

def tickRun : List Environment → Queue → Queue × List Sent
  | [], queue => (queue, [])
  | env :: rest, queue =>
    let desk := lastState (tick env ⟨queue, []⟩)
    let later := tickRun rest desk.queue
    (later.1, desk.sent ++ later.2)

def Reachable (identity : Identity) (worker : Worker) : List Environment → Queue → Prop
  | [], _ => True
  | env :: rest, queue =>
    (∀ moment, env.late moment = false) ∧ Unheard env identity worker ∧
      (∀ other ∈ queue.readings, other.row.attemptId ≠ identity.attemptId →
        Manageable env other) ∧
      Reachable identity worker rest (lastState (tick env ⟨queue, []⟩)).queue

variable {worker : Worker}

theorem because_blocks {queue : Queue} {attempt : Reading} {reason : Option String}
    (listed : because attempt reason ∈ queue.readings) (waits : Waits attempt worker) :
    ¬ queue.Eligible worker.workerId :=
  fun free => (free _ listed waits.status waits.owned).2 waits.unfinished

theorem never_delivered (envs : List Environment) {queue : Queue} (keyed : queue.Keyed)
    {attempt : Reading} (member : attempt ∈ queue.readings) (waits : Waits attempt worker)
    (reachable : Reachable (identityOf attempt) worker envs queue)
    (missed : ¬ (worker.hosted = false ∧
      attempt.row.status ∈ [QueueStatus.assigned, .cancelRequested])) :
    launchOf attempt worker ∉ (tickRun envs queue).2 ∧
      ¬ (tickRun envs queue).1.Eligible worker.workerId := by
  induction envs generalizing queue attempt with
  | nil => exact ⟨List.not_mem_nil, because_blocks member waits⟩
  | cons env envs ih =>
    obtain ⟨never, unheard, calm, later⟩ := reachable
    have watched := tick_forgets keyed member waits unheard never calm missed
    obtain ⟨reason, listed⟩ := watched.listed keyed member
    obtain ⟨absent, blocked⟩ := ih (watched.keyed keyed) listed
      ⟨waits.owned, waits.status, waits.recovery, waits.unfinished⟩ later missed
    refine ⟨fun told => ?_, blocked⟩
    exact (List.mem_append.mp told).elim watched.unsent absent

/-- An undelivered launch reaches a worker that has not heard of it if and only if the worker is
not hosted and the replay loop looks at the status of the attempt. Otherwise it never does, and
the attempt keeps the slot of the worker. -/
theorem undelivered_launch (envs : List Environment) (started : envs ≠ []) (queue : Queue)
    (keyed : queue.Keyed) (attempt : Reading) (member : attempt ∈ queue.readings)
    (waits : Waits attempt worker)
    (reachable : Reachable (identityOf attempt) worker envs queue) :
    (launchOf attempt worker ∈ (tickRun envs queue).2 ↔
      worker.hosted = false ∧ attempt.row.status ∈ [QueueStatus.assigned, .cancelRequested]) ∧
    (launchOf attempt worker ∉ (tickRun envs queue).2 →
      ¬ (tickRun envs queue).1.Eligible worker.workerId) := by
  have delivers : worker.hosted = false ∧
      attempt.row.status ∈ [QueueStatus.assigned, .cancelRequested] →
        launchOf attempt worker ∈ (tickRun envs queue).2 := by
    rintro ⟨native, waiting⟩
    obtain ⟨env, rest, rfl⟩ := List.exists_cons_of_ne_nil started
    obtain ⟨never, unheard, calm, _⟩ := reachable
    exact List.mem_append_left _
      (tick_delivers keyed member waits unheard never calm native waiting)
  refine ⟨⟨fun told => ?_, delivers⟩, fun absent => ?_⟩
  · by_contra missed
    exact (never_delivered envs keyed member waits reachable missed).1 told
  · have missed := mt delivers absent
    exact (never_delivered envs keyed member waits reachable missed).2

section

def unheardEnv : Environment :=
  { failingEnv fun _ => "w" with
    check _ _ := .ok (some [])
    status _ _ _ := .ok ⟨none, none⟩
    cancel _ _ := .ok none }

abbrev plainWorker : Worker := ⟨"w", false, false⟩

def oneAttempt (status : QueueStatus) : Queue where
  attempts := [{ queuedRow "a" with workerId := some "w", status }]
  experiments := [⟨"a", queuedSpec, status⟩]

theorem unheard_unheardEnv : Unheard unheardEnv (identityOf ⟨queuedRow "a", queuedSpec⟩) plainWorker where
  registered := rfl
  status _ := ⟨none, rfl⟩
  cancel _ := rfl
  cancelling := ⟨none, rfl⟩
  acts _ _ := rfl
  bundle := ⟨⟨"bundle", []⟩, [], rfl, rfl, by simp⟩
  install := rfl

theorem oneAttempt_keyed (status : QueueStatus) : (oneAttempt status).Keyed where
  attempts := by simp [oneAttempt]
  runs := by simp [oneAttempt]
  joined := by simp [oneAttempt, queuedRow, Queue.specOf]

theorem oneAttempt_calm (status : QueueStatus) (other : Reading)
    (member : other ∈ (oneAttempt status).readings) (different : other.row.attemptId ≠ "a") :
    Manageable unheardEnv other := by
  obtain rfl := List.mem_singleton.mp member
  exact absurd rfl different

def undelivered (status : QueueStatus) (reason : Option String) : Reading :=
  ⟨{ queuedRow "a" with workerId := some "w", status, queuedReason := reason }, queuedSpec⟩

theorem undelivered_launch_assigned :
    launchOf (undelivered .assigned none) plainWorker ∈
      (tickRun [unheardEnv] (oneAttempt .assigned)).2 :=
  (undelivered_launch [unheardEnv] (by simp) (oneAttempt .assigned) (oneAttempt_keyed _)
    (undelivered .assigned none) (by decide) ⟨rfl, by decide, rfl, rfl⟩
    ⟨fun _ => rfl, unheard_unheardEnv, oneAttempt_calm _, trivial⟩).1.mpr ⟨rfl, by decide⟩

def oneQueued : Queue where
  attempts := [queuedRow "a"]
  experiments := [⟨"a", queuedSpec, .queued⟩]

def lostQueue : Queue where
  attempts := [(undelivered .unknown (some "worker status unavailable: ")).row]
  experiments := [⟨"a", queuedSpec, .unknown⟩]

theorem lostQueue_keyed : lostQueue.Keyed where
  attempts := by simp [lostQueue]
  runs := by simp [lostQueue]
  joined := by simp [lostQueue, undelivered, queuedRow, Queue.specOf]

theorem lostQueue_reachable (rounds : Nat) :
    Reachable (identityOf ⟨queuedRow "a", queuedSpec⟩) plainWorker
      (List.replicate rounds unheardEnv) lostQueue := by
  induction rounds with
  | zero => trivial
  | succ rounds ih =>
    have stays : (lastState (tick unheardEnv ⟨lostQueue, []⟩)).queue = lostQueue := by decide
    refine ⟨fun _ => rfl, unheard_unheardEnv, fun other member different => ?_, ?_⟩
    · obtain rfl := List.mem_singleton.mp member
      exact absurd rfl different
    · rw [stays]
      exact ih

theorem lost_launch_never_replayed :
    (tick (failingEnv fun _ => "w") ⟨oneQueued, []⟩ =
      .ok (1, 0) ⟨lostQueue, [⟨"a", "w", .check⟩, ⟨"a", "w", .status⟩]⟩) ∧
    ∀ rounds, Reachable (identityOf ⟨queuedRow "a", queuedSpec⟩) plainWorker
        (List.replicate rounds unheardEnv) lostQueue ∧
      launchOf (undelivered .unknown (some "worker status unavailable: ")) plainWorker ∉
        (tickRun (List.replicate rounds unheardEnv) lostQueue).2 ∧
      ¬ (tickRun (List.replicate rounds unheardEnv) lostQueue).1.Eligible "w" := by
  refine ⟨rfl, fun rounds => ⟨lostQueue_reachable rounds, ?_⟩⟩
  exact never_delivered _ lostQueue_keyed (by decide) ⟨rfl, by decide, rfl, rfl⟩
    (lostQueue_reachable rounds) (by decide)

end

end

end SparseLab.Workers.Ticks
