import SparseLab.Workers.TickTwins

/-! A tick with and without one attempt does the same for all others. -/

namespace SparseLab.Workers.Ticks

open Library Workers.Queue

section

variable {victim : Victim} {experimentId : String} {held : String → Prop} {env : Environment}
  {attempt : Reading} {queue queue' : Queue}

def Unshared (env : Environment) (held : String → Prop) (name : String) : Prop :=
  ∀ offer, held offer.workerId → ∃ reason, env.verdict name offer = .ok (.refused reason)

theorem considered_refused (queue : Queue) {name : String} {offer : Offer} {reason : Option String}
    (refused : env.verdict name offer = .ok (.refused reason)) :
    ∃ reason, considered env queue name offer = .ok (.refused reason) := by
  unfold considered
  dsimp only
  split_ifs
  · exact ⟨_, rfl⟩
  · exact ⟨_, rfl⟩
  · exact ⟨reason, refused⟩

theorem Aside.occupied (aside : Aside victim (OfExperiment experimentId held) queue queue')
    {workerId : String} (free : ¬ held workerId) (test : Reading → Prop)
    (same : ∀ reading reading', PlainReading reading reading' → (test reading' ↔ test reading)) :
    (∃ reading ∈ queue'.readings.filter fun reading =>
        reading.row.status.Reconcilable ∧ reading.row.workerId = some workerId, test reading) ↔
      ∃ reading ∈ queue.readings.filter fun reading =>
        reading.row.status.Reconcilable ∧ reading.row.workerId = some workerId, test reading := by
  have others := exists_related (fun reading : Reading =>
      (reading.row.status.Reconcilable ∧ reading.row.workerId = some workerId) ∧ test reading)
    aside.readings fun reading reading' plain => by
      have tests := same reading reading' plain
      obtain ⟨reason, rfl⟩ := plain
      exact and_congr Iff.rfl tests
  constructor
  · rintro ⟨reading, member, holds⟩
    obtain ⟨listed, active⟩ := List.mem_filter.mp member
    obtain ⟨earlier, member', active', holds'⟩ :=
      others.mp ⟨reading, listed, of_decide_eq_true active, holds⟩
    exact ⟨earlier, List.mem_filter.mpr
      ⟨(List.mem_filter.mp member').1, decide_eq_true active'⟩, holds'⟩
  · rintro ⟨reading, member, holds⟩
    obtain ⟨listed, active⟩ := List.mem_filter.mp member
    have active' := of_decide_eq_true active
    have other : reading.row.attemptId ≠ victim.name := fun named =>
      free ((aside.own _ (mem_readings listed) named).2 workerId active'.2)
    obtain ⟨later, member', active'', holds'⟩ := others.mpr ⟨reading,
      List.mem_filter.mpr ⟨listed, decide_eq_true other⟩, active', holds⟩
    exact ⟨later, List.mem_filter.mpr ⟨member', decide_eq_true active''⟩, holds'⟩

theorem considered_twin (aside : Aside victim (OfExperiment experimentId held) queue queue')
    (unshared : Unshared env held attempt.row.attemptId) (offer : Offer) :
    considered env queue attempt.row.attemptId offer =
        considered env queue' attempt.row.attemptId offer ∨
      ∃ reason reason',
        considered env queue attempt.row.attemptId offer = .ok (.refused reason) ∧
          considered env queue' attempt.row.attemptId offer = .ok (.refused reason') := by
  by_cases free : held offer.workerId
  · obtain ⟨reason, refused⟩ := unshared offer free
    obtain ⟨first, decided⟩ := considered_refused queue refused
    obtain ⟨second, decided'⟩ := considered_refused queue' refused
    exact .inr ⟨first, second, decided, decided'⟩
  · left
    have fenced := aside.occupied free (fun reading => reading.row.recovery ≠ none)
      fun reading reading' plain => by
        obtain ⟨reason, rfl⟩ := plain
        rfl
    have running := aside.occupied free (fun reading => reading.row.terminalReceipt = none)
      fun reading reading' plain => by
        obtain ⟨reason, rfl⟩ := plain
        rfl
    unfold considered
    simp only [fenced, running]

def SameDecision (first second : Offer × Verdict) : Prop :=
  second.1 = first.1 ∧ (second.2 = .accepted ↔ first.2 = .accepted)

theorem verdicts_twin (aside : Aside victim (OfExperiment experimentId held) queue queue')
    (unshared : Unshared env held attempt.row.attemptId) (offers : List Offer) :
    (∃ fault : Fault,
      (offers.mapM fun offer => do
        return (offer, ← considered env queue attempt.row.attemptId offer)) = .error fault ∧
      (offers.mapM fun offer => do
        return (offer, ← considered env queue' attempt.row.attemptId offer)) = .error fault) ∨
    ∃ verdicts verdicts',
      (offers.mapM fun offer => do
        return (offer, ← considered env queue attempt.row.attemptId offer)) = .ok verdicts ∧
      (offers.mapM fun offer => do
        return (offer, ← considered env queue' attempt.row.attemptId offer)) = .ok verdicts' ∧
      List.Forall₂ SameDecision verdicts verdicts' := by
  induction offers with
  | nil => exact .inr ⟨[], [], rfl, rfl, .nil⟩
  | cons offer offers ih =>
    have both : (∃ fault, considered env queue attempt.row.attemptId offer = .error fault ∧
          considered env queue' attempt.row.attemptId offer = .error fault) ∨
        ∃ verdict verdict', considered env queue attempt.row.attemptId offer = .ok verdict ∧
          considered env queue' attempt.row.attemptId offer = .ok verdict' ∧
            (verdict' = .accepted ↔ verdict = .accepted) := by
      obtain same | ⟨reason, reason', decided, decided'⟩ :=
        considered_twin aside unshared offer
      · cases decided : considered env queue attempt.row.attemptId offer with
        | error fault => exact .inl ⟨fault, rfl, same ▸ decided⟩
        | ok verdict => exact .inr ⟨verdict, verdict, rfl, same ▸ decided, Iff.rfl⟩
      · exact .inr ⟨_, _, decided, decided', by simp⟩
    rw [List.mapM_cons, List.mapM_cons]
    obtain ⟨fault, raised, raised'⟩ | ⟨verdict, verdict', decided, decided', same⟩ := both
    · rw [raised, raised']
      exact .inl ⟨fault, rfl, rfl⟩
    · rw [decided, decided']
      obtain ⟨fault, raised, raised'⟩ | ⟨verdicts, verdicts', mapped, mapped', each⟩ := ih
      · rw [raised, raised']
        exact .inl ⟨fault, rfl, rfl⟩
      · rw [mapped, mapped']
        exact .inr ⟨_, _, rfl, rfl, .cons ⟨rfl, same⟩ each⟩

theorem choices_twin {verdicts verdicts' : List (Offer × Verdict)}
    (each : List.Forall₂ SameDecision verdicts verdicts') :
    (verdicts'.filter (·.2 = .accepted)).map (·.1) =
      (verdicts.filter (·.2 = .accepted)).map (·.1) := by
  induction each with
  | nil => rfl
  | @cons first second _ _ same _ ih =>
    rw [List.filter_cons, List.filter_cons]
    by_cases accepted : first.2 = .accepted
    · rw [if_pos (by simpa using same.2.mpr accepted), if_pos (by simpa using accepted),
        List.map_cons, List.map_cons, same.1, ih]
    · rw [if_neg (by simpa using fun accepted' => accepted (same.2.mp accepted')),
        if_neg (by simpa using accepted), ih]

theorem alike_eligibleWorker (unshared : Unshared env held attempt.row.attemptId) :
    Alike (Apart victim (OfExperiment experimentId held))
      (fun found found' => (∃ offer, found = .ok offer ∧ found' = .ok offer) ∨
        ∃ reason reason', found = .error reason ∧ found' = .error reason')
      (eligibleWorker env attempt) (eligibleWorker env attempt) := by
  intro desk desk' apart
  refine (Alike.orRaise (env.offers attempt.row.attemptId)).bind (fun offers _ same => ?_)
    desk desk' apart
  subst same
  obtain ⟨fault, raised, raised'⟩ | ⟨verdicts, verdicts', mapped, mapped', each⟩ :=
    verdicts_twin apart.queue unshared offers
  · rw [raised, raised']
    exact .throw fault
  · rw [mapped, mapped']
    have read : Alike (Apart victim (OfExperiment experimentId held))
        (List.Forall₂ SameDecision) (ask (.ok verdicts) : Routine _) (ask (.ok verdicts')) :=
      .pure each
    refine read.bind fun verdicts verdicts' each => ?_
    dsimp only
    rw [choices_twin each]
    split
    next offer _ => exact .pure (.inl ⟨offer, rfl, rfl⟩)
    next => exact .pure (.inr ⟨_, _, rfl, rfl⟩)

theorem alike_setQueuedReason (different : attempt.row.attemptId ≠ victim.name)
    (reason reason' : Option String) :
    Alike (Apart victim (OfExperiment experimentId held)) (· = ·)
      (commit (setQueuedReason attempt.row.attemptId reason))
      (commit (setQueuedReason attempt.row.attemptId reason')) :=
  fun _ _ apart => .ok rfl ⟨aside_setQueuedReason different apart.queue reason reason', apart.sent⟩

theorem alike_scheduleQueued (different : attempt.row.attemptId ≠ victim.name)
    (differentRun : attempt.row.runId ≠ victim.run)
    (unshared : Unshared env held attempt.row.attemptId) :
    Alike (Apart victim (OfExperiment experimentId held)) (· = ·) (scheduleQueued env attempt)
      (scheduleQueued env attempt) := by
  have found : Alike (Apart victim (OfExperiment experimentId held))
      (fun found found' => (found = none ∧ found' = none) ∨
        (∃ offer, found = some (.ok offer) ∧ found' = some (.ok offer)) ∨
          ∃ reason reason', found = some (.error reason) ∧ found' = some (.error reason'))
      (attempting
        (fun fault => fault.kind = .timeout ∧ env.late (.failed .queued attempt.row.attemptId))
        (do return some (← eligibleWorker env attempt)) (fun _ => pure none))
      (attempting
        (fun fault => fault.kind = .timeout ∧ env.late (.failed .queued attempt.row.attemptId))
        (do return some (← eligibleWorker env attempt)) (fun _ => pure none)) := by
    refine .attempting ((alike_eligibleWorker unshared).bind fun found found' same => ?_)
      fun _ _ => .pure (.inl ⟨rfl, rfl⟩)
    obtain ⟨offer, rfl, rfl⟩ | ⟨reason, reason', rfl, rfl⟩ := same
    · exact .pure (.inr (.inl ⟨offer, rfl, rfl⟩))
    · exact .pure (.inr (.inr ⟨reason, reason', rfl, rfl⟩))
  refine found.bind fun found found' same => ?_
  obtain ⟨rfl, rfl⟩ | ⟨offer, rfl, rfl⟩ | ⟨reason, reason', rfl, rfl⟩ := same
  · exact .pure rfl
  · refine .ite (fun _ => .pure rfl) fun _ => .attempting ?_ fun _ _ => .pure rfl
    exact .bind_same (alike_launch different differentRun offer.workerId) fun _ => .pure rfl
  · refine .ite (fun _ => .pure rfl) fun _ => ?_
    exact .bind_same (alike_setQueuedReason different reason reason') fun _ => .pure rfl

end

section

variable {victim : Victim} {own own' : Attempt → Prop} {env : Environment} {place : Place}
  {process : Reading → Routine Progress}

def goOn (rest : Routine Nat) : Progress → Routine Nat
  | .stop => pure 0
  | .skipped => rest
  | .assigned => do pure ((← rest) + 1)

theorem eachAttempt_cons (never : ∀ moment, env.late moment = false) (reading : Reading)
    (readings : List Reading) : eachAttempt env place process (reading :: readings) =
      process reading >>= goOn (eachAttempt env place process readings) := by
  rw [eachAttempt, never, if_neg Bool.false_ne_true]
  congr 1

theorem matches_goOn {rest rest' : Routine Nat} {desk desk' : Desk} (progress : Progress)
    (kept : Apart victim own' desk desk')
    (matching : Matches (Apart victim own') (fun _ _ => True) (rest desk) (rest' desk')) :
    Matches (Apart victim own') (fun _ _ => True) (goOn rest progress desk)
      (goOn rest' progress desk') := by
  cases progress with
  | stop => exact .ok trivial kept
  | skipped => exact matching
  | assigned => exact matching.bind (fun _ _ _ _ _ => .ok trivial) fun _ _ => id

theorem matches_goOn_left {rest : Routine Nat} {desk : Desk}
    {result' : EStateM.Result Fault Desk Nat} {progress : Progress} (goes : progress ≠ .stop)
    (matching : Matches (Apart victim own') (fun _ _ => True) (rest desk) result') :
    Matches (Apart victim own') (fun _ _ => True) (goOn rest progress desk) result' := by
  cases progress with
  | stop => exact absurd rfl goes
  | skipped => exact matching
  | assigned =>
    change Matches _ _ (EStateM.bind rest _ desk) _
    unfold EStateM.bind
    generalize rest desk = result at matching ⊢
    cases matching with
    | ok _ kept => exact .ok trivial kept
    | error kept => exact .error kept

theorem eachAttempt_others (never : ∀ moment, env.late moment = false)
    {readings readings' : List Reading} (related : List.Forall₂ PlainReading readings readings')
    (others : ∀ reading ∈ readings, ∀ reading', PlainReading reading reading' →
      Alike (Apart victim own) (· = ·) (process reading) (process reading')) :
    Alike (Apart victim own) (fun _ _ => True) (eachAttempt env place process readings)
      (eachAttempt env place process readings') := by
  induction related with
  | nil => exact .pure trivial
  | @cons reading reading' readings readings' plain related ih =>
    have rest := ih fun later member => others later (List.mem_cons_of_mem _ member)
    rw [eachAttempt_cons never, eachAttempt_cons never]
    refine .bind_same (others reading List.mem_cons_self reading' plain) fun progress => ?_
    exact fun desk desk' apart => matches_goOn progress apart (rest desk desk' apart)

theorem eachAttempt_twin (never : ∀ moment, env.late moment = false)
    (weaken : ∀ row, own row → own' row) {readings readings' : List Reading}
    (unique : (readings.map (·.row.attemptId)).Nodup)
    (related : List.Forall₂ PlainReading (readings.filter (·.row.attemptId ≠ victim.name)) readings')
    (others : ∀ current, current = own ∨ current = own' → ∀ reading ∈ readings,
      reading.row.attemptId ≠ victim.name → ∀ reading', PlainReading reading reading' →
        Alike (Apart victim current) (· = ·) (process reading) (process reading'))
    (itself : ∀ reading ∈ readings, reading.row.attemptId = victim.name → ∀ desk desk',
      Apart victim own desk desk' → Ends (process reading) desk
        (fun progress written => progress ≠ .stop ∧ Apart victim own' written desk')
        fun _ _ => False) {desk desk' : Desk} (apart : Apart victim own desk desk') :
    Matches (Apart victim own') (fun _ _ => True) (eachAttempt env place process readings desk)
      (eachAttempt env place process readings' desk') := by
  induction readings generalizing readings' desk desk' with
  | nil =>
    cases related
    exact .ok trivial ⟨apart.queue.mono weaken, apart.sent⟩
  | cons reading readings ih =>
    rw [List.map_cons, List.nodup_cons] at unique
    rw [eachAttempt_cons never]
    by_cases same : reading.row.attemptId = victim.name
    · rw [List.filter_cons_of_neg (by simp [same])] at related
      have absent : readings.filter (·.row.attemptId ≠ victim.name) = readings := by
        refine List.filter_eq_self.mpr fun later member => ?_
        refine decide_eq_true fun named => unique.1 ?_
        rw [same, ← named]
        exact List.mem_map_of_mem member
      rw [absent] at related
      have rest : Alike (Apart victim own') (fun _ _ => True)
          (eachAttempt env place process readings) (eachAttempt env place process readings') := by
        refine eachAttempt_others never related fun later member later' plain => ?_
        refine others own' (.inr rfl) later (List.mem_cons_of_mem _ member) ?_ later' plain
        intro named
        exact unique.1 (same.trans named.symm ▸ List.mem_map_of_mem member)
      refine .skip (itself reading List.mem_cons_self same desk desk' apart) ?_
      exact fun progress written goes kept => matches_goOn_left goes (rest written desk' kept)
    · rw [List.filter_cons_of_pos (by simp [same])] at related
      obtain ⟨reading', later, plain, others', rfl⟩ := List.forall₂_cons_left_iff.mp related
      rw [eachAttempt_cons never]
      have first := others own (.inl rfl) reading List.mem_cons_self same reading' plain
      refine (first desk desk' apart).bind ?_
        fun _ _ kept => ⟨kept.queue.mono weaken, kept.sent⟩
      rintro progress _ written written' rfl kept
      have rest := ih unique.2 others'
        (fun current either later member => others current either later
          (List.mem_cons_of_mem _ member))
        (fun later member => itself later (List.mem_cons_of_mem _ member)) kept
      exact matches_goOn progress ⟨kept.queue.mono weaken, kept.sent⟩ rest

end

section

variable {env : Environment} {attempt : Reading} {specs : String → Option Spec}
  {held : String → Prop} {own : Attempt → Prop} {desk desk' : Desk}

structure Manageable (env : Environment) (attempt : Reading) : Prop where
  schedulable : attempt.row.status = .queued → Schedulable env (identityOf attempt)
  pollable : Pollable env (identityOf attempt)
  replayable : Replayable env (identityOf attempt)
  retryable : Retryable env (identityOf attempt)

structure Contained (env : Environment) (attempt : Reading) : Prop
    extends Manageable env attempt where
  quiet : ∀ place, env.act place .relayRecords attempt.row.attemptId = .ok ()

theorem Apart.identity (apart : Apart (victimOf attempt specs) own desk desk')
    (experiment : ∀ row, own row → row.experimentId = attempt.row.experimentId)
    (joined : specs attempt.row.experimentId = some attempt.spec) {reading : Reading}
    (member : reading ∈ desk.queue.readings)
    (named : reading.row.attemptId = attempt.row.attemptId) :
    identityOf reading = identityOf attempt := by
  obtain ⟨row, present, stored⟩ := List.mem_filterMap.mp member
  obtain ⟨spec, joins, rfl⟩ := Option.map_eq_some_iff.mp stored
  have run := (apart.queue.runs row present).mpr named
  have same := experiment row (apart.queue.own row present named)
  rw [apart.queue.specs, same] at joins
  obtain rfl := Option.some.inj (joins.symm.trans joined)
  change Identity.mk row.attemptId row.runId row.experimentId _ = _
  rw [same]
  exact congrArg₂ (fun name run => Identity.mk name run _ _) named run

theorem Apart.run_ne {victim : Victim} (apart : Apart victim own desk desk') {reading : Reading}
    (member : reading ∈ desk.queue.readings) (different : reading.row.attemptId ≠ victim.name) :
    reading.row.runId ≠ victim.run :=
  fun same => different ((apart.queue.runs _ (mem_readings member)).mp same)

theorem readings_unique {queue : Queue} (unique : (queue.attempts.map (·.attemptId)).Nodup) :
    (queue.readings.map (·.row.attemptId)).Nodup := by
  have listed : (queue.readings.map (·.row.attemptId)).Sublist
      (queue.attempts.map (·.attemptId)) := by
    unfold Queue.readings
    induction queue.attempts with
    | nil => exact .slnil
    | cons row rows ih =>
      rw [List.filterMap_cons]
      cases queue.specOf row.experimentId with
      | none => exact .cons _ ih
      | some spec => exact .cons_cons _ ih
  exact listed.nodup unique

theorem Apart.rows {victim : Victim} (apart : Apart victim own desk desk') (keep : Reading → Bool)
    (same : ∀ reading reading', PlainReading reading reading' → keep reading' = keep reading) :
    List.Forall₂ PlainReading
        ((desk.queue.readings.filter keep).filter (·.row.attemptId ≠ victim.name))
        (desk'.queue.readings.filter keep) ∧
      ((desk.queue.readings.filter keep).map (·.row.attemptId)).Nodup := by
  constructor
  · rw [List.filter_comm]
    refine List.rel_filter (fun reading reading' plain => ?_) apart.queue.readings
    exact Bool.eq_iff_iff.mp (same reading reading' plain).symm
  · exact (List.filter_sublist.map _).nodup (readings_unique apart.queue.unique)

theorem status_plain (statuses : List QueueStatus) (reading reading' : Reading)
    (plain : PlainReading reading reading') :
    decide (reading'.row.status ∈ statuses) = decide (reading.row.status ∈ statuses) := by
  obtain ⟨reason, rfl⟩ := plain
  rfl

theorem lacking_eq {reading : Reading} (same : identityOf reading = identityOf attempt) :
    Lacking reading specs held = Lacking attempt specs held := by
  obtain ⟨name, run, experiment, _⟩ := identity_eq same
  unfold Lacking victimOf
  rw [name, run, experiment]

theorem Apart.settled {reading : Reading} (apart : Apart (victimOf attempt specs) own desk desk')
    (member : reading ∈ desk.queue.readings)
    (named : reading.row.attemptId = attempt.row.attemptId) :
    Apart (victimOf attempt specs) (Settled reading) desk desk' := by
  refine ⟨{ apart.queue with own := ?_ }, apart.sent⟩
  intro row listed same
  have equal : row = reading.row := List.inj_on_of_nodup_map apart.queue.unique listed
    (mem_readings member) (same.trans named.symm)
  rw [equal]
  exact ⟨rfl, rfl⟩

variable (joined : specs attempt.row.experimentId = some attempt.spec)
  (contained : Contained env attempt) (never : ∀ moment, env.late moment = false)

include joined contained never

theorem queued_twin (held : String → Prop)
    (holds : attempt.row.status = .queued → ∀ offer,
      env.verdict attempt.row.attemptId offer = .ok .accepted → held offer.workerId)
    (waiting : ∀ reading ∈ desk.queue.readings, reading.row.attemptId = attempt.row.attemptId →
      reading.row.status = attempt.row.status)
    (unshared : ∀ reading ∈ desk.queue.readings, reading.row.attemptId ≠ attempt.row.attemptId →
      reading.row.status = .queued → Unshared env held reading.row.attemptId)
    (lacking : Lacking attempt specs held desk' desk) :
    Matches (fun desk desk' => Lacking attempt specs held desk' desk) (fun _ _ => True)
      (eachAttempt env .queued (scheduleQueued env) (withStatus [.queued] desk.queue) desk)
      (eachAttempt env .queued (scheduleQueued env) (withStatus [.queued] desk'.queue) desk') := by
  obtain ⟨related, unique⟩ := lacking.rows _ (status_plain [.queued])
  refine eachAttempt_twin never (fun _ => id) unique related ?_ ?_ lacking
  · rintro current either reading member different reading' ⟨reason, rfl⟩
    obtain rfl : current = OfExperiment attempt.row.experimentId held := either.elim id id
    obtain ⟨listed, queued⟩ := List.mem_filter.mp member
    exact alike_scheduleQueued different (lacking.run_ne listed different)
      (unshared reading listed different (by simpa using queued))
  · intro reading member same desk₁ desk₁' lacking₁
    obtain ⟨listed, queued⟩ := List.mem_filter.mp member
    have queued : reading.row.status = .queued := by simpa using queued
    have identity := lacking.identity (fun _ own => own.1) joined listed same
    have started := (waiting reading listed same).symm.trans queued
    have schedulable := contained.schedulable started
    rw [← identity] at schedulable
    change Lacking attempt specs held desk₁' desk₁ at lacking₁
    change Ends _ _ (fun _ written => _ ∧ Lacking attempt specs held desk₁' written) _
    rw [← lacking_eq identity] at lacking₁ ⊢
    obtain ⟨name, _, experiment, spec⟩ := identity_eq identity
    refine scheduleQueued_kept never ?_ schedulable queued ?_ lacking₁
    · rw [experiment, spec]
      exact joined
    · rw [name]
      exact holds started

abbrev anyWorker (_ : String) : Prop := True

section

variable (lacking : Lacking attempt specs anyWorker desk' desk)

include lacking

theorem poll_twin :
    Matches (fun desk desk' => Lacking attempt specs anyWorker desk' desk) (fun _ _ => True)
      (whenTime env .poll (withStatus [.assigned, .running, .cancelRequested, .unknown])
        (fun attempt => do
          if attempt.row.terminalReceipt = none then pollActive env attempt else pure ()
          pure .skipped) desk)
      (whenTime env .poll (withStatus [.assigned, .running, .cancelRequested, .unknown])
        (fun attempt => do
          if attempt.row.terminalReceipt = none then pollActive env attempt else pure ()
          pure .skipped) desk') := by
  unfold whenTime
  rw [never, if_neg Bool.false_ne_true]
  obtain ⟨related, unique⟩ :=
    lacking.rows _ (status_plain [.assigned, .running, .cancelRequested, .unknown])
  refine eachAttempt_twin never (fun _ => id) unique related ?_ ?_ lacking
  · rintro current _ reading member different reading' ⟨reason, rfl⟩
    have run := lacking.run_ne (List.mem_filter.mp member).1 different
    exact .ite (fun _ => .bind_same (alike_pollActive different run (contained.quiet .poll))
      fun _ => .pure rfl) fun _ => .pure rfl
  · intro reading member same desk₁ desk₁' lacking₁
    have identity := lacking.identity (fun _ own => own.1) joined (List.mem_filter.mp member).1 same
    have pollable := contained.pollable
    rw [← identity] at pollable
    change Lacking attempt specs anyWorker desk₁' desk₁ at lacking₁
    change Ends _ _ (fun _ written => _ ∧ Lacking attempt specs anyWorker desk₁' written) _
    rw [← lacking_eq identity] at lacking₁ ⊢
    obtain ⟨_, _, experiment, spec⟩ := identity_eq identity
    by_cases open' : reading.row.terminalReceipt = none
    · rw [if_pos open']
      refine ends_bind.mpr ((keeps_pollActive (by rw [experiment, spec]; exact joined) pollable
        desk₁ lacking₁).mono ?_ fun _ _ => And.left)
      exact fun _ written kept => ends_pure.mpr ⟨Progress.noConfusion, kept⟩
    · rw [if_neg open']
      exact ⟨Progress.noConfusion, lacking₁⟩

theorem ingestion_twin :
    Matches (fun desk desk' => Lacking attempt specs anyWorker desk' desk) (fun _ _ => True)
      (whenTime env .ingestion pendingIngestion (fun attempt => do
          retryIngestion env attempt
          pure .skipped) desk)
      (whenTime env .ingestion pendingIngestion (fun attempt => do
          retryIngestion env attempt
          pure .skipped) desk') := by
  unfold whenTime
  rw [never, if_neg Bool.false_ne_true]
  obtain ⟨related, unique⟩ := lacking.rows (fun reading => decide (Pending reading.row))
    fun reading reading' plain => by
      obtain ⟨reason, rfl⟩ := plain
      rfl
  refine eachAttempt_twin never (fun _ => id) unique related ?_ ?_ lacking
  · rintro current _ reading member different reading' ⟨reason, rfl⟩
    have run := lacking.run_ne (List.mem_filter.mp member).1 different
    exact .bind_same (alike_retryIngestion different run (contained.quiet .ingestion))
      fun _ => .pure rfl
  · intro reading member same desk₁ desk₁' lacking₁
    have identity := lacking.identity (fun _ own => own.1) joined (List.mem_filter.mp member).1 same
    have retryable := contained.retryable
    rw [← identity] at retryable
    change Lacking attempt specs anyWorker desk₁' desk₁ at lacking₁
    change Ends _ _ (fun _ written => _ ∧ Lacking attempt specs anyWorker desk₁' written) _
    rw [← lacking_eq identity] at lacking₁ ⊢
    obtain ⟨_, _, experiment, spec⟩ := identity_eq identity
    refine ends_bind.mpr ((keeps_retryIngestion (by rw [experiment, spec]; exact joined) retryable
      desk₁ lacking₁).mono ?_ fun _ _ => And.left)
    exact fun _ written kept => ends_pure.mpr ⟨Progress.noConfusion, kept⟩

theorem replay_twin :
    Matches (fun desk desk' => Lacking attempt specs anyWorker desk' desk) (fun _ _ => True)
      (whenTime env .replay (withStatus [.assigned, .cancelRequested])
        (fun attempt => do
          pure (if ← replayAssigned env attempt then .assigned else .skipped)) desk)
      (whenTime env .replay (withStatus [.assigned, .cancelRequested])
        (fun attempt => do
          pure (if ← replayAssigned env attempt then .assigned else .skipped)) desk') := by
  unfold whenTime
  rw [never, if_neg Bool.false_ne_true]
  obtain ⟨related, unique⟩ := lacking.rows _ (status_plain [.assigned, .cancelRequested])
  have others : ∀ current : Attempt → Prop,
      ∀ reading ∈ withStatus [.assigned, .cancelRequested] desk.queue,
        reading.row.attemptId ≠ attempt.row.attemptId → ∀ reading', PlainReading reading reading' →
          Alike (Apart (victimOf attempt specs) current) (· = ·)
            (do pure (if ← replayAssigned env reading then Progress.assigned else .skipped))
            (do pure (if ← replayAssigned env reading' then Progress.assigned else .skipped)) := by
    rintro current reading member different reading' ⟨reason, rfl⟩
    have run := lacking.run_ne (List.mem_filter.mp member).1 different
    exact .bind_same (alike_replayAssigned different run) fun _ => .pure rfl
  by_cases waits : ∃ reading ∈ withStatus [.assigned, .cancelRequested] desk.queue,
      reading.row.attemptId = attempt.row.attemptId
  · obtain ⟨reading, member, same⟩ := waits
    obtain ⟨listed, waiting⟩ := List.mem_filter.mp member
    have identity := lacking.identity (fun _ own => own.1) joined listed same
    obtain ⟨_, _, experiment, spec⟩ := identity_eq identity
    refine eachAttempt_twin never (fun row settled => ⟨settled.1.trans experiment, fun _ _ => trivial⟩)
      unique related (fun current _ => others current) ?_ (lacking.settled listed same)
    intro again member' same' desk₁ desk₁' settled
    obtain rfl : again = reading :=
      List.inj_on_of_nodup_map unique member' member (same'.trans same.symm)
    have replayable := contained.replayable
    rw [← identity] at replayable
    change Ends _ _ (fun _ written => _ ∧ Lacking attempt specs anyWorker desk₁' written) _
    rw [← lacking_eq identity]
    have victim : victimOf again specs = victimOf attempt specs := by
      obtain ⟨name, run, _, _⟩ := identity_eq identity
      rw [victimOf, victimOf, name, run]
    rw [← victim] at settled
    refine ends_bind.mpr ((replayAssigned_kept (by rw [experiment, spec]; exact joined) replayable
      (of_decide_eq_true waiting) settled).mono ?_ fun _ _ => id)
    intro replayed written kept
    cases replayed with
    | true => exact ends_pure.mpr ⟨Progress.noConfusion, kept⟩
    | false => exact ends_pure.mpr ⟨Progress.noConfusion, kept⟩
  · refine eachAttempt_twin never (fun _ => id) unique related (fun current _ => others current)
      ?_ lacking
    exact fun reading member same => absurd ⟨reading, member, same⟩ waits

end

end

def withoutAttempt (queue : Queue) (name : String) : Queue :=
  { queue with attempts := queue.attempts.filter (·.attemptId ≠ name) }

def MayHold (env : Environment) (attempt : Reading) (workerId : String) : Prop :=
  attempt.row.workerId = some workerId ∨
    attempt.row.status = .queued ∧ ∃ offer : Offer, offer.workerId = workerId ∧
      env.verdict attempt.row.attemptId offer = .ok .accepted

def SameForOthers (name : String) (desk desk' : Desk) : Prop :=
  List.Forall₂ Plain (desk.queue.attempts.filter (·.attemptId ≠ name)) desk'.queue.attempts ∧
    desk'.sent = desk.sent.filter (·.attemptId ≠ name)

theorem plain_refl (rows : List Attempt) : List.Forall₂ Plain rows rows := by
  induction rows with
  | nil => exact .nil
  | cons row rows ih => exact .cons rfl ih

theorem lacking_without {queue : Queue} (keyed : queue.Keyed) {attempt : Reading}
    (member : attempt ∈ queue.readings) {held : String → Prop}
    (holds : ∀ workerId, attempt.row.workerId = some workerId → held workerId) :
    Lacking attempt queue.specOf held ⟨withoutAttempt queue attempt.row.attemptId, []⟩ ⟨queue, []⟩ := by
  have present := mem_readings member
  have itself : ∀ row ∈ queue.attempts, row.attemptId = attempt.row.attemptId →
      row = attempt.row :=
    fun row listed same => List.inj_on_of_nodup_map keyed.attempts listed present same
  refine ⟨⟨plain_refl _, rfl, rfl, fun row listed => ⟨fun same => ?_, fun same => ?_⟩, ?_,
    ⟨_, present, rfl⟩, keyed.attempts⟩, rfl⟩
  · exact congrArg Attempt.attemptId
      (List.inj_on_of_nodup_map keyed.runs listed present same)
  · exact congrArg Attempt.runId (itself row listed same)
  · intro row listed same
    rw [itself row listed same]
    exact ⟨rfl, holds⟩

/-- A tick without a deadline treats every other attempt as if the contained one were absent. -/
theorem tick_isolates (env : Environment) (queue : Queue) (keyed : queue.Keyed)
    (attempt : Reading) (member : attempt ∈ queue.readings)
    (never : ∀ moment, env.late moment = false) (contained : Contained env attempt)
    (unshared : ∀ other ∈ queue.readings, other.row.attemptId ≠ attempt.row.attemptId →
      other.row.status = .queued → Unshared env (MayHold env attempt) other.row.attemptId) :
    Matches (SameForOthers attempt.row.attemptId) (fun _ _ => True) (tick env ⟨queue, []⟩)
      (tick env ⟨withoutAttempt queue attempt.row.attemptId, []⟩) := by
  obtain ⟨row, present, stored⟩ := List.mem_filterMap.mp member
  obtain ⟨spec, joined, rfl⟩ := Option.map_eq_some_iff.mp stored
  have lacking : Lacking ⟨row, spec⟩ queue.specOf (MayHold env ⟨row, spec⟩)
      ⟨withoutAttempt queue row.attemptId, []⟩ ⟨queue, []⟩ :=
    lacking_without keyed member fun workerId given => .inl given
  have waiting : ∀ reading ∈ queue.readings, reading.row.attemptId = row.attemptId →
      reading.row.status = row.status := by
    intro reading listed same
    rw [List.inj_on_of_nodup_map keyed.attempts (mem_readings listed) present same]
  have first := queued_twin joined contained never (MayHold env ⟨row, spec⟩)
    (fun queued offer accepted => .inr ⟨queued, offer, rfl, accepted⟩) waiting unshared lacking
  change Matches _ _ ((eachAttempt env .queued _ (withStatus [.queued] queue) >>= _) _)
    ((eachAttempt env .queued _ (withStatus [.queued] (withoutAttempt queue _)) >>= _) _)
  have weaken : ∀ desk desk' : Desk, Lacking ⟨row, spec⟩ queue.specOf (MayHold env ⟨row, spec⟩)
      desk' desk → Lacking ⟨row, spec⟩ queue.specOf anyWorker desk' desk :=
    fun desk desk' kept => ⟨kept.queue.mono fun _ own => ⟨own.1, fun _ _ => trivial⟩, kept.sent⟩
  have same : ∀ desk desk' : Desk, Lacking ⟨row, spec⟩ queue.specOf anyWorker desk' desk →
      SameForOthers row.attemptId desk desk' := fun desk desk' kept => ⟨kept.queue.rows, kept.sent⟩
  refine first.bind (fun _ _ desk desk' _ kept => ?_) fun desk desk' kept =>
    same desk desk' (weaken desk desk' kept)
  refine (poll_twin joined contained never (weaken desk desk' kept)).bind
    (fun _ _ desk desk' _ kept => ?_) same
  refine (replay_twin joined contained never kept).bind (fun _ _ desk desk' _ kept => ?_) same
  refine (ingestion_twin joined contained never kept).bind (fun _ _ desk desk' _ kept => ?_) same
  exact .ok trivial (same desk desk' kept)

section

/-- The transport of attempt `a` fails, and each attempt is bound to one worker. -/
def failingEnv (bound : String → String) : Environment where
  registry := [⟨"w", false, false⟩, ⟨"v", false, false⟩]
  late _ := false
  offers _ := .ok [⟨"w", "w", false⟩, ⟨"v", "v", false⟩]
  verdict name offer :=
    .ok (if offer.workerId = bound name then .accepted else .refused none)
  act _ _ _ := .ok ()
  delivery _ _ _ := .ok none
  bundles _ _ := [.ok ⟨"bundle", []⟩]
  check _ name := if name = "a" then .error ⟨.os, "OSError", ""⟩ else .ok (some [])
  install _ _ := .ok (some "bundle")
  launch _ _ := .error ⟨.os, "OSError", ""⟩
  status _ _ _ := .error ⟨.os, "OSError", ""⟩
  cancel _ _ := .error ⟨.os, "OSError", ""⟩
  artifactPaths _ := .ok []
  trainingStarted _ := false
  collected _ _ := ([], .ok ())

/-- Both attempts have workers of their own, but `a` has no dispatch bundle any more. -/
def lostBundle : Environment :=
  { failingEnv fun name => if name = "a" then "w" else "v" with
    bundles _ name := if name = "a" then [] else [.ok ⟨"bundle", []⟩] }

def queuedRow (name : String) : Attempt where
  attemptId := name
  experimentId := name
  runId := name

def queuedSpec : Spec := ⟨"spec", "bundle"⟩

def twoQueued : Queue where
  attempts := [queuedRow "a", queuedRow "b"]
  experiments := [⟨"a", queuedSpec, .queued⟩, ⟨"b", queuedSpec, .queued⟩]

theorem twoQueued_keyed : twoQueued.Keyed where
  attempts := by decide
  runs := by decide
  joined := by simp [twoQueued, queuedRow, Queue.specOf]

theorem failing_transport {α : Type} {fault : Fault}
    (raised : (.error ⟨.os, "OSError", ""⟩ : Except Fault α) = .error fault) : fault.Transport := by
  cases raised
  exact List.mem_cons_self

theorem failing_deliverable (bound : String → String) (place : Place) :
    Deliverable (failingEnv bound) place (identityOf ⟨queuedRow "a", queuedSpec⟩) where
  acts _ _ raised := by cases raised
  glances _ _ raised := by cases raised
  bundle _ raised := by cases raised
  check _ raised := failing_transport raised
  checked _ _ _ answered := by cases answered
  install _ raised := by cases raised
  installed _ replied := (Except.ok.inj replied).symm
  launch _ raised := failing_transport raised
  launched _ answered := by cases answered
  prepared _ member hosted := by
    rcases List.mem_pair.mp member with rfl | rfl <;> cases hosted

theorem failing_ingestible (bound : String → String) (place : Place) :
    Ingestible (failingEnv bound) place (identityOf ⟨queuedRow "a", queuedSpec⟩) where
  bundle _ raised := by cases raised
  paths _ _ raised := by cases raised
  relayed _ _ raised := by cases raised
  records _ raised := by cases raised
  artifacts _ raised := by cases raised

theorem failing_registered (bound : String → String) {worker : Worker}
    (member : worker ∈ (failingEnv bound).registry) : worker.hosted = false := by
  rcases List.mem_pair.mp member with rfl | rfl <;> rfl

theorem failing_pollable (bound : String → String) :
    Pollable (failingEnv bound) (identityOf ⟨queuedRow "a", queuedSpec⟩) where
  marked _ raised := by cases raised
  glances _ _ raised := by cases raised
  intent _ raised := by cases raised
  cancel _ raised := failing_transport raised
  cancelled _ answered := by cases answered
  status _ _ raised := failing_transport raised
  hosted _ member hosted := absurd hosted (by simp [failing_registered bound member])
  answered _ _ _ answered := by cases answered
  collected _ raised := by cases raised
  ingestible := failing_ingestible bound .poll

theorem failing_contained (bound : String → String) :
    Contained (failingEnv bound) ⟨queuedRow "a", queuedSpec⟩ where
  schedulable _ :=
    { offers := ⟨_, rfl, fun offer member => ⟨⟨_, rfl⟩, by
        rcases List.mem_pair.mp member with rfl | rfl <;> simp [workerForAttempt, failingEnv]⟩⟩
      deliverable := failing_deliverable bound .queued }
  pollable := failing_pollable bound
  replayable :=
    { deliverable := failing_deliverable bound .replay
      glance _ member hosted := absurd hosted (by simp [failing_registered bound member])
      cancel _ raised := failing_transport raised
      status _ _ raised := failing_transport raised
      hosted _ member hosted := absurd hosted (by simp [failing_registered bound member])
      answered _ _ _ answered := by cases answered }
  retryable :=
    { glance _ raised := by cases raised
      marked _ raised := by cases raised
      collected _ raised := by cases raised
      status _ _ raised := (failing_transport raised).refused
      origin _ _ answered := by cases answered
      ingestible := failing_ingestible bound .ingestion }
  quiet _ := rfl

theorem failed_attempt_keeps_slot :
    twoQueued.Keyed ∧ ⟨queuedRow "a", queuedSpec⟩ ∈ twoQueued.readings ∧
      (Contained (failingEnv fun _ => "w") ⟨queuedRow "a", queuedSpec⟩ ∧
        ¬ Matches (SameForOthers "a") (fun _ _ => True)
          (tick (failingEnv fun _ => "w") ⟨twoQueued, []⟩)
          (tick (failingEnv fun _ => "w") ⟨withoutAttempt twoQueued "a", []⟩)) ∧
      ¬ Matches (SameForOthers "a") (fun _ _ => True)
        (tick lostBundle ⟨twoQueued, []⟩)
        (tick lostBundle ⟨withoutAttempt twoQueued "a", []⟩) := by
  refine ⟨twoQueued_keyed, by decide, ⟨failing_contained _, fun matching => ?_⟩, fun matching => ?_⟩
  all_goals
    have sent := matching.states.2
    revert sent
    decide

theorem tick_isolates_failing :
    Matches (SameForOthers "a") (fun _ _ => True)
      (tick (failingEnv fun name => if name = "a" then "w" else "v") ⟨twoQueued, []⟩)
      (tick (failingEnv fun name => if name = "a" then "w" else "v")
        ⟨withoutAttempt twoQueued "a", []⟩) := by
  refine tick_isolates _ twoQueued twoQueued_keyed ⟨queuedRow "a", queuedSpec⟩ (by decide)
    (fun _ => rfl) (failing_contained _) ?_
  intro other member different _ offer holds
  obtain rfl : other = ⟨queuedRow "b", queuedSpec⟩ := by
    rcases List.mem_pair.mp member with rfl | rfl
    · exact absurd rfl different
    · rfl
  have bound : offer.workerId = "w" := by
    rcases holds with given | ⟨_, found, same, accepted⟩
    · cases given
    · rw [← same]
      by_contra other
      simp [failingEnv, queuedRow, other] at accepted
  exact ⟨none, by simp [failingEnv, queuedRow, bound]⟩

end

end SparseLab.Workers.Ticks
