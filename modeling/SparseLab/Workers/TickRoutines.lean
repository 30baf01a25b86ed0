import SparseLab.Library.Outcomes
import SparseLab.Workers.TickFrames

/-! What the routines of one attempt may raise, and what they keep. -/

namespace SparseLab.Workers.Ticks

open Library Workers.Queue

abbrev victimOf (attempt : Reading) (specs : String → Option Spec) : Victim where
  name := attempt.row.attemptId
  run := attempt.row.runId
  specs := specs

structure Identity where
  attemptId : String
  runId : String
  experimentId : String
  spec : Spec
deriving DecidableEq

abbrev identityOf (reading : Reading) : Identity where
  attemptId := reading.row.attemptId
  runId := reading.row.runId
  experimentId := reading.row.experimentId
  spec := reading.spec

theorem identity_eq {first second : Reading} (same : identityOf first = identityOf second) :
    first.row.attemptId = second.row.attemptId ∧ first.row.runId = second.row.runId ∧
      first.row.experimentId = second.row.experimentId ∧ first.spec = second.spec :=
  ⟨congrArg Identity.attemptId same, congrArg Identity.runId same,
    congrArg Identity.experimentId same, congrArg Identity.spec same⟩

abbrev Lacking (attempt : Reading) (specs : String → Option Spec) (held : String → Prop)
    (desk' desk : Desk) : Prop :=
  ApartFrom (victimOf attempt specs) attempt.row.experimentId held desk' desk

def Legible (identity : Identity) (receipt : Receipt) : Prop :=
  receipt.attemptId = some identity.attemptId → receipt.state ≠ none

structure Deliverable (env : Environment) (place : Place) (identity : Identity) : Prop where
  acts : ∀ act fault, env.act place act identity.attemptId = .error fault → fault.Transport
  glances : ∀ glance fault, env.delivery place glance identity.attemptId = .error fault →
    fault.Transport
  bundle : ∀ fault, dispatchBundle identity.spec.dispatchBundleDigest
    (env.bundles place identity.attemptId) = .error fault → fault.Transport
  check : ∀ fault, env.check place identity.attemptId = .error fault → fault.Transport
  checked : ∀ manifest answer, dispatchBundle identity.spec.dispatchBundleDigest
    (env.bundles place identity.attemptId) = .ok manifest →
      env.check place identity.attemptId = .ok answer →
        ∃ missing, answer = some missing ∧ ∀ digest ∈ missing, digest ∈ manifest.files
  install : ∀ fault, env.install place identity.attemptId = .error fault → fault.Transport
  installed : ∀ answer, env.install place identity.attemptId = .ok answer →
    answer = some identity.spec.dispatchBundleDigest
  launch : ∀ fault, env.launch place identity.attemptId = .error fault → fault.Transport
  launched : ∀ answer, env.launch place identity.attemptId = .ok answer →
    ∃ receipt, answer = some receipt ∧ Legible identity receipt
  prepared : ∀ worker ∈ env.registry, worker.hosted →
    env.delivery place .prepared identity.attemptId ≠ .ok none

structure Ingestible (env : Environment) (place : Place) (identity : Identity) : Prop where
  bundle : ∀ fault, dispatchBundle identity.spec.dispatchBundleDigest
    (env.bundles place identity.attemptId) = .error fault → fault.Refused
  paths : ∀ receipt fault, env.artifactPaths receipt = .error fault → fault.Refused
  relayed : ∀ name fault, env.act place .relayRecords name = .error fault → fault.Refused
  records : ∀ fault, env.act place .records identity.attemptId = .error fault → fault.Refused
  artifacts : ∀ fault, env.act place .artifacts identity.attemptId = .error fault →
    fault.Refused

structure Pollable (env : Environment) (identity : Identity) : Prop where
  marked : ∀ fault, env.act .poll .markObserved identity.attemptId = .error fault →
    fault.Transport
  glances : ∀ glance fault, env.delivery .poll glance identity.attemptId = .error fault →
    fault.Transport
  intent : ∀ fault, env.act .poll .cancelIntent identity.attemptId = .error fault →
    fault.Refused
  cancel : ∀ fault, env.cancel .poll identity.attemptId = .error fault → fault.Transport
  cancelled : ∀ receipt, env.cancel .poll identity.attemptId = .ok (some receipt) →
    Legible identity receipt
  status : ∀ workerId fault, env.status .poll identity.attemptId workerId = .error fault →
    fault.Transport
  hosted : ∀ worker ∈ env.registry, worker.hosted → ∀ answer,
    env.status .poll identity.attemptId worker.workerId = .ok answer →
      answer.receipt.bind (·.attemptId) = some identity.attemptId
  answered : ∀ workerId answer receipt,
    env.status .poll identity.attemptId workerId = .ok answer → answer.receipt = some receipt →
      Legible identity receipt ∧ answer.originId ≠ none
  collected : ∀ fault, (env.collected .poll identity.attemptId).2 = .error fault →
    fault.Refused
  ingestible : Ingestible env .poll identity

structure Accepted (env : Environment) (identity : Identity) (workerId : String)
    (receipt : Receipt) : Prop where
  attemptId : receipt.attemptId = some identity.attemptId
  runId : receipt.runId = some identity.runId
  experimentId : receipt.experimentId = some identity.experimentId
  workerId : receipt.workerId = some workerId
  specDigest : receipt.specDigest = some identity.spec.digest
  bundleDigest : receipt.bundleDigest = some identity.spec.dispatchBundleDigest
  state : receipt.state ≠ none
  delivery : ∃ delivery, env.delivery .replay .reconciled identity.attemptId = .ok delivery ∧
    ∀ found ∈ delivery, receipt.state ≠ some .prepared →
      found.specDigest = identity.spec.digest ∧
        env.act .replay .markObserved identity.attemptId = .ok ()

structure Replayable (env : Environment) (identity : Identity) : Prop where
  deliverable : Deliverable env .replay identity
  glance : ∀ worker ∈ env.registry, worker.hosted → ∀ fault,
    env.delivery .replay .replaying identity.attemptId ≠ .error fault
  cancel : ∀ fault, env.cancel .replay identity.attemptId = .error fault → fault.Transport
  status : ∀ workerId fault, env.status .replay identity.attemptId workerId = .error fault →
    fault.Transport
  hosted : ∀ worker ∈ env.registry, worker.hosted → ∀ answer,
    env.status .replay identity.attemptId worker.workerId = .ok answer →
      answer.receipt.bind (·.attemptId) = some identity.attemptId
  answered : ∀ workerId answer receipt,
    env.status .replay identity.attemptId workerId = .ok answer →
      answer.receipt = some receipt → Accepted env identity workerId receipt

structure Retryable (env : Environment) (identity : Identity) : Prop where
  glance : ∀ fault, env.delivery .ingestion .reconciled identity.attemptId = .error fault →
    fault.Collecting
  marked : ∀ fault, env.act .ingestion .markObserved identity.attemptId = .error fault →
    fault.Collecting
  collected : ∀ fault, (env.collected .ingestion identity.attemptId).2 = .error fault →
    fault.Collecting
  status : ∀ workerId fault,
    env.status .ingestion identity.attemptId workerId = .error fault → fault.Refused
  origin : ∀ workerId answer,
    env.status .ingestion identity.attemptId workerId = .ok answer → answer.originId ≠ none
  ingestible : Ingestible env .ingestion identity

structure Schedulable (env : Environment) (identity : Identity) : Prop where
  offers : ∃ offers, env.offers identity.attemptId = .ok offers ∧
    ∀ offer ∈ offers, (∃ verdict, env.verdict identity.attemptId offer = .ok verdict) ∧
      workerForAttempt env (some offer.workerId) ≠ none
  deliverable : Deliverable env .queued identity

section

variable {env : Environment} {place : Place} {attempt : Reading}
  {specs : String → Option Spec} {held : String → Prop} {desk' : Desk} {allowed : Fault → Prop}

theorem find_present {queue : Queue} {name : String}
    (present : ∃ row ∈ queue.attempts, row.attemptId = name) : ∃ row, queue.find name = some row := by
  obtain ⟨row, member, same⟩ := present
  cases found : queue.find name with
  | some row => exact ⟨row, rfl⟩
  | none => exact absurd same (by simpa using List.find?_eq_none.mp found row member)

theorem keeps_assign {workerId : String} (holds : held workerId) :
    Keeps (Lacking attempt specs held desk') allowed
      (commit (assign attempt.row.attemptId workerId)) := by
  refine keeps_commit (fun _ _ => rewrites_assign holds) ?_
  intro queue _ _ failure raised
  unfold assign at raised
  simp only [transact_get_bind, transact_ite, transact_set_pure, transact_pure] at raised
  split at raised <;> cases raised

theorem keeps_setQueuedReason (reason : Option String) :
    Keeps (Lacking attempt specs held desk') allowed
      (commit (setQueuedReason attempt.row.attemptId reason)) := by
  refine keeps_commit (fun _ _ => rewrites_setQueuedReason reason) ?_
  intro queue _ _ failure raised
  cases raised

theorem keeps_setReceipt (receipt : Receipt) (status : QueueStatus) :
    Keeps (Lacking attempt specs held desk') allowed
      (commit (setReceipt attempt.row.attemptId receipt status)) := by
  refine keeps_commit (fun _ _ => rewrites_setReceipt receipt status) ?_
  intro queue present _ failure raised
  obtain ⟨row, found⟩ := find_present present
  unfold setReceipt at raised
  simp only [transact_get_bind, found, transact_some_bind, transact_ite, transact_set,
    transact_pure] at raised
  split_ifs at raised

theorem keeps_markUnknown (reason : String) :
    Keeps (Lacking attempt specs held desk') allowed
      (commit (markUnknownIfNonterminal attempt.row.attemptId reason)) := by
  refine keeps_commit (fun _ _ => rewrites_markUnknown reason) ?_
  intro queue present _ failure raised
  obtain ⟨row, found⟩ := find_present present
  unfold markUnknownIfNonterminal at raised
  simp only [transact_get_bind, found, transact_some_bind, transact_ite, transact_set,
    transact_pure] at raised
  split_ifs at raised

theorem keeps_notRequired :
    Keeps (Lacking attempt specs held desk') allowed
      (commit (markIngestionNotRequired attempt.row.attemptId)) := by
  refine keeps_commit (fun _ _ => rewrites_notRequired) ?_
  intro queue _ _ failure raised
  cases raised

theorem keeps_ingestionError (message : String) :
    Keeps (Lacking attempt specs held desk') allowed
      (commit (markIngestionError attempt.row.attemptId message)) := by
  refine keeps_commit (fun _ _ => rewrites_ingestionError message) ?_
  intro queue _ _ failure raised
  cases raised

theorem keeps_complete (conflict : ∀ message, allowed (.value message)) :
    Keeps (Lacking attempt specs held desk') allowed
      (commit (markIngestionComplete attempt.row.attemptId)) := by
  refine keeps_commit (fun _ _ => rewrites_complete) ?_
  intro queue _ _ failure raised
  unfold markIngestionComplete at raised
  simp only [transact_get_bind, transact_raiseIf_bind, transact_set] at raised
  split_ifs at raised
  cases raised
  exact conflict _

theorem keeps_requestCancel :
    Keeps (Lacking attempt specs held desk') allowed
      (commit (requestCancel attempt.row.runId)) := by
  refine keeps_commit (fun _ runs => rewrites_requestCancel runs) ?_
  intro queue present runs failure raised
  obtain ⟨row, member, same⟩ := present
  unfold requestCancel at raised
  cases found : queue.byRun attempt.row.runId with
  | none =>
    have named := (runs row member).mpr same
    exact absurd named (by simpa using List.find?_eq_none.mp found row member)
  | some row =>
    simp only [transact_get_bind, found, transact_some_bind, transact_ite, transact_set_pure]
      at raised
    split_ifs at raised

theorem attemptByRun_found {own : Attempt → Prop} {desk : Desk}
    (apart : Apart (victimOf attempt specs) own desk desk')
    (experiment : ∀ row, own row → row.experimentId = attempt.row.experimentId)
    (joined : specs attempt.row.experimentId = some attempt.spec) :
    ∃ durable, desk.queue.readings.find? (·.row.runId = attempt.row.runId) = some durable ∧
      durable.row.attemptId = attempt.row.attemptId ∧ durable.row.runId = attempt.row.runId ∧
        durable.spec = attempt.spec ∧ own durable.row := by
  have spec : ∀ row ∈ desk.queue.attempts, row.attemptId = attempt.row.attemptId →
      desk.queue.specOf row.experimentId = some attempt.spec := by
    intro row member same
    rw [apart.queue.specs, experiment row (apart.queue.own row member same)]
    exact joined
  cases found : desk.queue.readings.find? (·.row.runId = attempt.row.runId) with
  | none =>
    obtain ⟨row, member, same⟩ := apart.queue.present
    have listed : (⟨row, attempt.spec⟩ : Reading) ∈ desk.queue.readings :=
      List.mem_filterMap.mpr ⟨row, member, by rw [spec row member same]; rfl⟩
    exact absurd ((apart.queue.runs row member).mpr same)
      (by simpa using List.find?_eq_none.mp found _ listed)
  | some durable =>
    have named : durable.row.runId = attempt.row.runId := by simpa using List.find?_some found
    obtain ⟨row, present, stored⟩ := List.mem_filterMap.mp (List.mem_of_find?_eq_some found)
    obtain ⟨stored, joins, rfl⟩ := Option.map_eq_some_iff.mp stored
    have same := (apart.queue.runs row present).mp named
    rw [spec row present same] at joins
    exact ⟨_, rfl, same, named, (Option.some.inj joins).symm, apart.queue.own row present same⟩

theorem yields_attemptByRun (joined : specs attempt.row.experimentId = some attempt.spec) (desk : Desk)
    (apart : Lacking attempt specs held desk' desk) :
    Ends (attemptByRun attempt.row.runId) desk
      (fun found written => (∃ durable, found = some durable ∧
          identityOf durable = identityOf attempt) ∧
        Lacking attempt specs held desk' written)
      fun failure written => allowed failure ∧
        Lacking attempt specs held desk' written := by
  obtain ⟨durable, found, name, run, spec, own⟩ :=
    attemptByRun_found apart (fun _ own => own.1) joined
  exact ⟨⟨durable, found, by rw [identityOf, name, run, spec, own.1]⟩, apart⟩

theorem keeps_reconcile {receipt : Receipt} (joined : specs attempt.row.experimentId = some attempt.spec)
    (protocol : ∀ message, allowed (.protocol message))
    (legible : Legible (identityOf attempt) receipt ∨ ∀ message, allowed (.value message))
    (glance : ∀ fault, env.delivery place .reconciled attempt.row.attemptId = .error fault →
      allowed fault)
    (mark : ∀ fault, env.act place .markObserved attempt.row.attemptId = .error fault →
      allowed fault) :
    Keeps (Lacking attempt specs held desk') allowed
      (reconcileReceipt env place attempt receipt) := by
  refine Keeps.after (yields_attemptByRun joined) fun found named => ?_
  obtain ⟨durable, rfl, same⟩ := named
  refine Keeps.raiseIfNone_bind (fun _ => protocol _) fun durable' stored => ?_
  obtain rfl := Option.some.inj stored
  refine Keeps.raiseIf_bind (fun _ => protocol _) fun identified => ?_
  refine Keeps.raiseIfNone_bind (fun unknown => ?_) fun state stated => ?_
  · have same : receipt.attemptId = some attempt.row.attemptId := by
      rw [← (identity_eq same).1]
      by_contra differs
      exact identified (.inl differs)
    exact legible.elim (fun readable => absurd unknown (readable same)) fun any => any _
  · refine (keeps_setReceipt receipt _).bind fun _ => ?_
    refine Keeps.orRaise_bind glance fun delivery _ => ?_
    cases delivery with
    | none => exact .pure _
    | some delivery =>
      refine .ite (fun _ => .pure _) fun _ => ?_
      exact .raiseIf_bind (fun _ => protocol _) fun _ => .orRaise mark

theorem transport_protocol (message : String) : (Fault.protocol message).Transport :=
  List.mem_of_mem_tail (List.mem_of_mem_tail List.mem_cons_self)

theorem keeps_admission {worker : Worker} (deliverable : Deliverable env place (identityOf attempt))
    (assigned : attempt.row.status = .queued ∧ held worker.workerId ∨
      attempt.row.status ∈ [QueueStatus.assigned, .cancelRequested] ∧
        attempt.row.workerId = some worker.workerId) :
    Keeps (Lacking attempt specs held desk') Fault.Transport
      (admitLaunch env place attempt worker) := by
  have replay : Keeps (Lacking attempt specs held desk') Fault.Transport
      (admitLaunch.assignOrReplay env place attempt worker) := by
    refine Keeps.orRaise_bind (deliverable.acts .budget) fun _ _ => .ite ?_ fun started => ?_
    · intro queued
      obtain ⟨_, holds⟩ | ⟨status, _⟩ := assigned
      · exact keeps_assign holds
      · rw [queued] at status
        exact absurd status (by decide)
    · refine .raiseIf_bind (fun refused => ?_) fun _ => .pure _
      obtain ⟨status, owned⟩ := assigned.resolve_left fun queued => started queued.1
      exact absurd refused (by simp [status, owned])
  refine .ite (fun _ => ?_) fun _ => replay
  refine .orRaise_bind (deliverable.acts .otherDelivery) fun _ _ => ?_
  refine .orRaise_bind (deliverable.glances .launching) fun delivery _ => ?_
  cases delivery with
  | none => exact replay
  | some delivery =>
    exact .ite (fun _ => .orRaise_bind (deliverable.acts .issue) fun _ _ => .pure _)
      fun _ => .pure _

theorem keeps_installBundle {worker : Worker} (deliverable : Deliverable env place (identityOf attempt)) :
    Keeps (Lacking attempt specs held desk') Fault.Transport
      (installBundle env place attempt worker) := by
  refine .orRaise_bind deliverable.bundle fun manifest read => ?_
  refine .orRaise_bind (deliverable.acts .verifyBundle) fun _ _ => ?_
  refine (keeps_send _ _).bind fun _ => ?_
  refine .orRaise_bind deliverable.check fun answer answered => ?_
  obtain ⟨missing, same, known⟩ := deliverable.checked manifest answer read answered
  refine .raiseIfNone_bind (fun malformed => ?_) fun digests stored => ?_
  · rw [same] at malformed
    cases malformed
  · rw [same] at stored
    obtain rfl := Option.some.inj stored
    refine .raiseIf_bind (fun absent => ?_) fun _ => ?_
    · obtain ⟨digest, member, unknown⟩ := absent
      exact absurd (known digest member) unknown
    · refine (keeps_send _ _).bind fun _ => ?_
      refine .orRaise_bind deliverable.install fun installed replied => ?_
      exact .raiseIf fun differs => absurd (deliverable.installed installed replied) differs

theorem keeps_deliver {worker : Worker} (joined : specs attempt.row.experimentId = some attempt.spec)
    (deliverable : Deliverable env place (identityOf attempt)) (member : worker ∈ env.registry) :
    Keeps (Lacking attempt specs held desk') Fault.Transport
      (deliver env place attempt worker) := by
  refine .orRaise_bind (deliverable.acts .writeSpec) fun _ _ => ?_
  refine (keeps_send _ _).bind fun _ => ?_
  refine .orRaise_bind deliverable.launch fun answer answered => ?_
  obtain ⟨receipt, rfl, legible⟩ := deliverable.launched answer answered
  refine .raiseIfNone_bind (fun omitted => by cases omitted) fun stored same => ?_
  obtain rfl := Option.some.inj same
  refine (keeps_reconcile joined transport_protocol (.inl legible) (deliverable.glances .reconciled)
    (deliverable.acts .markObserved)).bind fun _ => ?_
  refine .ite (fun hosted => ?_) fun _ => .pure _
  refine .orRaise_bind (deliverable.acts .recordPrepared) fun _ _ => ?_
  refine .orRaise_bind (deliverable.glances .prepared) fun delivery found => ?_
  cases delivery with
  | none => exact absurd found (deliverable.prepared worker member hosted.1)
  | some delivery =>
    exact .ite (fun _ => .orRaise (deliverable.acts .issue)) fun _ => .pure _

theorem keeps_launch {workerId : String} (joined : specs attempt.row.experimentId = some attempt.spec)
    (deliverable : Deliverable env place (identityOf attempt))
    (registered : workerForAttempt env (some workerId) ≠ none)
    (assigned : attempt.row.status = .queued ∧ held workerId ∨
      attempt.row.status ∈ [QueueStatus.assigned, .cancelRequested] ∧
        attempt.row.workerId = some workerId) :
    Keeps (Lacking attempt specs held desk') Fault.Transport
      (launch env place attempt workerId) := by
  refine .raiseIfNone_bind (fun absent => absurd absent registered) fun worker found => ?_
  have named : worker.workerId = workerId := by simpa using List.find?_some found
  refine (keeps_admission deliverable (by rwa [named])).bind fun goes => .ite (fun _ => ?_) fun _ => .pure _
  have delivered : Keeps (Lacking attempt specs held desk') Fault.Transport
      (do
        installBundle env place attempt worker
        deliver env place attempt worker) :=
    (keeps_installBundle deliverable).bind fun _ =>
      keeps_deliver joined deliverable (List.mem_of_find?_eq_some found)
  exact .ite (fun _ => .orRaise_bind (deliverable.acts .assignment) fun _ _ => delivered)
    fun _ => delivered

theorem Fault.Transport.refused {fault : Fault} (transport : fault.Transport) : fault.Refused :=
  .inl transport

theorem refused_protocol (message : String) : (Fault.protocol message).Refused :=
  (transport_protocol message).refused

theorem refused_value (message : String) : (Fault.value message).Refused := .inr rfl

theorem keeps_callCancel {worker : Worker} (joined : specs attempt.row.experimentId = some attempt.spec)
    (pollable : Pollable env (identityOf attempt)) :
    Keeps (Lacking attempt specs held desk') Fault.Transport
      (callCancel env .poll attempt worker) := by
  refine (keeps_send _ _).bind fun _ => ?_
  refine .caught_bind (fun fault raised escaped => absurd (pollable.cancel fault raised) escaped)
    (fun found answered => ?_) (.pure _)
  cases found with
  | none => exact .pure _
  | some receipt =>
    exact keeps_reconcile joined transport_protocol (.inl (pollable.cancelled receipt answered))
      (pollable.glances .reconciled) pollable.marked

theorem keeps_cancel (joined : specs attempt.row.experimentId = some attempt.spec)
    (pollable : Pollable env (identityOf attempt)) :
    Keeps (Lacking attempt specs held desk') Fault.Transport
      (cancel env .poll attempt.row.runId) := by
  refine keeps_requestCancel.bind fun status => .ite (fun _ => .pure _) fun _ => ?_
  refine Keeps.after (yields_attemptByRun joined) fun found named => ?_
  obtain ⟨durable, rfl, named⟩ := named
  refine Keeps.raiseIfNone_bind (fun absent => by cases absent) fun durable' stored => ?_
  obtain rfl := Option.some.inj stored
  obtain ⟨name, run, experiment, spec⟩ := identity_eq named
  have lacking : Lacking attempt specs held desk' = Lacking durable specs held desk' := by
    unfold Lacking victimOf
    rw [name, run, experiment]
  have joined' : specs durable.row.experimentId = some durable.spec := by
    rw [experiment, spec]
    exact joined
  rw [lacking]
  rw [← named] at pollable
  cases workerForAttempt env durable.row.workerId with
  | none => exact .pure _
  | some worker =>
    have called : Keeps (Lacking durable specs held desk') Fault.Transport
        (callCancel env .poll durable worker) := keeps_callCancel joined' pollable
    refine .ite (fun _ => ?_) fun _ => called
    refine .orRaise_bind (pollable.glances .cancelling) fun delivery _ => .ite (fun _ => ?_) fun _ => called
    refine .attempting (.orRaise pollable.intent) (fun _ _ _ => .pure _) ?_
    exact fun fault refused escaped => absurd refused escaped

theorem yields_askStatus {own : Attempt → Prop} {worker : Worker}
    (raises : ∀ fault, env.status place attempt.row.attemptId worker.workerId = .error fault →
      allowed fault)
    (hosted : (worker.hosted → ∀ answer,
      env.status place attempt.row.attemptId worker.workerId = .ok answer →
        answer.receipt.bind (·.attemptId) = some attempt.row.attemptId) ∨
      ∀ message, allowed (.value message))
    (desk : Desk) (apart : Apart (victimOf attempt specs) own desk desk') :
    Ends (askStatus env place attempt worker) desk
      (fun answer written =>
        env.status place attempt.row.attemptId worker.workerId = .ok answer ∧
          Apart (victimOf attempt specs) own written desk')
      fun failure written => allowed failure ∧
        Apart (victimOf attempt specs) own written desk' := by
  refine ends_bind.mpr ((keeps_send _ _ desk apart).mono ?_ fun _ _ => id)
  intro _ written kept
  cases answered : env.status place attempt.row.attemptId worker.workerId with
  | error fault => exact ⟨raises fault answered, kept⟩
  | ok answer =>
    unfold ask Library.raiseIf
    by_cases mismatch : worker.hosted ∧
        answer.receipt.bind (·.attemptId) ≠ some attempt.row.attemptId
    · simp only [orRaise, ends_bind, ends_pure, if_pos mismatch, ends_throw]
      obtain named | any := hosted
      · exact absurd (named mismatch.1 answer answered) mismatch.2
      · exact ⟨any _, kept⟩
    · simp only [orRaise, ends_bind, ends_pure, if_neg mismatch]
      exact ⟨trivial, kept⟩

theorem yields_pollReceipt {worker : Worker} (joined : specs attempt.row.experimentId = some attempt.spec)
    (pollable : Pollable env (identityOf attempt)) (registered : worker ∈ env.registry) (desk : Desk)
    (apart : Lacking attempt specs held desk' desk) :
    Ends (pollReceipt env attempt worker) desk
      (fun polled written => (∀ found ∈ polled, found.2.originId ≠ none) ∧
        Lacking attempt specs held desk' written)
      fun failure written => failure.Transport ∧
        Lacking attempt specs held desk' written := by
  have asked : ∀ written, Lacking attempt specs held desk' written →
      Ends (askStatus env .poll attempt worker >>= reconcileAnswer env attempt) written
        (fun polled written => (∀ found ∈ polled, found.2.originId ≠ none) ∧
          Lacking attempt specs held desk' written)
        fun failure written => failure.Transport ∧
          Lacking attempt specs held desk' written := by
    intro written kept
    refine ends_bind.mpr ((yields_askStatus (pollable.status worker.workerId)
      (.inl fun hosted => pollable.hosted worker registered hosted) written kept).mono ?_ fun _ _ => id)
    rintro answer written ⟨answered, kept⟩
    unfold reconcileAnswer
    cases stored : answer.receipt with
    | none =>
      refine ends_pure.mpr ⟨fun found member => ?_, kept⟩
      cases member
    | some receipt =>
      obtain ⟨readable, origin⟩ := pollable.answered _ answer receipt answered stored
      refine ends_bind.mpr ((keeps_reconcile joined transport_protocol (.inl readable)
        (pollable.glances .reconciled) pollable.marked written kept).mono ?_ fun _ _ => id)
      intro _ written kept
      refine ⟨fun found member => ?_, kept⟩
      obtain rfl := Option.some.inj member
      exact origin
  unfold pollReceipt
  by_cases cancels : attempt.row.status = .cancelRequested
  · rw [if_pos cancels]
    refine ends_bind.mpr ((keeps_cancel joined pollable desk apart).mono ?_ fun _ _ => id)
    exact fun _ written kept => asked written kept
  · rw [if_neg cancels]
    exact asked desk apart

theorem keeps_collectRelay (joined : specs attempt.row.experimentId = some attempt.spec)
    (refused : ∀ fault : Fault, fault.Refused → allowed fault)
    (glance : ∀ fault, env.delivery place .reconciled attempt.row.attemptId = .error fault →
      allowed fault)
    (mark : ∀ fault, env.act place .markObserved attempt.row.attemptId = .error fault →
      allowed fault)
    (collected : ∀ fault, (env.collected place attempt.row.attemptId).2 = .error fault →
      allowed fault) :
    Keeps (Lacking attempt specs held desk') allowed
      (collectRelay env place attempt) := by
  refine .bind (.forM fun write _ => ?_) fun _ => .orRaise collected
  cases write with
  | receipt receipt =>
    exact keeps_reconcile joined (fun message => refused _ (refused_protocol message))
      (.inr fun message => refused _ (refused_value message)) glance mark
  | unreachable reason => exact keeps_markUnknown reason
  | notRequired => exact keeps_notRequired
  | complete => exact keeps_complete fun message => refused _ (refused_value message)

theorem keeps_ingestRecords {worker : Worker} (ingestible : Ingestible env place (identityOf attempt)) :
    Keeps (Lacking attempt specs held desk') Fault.Refused
      (ingestRecords env place attempt worker) := by
  refine .ite (fun _ => ?_) fun _ => .orRaise ingestible.records
  exact Keeps.get.bind fun desk => .forM fun reading _ => .orRaise (ingestible.relayed _)

theorem artifactFreeTerminal_refused (ingestible : Ingestible env place (identityOf attempt))
    {receipt : Receipt} {fault : Fault} (raised : artifactFreeTerminal env receipt = .error fault) :
    fault.Refused := by
  unfold artifactFreeTerminal at raised
  cases paths : env.artifactPaths receipt with
  | error fault' =>
    rw [paths] at raised
    split at raised
    all_goals cases raised
    all_goals exact ingestible.paths receipt _ paths
  | ok found =>
    rw [paths] at raised
    split at raised <;> cases raised

section

variable (joined : specs attempt.row.experimentId = some attempt.spec)

include joined

theorem keeps_ingest {worker : Worker} {receipt : Receipt}
    (ingestible : Ingestible env place (identityOf attempt))
    (glance : worker.relay → ∀ fault,
      env.delivery place .reconciled attempt.row.attemptId = .error fault → fault.Refused)
    (mark : worker.relay → ∀ fault,
      env.act place .markObserved attempt.row.attemptId = .error fault → fault.Refused)
    (collected : worker.relay → ∀ fault,
      (env.collected place attempt.row.attemptId).2 = .error fault → fault.Refused) :
    Keeps (Lacking attempt specs held desk') Fault.Refused
      (ingest env place attempt worker receipt) := by
  refine .ite (fun relay => ?_) fun _ => ?_
  · exact keeps_collectRelay joined (fun _ => id) (glance relay) (mark relay) (collected relay)
  refine .orRaise_bind (fun fault => artifactFreeTerminal_refused ingestible) fun free _ => ?_
  refine .ite (fun _ => keeps_notRequired) fun _ => ?_
  refine (keeps_ingestRecords ingestible).bind fun _ => ?_
  refine .orRaise_bind ingestible.bundle fun _ _ => ?_
  refine .orRaise_bind ingestible.artifacts fun _ _ => keeps_complete refused_value

theorem keeps_pollFailed {worker : Worker} {fault : Fault}
    (pollable : Pollable env (identityOf attempt)) :
    Keeps (Lacking attempt specs held desk') allowed
      (pollFailed env attempt worker fault) := by
  refine .ite (fun _ => .pure _) fun _ => (keeps_markUnknown _).bind fun _ => ?_
  have collecting : Keeps (Lacking attempt specs held desk') Fault.Collecting
      (collectRelay env .poll attempt) :=
    keeps_collectRelay joined (fun _ => .inl)
      (fun fault raised => .inl (pollable.glances _ fault raised).refused)
      (fun fault raised => .inl (pollable.marked fault raised).refused)
      fun fault raised => .inl (pollable.collected fault raised)
  refine .ite (fun _ => .attempting collecting (fun _ _ _ => .pure _) ?_) fun _ => .pure _
  exact fun fault raised escaped => absurd raised escaped

theorem polled {worker : Worker}
    (pollable : Pollable env (identityOf attempt)) (registered : worker ∈ env.registry) (desk : Desk)
    (apart : Lacking attempt specs held desk' desk) :
    Ends (attempting Fault.Transport (pollReceipt env attempt worker) fun fault => do
        pollFailed env attempt worker fault
        pure none) desk
      (fun polled written => (∀ found ∈ polled, found.2.originId ≠ none) ∧
        Lacking attempt specs held desk' written)
      fun failure written => allowed failure ∧
        Lacking attempt specs held desk' written := by
  refine ends_attempting.mpr
    ((yields_pollReceipt joined pollable registered desk apart).mono (fun _ _ => id) ?_)
  rintro fault written ⟨transport, kept⟩
  rw [if_pos transport]
  refine ends_bind.mpr ((keeps_pollFailed joined pollable written kept).mono ?_ fun _ _ => id)
  intro _ written kept
  refine ends_pure.mpr ⟨fun found member => ?_, kept⟩
  cases member

theorem keeps_pollActive (pollable : Pollable env (identityOf attempt)) :
    Keeps (Lacking attempt specs held desk') allowed
      (pollActive env attempt) := by
  refine .ite (fun _ => .pure _) fun _ => ?_
  cases found : workerForAttempt env attempt.row.workerId with
  | none => exact keeps_markUnknown _
  | some worker =>
    have registered : worker ∈ env.registry := List.mem_of_find?_eq_some found
    refine .after (polled joined pollable registered) fun polled origin => ?_
    cases polled with
    | none => exact .pure _
    | some found =>
      refine .raiseIfNone_bind (fun omitted => absurd omitted (origin found rfl)) fun _ _ => ?_
      have ingested : Keeps (Lacking attempt specs held desk')
          Fault.Refused (if found.1.Terminal then ingest env .poll attempt worker found.1
            else ingestRecords env .poll attempt worker) := by
        refine .ite (fun _ => ?_) fun _ => keeps_ingestRecords pollable.ingestible
        exact keeps_ingest joined pollable.ingestible
          (fun _ fault raised => (pollable.glances _ fault raised).refused)
          (fun _ fault raised => (pollable.marked fault raised).refused)
          fun _ => pollable.collected
      refine .attempting ingested (fun fault _ _ => .ite (fun _ => .pure _) fun _ => ?_) ?_
      · exact .ite (fun _ => keeps_ingestionError _) fun _ => .pure _
      · exact fun fault raised escaped => absurd raised escaped

end

abbrev Settled (attempt : Reading) (row : Attempt) : Prop :=
  row.experimentId = attempt.row.experimentId ∧ row.workerId = attempt.row.workerId

theorem reconcile_accepted {receipt : Receipt} {workerId : String}
    (joined : specs attempt.row.experimentId = some attempt.spec)
    (assigned : attempt.row.workerId = some workerId)
    (accepted : Accepted env (identityOf attempt) workerId receipt) {desk : Desk}
    (apart : Apart (victimOf attempt specs) (Settled attempt) desk desk') :
    Ends (reconcileReceipt env .replay attempt receipt) desk
      (fun _ => Lacking attempt specs (fun _ => True) desk')
      fun _ _ => False := by
  obtain ⟨durable, found, name, run, spec, experiment, owner⟩ :=
    attemptByRun_found apart (fun _ settled => settled.1) joined
  have settled : Lacking attempt specs (fun _ => True) desk' desk :=
    ⟨apart.queue.mono fun _ settled => ⟨settled.1, fun _ _ => trivial⟩, apart.sent⟩
  change Ends (raiseIfNone _ (desk.queue.readings.find? (·.row.runId = attempt.row.runId)) >>= _)
    desk _ _
  refine (ends_raiseIfNone_bind found).mpr ((ends_raiseIf_bind ?_).mpr ?_)
  · rw [name, run, spec, experiment, owner, assigned, accepted.attemptId, accepted.runId,
      accepted.experimentId, accepted.workerId, accepted.specDigest, accepted.bundleDigest]
    simp
  obtain ⟨state, stated⟩ := Option.ne_none_iff_exists'.mp accepted.state
  refine (ends_raiseIfNone_bind stated).mpr (ends_bind.mpr ?_)
  refine (keeps_setReceipt receipt _ desk settled).mono (fun _ written kept => ?_) fun _ _ => And.left
  obtain ⟨delivery, glanced, observed⟩ := accepted.delivery
  refine (ends_orRaise_bind glanced).mpr ?_
  cases delivery with
  | none => exact kept
  | some delivery =>
    by_cases prepared : state = .prepared
    · change Ends (if state = .prepared then _ else _) written _ _
      rw [if_pos prepared]
      exact kept
    · have further : receipt.state ≠ some .prepared := by
        rw [stated]
        exact fun same => prepared (Option.some.inj same)
      obtain ⟨digest, marked⟩ := observed delivery rfl further
      change Ends (if state = .prepared then _ else _) written _ _
      rw [if_neg prepared]
      refine (ends_raiseIf_bind ?_).mpr ?_
      · rw [digest, accepted.specDigest]
        simp
      · rw [marked]
        exact kept

theorem keeps_replayLaunch {worker : Worker} (joined : specs attempt.row.experimentId = some attempt.spec)
    (replayable : Replayable env (identityOf attempt))
    (registered : workerForAttempt env (some worker.workerId) ≠ none)
    (waiting : attempt.row.status ∈ [QueueStatus.assigned, .cancelRequested])
    (assigned : attempt.row.workerId = some worker.workerId) :
    Keeps (Lacking attempt specs held desk') allowed
      (replayLaunch env attempt worker) := by
  have launched : Keeps (Lacking attempt specs held desk') Fault.Transport
      (do
        launch env .replay attempt worker.workerId
        pure true) :=
    (keeps_launch joined replayable.deliverable registered (.inr ⟨waiting, assigned⟩)).bind
      fun _ => .pure _
  refine .attempting (.ite (fun _ => ?_) fun _ => launched) (fun _ _ _ => .pure _) ?_
  · exact (keeps_send _ _).bind fun _ => .orRaise_bind replayable.cancel fun _ _ => launched
  · exact fun fault raised escaped => absurd raised escaped

theorem except_cases {ε α : Type} (attempt : Except ε α) :
    (∃ value, attempt = .ok value) ∨ ∃ failure, attempt = .error failure := by
  cases attempt with
  | ok value => exact .inl ⟨value, rfl⟩
  | error failure => exact .inr ⟨failure, rfl⟩

theorem replayAssigned_kept (joined : specs attempt.row.experimentId = some attempt.spec)
    (replayable : Replayable env (identityOf attempt))
    (waiting : attempt.row.status ∈ [QueueStatus.assigned, .cancelRequested]) {desk : Desk}
    (apart : Apart (victimOf attempt specs) (Settled attempt) desk desk') :
    Ends (replayAssigned env attempt) desk
      (fun _ => Lacking attempt specs (fun _ => True) desk')
      fun _ _ => False := by
  have settled : Lacking attempt specs (fun _ => True) desk' desk :=
    ⟨apart.queue.mono fun _ settled => ⟨settled.1, fun _ _ => trivial⟩, apart.sent⟩
  unfold replayAssigned
  by_cases recovered : attempt.row.recovery ≠ none
  · rw [if_pos recovered]
    exact settled
  · rw [if_neg recovered]
    cases found : workerForAttempt env attempt.row.workerId with
    | none => exact settled
    | some worker =>
      have registered : worker ∈ env.registry := List.mem_of_find?_eq_some found
      have owned : some worker.workerId = attempt.row.workerId := by
        simpa using List.find?_some found
      have launched : ∀ written, Lacking attempt specs (fun _ => True) desk' written → Ends (replayLaunch env attempt worker) written
            (fun _ => Lacking attempt specs (fun _ => True) desk')
            fun _ _ => False :=
        fun written kept => (keeps_replayLaunch joined replayable
          (by rw [owned, found]; exact Option.some_ne_none worker) waiting owned.symm
          written kept).mono (fun _ _ => id) fun _ _ => And.left
      have glanced : ∀ fault, (if worker.hosted then
          env.delivery .replay .replaying attempt.row.attemptId else .ok none) ≠ .error fault := by
        intro fault
        split
        next hosted => exact replayable.glance worker registered hosted fault
        next => exact fun same => by cases same
      obtain ⟨delivery, read⟩ | ⟨fault, raised⟩ := except_cases (if worker.hosted then
          env.delivery .replay .replaying attempt.row.attemptId else .ok none)
      · refine (ends_orRaise_bind read).mpr ?_
        by_cases issued : ∃ found ∈ delivery, found.prepared = false
        · rw [if_pos issued]
          exact settled
        · rw [if_neg issued]
          refine ends_bind.mpr (ends_attempting.mpr (ends_bind.mpr ?_))
          refine (yields_askStatus (replayable.status worker.workerId)
            (.inl fun hosted => replayable.hosted worker registered hosted) desk apart).mono ?_ ?_
          · rintro answer written ⟨answered, kept⟩
            have kept' : Lacking attempt specs (fun _ => True) desk'
                written := ⟨kept.queue.mono fun _ settled => ⟨settled.1, fun _ _ => trivial⟩, kept.sent⟩
            refine ends_pure.mpr ?_
            cases stored : answer.receipt with
            | none =>
              dsimp only
              rw [stored]
              exact launched written kept'
            | some receipt =>
              dsimp only
              rw [stored]
              refine ends_bind.mpr ((reconcile_accepted joined owned.symm
                (replayable.answered _ answer receipt answered stored) kept).mono ?_
                  fun _ _ => id)
              intro _ written' kept''
              split
              next => exact kept''
              next => exact launched written' kept''
          · rintro fault written ⟨transport, kept⟩
            rw [if_pos transport]
            exact ⟨kept.queue.mono fun _ settled => ⟨settled.1, fun _ _ => trivial⟩, kept.sent⟩
      · exact absurd raised (glanced fault)

theorem keeps_retryIngestion (joined : specs attempt.row.experimentId = some attempt.spec)
    (retryable : Retryable env (identityOf attempt)) :
    Keeps (Lacking attempt specs held desk') allowed
      (retryIngestion env attempt) := by
  unfold retryIngestion
  cases found : workerForAttempt env attempt.row.workerId with
  | none => exact .pure _
  | some worker =>
    refine .ite (fun _ => ?_) fun native => ?_
    · have collected : Keeps (Lacking attempt specs held desk')
          Fault.Collecting (collectRelay env .ingestion attempt) :=
        keeps_collectRelay joined (fun _ => .inl) retryable.glance retryable.marked
          retryable.collected
      exact .attempting collected (fun _ _ _ => keeps_ingestionError _)
        fun fault raised escaped => absurd raised escaped
    · cases attempt.row.terminalReceipt with
      | none => exact .pure _
      | some receipt =>
        have ingested : Keeps (Lacking attempt specs held desk')
            Fault.Refused (do
              let answer ← askStatus env .ingestion attempt worker
              let _ ← raiseIfNone (.type "worker status omitted outbox origin identity")
                answer.originId
              ingest env .ingestion attempt worker receipt) := by
          refine .after (yields_askStatus (retryable.status worker.workerId)
            (.inr refused_value)) fun answer answered => ?_
          refine .raiseIfNone_bind (fun omitted => ?_) fun _ _ => ?_
          · exact absurd omitted (retryable.origin _ answer answered)
          · exact keeps_ingest joined retryable.ingestible (fun relay => absurd relay native)
              (fun relay => absurd relay native) fun relay => absurd relay native
        refine .attempting ingested (fun fault _ _ => ?_) ?_
        · exact .ite (fun _ => .pure _) fun _ => keeps_ingestionError _
        · exact fun fault raised escaped => absurd raised escaped

theorem mem_of_keepBetter {offers : List Offer} {best : Option Offer} {offer : Offer}
    (chosen : offers.foldl (fun best offer => keepBetter Offer.key best (some offer)) best =
      some offer) : offer ∈ offers ∨ best = some offer := by
  induction offers generalizing best with
  | nil => exact .inr chosen
  | cons first offers ih =>
    obtain later | kept := ih chosen
    · exact .inl (List.mem_cons_of_mem _ later)
    · cases best with
      | none =>
        obtain rfl := Option.some.inj kept
        exact .inl List.mem_cons_self
      | some current =>
        simp only [keepBetter] at kept
        split at kept
        · obtain rfl := Option.some.inj kept
          exact .inl List.mem_cons_self
        · exact .inr kept

theorem considered_ok (queue : Queue) {offer : Offer}
    (answered : ∃ verdict, env.verdict attempt.row.attemptId offer = .ok verdict) :
    ∃ verdict, considered env queue attempt.row.attemptId offer = .ok verdict := by
  unfold considered
  dsimp only
  split_ifs
  · exact ⟨_, rfl⟩
  · exact ⟨_, rfl⟩
  · exact answered

theorem verdicts_ok (queue : Queue) {offers : List Offer}
    (answered : ∀ offer ∈ offers,
      ∃ verdict, env.verdict attempt.row.attemptId offer = .ok verdict) :
    ∃ verdict : Offer → Verdict,
      (∀ offer ∈ offers,
        considered env queue attempt.row.attemptId offer = .ok (verdict offer)) ∧
      (offers.mapM fun offer => do
        return (offer, ← considered env queue attempt.row.attemptId offer)) =
          .ok (offers.map fun offer => (offer, verdict offer)) := by
  have each : ∀ offer, ∃ verdict, offer ∈ offers →
      considered env queue attempt.row.attemptId offer = .ok verdict := by
    intro offer
    by_cases member : offer ∈ offers
    · obtain ⟨verdict, found⟩ := considered_ok queue (answered offer member)
      exact ⟨verdict, fun _ => found⟩
    · exact ⟨.accepted, fun listed => absurd listed member⟩
  choose verdict found using each
  refine ⟨verdict, found, mapM_ok fun offer member => ?_⟩
  rw [found offer member]
  rfl

theorem considered_accepted {queue : Queue} {offer : Offer}
    (accepted : considered env queue attempt.row.attemptId offer = .ok .accepted) :
    env.verdict attempt.row.attemptId offer = .ok .accepted := by
  unfold considered at accepted
  dsimp only at accepted
  split_ifs at accepted
  · cases Except.ok.inj accepted
  · cases Except.ok.inj accepted
  · exact accepted

theorem yields_eligibleWorker {offers : List Offer}
    (offered : env.offers attempt.row.attemptId = .ok offers)
    (answered : ∀ offer ∈ offers,
      ∃ verdict, env.verdict attempt.row.attemptId offer = .ok verdict)
    (desk : Desk) {good : Desk → Prop} (holds : good desk) :
    Ends (eligibleWorker env attempt) desk
      (fun found written => (∀ offer, found = .ok offer → offer ∈ offers ∧
        env.verdict attempt.row.attemptId offer = .ok .accepted) ∧ good written)
      fun _ _ => False := by
  obtain ⟨verdict, decided, mapped⟩ := verdicts_ok desk.queue answered
  change Ends (ask (env.offers attempt.row.attemptId) >>= _) desk _ _
  refine (ends_orRaise_bind offered).mpr ((ends_orRaise_bind mapped).mpr ?_)
  dsimp only
  split
  next offer chosen =>
    refine ⟨fun other same => ?_, holds⟩
    obtain rfl := Except.ok.inj same
    have member := (mem_of_keepBetter chosen).resolve_right (Option.some_ne_none _).symm
    obtain ⟨pair, listed, rfl⟩ := List.mem_map.mp member
    obtain ⟨listed, accepts⟩ := List.mem_filter.mp listed
    obtain ⟨offer, offered, rfl⟩ := List.mem_map.mp listed
    refine ⟨offered, considered_accepted ((decided offer offered).trans ?_)⟩
    exact congrArg Except.ok (of_decide_eq_true accepts)
  next =>
    refine ends_pure.mpr ⟨fun offer same => ?_, holds⟩
    cases same

theorem scheduleQueued_kept (never : ∀ moment, env.late moment = false)
    (joined : specs attempt.row.experimentId = some attempt.spec)
    (schedulable : Schedulable env (identityOf attempt)) (queued : attempt.row.status = .queued)
    (holds : ∀ offer, env.verdict attempt.row.attemptId offer = .ok .accepted →
      held offer.workerId) {desk : Desk} (lacking : Lacking attempt specs held desk' desk) :
    Ends (scheduleQueued env attempt) desk
      (fun progress written => progress ≠ .stop ∧ Lacking attempt specs held desk' written)
      fun _ _ => False := by
  obtain ⟨offers, offered, fine⟩ := schedulable.offers
  refine ends_bind.mpr (ends_attempting.mpr (ends_bind.mpr ?_))
  refine (yields_eligibleWorker offered (fun offer member => (fine offer member).1) desk
    lacking).mono ?_ fun _ _ => False.elim
  rintro found written ⟨listed, kept⟩
  refine ends_pure.mpr ?_
  dsimp only
  rw [never, if_neg Bool.false_ne_true]
  cases found with
  | error reason =>
    refine ends_bind.mpr ((keeps_setQueuedReason reason written kept).mono ?_ fun _ _ => And.left)
    exact fun _ written kept => ends_pure.mpr ⟨Progress.noConfusion, kept⟩
  | ok offer =>
    obtain ⟨member, accepted⟩ := listed offer rfl
    refine ends_attempting.mpr (ends_bind.mpr ((keeps_launch joined schedulable.deliverable
      (fine offer member).2 (.inl ⟨queued, holds offer accepted⟩) written kept).mono ?_ ?_))
    · exact fun _ written kept => ends_pure.mpr ⟨Progress.noConfusion, kept⟩
    · rintro fault written ⟨transport, kept⟩
      rw [if_pos transport, never]
      exact ends_pure.mpr ⟨Progress.noConfusion, kept⟩

end

end SparseLab.Workers.Ticks
