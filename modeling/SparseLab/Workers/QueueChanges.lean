import SparseLab.Library.Selections
import SparseLab.Workers.Controller

/-! What one step of the controller can do to one row. -/

namespace SparseLab.Workers

open Library Queue

inductive Change : Action → Attempt → Attempt → Prop
  | kept (action : Action) (row : Attempt) : Change action row row
  | assigned (row : Attempt) (workerId : String) (queued : row.status = .queued) :
      Change (.assign row.attemptId workerId) row
        { row with workerId := some workerId, status := .assigned, queuedReason := none }
  | reasoned (row : Attempt) (reason : Option String) :
      Change (.setQueuedReason row.attemptId reason) row { row with queuedReason := reason }
  | conflicting (row : Attempt) (durable : Reading) (receipt : Receipt)
      (named : durable.row.attemptId = row.attemptId) (recovered : row.recovery ≠ none)
      (terminal : receipt.Terminal) :
      Change (.reconcile durable receipt) row
        { row with ingestionError := some recoveryConflict }
  | received (row : Attempt) (durable : Reading) (receipt : Receipt) (status : QueueStatus)
      (named : durable.row.attemptId = row.attemptId) (fresh : row.recovery = none)
      (first : row.terminalReceipt = none)
      (reconciled : reconciledStatus durable receipt = .ok status) :
      Change (.reconcile durable receipt) row
        (Queue.received receipt
          (if row.status = .cancelRequested ∧ ¬ receipt.Terminal then .cancelRequested
            else status) row)
  | recovered (row : Attempt) (observation : RecoveryObservation)
      (workerId specDigest bundleDigest : String) (owned : row.workerId = some workerId)
      (fresh : row.recovery = none) (open' : row.terminalReceipt = none) :
      Change (.recordRecovery row.attemptId observation workerId specDigest bundleDigest) row
        { row with
          status := .unknown
          recovery := some observation
          ingestionStatus := .pending
          ingestionError := none }
  | ingested (row : Attempt) (evident : Evident row)
      (settled : ¬ conflicted row.ingestionError) :
      Change (.ingested row.attemptId) row
        { row with ingestionStatus := .complete, ingestionError := none }
  | notRequired (row : Attempt) (terminal : row.terminalReceipt ≠ none) :
      Change (.notRequired row.attemptId) row
        { row with ingestionStatus := .notRequired, ingestionError := none }
  | failed (row : Attempt) (message : String) (evident : Evident row) :
      Change (.ingestionError row.attemptId message) row
        { row with ingestionStatus := .error, ingestionError := some message }
  | unreachable (row : Attempt) (attempt : Reading) (reason : String)
      (named : attempt.row.attemptId = row.attemptId) (open' : row.terminalReceipt = none) :
      Change (.unreachable attempt reason) row
        { row with
          status := if row.status = .cancelRequested then .cancelRequested else .unknown
          queuedReason := some reason }
  | cancelled (row : Attempt) (queued : row.status = .queued) :
      Change (.requestCancel row.runId) row
        { row with
          status := .cancelled, ingestionStatus := .notRequired, ingestionError := none }
  | cancelRequested (row : Attempt) (started : row.status ≠ .queued) :
      Change (.requestCancel row.runId) row
        { row with status :=
            if row.status.Terminal ∨ row.terminalReceipt ≠ none ∨ row.recovery ≠ none then
              row.status
            else .cancelRequested }

theorem Change.names {action : Action} {row row' : Attempt} (change : Change action row row') :
    row'.attemptId = row.attemptId ∧ row'.runId = row.runId ∧
      row'.experimentId = row.experimentId := by
  cases change with
  | received durable receipt status named fresh first reconciled =>
    unfold Queue.received
    split <;> exact ⟨rfl, rfl, rfl⟩
  | _ => exact ⟨rfl, rfl, rfl⟩

structure Queue.Keyed (queue : Queue) : Prop where
  attempts : (queue.attempts.map (·.attemptId)).Nodup
  runs : (queue.attempts.map (·.runId)).Nodup
  joined : ∀ row ∈ queue.attempts, ∃ spec, queue.specOf row.experimentId = some spec

def Fresh (row : Attempt) : Prop :=
  row = { attemptId := row.attemptId, experimentId := row.experimentId, runId := row.runId }

/-- A step's effect on the tables: rows change by `Change`, and new rows are fresh. -/
structure Changed (action : Action) (before after : Queue) : Prop where
  rows : ∃ write added, after.attempts = before.attempts.map write ++ added ∧
    (∀ row ∈ before.attempts, Change action row (write row)) ∧
    ∀ row ∈ added, Fresh row
  keyed : after.Keyed

section

variable {queue : Queue} {row : Attempt} {action : Action}

@[simp] theorem update_attempts (attemptId : String) (write : Attempt → Attempt) :
    (queue.update attemptId write).attempts = queue.attempts.map fun row =>
      if row.attemptId = attemptId then write row else row := rfl

@[simp] theorem mirror_attempts (attemptId : String) (status : QueueStatus) :
    (queue.mirror attemptId status).attempts = queue.attempts := rfl

@[simp] theorem update_specOf (attemptId : String) (write : Attempt → Attempt) :
    (queue.update attemptId write).specOf = queue.specOf := rfl

theorem find?_rewritten {write : Experiment → Experiment} {experiments : List Experiment}
    (ids : ∀ experiment, (write experiment).experimentId = experiment.experimentId)
    (specs : ∀ experiment, (write experiment).spec = experiment.spec) (experimentId : String) :
    ((experiments.map write).find? (·.experimentId = experimentId)).map (·.spec) =
      (experiments.find? (·.experimentId = experimentId)).map (·.spec) := by
  induction experiments with
  | nil => rfl
  | cons experiment experiments ih =>
    rw [List.map_cons, List.find?_cons, List.find?_cons, ids]
    by_cases same : experiment.experimentId = experimentId
    · rw [decide_eq_true same, Option.map_some, Option.map_some, specs]
    · rw [decide_eq_false same]
      exact ih

@[simp] theorem mirror_specOf (attemptId : String) (status : QueueStatus) :
    (queue.mirror attemptId status).specOf = queue.specOf := by
  funext experimentId
  apply find?_rewritten
  · intro experiment
    rw [apply_ite Experiment.experimentId, ite_self]
  · intro experiment
    rw [apply_ite Experiment.spec, ite_self]

theorem Queue.Keyed.find (keyed : queue.Keyed) (member : row ∈ queue.attempts) :
    queue.find row.attemptId = some row := by
  cases found : queue.find row.attemptId with
  | none =>
    have absent := List.find?_eq_none.mp found row member
    simp at absent
  | some other =>
    have same : other.attemptId = row.attemptId := by simpa using List.find?_some found
    rw [List.inj_on_of_nodup_map keyed.attempts (List.mem_of_find?_eq_some found) member same]

theorem Queue.Keyed.unique (keyed : queue.Keyed) {other : Attempt} {attemptId : String}
    (member : other ∈ queue.attempts) (named : other.attemptId = attemptId)
    (found : queue.find attemptId = some row) : other = row := by
  have stored := keyed.find member
  rw [named, found] at stored
  exact (Option.some.inj stored).symm

theorem Queue.Keyed.rewrite {after : Queue} (keyed : queue.Keyed) {write : Attempt → Attempt}
    (attempts : after.attempts = queue.attempts.map write) (specs : after.specOf = queue.specOf)
    (names : ∀ row ∈ queue.attempts, (write row).attemptId = row.attemptId ∧
      (write row).runId = row.runId ∧ (write row).experimentId = row.experimentId) :
    after.Keyed := by
  have attemptIds : after.attempts.map (·.attemptId) = queue.attempts.map (·.attemptId) := by
    rw [attempts, List.map_map]
    exact List.map_congr_left fun row member => (names row member).1
  have runIds : after.attempts.map (·.runId) = queue.attempts.map (·.runId) := by
    rw [attempts, List.map_map]
    exact List.map_congr_left fun row member => (names row member).2.1
  constructor
  · rw [attemptIds]
    exact keyed.attempts
  · rw [runIds]
    exact keyed.runs
  · intro row' member'
    rw [attempts] at member'
    obtain ⟨row, member, rfl⟩ := List.mem_map.mp member'
    obtain ⟨spec, stored⟩ := keyed.joined row member
    exact ⟨spec, by rw [specs, (names row member).2.2, stored]⟩

theorem Changed.refl (action : Action) (keyed : queue.Keyed) : Changed action queue queue := by
  refine ⟨⟨id, [], ?_, ?_, ?_⟩, keyed⟩
  · rw [List.map_id, List.append_nil]
  · intro row _
    exact .kept action row
  · intro row member
    cases member

theorem changed_update {after : Queue} (keyed : queue.Keyed) {attemptId : String}
    {write : Attempt → Attempt}
    (each : ∀ row ∈ queue.attempts, row.attemptId = attemptId → Change action row (write row))
    (attempts : after.attempts = (queue.update attemptId write).attempts)
    (specs : after.specOf = queue.specOf) : Changed action queue after := by
  have changes : ∀ row ∈ queue.attempts,
      Change action row (if row.attemptId = attemptId then write row else row) := by
    intro row member
    by_cases named : row.attemptId = attemptId
    · rw [if_pos named]
      exact each row member named
    · rw [if_neg named]
      exact .kept action row
  refine ⟨⟨_, [], ?_, changes, ?_⟩, keyed.rewrite attempts specs fun row member =>
    (changes row member).names⟩
  · rw [attempts, List.append_nil, update_attempts]
  · intro row member
    cases member

end

section

variable {queue : Queue}

theorem commits_assign (keyed : queue.Keyed) {attemptId workerId : String} :
    Commits (Queue.assign attemptId workerId) queue fun _ written =>
      Changed (.assign attemptId workerId) queue written := by
  simp only [Queue.assign, commits_bind, commits_get, commits_ite, commits_set, commits_pure]
  refine ⟨fun _ => ?_, fun _ => Changed.refl _ keyed⟩
  refine changed_update keyed ?_ rfl (mirror_specOf _ _)
  intro row _ named
  split
  next queued =>
    rw [← named]
    exact .assigned row workerId queued
  next => exact .kept _ row

theorem commits_setQueuedReason (keyed : queue.Keyed) {attemptId : String}
    {reason : Option String} :
    Commits (Queue.setQueuedReason attemptId reason) queue fun _ written =>
      Changed (.setQueuedReason attemptId reason) queue written := by
  simp only [Queue.setQueuedReason, commits_bind, commits_get, commits_set]
  refine changed_update keyed ?_ rfl rfl
  intro row _ named
  split
  next =>
    rw [← named]
    exact .reasoned row reason
  next => exact .kept _ row

theorem commits_setReceipt (keyed : queue.Keyed) {durable : Reading} {receipt : Receipt}
    {status : QueueStatus} (reconciled : reconciledStatus durable receipt = .ok status) :
    Commits (Queue.setReceipt durable.row.attemptId receipt status) queue fun _ written =>
      Changed (.reconcile durable receipt) queue written := by
  simp only [Queue.setReceipt, commits_bind, commits_get, commits_raiseIfNone]
  intro row found
  simp only [commits_ite, commits_set, commits_pure]
  refine ⟨fun recovered => ⟨fun terminal => ?_, fun _ => Changed.refl _ keyed⟩,
    fun fresh => ⟨fun _ => Changed.refl _ keyed, fun first => ?_⟩⟩
  · refine changed_update keyed ?_ rfl rfl
    intro other member named
    obtain rfl := keyed.unique member named found
    exact .conflicting other durable receipt named.symm recovered terminal
  · refine changed_update keyed ?_ rfl (mirror_specOf _ _)
    intro other member named
    obtain rfl := keyed.unique member named found
    exact .received other durable receipt status named.symm (not_not.mp fresh) (not_not.mp first)
      reconciled

theorem commits_recordRecovery (keyed : queue.Keyed) {attemptId : String}
    {observation : RecoveryObservation} {workerId specDigest bundleDigest : String} :
    Commits (Queue.recordRecovery attemptId observation workerId specDigest bundleDigest) queue
      fun _ written => Changed
        (.recordRecovery attemptId observation workerId specDigest bundleDigest) queue
        written := by
  simp only [Queue.recordRecovery, commits_bind, commits_get, commits_raiseIfNone,
    commits_raiseIf]
  intro _ row found spec _ identity terminal
  have owned : row.workerId = some workerId := by
    by_contra other
    exact identity (.inl other)
  simp only [commits_ite, commits_raiseIf, commits_set]
  refine ⟨fun _ _ => Changed.refl _ keyed, fun fresh => ?_⟩
  refine changed_update keyed ?_ rfl (mirror_specOf _ _)
  intro other member named
  obtain rfl := keyed.unique member named found
  rw [← named]
  exact .recovered other observation workerId specDigest bundleDigest owned (not_not.mp fresh)
    (not_not.mp terminal)

theorem commits_markIngestionComplete (keyed : queue.Keyed) {attemptId : String} :
    Commits (Queue.markIngestionComplete attemptId) queue fun _ written =>
      Changed (.ingested attemptId) queue written := by
  simp only [Queue.markIngestionComplete, commits_bind, commits_get, commits_raiseIf,
    commits_set]
  intro settled
  refine changed_update keyed ?_ rfl rfl
  intro row member named
  split
  next evident =>
    rw [← named]
    refine .ingested row evident fun conflict => settled ⟨row, ?_, conflict⟩
    rw [← named]
    exact keyed.find member
  next => exact .kept _ row

theorem commits_markIngestionNotRequired (keyed : queue.Keyed) {attemptId : String} :
    Commits (Queue.markIngestionNotRequired attemptId) queue fun _ written =>
      Changed (.notRequired attemptId) queue written := by
  simp only [Queue.markIngestionNotRequired, commits_bind, commits_get, commits_set]
  refine changed_update keyed ?_ rfl rfl
  intro row _ named
  split
  next terminal =>
    rw [← named]
    exact .notRequired row terminal
  next => exact .kept _ row

theorem commits_markIngestionError (keyed : queue.Keyed) {attemptId message : String} :
    Commits (Queue.markIngestionError attemptId message) queue fun _ written =>
      Changed (.ingestionError attemptId message) queue written := by
  simp only [Queue.markIngestionError, commits_bind, commits_get, commits_set]
  refine changed_update keyed ?_ rfl rfl
  intro row _ named
  split
  next evident =>
    rw [← named]
    exact .failed row message evident
  next => exact .kept _ row

theorem commits_markUnknownIfNonterminal (keyed : queue.Keyed) {attempt : Reading}
    {reason : String} :
    Commits (Queue.markUnknownIfNonterminal attempt.row.attemptId reason) queue
      fun _ written => Changed (.unreachable attempt reason) queue written := by
  simp only [Queue.markUnknownIfNonterminal, commits_bind, commits_get, commits_raiseIfNone]
  intro row found
  simp only [commits_ite, commits_pure, commits_set]
  refine ⟨fun _ => Changed.refl _ keyed, fun nonterminal => ?_⟩
  refine changed_update keyed ?_ rfl (mirror_specOf _ _)
  intro other member named
  obtain rfl := keyed.unique member named found
  exact .unreachable other attempt reason named.symm (not_not.mp nonterminal)

theorem commits_requestCancel (keyed : queue.Keyed) {runId : String} :
    Commits (Queue.requestCancel runId) queue fun _ written =>
      Changed (.requestCancel runId) queue written := by
  simp only [Queue.requestCancel, commits_bind, commits_get, commits_raiseIfNone]
  intro row found
  have named : row.runId = runId := by simpa using List.find?_some found
  have stored := keyed.find (List.mem_of_find?_eq_some found)
  simp only [commits_ite, commits_bind, commits_set, commits_pure]
  refine ⟨fun queued => ?_, fun started => ?_⟩
  · refine changed_update keyed ?_ rfl (mirror_specOf _ _)
    intro other member same
    obtain rfl := keyed.unique member same stored
    rw [← named]
    exact .cancelled other queued
  · refine changed_update keyed ?_ rfl (mirror_specOf _ _)
    intro other member same
    obtain rfl := keyed.unique member same stored
    rw [← named]
    exact .cancelRequested other started

end

section

variable {queue : Queue}

theorem Queue.Keyed.insert (keyed : queue.Keyed) {entry : Entry}
    (experiment : ∀ other ∈ queue.experiments, other.experimentId ≠ entry.experimentId)
    (attempt : ∀ row ∈ queue.attempts, row.attemptId ≠ entry.attemptId ∧
      row.runId ≠ entry.runId) :
    Queue.Keyed {
      attempts := queue.attempts ++ [{
        attemptId := entry.attemptId, experimentId := entry.experimentId,
        runId := entry.runId }]
      experiments := queue.experiments ++ [{
        experimentId := entry.experimentId, spec := entry.spec, status := .queued }] } := by
  constructor
  · exact nodup_map_concat keyed.attempts fun row present => (attempt row present).1
  · exact nodup_map_concat keyed.runs fun row present => (attempt row present).2
  · intro row member
    rcases List.mem_append.mp member with earlier | new
    · obtain ⟨spec, stored⟩ := keyed.joined row earlier
      refine ⟨spec, ?_⟩
      unfold specOf at stored ⊢
      rw [List.find?_append]
      cases found : queue.experiments.find? (·.experimentId = row.experimentId) with
      | none =>
        rw [found] at stored
        cases stored
      | some other =>
        rw [found] at stored
        exact stored
    · rw [List.mem_singleton.mp new]
      refine ⟨entry.spec, ?_⟩
      have absent : queue.experiments.find? (·.experimentId = entry.experimentId) = none := by
        rw [List.find?_eq_none]
        intro other member
        simpa using experiment other member
      unfold specOf
      rw [List.find?_append, absent]
      simp

theorem commits_enqueueMany (entries : List Entry) (keyed : queue.Keyed) :
    Commits (Queue.enqueueMany entries) queue fun _ written => written.Keyed ∧
      ∃ added, written.attempts = queue.attempts ++ added ∧ ∀ row ∈ added, Fresh row := by
  induction entries generalizing queue with
  | nil =>
    simp only [Queue.enqueueMany, commits_pure]
    exact ⟨keyed, [], (List.append_nil _).symm, by simp⟩
  | cons entry entries ih =>
    simp only [Queue.enqueueMany, insertEntry, commits_bind, commits_get, commits_raiseIf,
      commits_set]
    intro experiment attempt
    have inserted := keyed.insert (fun other member same => experiment ⟨other, member, same⟩)
      fun row member => ⟨fun same => attempt ⟨row, member, .inl same⟩,
        fun same => attempt ⟨row, member, .inr same⟩⟩
    refine (ih inserted).mono ?_
    rintro _ written ⟨kept, added, attempts, fresh⟩
    refine ⟨kept, _ :: added, by rw [attempts, List.append_assoc]; rfl, ?_⟩
    intro row member
    rcases List.mem_cons.mp member with new | later
    · rw [new]
      rfl
    · exact fresh row later

theorem changed_enqueue {after : Queue} {action : Action} {added : List Attempt}
    (keyed : after.Keyed) (attempts : after.attempts = queue.attempts ++ added)
    (fresh : ∀ row ∈ added, Fresh row) : Changed action queue after := by
  refine ⟨⟨id, added, ?_, ?_, fresh⟩, keyed⟩
  · rw [List.map_id, attempts]
  · intro row _
    exact .kept action row

end

section

variable {system next : System} {action : Action}

theorem changed_commit {α : Type} {body : QueueTransaction α} (keyed : system.queue.Keyed)
    (commits : Commits body system.queue fun _ written => Changed action system.queue written) :
    Changed action system.queue (system.commit body).queue :=
  transact_related commits (Changed.refl action keyed)

theorem step_changed (keyed : system.queue.Keyed) (stepped : system.step action = some next) :
    Changed action system.queue next.queue := by
  cases action with
  | enqueue entries =>
    cases stepped
    refine changed_commit keyed ((commits_enqueueMany entries keyed).mono ?_)
    rintro _ written ⟨kept, added, attempts, fresh⟩
    exact changed_enqueue kept attempts fresh
  | read =>
    cases stepped
    exact Changed.refl _ keyed
  | choose reading workerId =>
    simp only [System.step] at stepped
    split at stepped
    next =>
      cases stepped
      exact Changed.refl _ keyed
    next => cases stepped
  | giveUp =>
    cases stepped
    exact Changed.refl _ keyed
  | assign attemptId workerId =>
    simp only [System.step] at stepped
    split at stepped
    next =>
      cases stepped
      exact changed_commit keyed (commits_assign keyed)
    next => cases stepped
  | setQueuedReason attemptId reason =>
    cases stepped
    exact changed_commit keyed (commits_setQueuedReason keyed)
  | reconcile durable receipt =>
    simp only [System.step] at stepped
    split at stepped
    next =>
      split at stepped
      next status reconciled =>
        cases stepped
        exact changed_commit keyed (commits_setReceipt keyed reconciled)
      next => cases stepped
    next => cases stepped
  | unreachable attempt reason =>
    simp only [System.step] at stepped
    split at stepped
    next =>
      cases stepped
      exact changed_commit keyed (commits_markUnknownIfNonterminal keyed)
    next => cases stepped
  | requestCancel runId =>
    cases stepped
    exact changed_commit keyed (commits_requestCancel keyed)
  | recordRecovery attemptId observation workerId specDigest bundleDigest =>
    cases stepped
    exact changed_commit keyed (commits_recordRecovery keyed)
  | ingested attemptId =>
    cases stepped
    unfold System.ingest
    split
    next => exact changed_commit keyed (commits_markIngestionComplete keyed)
    next => exact Changed.refl _ keyed
  | notRequired attemptId =>
    cases stepped
    exact changed_commit keyed (commits_markIngestionNotRequired keyed)
  | fault attemptId message =>
    cases stepped
    exact Changed.refl _ keyed
  | ingestionError attemptId message =>
    simp only [System.step] at stepped
    split at stepped
    next =>
      cases stepped
      exact changed_commit keyed (commits_markIngestionError keyed)
    next => cases stepped

end

theorem Changed.source {action : Action} {before after : Queue}
    (changed : Changed action before after) {row' : Attempt} (member' : row' ∈ after.attempts) :
    (∃ row ∈ before.attempts, Change action row row') ∨ Fresh row' := by
  obtain ⟨write, added, attempts, changes, fresh⟩ := changed.rows
  rw [attempts] at member'
  rcases List.mem_append.mp member' with old | new
  · obtain ⟨row, member, rfl⟩ := List.mem_map.mp old
    exact .inl ⟨row, member, changes row member⟩
  · exact .inr (fresh row' new)

theorem Changed.target {action : Action} {before after : Queue}
    (changed : Changed action before after) {row : Attempt} (member : row ∈ before.attempts) :
    ∃ row' ∈ after.attempts, Change action row row' := by
  obtain ⟨write, added, attempts, changes, fresh⟩ := changed.rows
  refine ⟨write row, ?_, changes row member⟩
  rw [attempts]
  exact List.mem_append_left _ (List.mem_map_of_mem member)

theorem keyed_empty : Queue.Keyed {} := by
  refine ⟨List.nodup_nil, List.nodup_nil, ?_⟩
  intro _ member
  cases member

section

variable {invariant : Attempt → Prop}

theorem after_rows (fresh : ∀ row, Fresh row → invariant row)
    (kept : ∀ action row row', Change action row row' → invariant row → invariant row')
    {actions : List Action} {system next : System} (keyed : system.queue.Keyed)
    (rows : ∀ row ∈ system.queue.attempts, invariant row)
    (ran : system.after actions = some next) :
    next.queue.Keyed ∧ ∀ row ∈ next.queue.attempts, invariant row := by
  induction actions generalizing system with
  | nil =>
    cases ran
    exact ⟨keyed, rows⟩
  | cons action actions ih =>
    obtain ⟨middle, stepped, rest⟩ := Option.bind_eq_some_iff.mp ran
    have changed := step_changed keyed stepped
    refine ih changed.keyed ?_ rest
    intro row' member'
    rcases changed.source member' with ⟨row, member, change⟩ | new
    · exact kept action row row' change (rows row member)
    · exact fresh row' new

def System.Meets (condition : System → Action → Prop) : System → List Action → Prop
  | _, [] => True
  | system, action :: actions =>
    condition system action ∧
      ∀ next, system.step action = some next → System.Meets condition next actions

theorem after_related {condition : System → Action → Prop} {related : Attempt → Attempt → Prop}
    (fresh : ∀ row, Fresh row → invariant row)
    (kept : ∀ action row row', Change action row row' → invariant row → invariant row')
    (refl : ∀ row, related row row)
    (extend : ∀ system action row row' row'', condition system action →
      row ∈ system.queue.attempts → invariant row → Change action row row' →
        related row' row'' → related row row'')
    {actions : List Action} {system next : System} (keyed : system.queue.Keyed)
    (rows : ∀ row ∈ system.queue.attempts, invariant row)
    (meets : system.Meets condition actions) (ran : system.after actions = some next)
    {row : Attempt} (member : row ∈ system.queue.attempts) {row' : Attempt}
    (member' : row' ∈ next.queue.attempts) (named : row'.attemptId = row.attemptId) :
    related row row' := by
  suffices found : ∃ other ∈ next.queue.attempts, other.attemptId = row.attemptId ∧
      related row other by
    obtain ⟨other, present, same, holds⟩ := found
    have ended := (after_rows fresh kept keyed rows ran).1
    have identical : other = row' :=
      List.inj_on_of_nodup_map ended.attempts present member' (same.trans named.symm)
    rwa [← identical]
  clear member' named
  induction actions generalizing system row with
  | nil =>
    cases ran
    exact ⟨row, member, rfl, refl row⟩
  | cons action actions ih =>
    obtain ⟨middle, stepped, rest⟩ := Option.bind_eq_some_iff.mp ran
    have changed := step_changed keyed stepped
    obtain ⟨next', present, change⟩ := changed.target member
    have later : ∀ row ∈ middle.queue.attempts, invariant row := by
      intro row' member'
      rcases changed.source member' with ⟨row, member, change⟩ | new
      · exact kept action row row' change (rows row member)
      · exact fresh row' new
    obtain ⟨other, member', same, holds⟩ :=
      ih changed.keyed later (meets.2 middle stepped) rest present
    exact ⟨other, member', same.trans change.names.1,
      extend system action row next' other meets.1 member (rows row member) change holds⟩

end

end SparseLab.Workers
