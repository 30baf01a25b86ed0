import SparseLab.Workers.QueueChanges

/-! The invariants of the queue over every run, and the write that lacks its guard. -/

namespace SparseLab.Workers

open Library Queue

def Action.Addressed : Action → Prop
  | .unreachable attempt _ => attempt.row.workerId ≠ none
  | _ => True

instance (action : Action) : Decidable action.Addressed := by
  cases action <;> unfold Action.Addressed <;> infer_instance

structure Attempt.Sound (row : Attempt) : Prop where
  evidence : row.status = .complete ∨ row.status = .failed ∨ row.status = .interrupted →
    row.terminalReceipt ≠ none
  cancelled : row.status = .cancelled → row.terminalReceipt ≠ none ∨ row.workerId = none
  idle : row.workerId = none ∨ row.status = .queued →
    row.workerId = none ∧ (row.status = .queued ∨ row.status = .cancelled) ∧
      row.terminalReceipt = none ∧ row.recovery = none
  fenced : row.recovery ≠ none → row.terminalReceipt = none
  active : row.workerId ≠ none → row.terminalReceipt = none → row.status.Reconcilable

structure Attempt.Keeps (row row' : Attempt) : Prop where
  worker : ∀ workerId, row.workerId = some workerId → row'.workerId = some workerId
  terminal : ∀ receipt, row.terminalReceipt = some receipt →
    row'.terminalReceipt = some receipt ∧ row'.status = row.status
  recovery : row.recovery ≠ none → row'.recovery = row.recovery
  cancel : row.status = .cancelRequested ∨ row.status = .cancelled →
    row'.terminalReceipt = none → row'.recovery = none → row'.status = row.status

theorem Attempt.Keeps.refl (row : Attempt) : row.Keeps row := by
  constructor
  · exact fun _ owned => owned
  · exact fun _ stored => ⟨stored, rfl⟩
  · exact fun _ => rfl
  · exact fun _ _ _ => rfl

theorem Attempt.Keeps.trans {row middle row' : Attempt} (first : row.Keeps middle)
    (second : middle.Keeps row') : row.Keeps row' := by
  constructor
  · exact fun workerId owned => second.worker workerId (first.worker workerId owned)
  · intro receipt stored
    obtain ⟨stored', status⟩ := first.terminal receipt stored
    obtain ⟨stored'', status'⟩ := second.terminal receipt stored'
    exact ⟨stored'', status'.trans status⟩
  · intro recovered
    have same := first.recovery recovered
    exact (second.recovery (by rwa [same])).trans same
  · intro requested openEnd unfenced
    have openMiddle : middle.terminalReceipt = none := by
      cases stored : middle.terminalReceipt with
      | none => rfl
      | some receipt =>
        rw [(second.terminal receipt stored).1] at openEnd
        cases openEnd
    have unfencedMiddle : middle.recovery = none := by
      by_contra recovered
      exact recovered ((second.recovery recovered).symm.trans unfenced)
    have same := first.cancel requested openMiddle unfencedMiddle
    rw [← same] at requested
    exact (second.cancel requested openEnd unfenced).trans same

def Action.Owns : Action → Attempt → Prop
  | .reconcile durable _, row => durable.row.attemptId = row.attemptId → row.workerId ≠ none
  | .unreachable attempt _, row => attempt.row.attemptId = row.attemptId → row.workerId ≠ none
  | _, _ => True

theorem reconciledStatus_nonterminal {durable : Reading} {receipt : Receipt}
    {status : QueueStatus} (reconciled : reconciledStatus durable receipt = .ok status)
    (nonterminal : ¬ receipt.Terminal) : status = .assigned ∨ status = .running := by
  unfold reconciledStatus at reconciled
  split at reconciled
  next => cases reconciled
  next =>
    split at reconciled
    next => cases reconciled
    next stated =>
      cases reconciled
      exact .inl rfl
    next stated =>
      cases reconciled
      exact .inr rfl
    all_goals
      next stated => exact absurd ⟨_, stated, trivial⟩ nonterminal

theorem reconciledStatus_ne_queued {durable : Reading} {receipt : Receipt}
    {status : QueueStatus} (reconciled : reconciledStatus durable receipt = .ok status) :
    status ≠ .queued := by
  rintro rfl
  unfold reconciledStatus at reconciled
  split at reconciled
  next => cases reconciled
  next =>
    split at reconciled
    all_goals try cases reconciled
    next =>
      split at reconciled <;> cases reconciled

section

variable {action : Action} {row row' : Attempt}

theorem received_sound {receipt : Receipt} {status : QueueStatus}
    (owned : row.workerId ≠ none) (fresh : row.recovery = none)
    (evident : ¬ receipt.Terminal → status = .assigned ∨ status = .running ∨
      status = .cancelRequested) (waiting : status ≠ .queued) :
    (received receipt status row).Sound := by
  unfold received
  by_cases terminal : receipt.Terminal
  · rw [if_pos terminal]
    constructor
    · exact fun _ => by simp
    · exact fun _ => .inl (by simp)
    · rintro (unowned | queued)
      · exact absurd unowned owned
      · exact absurd queued waiting
    · exact fun recovered => absurd fresh recovered
    · exact fun _ openEnd => by cases openEnd
  · rw [if_neg terminal]
    have states := evident terminal
    constructor
    · intro ended
      exfalso
      rcases states with rfl | rfl | rfl <;> simp at ended
    · intro cancelled
      exfalso
      rcases states with rfl | rfl | rfl <;> simp at cancelled
    · rintro (unowned | queued)
      · exact absurd unowned owned
      · exact absurd queued waiting
    · exact fun recovered => absurd fresh recovered
    · intro _ _
      change status.Reconcilable
      rcases states with rfl | rfl | rfl <;> decide

theorem received_status {durable : Reading} {receipt : Receipt} {status : QueueStatus}
    (reconciled : reconciledStatus durable receipt = .ok status) :
    (¬ receipt.Terminal →
      (if row.status = .cancelRequested ∧ ¬ receipt.Terminal then .cancelRequested else status) =
          QueueStatus.assigned ∨
        (if row.status = .cancelRequested ∧ ¬ receipt.Terminal then .cancelRequested
          else status) = QueueStatus.running ∨
        (if row.status = .cancelRequested ∧ ¬ receipt.Terminal then .cancelRequested
          else status) = QueueStatus.cancelRequested) ∧
      (if row.status = .cancelRequested ∧ ¬ receipt.Terminal then .cancelRequested
        else status) ≠ QueueStatus.queued := by
  constructor
  · intro nonterminal
    split
    next => exact .inr (.inr rfl)
    next =>
      rcases reconciledStatus_nonterminal reconciled nonterminal with assigned | running
      · exact .inl assigned
      · exact .inr (.inl running)
  · split
    next => decide
    next => exact reconciledStatus_ne_queued reconciled

theorem Change.sound (change : Change action row row') (sound : row.Sound)
    (owns : action.Owns row) : row'.Sound := by
  cases change with
  | kept => exact sound
  | assigned _ workerId queued =>
    obtain ⟨_, _, openEnd, unfenced⟩ := sound.idle (.inr queued)
    constructor
    · exact fun ended => by simp at ended
    · exact fun cancelled => by simp at cancelled
    · exact fun idle => by simp at idle
    · exact fun recovered => absurd unfenced recovered
    · exact fun _ _ => (by decide : QueueStatus.assigned.Reconcilable)
  | reasoned _ reason =>
    exact ⟨sound.evidence, sound.cancelled, sound.idle, sound.fenced, sound.active⟩
  | conflicting _ durable receipt named recovered terminal =>
    exact ⟨sound.evidence, sound.cancelled, sound.idle, sound.fenced, sound.active⟩
  | received _ durable receipt status named fresh first reconciled =>
    obtain ⟨evident, waiting⟩ := received_status reconciled
    exact received_sound (owns named) fresh evident waiting
  | recovered _ observation workerId specDigest bundleDigest owned fresh openEnd =>
    constructor
    · exact fun ended => by simp at ended
    · exact fun cancelled => by simp at cancelled
    · exact fun idle => by simp [owned] at idle
    · exact fun _ => openEnd
    · exact fun _ _ => (by decide : QueueStatus.unknown.Reconcilable)
  | ingested _ evident settled =>
    exact ⟨sound.evidence, sound.cancelled, sound.idle, sound.fenced, sound.active⟩
  | notRequired _ terminal =>
    exact ⟨sound.evidence, sound.cancelled, sound.idle, sound.fenced, sound.active⟩
  | failed _ message evident =>
    exact ⟨sound.evidence, sound.cancelled, sound.idle, sound.fenced, sound.active⟩
  | unreachable _ attempt reason named openEnd =>
    have owned := owns named
    by_cases requested : row.status = .cancelRequested
    · constructor
      · exact fun ended => by simp [requested] at ended
      · exact fun cancelled => by simp [requested] at cancelled
      · exact fun idle => by simp [requested, owned] at idle
      · exact fun _ => openEnd
      · exact fun _ _ => by simp [requested, QueueStatus.Reconcilable]
    · constructor
      · exact fun ended => by simp [requested] at ended
      · exact fun cancelled => by simp [requested] at cancelled
      · exact fun idle => by simp [requested, owned] at idle
      · exact fun _ => openEnd
      · exact fun _ _ => by simp [requested, QueueStatus.Reconcilable]
  | cancelled _ queued =>
    obtain ⟨unowned, _, openEnd, unfenced⟩ := sound.idle (.inr queued)
    constructor
    · exact fun ended => by simp at ended
    · exact fun _ => .inr unowned
    · exact fun _ => ⟨unowned, .inr rfl, openEnd, unfenced⟩
    · exact fun recovered => absurd unfenced recovered
    · exact fun owned => absurd unowned owned
  | cancelRequested _ started =>
    by_cases settled : row.status.Terminal ∨ row.terminalReceipt ≠ none ∨ row.recovery ≠ none
    · simp only [if_pos settled]
      exact ⟨sound.evidence, sound.cancelled, sound.idle, sound.fenced, sound.active⟩
    · simp only [if_neg settled]
      simp only [not_or, not_not] at settled
      constructor
      · exact fun ended => by simp at ended
      · exact fun cancelled => by simp at cancelled
      · rintro (unowned | queued)
        · -- An unassigned row is queued or cancelled, and neither gets here.
          obtain ⟨_, queued | cancelled, _⟩ := sound.idle (.inl unowned)
          · exact absurd queued started
          · exact absurd (by rw [cancelled]; decide) settled.1
        · simp at queued
      · exact fun recovered => absurd settled.2.2 recovered
      · exact fun _ _ => (by decide : QueueStatus.cancelRequested.Reconcilable)

theorem Change.keeps (change : Change action row row') (sound : row.Sound)
    (owns : action.Owns row) : row.Keeps row' := by
  cases change with
  | kept => exact Attempt.Keeps.refl row
  | assigned _ workerId queued =>
    obtain ⟨unowned, _, openEnd, unfenced⟩ := sound.idle (.inr queued)
    constructor
    · exact fun other owned => by simp [unowned] at owned
    · exact fun receipt stored => by simp [openEnd] at stored
    · exact fun recovered => absurd unfenced recovered
    · exact fun requested => by simp [queued] at requested
  | received _ durable receipt status named fresh first reconciled =>
    unfold Queue.received
    by_cases terminal : receipt.Terminal
    · rw [if_pos terminal]
      constructor
      · exact fun _ owned => owned
      · exact fun receipt stored => by simp [first] at stored
      · exact fun recovered => absurd fresh recovered
      · exact fun _ openEnd => by cases openEnd
    · rw [if_neg terminal]
      constructor
      · exact fun _ owned => owned
      · exact fun receipt stored => by simp [first] at stored
      · exact fun recovered => absurd fresh recovered
      · rintro (requested | cancelled) _ _
        · simp [requested, terminal]
        · rcases sound.cancelled cancelled with ended | unowned
          · exact absurd first ended
          · exact absurd unowned (owns named)
  | recovered _ observation workerId specDigest bundleDigest owned fresh openEnd =>
    constructor
    · exact fun _ owned => owned
    · exact fun receipt stored => by simp [openEnd] at stored
    · exact fun recovered => absurd fresh recovered
    · exact fun _ _ unfenced => by cases unfenced
  | unreachable _ attempt reason named openEnd =>
    constructor
    · exact fun _ owned => owned
    · exact fun receipt stored => by simp [openEnd] at stored
    · exact fun _ => rfl
    · rintro (requested | cancelled) _ _
      · simp [requested]
      · rcases sound.cancelled cancelled with terminal | unowned
        · exact absurd openEnd terminal
        · exact absurd unowned (owns named)
  | cancelled _ queued =>
    obtain ⟨unowned, _, openEnd, unfenced⟩ := sound.idle (.inr queued)
    constructor
    · exact fun _ owned => owned
    · exact fun receipt stored => by simp [openEnd] at stored
    · exact fun _ => rfl
    · exact fun requested => by simp [queued] at requested
  | cancelRequested _ started =>
    constructor
    · exact fun _ owned => owned
    · intro receipt stored
      exact ⟨stored, if_pos (.inr (.inl (by simp [stored])))⟩
    · exact fun _ => rfl
    · rintro (requested | cancelled) _ _
      · simp [requested]
      · exact if_pos (.inl (by rw [cancelled]; decide))
  | _ =>
    constructor
    · exact fun _ owned => owned
    · exact fun _ stored => ⟨stored, rfl⟩
    · exact fun _ => rfl
    · exact fun _ _ _ => rfl

end

structure System.Coherent (system : System) : Prop where
  keyed : system.queue.Keyed
  sound : ∀ row ∈ system.queue.attempts, row.Sound
  seen : ∀ reading ∈ system.seen, ∀ workerId, reading.row.workerId = some workerId →
    ∃ row ∈ system.queue.attempts, row.attemptId = reading.row.attemptId ∧
      row.workerId = some workerId
  slots : ∀ row ∈ system.queue.attempts, ∀ other ∈ system.queue.attempts, ∀ workerId,
    row.workerId = some workerId → other.workerId = some workerId →
      row.terminalReceipt = none → other.terminalReceipt = none →
        row.attemptId = other.attemptId
  chosen : ∀ found ∈ system.chosen, ∀ row ∈ system.queue.attempts,
    row.workerId = some found.2 → row.recovery = none ∧ row.terminalReceipt ≠ none

section

variable {system next : System} {action : Action}

theorem mem_readings {queue : Queue} {reading : Reading} (member : reading ∈ queue.readings) :
    reading.row ∈ queue.attempts := by
  obtain ⟨row, present, joined⟩ := List.mem_filterMap.mp member
  obtain ⟨spec, _, rfl⟩ := Option.map_eq_some_iff.mp joined
  exact present

theorem readings_of_mem {queue : Queue} (keyed : queue.Keyed) {row : Attempt}
    (member : row ∈ queue.attempts) : ∃ reading ∈ queue.readings, reading.row = row := by
  obtain ⟨spec, stored⟩ := keyed.joined row member
  exact ⟨⟨row, spec⟩, List.mem_filterMap.mpr ⟨row, member, by rw [stored]; rfl⟩, rfl⟩

theorem System.Coherent.owns (coherent : system.Coherent)
    (stepped : system.step action = some next) (addressed : action.Addressed) :
    ∀ row ∈ system.queue.attempts, action.Owns row := by
  intro row member
  have owned (reading : Reading) (read : reading ∈ system.seen)
      (worker : reading.row.workerId ≠ none)
      (named : reading.row.attemptId = row.attemptId) : row.workerId ≠ none := by
    obtain ⟨workerId, stored⟩ := Option.ne_none_iff_exists'.mp worker
    obtain ⟨other, present, same, assigned⟩ := coherent.seen reading read workerId stored
    have identical : other = row :=
      List.inj_on_of_nodup_map coherent.keyed.attempts present member (same.trans named)
    rw [← identical, assigned]
    simp
  cases action with
  | reconcile durable receipt =>
    simp only [System.step] at stepped
    split at stepped
    next guard => exact owned durable guard.1 guard.2
    next => cases stepped
  | unreachable attempt reason =>
    simp only [System.step] at stepped
    split at stepped
    next read => exact owned attempt read addressed
    next => cases stepped
  | _ => trivial

structure Queue.Evolves (before after : Queue) : Prop where
  kept : ∀ row ∈ before.attempts, ∃ row' ∈ after.attempts,
    row'.attemptId = row.attemptId ∧ row.Keeps row'
  fenced : ∀ row ∈ before.attempts, row.recovery ≠ none → ∀ workerId,
    row.workerId = some workerId → ∀ row' ∈ after.attempts, row'.workerId = some workerId →
      ∃ other ∈ before.attempts, other.attemptId = row'.attemptId ∧
        other.workerId = some workerId

theorem Queue.Evolves.refl (queue : Queue) : queue.Evolves queue :=
  ⟨fun row member => ⟨row, member, rfl, Attempt.Keeps.refl row⟩,
    fun _ _ _ _ _ row' member assigned => ⟨row', member, rfl, assigned⟩⟩

theorem Queue.Evolves.trans {before middle after : Queue} (first : before.Evolves middle)
    (second : middle.Evolves after) : before.Evolves after := by
  constructor
  · intro row member
    obtain ⟨row', member', named, keeps⟩ := first.kept row member
    obtain ⟨row'', member'', named', keeps'⟩ := second.kept row' member'
    exact ⟨row'', member'', named'.trans named, keeps.trans keeps'⟩
  · intro row member recovered workerId owned row'' member'' assigned
    obtain ⟨row', member', _, keeps⟩ := first.kept row member
    have stillRecovered : row'.recovery ≠ none := by rwa [keeps.recovery recovered]
    obtain ⟨other, present, named, other'⟩ := second.fenced row' member' stillRecovered workerId
      (keeps.worker workerId owned) row'' member'' assigned
    obtain ⟨earlier, present', named', earlier'⟩ := first.fenced row member recovered workerId
      owned other present other'
    exact ⟨earlier, present', named'.trans named, earlier'⟩

structure Framed (system : System) (action : Action) (next : System) : Prop where
  seen : next.seen = system.seen ∨
    next.seen = system.queue.readings ++ system.seen ∧ next.queue = system.queue
  chosen : next.chosen = system.chosen ∨ next.chosen = none ∨
    ∃ reading workerId, next.chosen = some (reading, workerId) ∧
      system.queue.Eligible workerId ∧ next.queue = system.queue
  assigning : ∀ attemptId workerId, action = .assign attemptId workerId →
    next.chosen = none ∧ ∃ found ∈ system.chosen, found.2 = workerId

theorem step_framed (stepped : system.step action = some next) :
    Framed system action next := by
  cases action with
  | read =>
    cases stepped
    exact ⟨.inr ⟨rfl, rfl⟩, .inl rfl, fun _ _ other => by cases other⟩
  | choose reading workerId =>
    simp only [System.step] at stepped
    split at stepped
    next guard =>
      cases stepped
      exact ⟨.inl rfl, .inr (.inr ⟨reading, workerId, rfl, guard.2.2, rfl⟩),
        fun _ _ other => by cases other⟩
    next => cases stepped
  | giveUp =>
    cases stepped
    exact ⟨.inl rfl, .inr (.inl rfl), fun _ _ other => by cases other⟩
  | assign attemptId workerId =>
    simp only [System.step] at stepped
    split at stepped
    next guard =>
      cases stepped
      refine ⟨.inl rfl, .inr (.inl rfl), ?_⟩
      intro _ _ same
      cases same
      obtain ⟨found, chosen, _, worker⟩ := guard
      exact ⟨rfl, found, chosen, worker⟩
    next => cases stepped
  | reconcile durable receipt =>
    simp only [System.step] at stepped
    split at stepped
    next =>
      split at stepped
      next =>
        cases stepped
        exact ⟨.inl rfl, .inl rfl, fun _ _ other => by cases other⟩
      next => cases stepped
    next => cases stepped
  | unreachable attempt reason =>
    simp only [System.step] at stepped
    split at stepped
    next =>
      cases stepped
      exact ⟨.inl rfl, .inl rfl, fun _ _ other => by cases other⟩
    next => cases stepped
  | ingested attemptId =>
    cases stepped
    unfold System.ingest
    split <;> exact ⟨.inl rfl, .inl rfl, fun _ _ other => by cases other⟩
  | ingestionError attemptId message =>
    simp only [System.step] at stepped
    split at stepped
    next =>
      cases stepped
      exact ⟨.inl rfl, .inl rfl, fun _ _ other => by cases other⟩
    next => cases stepped
  | _ =>
    cases stepped
    exact ⟨.inl rfl, .inl rfl, fun _ _ other => by cases other⟩

theorem Change.worker {row row' : Attempt} {workerId : String}
    (change : Change action row row') (owned : row'.workerId = some workerId) :
    row.workerId = some workerId ∨
      action = .assign row.attemptId workerId ∧ row.status = .queued := by
  cases change with
  | assigned _ other queued =>
    cases owned
    exact .inr ⟨rfl, queued⟩
  | received _ durable receipt status named fresh first reconciled =>
    unfold Queue.received at owned
    split at owned <;> exact .inl owned
  | _ => exact .inl owned

theorem Change.recovery {row row' : Attempt} (change : Change action row row')
    (terminal : row.terminalReceipt ≠ none) : row'.recovery = row.recovery := by
  cases change with
  | recovered _ observation workerId specDigest bundleDigest owned fresh openEnd =>
    exact absurd openEnd terminal
  | received _ durable receipt status named fresh first reconciled => exact absurd first terminal
  | _ => rfl

theorem fresh_sound {row : Attempt} (fresh : Fresh row) : row.Sound := by
  rw [fresh]
  constructor
  · exact fun ended => by simp at ended
  · exact fun cancelled => by simp at cancelled
  · exact fun _ => ⟨rfl, .inl rfl, rfl, rfl⟩
  · exact fun recovered => absurd rfl recovered
  · exact fun owned => absurd rfl owned

theorem fresh_worker {row : Attempt} (fresh : Fresh row) : row.workerId = none := by
  rw [fresh]

theorem Attempt.Keeps.nonterminal {row row' : Attempt} (keeps : row.Keeps row')
    (openEnd : row'.terminalReceipt = none) : row.terminalReceipt = none := by
  cases stored : row.terminalReceipt with
  | none => rfl
  | some receipt =>
    rw [(keeps.terminal receipt stored).1] at openEnd
    cases openEnd

theorem Queue.Eligible.free {queue : Queue} {workerId : String}
    (eligible : queue.Eligible workerId) (keyed : queue.Keyed) {row : Attempt}
    (member : row ∈ queue.attempts) (sound : row.Sound) (owned : row.workerId = some workerId) :
    row.recovery = none ∧ row.terminalReceipt ≠ none := by
  have worker : row.workerId ≠ none := by simp [owned]
  have ended : row.terminalReceipt ≠ none := by
    intro openEnd
    obtain ⟨reading, read, same⟩ := readings_of_mem keyed member
    have active := sound.active worker openEnd
    rw [← same] at active owned openEnd
    exact (eligible reading read active owned).2 openEnd
  refine ⟨?_, ended⟩
  by_contra recovered
  exact ended (sound.fenced recovered)

section

variable (coherent : system.Coherent) (changed : Changed action system.queue next.queue)
  (framed : Framed system action next)
  (owns : ∀ row ∈ system.queue.attempts, action.Owns row)

include coherent owns changed

theorem next_sound : ∀ row ∈ next.queue.attempts, row.Sound := by
  intro row' member'
  rcases changed.source member' with ⟨row, member, change⟩ | fresh
  · exact change.sound (coherent.sound row member) (owns row member)
  · exact fresh_sound fresh

theorem next_kept : ∀ row ∈ system.queue.attempts, ∃ row' ∈ next.queue.attempts,
    row'.attemptId = row.attemptId ∧ row.Keeps row' := by
  intro row member
  obtain ⟨row', member', change⟩ := changed.target member
  exact ⟨row', member', change.names.1,
    change.keeps (coherent.sound row member) (owns row member)⟩

include framed

theorem next_seen : ∀ reading ∈ next.seen, ∀ workerId, reading.row.workerId = some workerId →
    ∃ row ∈ next.queue.attempts, row.attemptId = reading.row.attemptId ∧
      row.workerId = some workerId := by
  intro reading read workerId owned
  have earlier (old : reading ∈ system.seen) : ∃ row ∈ next.queue.attempts,
      row.attemptId = reading.row.attemptId ∧ row.workerId = some workerId := by
    obtain ⟨row, member, named, assigned⟩ := coherent.seen reading old workerId owned
    obtain ⟨row', member', named', keeps⟩ := next_kept coherent changed owns row member
    exact ⟨row', member', named'.trans named, keeps.worker workerId assigned⟩
  rcases framed.seen with same | ⟨grown, unchanged⟩
  · rw [same] at read
    exact earlier read
  · rw [grown] at read
    rcases List.mem_append.mp read with new | old
    · rw [unchanged]
      exact ⟨reading.row, mem_readings new, rfl, owned⟩
    · exact earlier old

theorem next_worker {row' : Attempt} (member' : row' ∈ next.queue.attempts) {workerId : String}
    (owned : row'.workerId = some workerId) :
    ∃ row ∈ system.queue.attempts, row.attemptId = row'.attemptId ∧ row.Keeps row' ∧
      Change action row row' ∧ (row.workerId = some workerId ∨
        action = .assign row.attemptId workerId ∧ next.chosen = none ∧
          ∀ other ∈ system.queue.attempts, other.workerId = some workerId →
            other.recovery = none ∧ other.terminalReceipt ≠ none) := by
  rcases changed.source member' with ⟨row, member, change⟩ | fresh
  · have keeps := change.keeps (coherent.sound row member) (owns row member)
    refine ⟨row, member, change.names.1.symm, keeps, change, ?_⟩
    rcases change.worker owned with before | ⟨assigning, _⟩
    · exact .inl before
    · obtain ⟨cleared, found, chosen, worker⟩ := framed.assigning _ _ assigning
      refine .inr ⟨assigning, cleared, ?_⟩
      intro other present other'
      exact coherent.chosen found chosen other present (by rw [worker, other'])
  · rw [fresh_worker fresh] at owned
    cases owned

theorem next_slots : ∀ row ∈ next.queue.attempts, ∀ other ∈ next.queue.attempts, ∀ workerId,
    row.workerId = some workerId → other.workerId = some workerId →
      row.terminalReceipt = none → other.terminalReceipt = none →
        row.attemptId = other.attemptId := by
  intro row' member' other' present' workerId owned' shared' openRow openOther
  obtain ⟨row, member, named, keeps, _, source⟩ :=
    next_worker coherent changed framed owns member' owned'
  obtain ⟨other, present, named', keeps', _, source'⟩ :=
    next_worker coherent changed framed owns present' shared'
  have rowOpen := keeps.nonterminal openRow
  have otherOpen := keeps'.nonterminal openOther
  rw [← named, ← named']
  rcases source with owned | ⟨assigning, _, free⟩
  · rcases source' with shared | ⟨_, _, free⟩
    · exact coherent.slots row member other present workerId owned shared rowOpen otherOpen
    · exact absurd rowOpen (free row member owned).2
  · rcases source' with shared | ⟨assigning', _, _⟩
    · exact absurd otherOpen (free other present shared).2
    · rw [assigning] at assigning'
      exact (Action.assign.inj assigning').1

theorem next_chosen : ∀ found ∈ next.chosen, ∀ row ∈ next.queue.attempts,
    row.workerId = some found.2 → row.recovery = none ∧ row.terminalReceipt ≠ none := by
  intro found chosen row' member' owned'
  rcases framed.chosen with same | cleared | ⟨reading, workerId, fresh, eligible, unchanged⟩
  · obtain ⟨row, member, _, keeps, change, owned | ⟨_, cleared, _⟩⟩ :=
      next_worker coherent changed framed owns member' owned'
    · have free := coherent.chosen found (same ▸ chosen) row member owned
      have ended := free.2
      refine ⟨by rw [change.recovery ended, free.1], ?_⟩
      intro openRow
      exact ended (keeps.nonterminal openRow)
    · rw [cleared] at chosen
      cases chosen
  · rw [cleared] at chosen
    cases chosen
  · rw [fresh] at chosen
    cases chosen
    rw [unchanged] at member'
    exact eligible.free coherent.keyed member' (coherent.sound row' member') owned'

theorem next_evolves : system.queue.Evolves next.queue := by
  refine ⟨next_kept coherent changed owns, ?_⟩
  intro row member recovered workerId owned row' member' owned'
  obtain ⟨other, present, named, _, _, before | ⟨_, _, free⟩⟩ :=
    next_worker coherent changed framed owns member' owned'
  · exact ⟨other, present, named, before⟩
  · exact absurd (free row member owned).1 recovered

theorem next_coherent : next.Coherent :=
  ⟨changed.keyed, next_sound coherent changed owns, next_seen coherent changed framed owns,
    next_slots coherent changed framed owns, next_chosen coherent changed framed owns⟩

end

theorem step_coherent (coherent : system.Coherent) (addressed : action.Addressed)
    (stepped : system.step action = some next) :
    next.Coherent ∧ system.queue.Evolves next.queue := by
  have changed := step_changed coherent.keyed stepped
  have framed := step_framed stepped
  have owns := coherent.owns stepped addressed
  exact ⟨next_coherent coherent changed framed owns, next_evolves coherent changed framed owns⟩

theorem after_coherent {actions : List Action} (coherent : system.Coherent)
    (addressed : ∀ action ∈ actions, action.Addressed)
    (ran : system.after actions = some next) :
    next.Coherent ∧ system.queue.Evolves next.queue := by
  induction actions generalizing system with
  | nil =>
    cases ran
    exact ⟨coherent, Queue.Evolves.refl _⟩
  | cons action actions ih =>
    obtain ⟨middle, stepped, rest⟩ := Option.bind_eq_some_iff.mp ran
    obtain ⟨kept, evolves⟩ :=
      step_coherent coherent (addressed action List.mem_cons_self) stepped
    obtain ⟨ended, evolves'⟩ :=
      ih kept (fun later member => addressed later (List.mem_cons_of_mem _ member)) rest
    exact ⟨ended, evolves.trans evolves'⟩

theorem coherent_empty : System.Coherent {} := by
  refine ⟨⟨List.nodup_nil, List.nodup_nil, ?_⟩, ?_, ?_, ?_, ?_⟩ <;> intro _ member <;> cases member

end

structure Queue.Safe (before after : Queue) : Prop where
  terminal : ∀ row ∈ before.attempts, ∀ row' ∈ after.attempts, row'.attemptId = row.attemptId →
    ∀ receipt, row.terminalReceipt = some receipt →
      row'.terminalReceipt = some receipt ∧ row'.status = row.status
  evidence : ∀ row ∈ after.attempts,
    row.status = .complete ∨ row.status = .failed ∨ row.status = .interrupted →
      row.terminalReceipt ≠ none
  cancelled : ∀ row ∈ after.attempts, row.status = .cancelled →
    row.terminalReceipt ≠ none ∨ row.workerId = none
  cancel : ∀ row ∈ before.attempts, ∀ row' ∈ after.attempts, row'.attemptId = row.attemptId →
    row.status = .cancelRequested ∨ row.status = .cancelled →
      row'.terminalReceipt = none → row'.recovery = none → row'.status = row.status
  once : ∀ row ∈ before.attempts, ∀ row' ∈ after.attempts, row'.attemptId = row.attemptId →
    ∀ workerId, row.workerId = some workerId →
      row'.workerId = some workerId ∧ row'.status ≠ .queued
  slots : ∀ row ∈ after.attempts, ∀ other ∈ after.attempts, ∀ workerId,
    row.workerId = some workerId → other.workerId = some workerId →
      row.terminalReceipt = none → other.terminalReceipt = none →
        row.attemptId = other.attemptId
  fenced : ∀ row ∈ before.attempts, row.recovery ≠ none → ∀ workerId,
    row.workerId = some workerId → ∀ row' ∈ after.attempts, row'.workerId = some workerId →
      ∃ other ∈ before.attempts, other.attemptId = row'.attemptId ∧
        other.workerId = some workerId

theorem controller_queue_safe {earlier later : List Action} {before after : System}
    (addressed : ∀ action ∈ earlier ++ later, action.Addressed)
    (reached : System.after {} earlier = some before)
    (continued : before.after later = some after) : before.queue.Safe after.queue := by
  have coherent := (after_coherent coherent_empty
    (fun action member => addressed action (List.mem_append_left _ member)) reached).1
  obtain ⟨ended, evolves⟩ := after_coherent coherent
    (fun action member => addressed action (List.mem_append_right _ member)) continued
  have keeps (row : Attempt) (member : row ∈ before.queue.attempts) (row' : Attempt)
      (member' : row' ∈ after.queue.attempts) (named : row'.attemptId = row.attemptId) :
      row.Keeps row' := by
    obtain ⟨other, present, same, kept⟩ := evolves.kept row member
    have identical : other = row' :=
      List.inj_on_of_nodup_map ended.keyed.attempts present member' (same.trans named.symm)
    rwa [← identical]
  constructor
  · exact fun row member row' member' named => (keeps row member row' member' named).terminal
  · exact fun row member => (ended.sound row member).evidence
  · exact fun row member => (ended.sound row member).cancelled
  · exact fun row member row' member' named => (keeps row member row' member' named).cancel
  · intro row member row' member' named workerId owned
    have owned' := (keeps row member row' member' named).worker workerId owned
    refine ⟨owned', fun queued => ?_⟩
    have idle := ((ended.sound row' member').idle (.inr queued)).1
    rw [owned'] at idle
    cases idle
  · exact ended.slots
  · exact evolves.fenced

section

def queuedEntry : Entry where
  experimentId := "experiment-1"
  attemptId := "attempt-1"
  runId := "run-1"
  spec := { digest := "spec", dispatchBundleDigest := "bundle" }

def cancelledReading : Reading where
  row := {
    attemptId := "attempt-1"
    experimentId := "experiment-1"
    runId := "run-1"
    status := .cancelled
    ingestionStatus := .notRequired }
  spec := queuedEntry.spec

def cancelledSystem : System where
  queue := {
    attempts := [cancelledReading.row]
    experiments := [{
      experimentId := "experiment-1", spec := queuedEntry.spec, status := .cancelled }] }
  seen := [cancelledReading]

def cancelledActions : List Action := [.enqueue [queuedEntry], .requestCancel "run-1", .read]

theorem cancelledActions_after : System.after {} cancelledActions = some cancelledSystem := by
  decide

/-- Collecting a run that was cancelled in the queue makes its status `UNKNOWN`. -/
theorem controller_queue_reopened : ¬ ∀ (earlier later : List Action) (before after : System),
    System.after {} earlier = some before → before.after later = some after →
      before.queue.Safe after.queue := by
  intro safe
  have ran : ∃ after, cancelledSystem.after
      [.unreachable cancelledReading "worker registration is unavailable"] = some after ∧
      ∃ row ∈ after.queue.attempts, row.attemptId = "attempt-1" ∧
        row.terminalReceipt = none ∧ row.recovery = none ∧ row.status = .unknown :=
    ⟨_, rfl, _, List.mem_cons_self, rfl, rfl, rfl, rfl⟩
  obtain ⟨after, continued, row, member, named, openEnd, unfenced, status⟩ := ran
  have kept := (safe _ _ _ after cancelledActions_after continued).cancel cancelledReading.row
    List.mem_cons_self row member named (.inr rfl) openEnd unfenced
  rw [status] at kept
  cases kept

def queuedReading : Reading where
  row := { attemptId := "attempt-1", experimentId := "experiment-1", runId := "run-1" }
  spec := queuedEntry.spec

def assignedReading : Reading where
  row := { queuedReading.row with workerId := some "worker-1", status := .assigned }
  spec := queuedEntry.spec

def startedActions : List Action :=
  [.enqueue [queuedEntry], .read, .choose queuedReading "worker-1",
    .assign "attempt-1" "worker-1", .read]

def workerReceipt (state : ReceiptState) : Receipt where
  attemptId := some "attempt-1"
  runId := some "run-1"
  experimentId := some "experiment-1"
  workerId := some "worker-1"
  specDigest := some "spec"
  bundleDigest := some "bundle"
  state := some state

def endedActions : List Action :=
  [.requestCancel "run-1", .reconcile assignedReading (workerReceipt .complete)]

theorem controller_queue_safe_started : ∃ before after,
    System.after {} startedActions = some before ∧ before.after endedActions = some after ∧
      before.queue.Safe after.queue :=
  ⟨_, _, rfl, rfl, @controller_queue_safe startedActions endedActions _ _ (by decide) rfl rfl⟩

end

end SparseLab.Workers
