import Mathlib.Data.List.Find
import SparseLab.Workers.QueueChanges
import SparseLab.Workers.Ticks

/-! What the routines of a tick leave alone, with and without one attempt. -/

namespace SparseLab.Workers.Ticks

open Library Workers.Queue

def Plain (row row' : Attempt) : Prop := row' = { row with queuedReason := row'.queuedReason }

structure Victim where
  name : String
  run : String
  specs : String → Option Spec

structure Aside (victim : Victim) (own : Attempt → Prop) (queue queue' : Queue) : Prop where
  rows : List.Forall₂ Plain (queue.attempts.filter (·.attemptId ≠ victim.name)) queue'.attempts
  specs : queue.specOf = victim.specs
  specs' : queue'.specOf = victim.specs
  runs : ∀ row ∈ queue.attempts, (row.runId = victim.run ↔ row.attemptId = victim.name)
  own : ∀ row ∈ queue.attempts, row.attemptId = victim.name → own row
  present : ∃ row ∈ queue.attempts, row.attemptId = victim.name
  unique : (queue.attempts.map (·.attemptId)).Nodup

structure Apart (victim : Victim) (own : Attempt → Prop) (desk desk' : Desk) : Prop where
  queue : Aside victim own desk.queue desk'.queue
  sent : desk'.sent = desk.sent.filter (·.attemptId ≠ victim.name)

section

variable {victim : Victim} {own own' : Attempt → Prop} {name run other : String}
  {queue queue' : Queue} {held : String → Prop}

/-- A write leaves the names of a row alone, and gives it to no worker but those of `held`. -/
def Names (held : String → Prop) (write : Attempt → Attempt) : Prop :=
  ∀ row, (write row).attemptId = row.attemptId ∧ (write row).runId = row.runId ∧
    (write row).experimentId = row.experimentId ∧
      ∀ workerId, (write row).workerId = some workerId → row.workerId = some workerId ∨ held workerId

def Rewrites (held : String → Prop) (name : String) (queue after : Queue) : Prop :=
  ∃ write : Attempt → Attempt, Names held write ∧
      after.attempts = queue.attempts.map
        (fun row => if row.attemptId = name then write row else row) ∧
      after.specOf = queue.specOf

theorem Rewrites.refl (name : String) (queue : Queue) : Rewrites held name queue queue :=
  ⟨id, fun _ => ⟨rfl, rfl, rfl, fun _ => .inl⟩, by simp, rfl⟩

theorem rewrites_update {write : Attempt → Attempt} (names : Names held write) :
    Rewrites held name queue (queue.update name write) :=
  ⟨write, names, rfl, rfl⟩

theorem Rewrites.mirror {after : Queue} (rewrites : Rewrites held name queue after)
    (status : QueueStatus) : Rewrites held name queue (after.mirror other status) := by
  obtain ⟨write, names, attempts, specs⟩ := rewrites
  exact ⟨write, names, attempts, by rw [mirror_specOf, specs]⟩

theorem Names.ite {write : Attempt → Attempt} (names : Names held write) (name : String) :
    Names held fun row => if row.attemptId = name then write row else row := by
  intro row
  dsimp only
  split
  next => exact names row
  next => exact ⟨rfl, rfl, rfl, fun _ => .inl⟩

theorem filter_written {write : Attempt → Attempt} (names : Names held write) (name : String)
    (rows : List Attempt) : (rows.map write).filter (·.attemptId ≠ name) =
      (rows.filter (·.attemptId ≠ name)).map write := by
  rw [List.filter_map]
  congr 2
  funext row
  rw [Function.comp_apply, (names row).1]

theorem map_names {write : Attempt → Attempt} (names : Names held write) (rows : List Attempt) :
    (rows.map write).map (·.attemptId) = rows.map (·.attemptId) := by
  rw [List.map_map]
  exact List.map_congr_left fun row _ => (names row).1

theorem Aside.rewritten {after : Queue} (aside : Aside victim own queue queue')
    {write : Attempt → Attempt} (names : Names held write)
    (attempts : after.attempts = queue.attempts.map fun row =>
      if row.attemptId = victim.name then write row else row)
    (specs : after.specOf = queue.specOf) (owned : ∀ row, own row → own' (write row)) :
    Aside victim own' after queue' := by
  have named := names.ite victim.name
  constructor
  · rw [attempts, filter_written named]
    have others : (queue.attempts.filter (·.attemptId ≠ victim.name)).map
        (fun row => if row.attemptId = victim.name then write row else row) =
          queue.attempts.filter (·.attemptId ≠ victim.name) := by
      refine (List.map_congr_left ?_).trans (List.map_id _)
      intro row member
      have different := (List.mem_filter.mp member).2
      rw [if_neg (by simpa using different), id]
    rw [others]
    exact aside.rows
  · rw [specs, aside.specs]
  · exact aside.specs'
  · intro row member
    rw [attempts] at member
    obtain ⟨earlier, present, rfl⟩ := List.mem_map.mp member
    rw [(named earlier).1, (named earlier).2.1]
    exact aside.runs earlier present
  · intro row member same
    rw [attempts] at member
    obtain ⟨earlier, present, rfl⟩ := List.mem_map.mp member
    rw [(named earlier).1] at same
    rw [if_pos same]
    exact owned earlier (aside.own earlier present same)
  · obtain ⟨row, member, same⟩ := aside.present
    refine ⟨_, attempts ▸ List.mem_map_of_mem member, ?_⟩
    rw [(named row).1, same]
  · rw [attempts, map_names named]
    exact aside.unique

theorem Aside.mono (aside : Aside victim own queue queue') (weaken : ∀ row, own row → own' row) :
    Aside victim own' queue queue' :=
  { aside with own := fun row member same => weaken row (aside.own row member same) }

theorem rewrites_transact {α : Type} {body : QueueTransaction α}
    (commits : Commits body queue fun _ => Rewrites held name queue) :
    Rewrites held name queue (transact body queue).2 :=
  transact_related commits (.refl name queue)

theorem rewrites_assign {workerId : String} (holds : held workerId) :
    Rewrites held name queue (transact (assign name workerId) queue).2 := by
  refine rewrites_transact ?_
  simp only [assign, commits_bind, commits_get, commits_ite, commits_set, commits_pure]
  refine ⟨fun _ => (rewrites_update fun row => ?_).mirror _, fun _ => .refl name queue⟩
  split
  · exact ⟨rfl, rfl, rfl, fun _ same => .inr (Option.some.inj same ▸ holds)⟩
  · exact ⟨rfl, rfl, rfl, fun _ => .inl⟩

theorem rewrites_setQueuedReason (reason : Option String) :
    Rewrites held name queue (transact (setQueuedReason name reason) queue).2 := by
  refine rewrites_transact ?_
  simp only [setQueuedReason, commits_bind, commits_get, commits_set]
  refine rewrites_update fun row => ?_
  split <;> exact ⟨rfl, rfl, rfl, fun _ => .inl⟩

theorem received_names (receipt : Receipt) (status : QueueStatus) :
    Names held (received receipt status) := by
  intro row
  unfold received
  split <;> exact ⟨rfl, rfl, rfl, fun _ => .inl⟩

theorem rewrites_setReceipt (receipt : Receipt) (status : QueueStatus) :
    Rewrites held name queue (transact (setReceipt name receipt status) queue).2 := by
  refine rewrites_transact ?_
  simp only [setReceipt, commits_bind, commits_get, commits_raiseIfNone, commits_ite, commits_set,
    commits_pure]
  intro row found
  refine ⟨fun _ => ⟨fun _ => rewrites_update fun _ => ⟨rfl, rfl, rfl, fun _ => .inl⟩, fun _ => .refl name queue⟩,
    fun _ => ⟨fun _ => .refl name queue, fun _ => ?_⟩⟩
  exact (rewrites_update (received_names receipt _)).mirror _

theorem rewrites_markUnknown (reason : String) :
    Rewrites held name queue (transact (markUnknownIfNonterminal name reason) queue).2 := by
  refine rewrites_transact ?_
  simp only [markUnknownIfNonterminal, commits_bind, commits_get, commits_raiseIfNone, commits_ite,
    commits_set, commits_pure]
  intro row found
  refine ⟨fun _ => .refl name queue, fun _ => .mirror (rewrites_update fun _ => ?_) _⟩
  exact ⟨rfl, rfl, rfl, fun _ => .inl⟩

theorem rewrites_notRequired :
    Rewrites held name queue (transact (markIngestionNotRequired name) queue).2 := by
  refine rewrites_transact ?_
  simp only [markIngestionNotRequired, commits_bind, commits_get, commits_set]
  refine rewrites_update fun row => ?_
  split <;> exact ⟨rfl, rfl, rfl, fun _ => .inl⟩

theorem rewrites_complete :
    Rewrites held name queue (transact (markIngestionComplete name) queue).2 := by
  refine rewrites_transact ?_
  simp only [markIngestionComplete, commits_bind, commits_get, commits_raiseIf, commits_set]
  refine fun _ => rewrites_update fun row => ?_
  split <;> exact ⟨rfl, rfl, rfl, fun _ => .inl⟩

theorem rewrites_ingestionError (message : String) :
    Rewrites held name queue (transact (markIngestionError name message) queue).2 := by
  refine rewrites_transact ?_
  simp only [markIngestionError, commits_bind, commits_get, commits_set]
  refine rewrites_update fun row => ?_
  split <;> exact ⟨rfl, rfl, rfl, fun _ => .inl⟩

theorem rewrites_requestCancel
    (runs : ∀ row ∈ queue.attempts, (row.runId = run ↔ row.attemptId = name)) :
    Rewrites held name queue (transact (requestCancel run) queue).2 := by
  refine rewrites_transact ?_
  simp only [requestCancel, commits_bind, commits_get, commits_raiseIfNone, commits_ite,
    commits_set, commits_pure]
  intro row found
  have named : row.attemptId = name :=
    (runs row (List.mem_of_find?_eq_some found)).mp (by simpa using List.find?_some found)
  rw [named]
  refine ⟨fun _ => .mirror (rewrites_update fun _ => ?_) _,
    fun _ => .mirror (rewrites_update fun _ => ?_) _⟩
  · exact ⟨rfl, rfl, rfl, fun _ => .inl⟩
  · exact ⟨rfl, rfl, rfl, fun _ => .inl⟩

theorem Plain.eq {row row' : Attempt} (plain : Plain row row') :
    ∃ reason, row' = { row with queuedReason := reason } := ⟨_, plain⟩

theorem Plain.names {row row' : Attempt} (plain : Plain row row') :
    row'.attemptId = row.attemptId ∧ row'.runId = row.runId := by
  obtain ⟨reason, rfl⟩ := plain.eq
  exact ⟨rfl, rfl⟩

theorem find?_related {α : Type} {related : α → α → Prop} (test : α → Bool)
    {values values' : List α} (each : List.Forall₂ related values values')
    (same : ∀ value value', related value value' → test value' = test value) :
    (values.find? test = none ∧ values'.find? test = none) ∨
      ∃ value value', values.find? test = some value ∧ values'.find? test = some value' ∧
        related value value' := by
  induction each with
  | nil => exact .inl ⟨rfl, rfl⟩
  | @cons value value' _ _ holds _ ih =>
    rw [List.find?_cons, List.find?_cons, same value value' holds]
    cases test value with
    | true => exact .inr ⟨value, value', rfl, rfl, holds⟩
    | false => exact ih

theorem find?_filter {α : Type} {test keep : α → Bool} {values : List α}
    (kept : ∀ value ∈ values, test value = true → keep value = true) :
    (values.filter keep).find? test = values.find? test := by
  rw [List.find?_filter]
  refine List.find?_congr fun value member => ?_
  cases passes : test value with
  | true => simp [kept value member passes]
  | false => simp

theorem Aside.find (aside : Aside victim own queue queue') (different : other ≠ victim.name) :
    (queue.find other = none ∧ queue'.find other = none) ∨
      ∃ row reason, queue.find other = some row ∧
        queue'.find other = some { row with queuedReason := reason } := by
  have found := find?_related (fun row : Attempt => decide (row.attemptId = other)) aside.rows
    fun row row' plain => by rw [plain.names.1]
  rw [find?_filter] at found
  · obtain absent | ⟨row, row', stored, stored', plain⟩ := found
    · exact .inl absent
    · obtain ⟨reason, rfl⟩ := plain.eq
      exact .inr ⟨row, reason, stored, stored'⟩
  · intro row _ named
    simp only [decide_eq_true_eq] at named ⊢
    rwa [named]

theorem Aside.byRun (aside : Aside victim own queue queue') {otherRun : String}
    (different : otherRun ≠ victim.run) :
    (queue.byRun otherRun = none ∧ queue'.byRun otherRun = none) ∨
      ∃ row reason, queue.byRun otherRun = some row ∧
        queue'.byRun otherRun = some { row with queuedReason := reason } := by
  have found := find?_related (fun row : Attempt => decide (row.runId = otherRun)) aside.rows
    fun row row' plain => by rw [plain.names.2]
  rw [find?_filter] at found
  · obtain absent | ⟨row, row', stored, stored', plain⟩ := found
    · exact .inl absent
    · obtain ⟨reason, rfl⟩ := plain.eq
      exact .inr ⟨row, reason, stored, stored'⟩
  · intro row member named
    simp only [decide_eq_true_eq] at named ⊢
    exact fun same => different (named.symm.trans ((aside.runs row member).mpr same))

theorem exists_related {α : Type} {related : α → α → Prop} (test : α → Prop)
    {values values' : List α} (each : List.Forall₂ related values values')
    (same : ∀ value value', related value value' → (test value' ↔ test value)) :
    (∃ value ∈ values', test value) ↔ ∃ value ∈ values, test value := by
  induction each with
  | nil => rfl
  | cons holds _ ih => simp [same _ _ holds, ih]

theorem Aside.update (aside : Aside victim own queue queue') (different : other ≠ victim.name)
    {write write' : Attempt → Attempt} (names : Names (fun _ => True) write)
    (same : ∀ row row', Plain row row' → Plain (write row) (write' row')) :
    Aside victim own (queue.update other write) (queue'.update other write') := by
  have named := names.ite other
  constructor
  · rw [update_attempts, update_attempts, filter_written named, List.forall₂_map_left_iff,
      List.forall₂_map_right_iff]
    refine aside.rows.imp ?_
    intro row row' plain
    rw [plain.names.1]
    split
    next => exact same row row' plain
    next => exact plain
  · exact aside.specs
  · exact aside.specs'
  · intro row member
    obtain ⟨earlier, present, rfl⟩ := List.mem_map.mp member
    rw [(named earlier).1, (named earlier).2.1]
    exact aside.runs earlier present
  · intro row member named'
    obtain ⟨earlier, present, rfl⟩ := List.mem_map.mp member
    rw [(named earlier).1] at named'
    have kept : earlier.attemptId ≠ other := fun same => different (same.symm.trans named')
    rw [if_neg kept]
    exact aside.own earlier present named'
  · obtain ⟨row, member, same⟩ := aside.present
    refine ⟨_, List.mem_map_of_mem member, ?_⟩
    rw [(named row).1, same]
  · rw [update_attempts, map_names named]
    exact aside.unique

theorem Aside.mirror (aside : Aside victim own queue queue') (first second : String)
    (status status' : QueueStatus) :
    Aside victim own (queue.mirror first status) (queue'.mirror second status') :=
  { aside with
    specs := by rw [mirror_specOf, aside.specs]
    specs' := by rw [mirror_specOf, aside.specs'] }

def Uniform {α : Type} (victim : Victim) (body : QueueTransaction α) : Prop :=
  ∀ own queue queue', Aside victim own queue queue' →
    (transact body queue').1 = (transact body queue).1 ∧
      Aside victim own (transact body queue).2 (transact body queue').2

theorem plain_ite {condition condition' : Prop} [Decidable condition] [Decidable condition']
    {yes yes' no no' : Attempt} (same : condition' ↔ condition) (whenTrue : Plain yes yes')
    (whenFalse : Plain no no') :
    Plain (if condition then yes else no) (if condition' then yes' else no') := by
  by_cases holds : condition
  · rw [if_pos holds, if_pos (same.mpr holds)]
    exact whenTrue
  · rw [if_neg holds, if_neg fun holds' => holds (same.mp holds')]
    exact whenFalse

theorem received_plain {receipt : Receipt} {status : QueueStatus} {row row' : Attempt}
    (plain : Plain row row') : Plain (received receipt status row) (received receipt status row') := by
  obtain ⟨reason, rfl⟩ := plain.eq
  unfold received
  split <;> rfl

variable (different : other ≠ victim.name)

include different

theorem aside_setQueuedReason (aside : Aside victim own queue queue') (reason reason' : Option String) :
    Aside victim own (transact (setQueuedReason other reason) queue).2
      (transact (setQueuedReason other reason') queue').2 := by
  refine aside.update different (fun row => ?_) fun row row' plain => ?_
  · split <;> exact ⟨rfl, rfl, rfl, fun _ => .inl⟩
  · obtain ⟨_, rfl⟩ := plain.eq
    exact plain_ite Iff.rfl rfl rfl

theorem uniform_notRequired : Uniform victim (markIngestionNotRequired other) := by
  intro own queue queue' aside
  unfold markIngestionNotRequired
  simp only [transact_get_bind, transact_set]
  refine ⟨trivial, aside.update different (fun row => ?_) fun row row' plain => ?_⟩
  · split <;> exact ⟨rfl, rfl, rfl, fun _ => .inl⟩
  · obtain ⟨reason, rfl⟩ := plain.eq
    exact plain_ite Iff.rfl rfl rfl

theorem uniform_ingestionError (message : String) :
    Uniform victim (markIngestionError other message) := by
  intro own queue queue' aside
  unfold markIngestionError
  simp only [transact_get_bind, transact_set]
  refine ⟨trivial, aside.update different (fun row => ?_) fun row row' plain => ?_⟩
  · split <;> exact ⟨rfl, rfl, rfl, fun _ => .inl⟩
  · obtain ⟨reason, rfl⟩ := plain.eq
    exact plain_ite Iff.rfl rfl rfl

theorem uniform_assign (workerId : String) : Uniform victim (assign other workerId) := by
  intro own queue queue' aside
  have queued : (∃ row ∈ queue'.attempts, row.attemptId = other ∧ row.status = .queued) ↔
      ∃ row ∈ queue.attempts, row.attemptId = other ∧ row.status = .queued := by
    rw [exists_related _ aside.rows]
    · constructor
      · rintro ⟨row, member, named⟩
        exact ⟨row, (List.mem_filter.mp member).1, named⟩
      · rintro ⟨row, member, named, queued⟩
        refine ⟨row, List.mem_filter.mpr ⟨member, ?_⟩, named, queued⟩
        simpa [named] using different
    · rintro row row' plain
      obtain ⟨reason, rfl⟩ := plain.eq
      rfl
  unfold assign
  simp only [transact_get_bind, transact_ite, queued, transact_set_pure, transact_pure]
  split_ifs
  · refine ⟨rfl, (aside.update different (fun row => ?_)
      fun row row' plain => ?_).mirror _ _ _ _⟩
    · split <;> exact ⟨rfl, rfl, rfl, fun _ _ => .inr trivial⟩
    · obtain ⟨reason, rfl⟩ := plain.eq
      dsimp only
      split <;> rfl
  · exact ⟨rfl, aside⟩

theorem uniform_setReceipt (receipt : Receipt) (status : QueueStatus) :
    Uniform victim (setReceipt other receipt status) := by
  intro own queue queue' aside
  unfold setReceipt
  simp only [transact_get_bind]
  obtain ⟨absent, absent'⟩ | ⟨row, reason, found, found'⟩ := aside.find different
  · rw [absent, absent']
    exact ⟨rfl, aside⟩
  · rw [found, found']
    simp only [transact_some_bind, transact_ite, transact_set, transact_pure]
    by_cases recovered : row.recovery ≠ none
    · rw [if_pos recovered, if_pos recovered]
      by_cases terminal : receipt.Terminal
      · rw [if_pos terminal, if_pos terminal]
        refine ⟨rfl, aside.update different (fun _ => ?_) fun row row' plain => ?_⟩
        · exact ⟨rfl, rfl, rfl, fun _ => .inl⟩
        · obtain ⟨reason, rfl⟩ := plain.eq
          rfl
      · rw [if_neg terminal, if_neg terminal]
        exact ⟨rfl, aside⟩
    · rw [if_neg recovered, if_neg recovered]
      by_cases ended : row.terminalReceipt ≠ none
      · rw [if_pos ended, if_pos ended]
        exact ⟨rfl, aside⟩
      · rw [if_neg ended, if_neg ended]
        refine ⟨rfl, (aside.update different (received_names receipt _) ?_).mirror _ _ _ _⟩
        exact fun _ _ => received_plain

theorem uniform_markUnknown (reason : String) :
    Uniform victim (markUnknownIfNonterminal other reason) := by
  intro own queue queue' aside
  unfold markUnknownIfNonterminal
  simp only [transact_get_bind]
  obtain ⟨absent, absent'⟩ | ⟨row, reason, found, found'⟩ := aside.find different
  · rw [absent, absent']
    exact ⟨rfl, aside⟩
  · rw [found, found']
    simp only [transact_some_bind, transact_ite, transact_set, transact_pure]
    by_cases ended : row.terminalReceipt ≠ none
    · rw [if_pos ended, if_pos ended]
      exact ⟨rfl, aside⟩
    · rw [if_neg ended, if_neg ended]
      refine ⟨rfl, .mirror (aside.update different (fun _ => ?_) fun row row' plain => ?_) ..⟩
      · exact ⟨rfl, rfl, rfl, fun _ => .inl⟩
      · obtain ⟨reason, rfl⟩ := plain.eq
        rfl

theorem uniform_complete : Uniform victim (markIngestionComplete other) := by
  intro own queue queue' aside
  unfold markIngestionComplete
  simp only [transact_get_bind, transact_raiseIf_bind, transact_set]
  have conflict : (∃ row ∈ queue'.find other, conflicted row.ingestionError) ↔
      ∃ row ∈ queue.find other, conflicted row.ingestionError := by
    obtain ⟨absent, absent'⟩ | ⟨row, reason, found, found'⟩ := aside.find different
    · simp [absent, absent']
    · simp [found, found']
  simp only [conflict]
  split_ifs
  · exact ⟨rfl, aside⟩
  · refine ⟨rfl, aside.update different (fun row => ?_) fun row row' plain => ?_⟩
    · split <;> exact ⟨rfl, rfl, rfl, fun _ => .inl⟩
    · obtain ⟨reason, rfl⟩ := plain.eq
      exact plain_ite Iff.rfl rfl rfl

omit different

theorem uniform_requestCancel {otherRun : String} (differentRun : otherRun ≠ victim.run) :
    Uniform victim (requestCancel otherRun) := by
  intro own queue queue' aside
  unfold requestCancel
  simp only [transact_get_bind]
  obtain ⟨absent, absent'⟩ | ⟨row, reason, found, found'⟩ := aside.byRun differentRun
  · rw [absent, absent']
    exact ⟨rfl, aside⟩
  · rw [found, found']
    have different : row.attemptId ≠ victim.name := by
      intro same
      have named := (aside.runs row (List.mem_of_find?_eq_some found)).mpr same
      exact differentRun ((by simpa using List.find?_some found : row.runId = otherRun).symm.trans
        named)
    simp only [transact_some_bind, transact_ite, transact_set_pure]
    by_cases queued : row.status = .queued
    · rw [if_pos queued, if_pos queued]
      refine ⟨rfl, .mirror (aside.update different (fun _ => ?_) fun row row' plain => ?_) ..⟩
      · exact ⟨rfl, rfl, rfl, fun _ => .inl⟩
      · obtain ⟨reason, rfl⟩ := plain.eq
        rfl
    · rw [if_neg queued, if_neg queued]
      refine ⟨rfl, .mirror (aside.update different (fun _ => ?_) fun row row' plain => ?_) ..⟩
      · exact ⟨rfl, rfl, rfl, fun _ => .inl⟩
      · obtain ⟨reason, rfl⟩ := plain.eq
        rfl

end

section

variable {victim : Victim} {own : Attempt → Prop} {other : String} {α : Type} {desk' : Desk}
  {allowed : Fault → Prop}

def OfExperiment (experimentId : String) (held : String → Prop) (row : Attempt) : Prop :=
  row.experimentId = experimentId ∧ ∀ workerId, row.workerId = some workerId → held workerId

abbrev ApartFrom (victim : Victim) (experimentId : String) (held : String → Prop)
    (desk' desk : Desk) : Prop :=
  Apart victim (OfExperiment experimentId held) desk desk'

variable {experimentId : String} {held : String → Prop}

theorem Aside.rewrites {queue queue' after : Queue}
    (aside : Aside victim (OfExperiment experimentId held) queue queue')
    (rewrites : Rewrites held victim.name queue after) :
    Aside victim (OfExperiment experimentId held) after queue' := by
  obtain ⟨write, names, attempts, specs⟩ := rewrites
  refine aside.rewritten names attempts specs fun row owned => ?_
  obtain ⟨_, _, experiment, owners⟩ := names row
  refine ⟨experiment.trans owned.1, fun workerId given => ?_⟩
  exact (owners workerId given).elim (owned.2 workerId) id

theorem keeps_commit {body : QueueTransaction α}
    (rewrites : ∀ queue,
      (∀ row ∈ queue.attempts, (row.runId = victim.run ↔ row.attemptId = victim.name)) →
        Rewrites held victim.name queue (transact body queue).2)
    (raises : ∀ queue, (∃ row ∈ queue.attempts, row.attemptId = victim.name) →
      (∀ row ∈ queue.attempts, (row.runId = victim.run ↔ row.attemptId = victim.name)) →
        ∀ failure, (transact body queue).1 = .error failure → allowed (.ofStore failure)) :
    Keeps (ApartFrom victim experimentId held desk') allowed (commit body) := by
  intro desk apart
  have written := rewrites desk.queue apart.queue.runs
  have raised := raises desk.queue apart.queue.present apart.queue.runs
  unfold Ends commit
  generalize transact body desk.queue = result at written raised
  obtain ⟨failure | value, queue⟩ := result
  · exact ⟨raised _ rfl, apart.queue.rewrites written, apart.sent⟩
  · exact ⟨apart.queue.rewrites written, apart.sent⟩

theorem keeps_send (workerId : String) (call : Call) :
    Keeps (fun desk => Apart victim own desk desk') allowed (send victim.name workerId call) := by
  intro desk apart
  refine ⟨apart.queue, ?_⟩
  rw [apart.sent]
  simp [List.filter_append]

/-- The routine does the same whatever the desk says of `victim`. -/
abbrev Blind {α : Type} (victim : Victim) (own : Attempt → Prop) (routine : Routine α) : Prop :=
  Alike (Apart victim own) (· = ·) routine routine

theorem alike_commit {body : QueueTransaction α} (uniform : Uniform victim body) :
    Blind victim own (commit body) := by
  intro desk desk' apart
  obtain ⟨same, aside⟩ := uniform own desk.queue desk'.queue apart.queue
  unfold commit
  generalize transact body desk.queue = result at same aside ⊢
  generalize transact body desk'.queue = result' at same aside ⊢
  obtain ⟨outcome, queue⟩ := result
  obtain ⟨outcome', queue'⟩ := result'
  obtain rfl : outcome' = outcome := same
  cases outcome' with
  | ok value => exact .ok rfl ⟨aside, apart.sent⟩
  | error failure => exact .error ⟨aside, apart.sent⟩

theorem alike_send (different : other ≠ victim.name) (workerId : String) (call : Call) :
    Blind victim own (send other workerId call) := by
  intro desk desk' apart
  refine .ok rfl ⟨apart.queue, ?_⟩
  change desk'.sent ++ _ = _
  rw [apart.sent]
  simp [List.filter_append, different]

end

end SparseLab.Workers.Ticks
