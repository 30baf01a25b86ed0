import SparseLab.Checkpoints.Resumption
import SparseLab.Checkpoints.RetainedGenerations

/-! When a crash leaves a root that later managers recover. -/

namespace SparseLab.Checkpoints

open Library

def AnySave (_ : List CheckpointRecord) (_ : Snapshot) : Prop :=
  True

inductive Saved (settings : Settings) (first : CheckpointRoot)
    (held : Option (List CheckpointRecord)) :
    CheckpointRoot → Option (List CheckpointRecord) → Prop
  | start : Saved settings first held first held
  | save {root memory} (earlier : Saved settings first held root memory) (snapshot : Snapshot)
      (record kept)
      (ended : ((save settings false memory snapshot).run root).2 = .ok (record, kept)) :
      Saved settings first held
        (performAll root ((save settings false memory snapshot).run root).1) (some kept)

def KeepsSaving (settings : Settings) (root : CheckpointRoot)
    (memory : Option (List CheckpointRecord)) : Prop :=
  ∀ later held, Saved settings root memory later held → ∀ snapshot,
    Admitted settings later snapshot →
      Returns (save settings false held snapshot) later fun _ _ => True

def Newest (root : CheckpointRoot) (record : CheckpointRecord) : Prop :=
  Intact root record ∧ ∀ other, Intact root other → other.place ≤ record.place

structure Pointed (root : CheckpointRoot) (latest : Option CheckpointRecord)
    (after : CheckpointRoot) : Prop where
  pointer : after.latest = latest
  newest : ∀ record, latest = some record →
    Intact after record ∧ ∀ other ∈ root.finalized, other.place ≤ record.place
  nothing : latest = none → root.finalized = []
  bestPointer : after.best = best (order root.verifiedRecords)
  best : ∀ record, after.best = some record → Intact after record
  previous : ∀ record, (order root.verifiedRecords).dropLast.getLast? = some record →
    Intact after record

structure Recovers (settings : Settings) (root : CheckpointRoot) : Prop where
  reconciles : ∀ keepPeriodic, Returns (reconcile settings keepPeriodic) root fun value after =>
    Pointed root value.1 after ∧ KeepsSaving settings after (some value.2)
  resumes : ∀ policy newest, settings.retention = some policy → Newest root newest →
    Returns (reconcile settings true) root fun _ after => ∃ rows,
      inheritedMilestones after.retention policy newest.step newest.tokensSeen = .ok rows ∧
        ∀ child : Settings, child.retention = some policy → child.inherited = rows →
          KeepsSaving child .empty none

/-- What a retention policy needs of the root: no partly removed generation, room for what is
there, and a report that names every milestone the newest generation reached. -/
structure Recoverable (settings : Settings) (policy : CheckpointRetention)
    (root : CheckpointRoot) : Prop where
  whole : ∀ directory ∈ root.directories, directory.verified = true
  fit : ∀ row ∈ settings.inherited, row.fullDirectoryBytes ≤ policy.maxGenerationBytes
  peak : footprint settings root ≤ policy.maxPeakBytes
  named : ∀ newest, Newest root newest →
    Named root.retention policy newest.step newest.tokensSeen

section

variable {settings : Settings} {keepPeriodic : Bool} {root after : CheckpointRoot}

theorem empty_reconcile_returns {report : Option Report}
    (plans : planned settings .empty [] = .ok report) :
    Returns (reconcile settings false) .empty fun value after => after = .empty ∧ value.2 = [] := by
  unfold reconcile
  refine returns_bind (returns_look ?_)
  rw [if_neg (by simp [CheckpointRoot.rejected, CheckpointRoot.empty])]
  have nothing : CheckpointRoot.empty.verifiedRecords = [] := rfl
  rw [nothing]
  unfold project
  refine returns_bind (returns_look (returns_bind ?_))
  have ordered : order [] = [] := rfl
  rw [ordered, plans]
  refine returns_pure ?_
  exact returns_bind (returns_emitAll (returns_pure ⟨rfl, rfl⟩))

theorem first_save_returns {snapshot : Snapshot} (fit : InheritedFit settings)
    (admitted : Admitted settings .empty snapshot) :
    Returns (save settings false none snapshot) .empty fun _ _ => True := by
  have sound : Sound settings .empty := Sound.empty
  have remembers : Remembers .empty [] := ⟨List.nodup_nil, by simp [Intact, CheckpointRoot.empty]⟩
  obtain ⟨report, plans⟩ := sound.planned_ok remembers fit (by
    intro policy declared
    have write := admitted.write policy declared
    unfold admitWrite at write
    dsimp only at write
    split at write
    · cases write
    · omega)
  unfold save
  refine returns_bind (returns_bind ((empty_reconcile_returns plans).mono ?_))
  rintro ⟨_, _⟩ after ⟨rfl, rfl⟩
  exact returns_pure (saveKnown_returns sound remembers fit admitted)

theorem keepsSaving {memory : Option (List CheckpointRecord)} (sound : Sound settings root)
    (fit : InheritedFit settings)
    (known : ∀ records, memory = some records → Remembers root records)
    (start : memory = none → root = .empty) : KeepsSaving settings root memory := by
  intro later held saved
  have reached : Sound settings later ∧
      (∀ records, held = some records → Remembers later records) ∧
        (held = none → later = .empty) := by
    induction saved with
    | start => exact ⟨sound, known, start⟩
    | @save later memory _ snapshot record kept ended ih =>
      obtain ⟨sound', known', _⟩ := ih
      have saves := @Closed.save settings AnySave (Sound settings) (Sound.closed AnySave) false
        later snapshot memory sound' known' trivial
      obtain ⟨after, left, _⟩ := saves.done _ ended
      refine ⟨after, ?_, by simp⟩
      rintro _ ⟨⟩
      exact left
  obtain ⟨sound', known', start'⟩ := reached
  intro snapshot admitted
  cases held with
  | none =>
    have same := start' rfl
    subst same
    exact first_save_returns fit admitted
  | some records =>
    unfold save
    exact returns_bind (returns_pure (saveKnown_returns sound' (known' records rfl) fit admitted))

theorem pointed {latest : Option CheckpointRecord} {kept : List CheckpointRecord}
    (sound : Sound settings root)
    (projected : Projected settings root (order root.verifiedRecords) latest kept after) :
    Pointed root latest after := by
  have remembers := sound.remembered.order
  have stays : ∀ record, ((order root.verifiedRecords).getLast? = some record ∨
      (order root.verifiedRecords).dropLast.getLast? = some record ∨
        best (order root.verifiedRecords) = some record) → Intact after record := by
    intro record pointer
    have there : Intact root record := by
      refine (remembers.intact record).mp ?_
      obtain last | previous | least := pointer
      · exact List.mem_of_getLast? last
      · exact (List.dropLast_sublist _).subset (List.mem_of_getLast? previous)
      · exact List.mem_of_mem_filter (List.argmin_mem least)
    cases projected.projecting with
    | pointers directories _ _ _ => rwa [Intact, directories]
    | pruning report plans _ shrinks _ _ =>
      exact shrinks.intact there (protected_pointers remembers.distinct plans pointer)
  refine ⟨projected.latest, ?_, ?_, projected.best, ?_, ?_⟩
  · rintro record rfl
    have last := projected.newest.symm
    refine ⟨stays record (.inl last), ?_⟩
    intro other member
    obtain ⟨newest, intact, above⟩ := sound.newest other member
    exact above.trans (order_last last ((remembers.intact newest).mpr intact))
  · rintro rfl
    have empty := List.getLast?_eq_none_iff.mp projected.newest.symm
    refine List.eq_nil_iff_forall_not_mem.mpr ?_
    intro other member
    obtain ⟨newest, intact, _⟩ := sound.newest other member
    have listed := (remembers.intact newest).mpr intact
    rw [empty] at listed
    cases listed
  · intro record best
    rw [projected.best] at best
    exact stays record (.inr (.inr best))
  · intro record previous
    exact stays record (.inr (.inl previous))

theorem periodic_retention {value : Option CheckpointRecord × List CheckpointRecord}
    (returned : ((reconcile settings true).run root).2 = .ok value) :
    (performAll root ((reconcile settings true).run root).1).retention = root.retention := by
  have survives : Survives (reconcile settings true) root (fun _ => True) (fun _ _ => True)
      fun _ after => after.retention = root.retention := by
    unfold reconcile
    refine survives_bind (survives_look trivial (survives_ite ?_ ?_))
    · intro _
      exact survives_bind (survives_emit trivial trivial (survives_raise trivial trivial))
    · intro _
      unfold project
      refine survives_bind (survives_look trivial (survives_bind ?_))
      refine retentionCheck_survives trivial (fun _ _ => ⟨trivial, trivial⟩) ?_
      intro report plans
      split
      · exact survives_bind (survives_emitAll (fun _ => trivial) (survives_pure trivial rfl))
      · refine survives_bind (survives_emitAll (fun _ => trivial) ?_)
        rw [if_pos rfl]
        exact survives_pure trivial rfl
  exact survives.done value returned

theorem Sound.own_report {policy : CheckpointRetention} (sound : Sound settings root)
    (declared : settings.retention = some policy) {report : Report}
    (current : root.retention = some report) :
    report.policy = policy ∧ Apart report.retained := by
  have reported := sound.reported report current
  have same := reported.declared
  rw [declared, Option.some.injEq] at same
  exact ⟨same.symm, reported.apart⟩

theorem recoverable_of_recovers {policy : CheckpointRetention} (sound : Sound settings root)
    (declared : settings.retention = some policy) (recovers : Recovers settings root) :
    Recoverable settings policy root := by
  obtain ⟨value, returned, _⟩ := recovers.reconciles true
  obtain ⟨whole, report, plans⟩ := reconcile_checks returned
  rw [sound.planned_eq sound.remembered declared] at plans
  split at plans
  · cases plans
  · rename_i fit
    split at plans
    · cases plans
    · rename_i peak
      refine ⟨?_, ?_, Nat.not_lt.mp peak, ?_⟩
      · simpa [declared, CheckpointRoot.rejected] using whole
      · intro row member
        exact Nat.not_lt.mp fun large => fit ⟨row, member, large⟩
      · intro newest isNewest
        obtain ⟨value', returned', rows, selected, _⟩ :=
          recovers.resumes policy newest declared isNewest
        rw [periodic_retention returned'] at selected
        exact (inheritedMilestones_ok_iff fun _ => sound.own_report declared).mp ⟨rows, selected⟩

theorem recovers_of_recoverable (sound : Sound settings root)
    (recoverable : ∀ policy, settings.retention = some policy →
      Recoverable settings policy root) :
    Recovers settings root := by
  have fit : InheritedFit settings := fun policy declared => (recoverable policy declared).fit
  have whole : ¬ (settings.retention.isSome ∧ root.rejected) := by
    rintro ⟨some, rejected⟩
    obtain ⟨policy, declared⟩ := Option.isSome_iff_exists.mp some
    obtain ⟨directory, inside, broken⟩ := List.any_eq_true.mp rejected
    simp [(recoverable policy declared).whole directory inside] at broken
  obtain ⟨report, plans⟩ := sound.planned_ok sound.remembered fit fun policy declared =>
    (recoverable policy declared).peak
  have reconciles : ∀ keepPeriodic, Returns (reconcile settings keepPeriodic) root fun value after =>
      Projected settings root (order root.verifiedRecords) value.1 value.2 after :=
    fun keepPeriodic => reconcile_returns whole plans
  refine ⟨?_, ?_⟩
  · intro keepPeriodic
    refine (reconciles keepPeriodic).mono ?_
    intro value after projected
    refine ⟨pointed sound projected, ?_⟩
    refine keepsSaving (sound.project sound.remembered projected.projecting) fit ?_ (by simp)
    rintro _ ⟨⟩
    exact projected.remembers sound.remembered
  · intro policy newest declared isNewest
    obtain ⟨value, returned, _⟩ := reconciles true
    refine ⟨value, returned, ?_⟩
    have named := (recoverable policy declared).named newest isNewest
    rw [← inheritedMilestones_ok_iff fun _ => sound.own_report declared] at named
    obtain ⟨rows, selected⟩ := named
    dsimp only
    rw [periodic_retention returned]
    refine ⟨rows, selected, ?_⟩
    intro child declared' inherits
    refine keepsSaving Sound.empty ?_ (by simp) (fun _ => rfl)
    intro policy' same
    rw [declared', Option.some.injEq] at same
    subst same
    rw [inherits]
    refine inheritedMilestones_small ?_ selected
    intro evidence current row member
    have reported := sound.reported evidence current
    have equal := (sound.own_report declared current).1
    rw [← equal]
    exact reported.small row member

/-- Recovery works exactly where a retention policy finds the root recoverable. -/
theorem recovers_iff {memory : Option (List CheckpointRecord)}
    (reached : Reached settings AnySave .empty root memory) :
    Recovers settings root ↔
      ∀ policy, settings.retention = some policy → Recoverable settings policy root := by
  have sound : Sound settings root := ((Sound.closed AnySave).reached Sound.empty reached).1
  constructor
  · intro recovers policy declared
    exact recoverable_of_recovers sound declared recovers
  · intro recoverable
    exact recovers_of_recoverable sound recoverable

end

def partlyPruned : CheckpointRoot :=
  sampleSave (sampleSave (sampleSave .empty 1 9) 2 10) 3 11

def unreported : CheckpointRoot :=
  sampleSave (sampleSave .empty 1 9) 2 7

theorem partlyPruned_reached : Reached sampleSettings AnySave .empty partlyPruned none :=
  sampleSave_reached (sampleSave_reached (sampleSave_reached .start 1 9 trivial) 2 10 trivial)
    3 11 trivial

theorem unreported_reached : Reached sampleSettings AnySave .empty unreported none :=
  sampleSave_reached (sampleSave_reached .start 1 9 trivial) 2 7 trivial

theorem recovers_iff_partlyPruned :
    Recovers sampleSettings partlyPruned ↔
      ∀ policy, sampleSettings.retention = some policy →
        Recoverable sampleSettings policy partlyPruned :=
  recovers_iff partlyPruned_reached

theorem recovers_broken :
    (Reached sampleSettings AnySave .empty partlyPruned none ∧
      ¬ Recovers sampleSettings partlyPruned) ∧
    (Reached sampleSettings AnySave .empty unreported none ∧
      ¬ Recovers sampleSettings unreported) := by
  refine ⟨⟨partlyPruned_reached, ?_⟩, unreported_reached, ?_⟩
  · intro recovers
    obtain ⟨value, returned, _⟩ := recovers.reconciles true
    have refused : ((reconcile sampleSettings true).run partlyPruned).2 =
        .error "retention refuses unverified checkpoint generations" := by
      decide +kernel
    rw [refused] at returned
    cases returned
  · intro recovers
    have newest : Newest unreported ((sampleSnapshot 2).record 2) := by
      refine ⟨mem_verifiedRecords.mp (by decide +kernel), ?_⟩
      intro other intact
      have below : ∀ record ∈ unreported.verifiedRecords,
          record.place ≤ ((sampleSnapshot 2).record 2).place := by
        decide +kernel
      exact below other (mem_verifiedRecords.mpr intact)
    obtain ⟨value, returned, rows, selected, _⟩ := recovers.resumes _ _ rfl newest
    rw [periodic_retention returned] at selected
    have refused : inheritedMilestones unreported.retention sampleRetention
        ((sampleSnapshot 2).record 2).step ((sampleSnapshot 2).record 2).tokensSeen =
          .error "resume lacks a milestone at or before selected checkpoint" := by
      decide +kernel
    rw [refused] at selected
    cases selected

end SparseLab.Checkpoints
