import SparseLab.Checkpoints.Reports

/-!
When a child run finds the milestones that its parent reached, and when a manager's calls return.
-/

namespace SparseLab.Checkpoints

open Library

def Named (report : Option Report) (policy : CheckpointRetention) (step tokens : Nat) : Prop :=
  ∀ milestone ∈ policy.milestones, milestone.Reached step tokens →
    ∃ evidence, report = some evidence ∧ ∃ row ∈ evidence.retained,
      .milestone milestone.name ∈ row.roles ∧ row.step ≤ step ∧ row.tokensSeen ≤ tokens

section

variable {evidence : Report} {policy : CheckpointRetention} {step tokens : Nat}

theorem inheritOne_ok_iff {selected : List Row} {milestone : Milestone} :
    (∃ rows, inheritOne evidence step tokens selected milestone = .ok rows) ↔
      milestone ∈ evidence.policy.milestones ∧ ∃ row, (evidence.retained.filter fun row =>
        .milestone milestone.name ∈ row.roles ∧ row.step ≤ step ∧ row.tokensSeen ≤ tokens) = [row] := by
  unfold inheritOne
  by_cases declared : milestone ∈ evidence.policy.milestones
  · rw [if_neg (not_not.mpr declared)]
    simp only [declared, true_and]
    split
    · rename_i row found
      exact iff_of_true ⟨_, rfl⟩ ⟨row, found⟩
    · rename_i other
      constructor
      · rintro ⟨_, ⟨⟩⟩
      · rintro ⟨row, found⟩
        exact absurd found (other row)
  · rw [if_pos declared]
    simp [declared]

theorem foldlM_inheritOne_iff {todo : List Milestone} {selected : List Row} :
    (∃ rows, todo.foldlM (inheritOne evidence step tokens) selected = .ok rows) ↔
      ∀ milestone ∈ todo, milestone ∈ evidence.policy.milestones ∧
        ∃ row, (evidence.retained.filter fun row =>
          .milestone milestone.name ∈ row.roles ∧ row.step ≤ step ∧ row.tokensSeen ≤ tokens) =
            [row] := by
  induction todo generalizing selected with
  | nil => simp [pure, Except.pure]
  | cons milestone todo ih =>
    rw [List.forall_mem_cons, ← @inheritOne_ok_iff evidence step tokens selected milestone,
      List.foldlM_cons]
    constructor
    · rintro ⟨rows, all⟩
      obtain ⟨selected', one, rest⟩ := bind_eq_ok all
      exact ⟨⟨selected', one⟩, ih.mp ⟨rows, rest⟩⟩
    · rintro ⟨⟨selected', one⟩, rest⟩
      obtain ⟨rows, all⟩ := (@ih selected').mpr rest
      refine ⟨rows, ?_⟩
      rw [one]
      exact all

theorem inheritedMilestones_ok_iff {report : Option Report}
    (own : ∀ evidence, report = some evidence → evidence.policy = policy ∧ Apart evidence.retained) :
    (∃ rows, inheritedMilestones report policy step tokens = .ok rows) ↔
      Named report policy step tokens := by
  unfold inheritedMilestones Named
  dsimp only
  split
  · rename_i unreached
    refine iff_of_true ⟨[], rfl⟩ ?_
    intro milestone declared reached
    have member : milestone ∈ policy.milestones.filter (·.Reached step tokens) :=
      List.mem_filter.mpr ⟨declared, decide_eq_true reached⟩
    rw [unreached] at member
    cases member
  · rename_i reached
    cases report with
    | none =>
      refine iff_of_false (by simp) ?_
      intro named
      obtain ⟨milestone, member⟩ := List.exists_mem_of_ne_nil _ reached
      obtain ⟨declared, test⟩ := List.mem_filter.mp member
      obtain ⟨_, ⟨⟩, _⟩ := named milestone declared (of_decide_eq_true test)
    | some evidence =>
      obtain ⟨same, apart⟩ := own evidence rfl
      simp only [foldlM_inheritOne_iff, List.mem_filter, decide_eq_true_eq, and_imp,
        Option.some.injEq, exists_eq_left', same]
      refine forall_congr' fun milestone => forall_congr' fun declared =>
        forall_congr' fun _ => ?_
      constructor
      · rintro ⟨_, row, found⟩
        have member : row ∈ [row] := List.mem_singleton_self row
        rw [← found, List.mem_filter, decide_eq_true_eq] at member
        exact ⟨row, member⟩
      · rintro ⟨row, member, named⟩
        refine ⟨declared, row, filter_eq_singleton ?_ member (decide_eq_true named)⟩
        refine apart.imp ?_
        intro first second disjoint test test'
        exact disjoint milestone.name (of_decide_eq_true test).1 (of_decide_eq_true test').1

theorem inheritOne_small {most : Nat} {selected bound : List Row} {milestone : Milestone}
    (small : ∀ row ∈ evidence.retained, row.fullDirectoryBytes ≤ most)
    (before : ∀ row ∈ selected, row.fullDirectoryBytes ≤ most)
    (one : inheritOne evidence step tokens selected milestone = .ok bound) :
    ∀ row ∈ bound, row.fullDirectoryBytes ≤ most := by
  unfold inheritOne at one
  split at one
  · cases one
  · split at one
    · rename_i row found
      cases one
      have member : row ∈ evidence.retained := by
        have first : row ∈ [row] := List.mem_singleton_self row
        rw [← found] at first
        exact List.mem_of_mem_filter first
      unfold selectRow
      split
      · intro updated inside
        obtain ⟨target, earlier, rfl⟩ := List.mem_map.mp inside
        split <;> exact before target earlier
      · intro target inside
        obtain earlier | new := List.mem_append.mp inside
        · exact before target earlier
        · rw [List.mem_singleton.mp new]
          exact small row member
    · cases one

theorem inheritedMilestones_small {report : Option Report} {most : Nat} {bound : List Row}
    (small : ∀ evidence, report = some evidence → ∀ row ∈ evidence.retained,
      row.fullDirectoryBytes ≤ most)
    (selected : inheritedMilestones report policy step tokens = .ok bound) :
    ∀ row ∈ bound, row.fullDirectoryBytes ≤ most := by
  unfold inheritedMilestones at selected
  dsimp only at selected
  split at selected
  · cases selected
    simp
  · cases report with
    | none => cases selected
    | some evidence =>
      have all : ∀ (todo : List Milestone) (rows : List Row),
          (∀ row ∈ rows, row.fullDirectoryBytes ≤ most) →
          todo.foldlM (inheritOne evidence step tokens) rows = .ok bound →
            ∀ row ∈ bound, row.fullDirectoryBytes ≤ most := by
        intro todo
        induction todo with
        | nil =>
          intro rows before ended
          cases ended
          exact before
        | cons milestone todo ih =>
          intro rows before ended
          rw [List.foldlM_cons] at ended
          obtain ⟨rows', one, rest⟩ := bind_eq_ok ended
          exact ih rows' (inheritOne_small (small evidence rfl) before one) rest
      exact all _ [] (by simp) selected

end

section

variable {settings : Settings} {keepPeriodic : Bool} {root : CheckpointRoot}
  {records : List CheckpointRecord}

theorem project_returns {unordered : List CheckpointRecord} {report : Option Report}
    (plans : planned settings root (order unordered) = .ok report) :
    Returns (project settings keepPeriodic unordered) root fun value =>
      Projected settings root (order unordered) value.1 value.2 := by
  refine Survives.returns (project_survives unordered) (?_ : Returns _ _ fun _ _ => True)
  unfold project
  refine returns_bind (returns_look (returns_bind ?_))
  rw [plans]
  refine returns_pure ?_
  split
  · exact returns_bind (returns_emitAll (returns_pure trivial))
  · refine returns_bind (returns_emitAll ?_)
    split
    · exact returns_pure trivial
    · refine returns_bind (returns_emitAll ?_)
      exact returns_bind (returns_emitAll (returns_pure trivial))

theorem reconcile_returns {report : Option Report}
    (whole : ¬ (settings.retention.isSome ∧ root.rejected))
    (plans : planned settings root (order root.verifiedRecords) = .ok report) :
    Returns (reconcile settings keepPeriodic) root fun value =>
      Projected settings root (order root.verifiedRecords) value.1 value.2 := by
  unfold reconcile
  refine returns_bind (returns_look ?_)
  rw [if_neg whole]
  exact project_returns plans

theorem reconcile_checks {value : Option CheckpointRecord × List CheckpointRecord}
    (returned : ((reconcile settings keepPeriodic).run root).2 = .ok value) :
    ¬ (settings.retention.isSome ∧ root.rejected) ∧
      ∃ report, planned settings root (order root.verifiedRecords) = .ok report := by
  have survives : Survives (reconcile settings keepPeriodic) root (fun _ => True)
      (fun _ _ => True) fun _ _ => ¬ (settings.retention.isSome ∧ root.rejected) ∧
        ∃ report, planned settings root (order root.verifiedRecords) = .ok report := by
    unfold reconcile
    refine survives_bind (survives_look trivial (survives_ite ?_ ?_))
    · intro _
      exact survives_bind (survives_emit trivial trivial (survives_raise trivial trivial))
    · intro whole
      unfold project
      refine survives_bind (survives_look trivial (survives_bind ?_))
      refine retentionCheck_survives trivial (fun _ _ => ⟨trivial, trivial⟩) ?_
      intro report plans
      have checks : ¬ (settings.retention.isSome ∧ root.rejected) ∧
          ∃ report, planned settings root (order root.verifiedRecords) = .ok report :=
        ⟨whole, report, plans⟩
      split
      · exact survives_bind (survives_emitAll (fun _ => trivial) (survives_pure trivial checks))
      · refine survives_bind (survives_emitAll (fun _ => trivial) (survives_ite ?_ ?_))
        · intro _
          exact survives_pure trivial checks
        · intro _
          refine survives_bind (survives_emitAll (fun _ => trivial) ?_)
          exact survives_bind (survives_emitAll (fun _ => trivial) (survives_pure trivial checks))
  exact survives.done value returned

def withStaging (root : CheckpointRoot) (snapshot : Snapshot) : CheckpointRoot :=
  { root with staging := snapshot.members :: root.staging }

structure Admitted (settings : Settings) (root : CheckpointRoot) (snapshot : Snapshot) : Prop where
  write : ∀ policy, settings.retention = some policy →
    admitWrite policy (footprint settings root) snapshot.available = .ok ()
  written : ∀ policy, settings.retention = some policy →
    checkWritten policy snapshot.bytes (footprint settings (withStaging root snapshot)) = .ok ()

theorem checkWritten_ok {policy : CheckpointRetention} {staged peak : Nat}
    (checked : checkWritten policy staged peak = .ok ()) :
    staged ≤ policy.maxGenerationBytes ∧ peak ≤ policy.maxPeakBytes := by
  unfold checkWritten at checked
  split at checked
  · cases checked
  · split at checked
    · cases checked
    · omega

theorem footprint_withGeneration (settings : Settings) (root : CheckpointRoot)
    (snapshot : Snapshot) :
    footprint settings (withGeneration root snapshot) =
      footprint settings (withStaging root snapshot) := by
  simp only [footprint, withGeneration, withStaging, List.map_append, List.map_cons, List.map_nil,
    List.sum_append, List.sum_cons, List.sum_nil, Directory.bytes]
  omega

theorem fresh_path (root : CheckpointRoot) (snapshot : Snapshot) :
    (snapshot.record root.nextGeneration).relativePath ∉
      root.directories.map (·.record.relativePath) := by
  intro member
  obtain ⟨directory, inside, same⟩ := List.mem_map.mp member
  have older := lt_nextGeneration inside
  have equal : directory.record.generationId = root.nextGeneration := congrArg Prod.snd same
  omega

def InheritedFit (settings : Settings) : Prop :=
  ∀ policy, settings.retention = some policy →
    ∀ row ∈ settings.inherited, row.fullDirectoryBytes ≤ policy.maxGenerationBytes

theorem Sound.planned_ok (sound : Sound settings root) (remembers : Remembers root records)
    (fit : InheritedFit settings)
    (peak : ∀ policy, settings.retention = some policy →
      footprint settings root ≤ policy.maxPeakBytes) :
    ∃ report, planned settings root (order records) = .ok report := by
  cases declared : settings.retention with
  | none => exact ⟨none, planned_eq_ok.mpr (.inl ⟨declared, rfl⟩)⟩
  | some policy =>
    rw [sound.planned_eq remembers declared, if_neg, if_neg]
    · exact ⟨_, rfl⟩
    · exact Nat.not_lt.mpr (peak policy declared)
    · rintro ⟨row, member, large⟩
      exact absurd (fit policy declared row member) (Nat.not_le.mpr large)

theorem saveKnown_returns {snapshot : Snapshot} (sound : Sound settings root)
    (remembers : Remembers root records) (fit : InheritedFit settings)
    (admitted : Admitted settings root snapshot) :
    Returns (saveKnown settings false snapshot records) root fun _ _ => True := by
  have sound' : Sound settings (withGeneration root snapshot) := by
    refine sound.withGeneration snapshot ?_
    intro policy declared
    exact (checkWritten_ok (admitted.written policy declared)).1
  have remembers' := withGeneration_remembers remembers snapshot
  obtain ⟨report, plans⟩ := sound'.planned_ok remembers' fit (by
    intro policy declared
    rw [footprint_withGeneration]
    exact (checkWritten_ok (admitted.written policy declared)).2)
  unfold saveKnown
  refine returns_bind (returns_look ?_)
  rw [if_neg (fresh_path root snapshot)]
  have admission : Returns (admission settings false root snapshot) root fun _ after =>
      after = root := by
    unfold Checkpoints.admission
    split
    · exact returns_pure rfl
    · rename_i policy declared
      rw [if_neg Bool.false_ne_true, admitted.write policy declared]
      exact returns_pure rfl
  refine returns_bind (admission.mono ?_)
  intro _ after unchanged
  rw [unchanged]
  have staged : performAll root (Write.stage :: snapshot.members.map .member) =
      withStaging root snapshot := stage_all root snapshot.members []
  refine returns_bind (returns_emitAll ?_)
  rw [staged]
  refine returns_bind (returns_look (returns_bind ?_))
  have written : Returns (stagedCheck settings (withStaging root snapshot) snapshot)
      (withStaging root snapshot) fun _ after => after = withStaging root snapshot := by
    unfold stagedCheck
    split
    · exact returns_pure rfl
    · rename_i policy declared
      rw [admitted.written policy declared]
      exact returns_pure rfl
  refine written.mono ?_
  intro _ after unchanged
  rw [unchanged]
  refine returns_bind (returns_emitAll (returns_bind ?_))
  refine Returns.mono (@project_returns settings false (withGeneration root snapshot) _ _ plans) ?_
  intro _ _ _
  exact returns_pure trivial

end

end SparseLab.Checkpoints
