import SparseLab.Checkpoints.CheckpointRecovery

/-! Whether the limits of a retention policy suffice for a run without crashes. -/

namespace SparseLab.Checkpoints

open Library

def besideBytes (settings : Settings) (root : CheckpointRoot) : Nat :=
  (root.latest.map settings.encoding.pointer).getD 0 +
    (root.best.map settings.encoding.pointer).getD 0 +
    (root.retention.map settings.encoding.report).getD 0 +
    (root.failure.map settings.encoding.failure).getD 0 +
    root.scraps + settings.encoding.bound

structure Obeys (settings : Settings) (policy : CheckpointRetention) (root : CheckpointRoot)
    (snapshot : Snapshot) : Prop where
  size : snapshot.bytes ≤ policy.maxGenerationBytes
  free : max policy.maxGenerationBytes (policy.maxPeakBytes - footprint settings root) +
    policy.reserveFreeBytes ≤ snapshot.available

/-- The roots of a run without crashes and refusals, and the records that its manager holds. A save
of a manager that holds none is a reconciliation and then a save with the records it found. -/
inductive Unbroken (settings : Settings) : CheckpointRoot → Option (List CheckpointRecord) → Prop
  | start : Unbroken settings .empty none
  | reconciled {root memory} (earlier : Unbroken settings root memory) (value)
      (ended : ((reconcile settings false).run root).2 = .ok value) :
      Unbroken settings (performAll root ((reconcile settings false).run root).1) (some value.2)
  | saved {root records} (earlier : Unbroken settings root (some records)) (snapshot value)
      (ended : ((saveKnown settings false snapshot records).run root).2 = .ok value) :
      Unbroken settings (performAll root ((saveKnown settings false snapshot records).run root).1)
        (some value.2)
  | closed {root memory} (earlier : Unbroken settings root memory) : Unbroken settings root none

structure Limited (settings : Settings) (policy : CheckpointRetention) (root : CheckpointRoot) :
    Prop where
  staging : root.staging = []
  whole : ∀ directory ∈ root.directories, directory.verified = true
  few : settings.inherited.length + root.directories.length ≤ policy.retainedUpper

section

variable {settings : Settings} {policy : CheckpointRetention} {root after : CheckpointRoot}
  {records : List CheckpointRecord} {snapshot : Snapshot}

theorem sum_sizes {α : Type} {items : List α} {size : α → Nat} {most : Nat}
    (small : ∀ item ∈ items, size item ≤ most) : (items.map size).sum ≤ items.length * most := by
  have bound := List.sum_le_card_nsmul (items.map size) most (by simpa using small)
  rwa [List.length_map, Nat.nsmul_eq_mul] at bound

theorem footprint_le (sound : Sound settings root) (limited : Limited settings policy root)
    (declared : settings.retention = some policy) (fit : InheritedFit settings) :
    footprint settings root ≤
      policy.retainedUpper * policy.maxGenerationBytes + besideBytes settings root := by
  have directories : (root.directories.map (·.bytes)).sum ≤
      root.directories.length * policy.maxGenerationBytes := by
    refine sum_sizes fun directory inside => ?_
    refine Nat.le_trans ?_ (sound.small policy declared directory inside)
    exact ((sound.part directory inside).2.map _).sum_le_sum (by simp)
  have inherited : (settings.inherited.map (·.fullDirectoryBytes)).sum ≤
      settings.inherited.length * policy.maxGenerationBytes :=
    sum_sizes (fit policy declared)
  have few := Nat.mul_le_mul_right policy.maxGenerationBytes limited.few
  rw [Nat.add_mul] at few
  unfold footprint besideBytes
  rw [limited.staging, List.map_nil, List.sum_nil]
  omega

theorem footprint_withStaging : footprint settings (withStaging root snapshot) =
    footprint settings root + snapshot.bytes := by
  simp only [footprint, withStaging, List.map_cons, List.sum_cons, Snapshot.bytes]
  omega

theorem admitted_of_room (sound : Sound settings root) (limited : Limited settings policy root)
    (declared : settings.retention = some policy) (fit : InheritedFit settings)
    (room : besideBytes settings root + (policy.retainedUpper + 1) * policy.maxGenerationBytes ≤
      policy.maxPeakBytes)
    (obeys : Obeys settings policy root snapshot) : Admitted settings root snapshot := by
  have footprint := footprint_le sound limited declared fit
  rw [Nat.add_mul, Nat.one_mul] at room
  have size := obeys.size
  constructor
  · intro policy' same
    rw [declared, Option.some.injEq] at same
    subst same
    unfold admitWrite
    rw [if_neg (by omega), if_neg (Nat.not_lt.mpr obeys.free)]
  · intro policy' same
    rw [declared, Option.some.injEq] at same
    subst same
    unfold checkWritten
    rw [footprint_withStaging, if_neg (by omega), if_neg (by omega)]

theorem removal_limited {report : Option Report} (distinct : Distinct (root.directories.map (·.record)))
    (whole : ∀ directory ∈ root.directories, directory.verified = true)
    (staging : root.staging = []) (remembers : Remembers root records)
    (declared : settings.retention = some policy)
    (plans : planned settings root (order records) = .ok report) :
    Limited settings policy (performAll (published root (order records) report)
      ((unprotected (order records) report).flatMap root.removal)) := by
  have removes := @unprotected_removes root (order records) report
    ((unprotected (order records) report).flatMap root.removal).length
  rw [List.take_length] at removes
  generalize ended : performAll (published root (order records) report)
    ((unprotected (order records) report).flatMap root.removal) = after at removes
  have remaining : ∀ directory ∈ after.directories,
      directory.record.relativePath ∈ protectedPaths report (order records) ∧
        directory ∈ root.directories := by
    intro directory inside
    obtain ⟨earlier, before, record, -, -, -⟩ := removes.same directory inside
    have listed : earlier.record ∈ order records :=
      mem_order.mpr ((remembers.intact _).mpr ⟨earlier, before, whole earlier before, rfl⟩)
    have kept : earlier.record.relativePath ∈ protectedPaths report (order records) := by
      by_contra unkept
      have gone := @removal_gone root (unprotected (order records) report) earlier.record
        (List.mem_filter.mpr ⟨listed, by simpa using unkept⟩)
        (published root (order records) report)
      rw [ended] at gone
      exact gone directory inside (by rw [record])
    have there := removes.kept earlier before kept
    have same : directory = earlier :=
      List.inj_on_of_nodup_map (List.Nodup.of_map _ (distinct.sublist removes.records)) inside
        there record
    rw [same]
    exact ⟨kept, before⟩
  refine ⟨removes.staging.trans staging, fun directory inside =>
    whole directory (remaining directory inside).2, ?_⟩
  have bounded := Settings.keepSet_length declared remembers.distinct.order
  have inside : after.directories.map (·.record) ⊆
      keepSet settings.inherited policy (order records) := by
    intro record member
    obtain ⟨directory, inside, rfl⟩ := List.mem_map.mp member
    obtain ⟨kept, before⟩ := remaining directory inside
    obtain ⟨record, chosen, same⟩ := (mem_protectedPaths_plan declared plans).mp kept
    have listed : directory.record ∈ order records :=
      mem_order.mpr ((remembers.intact _).mpr ⟨directory, before, whole directory before, rfl⟩)
    rw [remembers.distinct.order.path_eq listed (List.mem_of_mem_filter chosen) same.symm]
    exact chosen
  have nodup : (after.directories.map (·.record)).Nodup :=
    List.Nodup.of_map _ (distinct.sublist removes.records)
  have fewer := (List.subperm_of_subset nodup inside).length_le
  rw [List.length_map] at fewer
  omega

theorem project_limited (distinct : Distinct (root.directories.map (·.record)))
    (whole : ∀ directory ∈ root.directories, directory.verified = true)
    (staging : root.staging = []) (remembers : Remembers root records)
    (declared : settings.retention = some policy) :
    Survives (project settings false records) root (fun _ => True) (fun _ _ => True)
      fun _ after => Limited settings policy after := by
  unfold project
  refine survives_bind (survives_look trivial (survives_bind ?_))
  refine retentionCheck_survives trivial (fun _ _ => ⟨trivial, trivial⟩) ?_
  intro report plans
  cases last : (order records).getLast? with
  | none =>
    -- There is no record, and so no generation.
    have empty : root.directories = [] := by
      refine List.eq_nil_iff_forall_not_mem.mpr fun directory inside => ?_
      have listed := mem_order.mpr ((remembers.intact _).mpr
        ⟨directory, inside, whole directory inside, rfl⟩)
      rw [List.getLast?_eq_none_iff.mp last] at listed
      cases listed
    refine survives_bind (survives_emitAll (fun _ => trivial) (survives_pure trivial ?_))
    refine ⟨staging, fun directory inside => whole directory inside, ?_⟩
    have bounded := Settings.keepSet_length declared remembers.distinct.order
    change settings.inherited.length + root.directories.length ≤ _
    rw [empty, List.length_nil]
    omega
  | some latest =>
    refine survives_bind (survives_emitAll (fun _ => trivial) ?_)
    rw [if_neg Bool.false_ne_true]
    have before : performAll (performAll root [.latest (some latest), .best (best (order records))])
        (report.map Write.retention).toList = published root (order records) report := by
      rw [published, last]
      cases report <;> rfl
    refine survives_bind (survives_emitAll (fun _ => trivial) ?_)
    rw [before]
    simp only [List.partition_eq_filter_filter]
    refine survives_bind (survives_emitAll (fun _ => trivial) (survives_pure trivial ?_))
    exact removal_limited distinct whole staging remembers declared plans

theorem reconcile_limited (sound : Sound settings root) (limited : Limited settings policy root)
    (declared : settings.retention = some policy) :
    Survives (reconcile settings false) root (fun _ => True) (fun _ _ => True)
      fun _ after => Limited settings policy after := by
  unfold reconcile
  refine survives_bind (survives_look trivial (survives_ite ?_ ?_))
  · intro _
    exact survives_bind (survives_emit trivial trivial (survives_raise trivial trivial))
  · intro _
    exact project_limited sound.distinct limited.whole limited.staging sound.remembered declared

theorem saveKnown_limited (sound : Sound settings root) (limited : Limited settings policy root)
    (remembers : Remembers root records) (declared : settings.retention = some policy) :
    Survives (saveKnown settings false snapshot records) root (fun _ => True) (fun _ _ => True)
      fun _ after => Limited settings policy after := by
  unfold saveKnown
  refine survives_bind (survives_look trivial (survives_ite ?_ ?_))
  · intro _
    exact survives_raise trivial trivial
  intro _
  have idle : Closed settings AnySave (Sound settings) := Sound.closed AnySave
  refine survives_bind ((idle.admission sound (fun _ _ _ => trivial)).mono
    (fun _ _ => trivial) (fun _ _ => id) ?_)
  intro _ after unchanged
  rw [unchanged]
  have staged : performAll root (Write.stage :: snapshot.members.map .member) =
      withStaging root snapshot := stage_all root snapshot.members []
  refine survives_bind (survives_emitAll (fun _ => trivial) ?_)
  rw [staged]
  have staging : Sound settings (withStaging root snapshot) := sound.idle rfl rfl rfl
  refine survives_bind (survives_look trivial (survives_bind ?_))
  refine (idle.stagedCheck staging (fun _ _ _ => trivial) _).mono (fun _ _ => trivial)
    (fun _ _ => id) ?_
  rintro _ _ ⟨rfl, fits⟩
  have grown := sound.withGeneration snapshot fits
  have whole : ∀ directory ∈ (withGeneration root snapshot).directories,
      directory.verified = true := by
    intro directory inside
    rcases List.mem_append.mp inside with before | new
    · exact limited.whole directory before
    · rw [List.mem_singleton.mp new]
      exact verified_of_present rfl
  refine survives_bind (survives_emit trivial trivial (survives_bind ?_))
  refine (project_limited grown.distinct whole limited.staging
    (withGeneration_remembers remembers snapshot) declared).mono (fun _ _ => trivial)
    (fun _ _ => id) ?_
  intro _ after limited
  exact survives_pure trivial limited

theorem Unbroken.settled {memory : Option (List CheckpointRecord)}
    (declared : settings.retention = some policy) (unbroken : Unbroken settings root memory) :
    Sound settings root ∧ Limited settings policy root ∧
      ∀ records, memory = some records → Remembers root records := by
  have closed : Closed settings AnySave (Sound settings) := Sound.closed AnySave
  induction unbroken with
  | start =>
    refine ⟨Sound.empty, ⟨rfl, by simp [CheckpointRoot.empty], ?_⟩, by simp⟩
    have none : Distinct [] := List.nodup_nil
    have bounded := Settings.keepSet_length declared none
    change settings.inherited.length + 0 ≤ _
    omega
  | @reconciled root memory earlier value ended ih =>
    obtain ⟨sound, limited, -⟩ := ih
    obtain ⟨after, known, -⟩ := (closed.reconcile sound).done value ended
    refine ⟨after, (reconcile_limited sound limited declared).done value ended, ?_⟩
    rintro _ ⟨⟩
    exact known
  | @saved root records earlier snapshot value ended ih =>
    obtain ⟨sound, limited, known⟩ := ih
    obtain ⟨after, known', -⟩ :=
      (closed.saveKnown sound (known records rfl) trivial).done value ended
    refine ⟨after,
      (saveKnown_limited sound limited (known records rfl) declared).done value ended, ?_⟩
    rintro _ ⟨⟩
    exact known'
  | closed earlier ih => exact ⟨ih.1, ih.2.1, by simp⟩

end

section

def tightRetention : CheckpointRetention where
  milestones := []
  terminalStep := 2
  terminalTargets := 1000
  maxGenerations := 4
  maxGenerationBytes := 6
  maxRetainedBytes := 24
  maxPeakBytes := 30
  reserveFreeBytes := 0
  names := by decide
  within := by decide
  generations := by decide
  retained := by decide
  peak := by decide

def tightSettings : Settings where
  run := "run"
  encoding := ⟨fun _ => 1, fun _ => 1, fun _ => 1, 1⟩
  retention := some tightRetention
  inherited := []
  admitted := .inl rfl

def improvingSave (step : Nat) : Snapshot :=
  { sampleSnapshot step with validationLoss := some step }

def afterSave (settings : Settings) (state : CheckpointRoot × List CheckpointRecord) (step : Nat) :
    CheckpointRoot × List CheckpointRecord :=
  let ended := (saveKnown settings false (improvingSave step) state.2).run state.1
  (performAll state.1 ended.1, (ended.2.toOption.map Prod.snd).getD [])

theorem afterSave_unbroken {settings : Settings} {state : CheckpointRoot × List CheckpointRecord}
    {step : Nat} (unbroken : Unbroken settings state.1 (some state.2))
    (returned : ((saveKnown settings false (improvingSave step) state.2).run state.1).2.isOk = true) :
    Unbroken settings (afterSave settings state step).1 (some (afterSave settings state step).2) := by
  cases ended : ((saveKnown settings false (improvingSave step) state.2).run state.1).2 with
  | error reason =>
    rw [ended] at returned
    cases returned
  | ok value =>
    have next := unbroken.saved (improvingSave step) value ended
    simp only [afterSave, ended]
    exact next

theorem opened_unbroken {settings : Settings} (returned :
    ((reconcile settings false).run .empty).2 = .ok (none, []))
    (writes : performAll CheckpointRoot.empty ((reconcile settings false).run .empty).1 = .empty) :
    Unbroken settings .empty (some []) := by
  have opened := Unbroken.start.reconciled _ returned
  rwa [writes] at opened

def fourKept : CheckpointRoot × List CheckpointRecord :=
  [1, 2, 3, 4].foldl (afterSave tightSettings) (.empty, [])

end

end SparseLab.Checkpoints
