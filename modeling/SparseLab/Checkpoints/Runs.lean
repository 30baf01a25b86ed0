import SparseLab.Checkpoints.Pruning

/-! Runs of saves and reconciliations, and what holds of every root they reach. -/

namespace SparseLab.Checkpoints

open Library

inductive Operation
  | reconcile
  | save (snapshot : Snapshot)

namespace Operation

def body (settings : Settings) (keepPeriodic : Bool) (memory : Option (List CheckpointRecord)) :
    Operation → Managed (List CheckpointRecord)
  | .reconcile => do
      let (_, records) ← Checkpoints.reconcile settings keepPeriodic
      pure records
  | .save snapshot => do
      let (_, records) ← Checkpoints.save settings keepPeriodic memory snapshot
      pure records

def Allowed (allowed : List CheckpointRecord → Snapshot → Prop) (root : CheckpointRoot) :
    Operation → Prop
  | .reconcile => True
  | .save snapshot => allowed root.finalized snapshot

end Operation

inductive Reached (settings : Settings) (allowed : List CheckpointRecord → Snapshot → Prop)
    (first : CheckpointRoot) : CheckpointRoot → Option (List CheckpointRecord) → Prop
  | start : Reached settings allowed first first none
  | returned {root memory} (earlier : Reached settings allowed first root memory) (keepPeriodic : Bool)
      (operation : Operation) (admits : operation.Allowed allowed root) (records)
      (ended : ((operation.body settings keepPeriodic memory).run root).2 = .ok records) :
      Reached settings allowed first
        (performAll root ((operation.body settings keepPeriodic memory).run root).1) (some records)
  | refused {root memory} (earlier : Reached settings allowed first root memory) (keepPeriodic : Bool)
      (operation : Operation) (admits : operation.Allowed allowed root) (reason)
      (ended : ((operation.body settings keepPeriodic memory).run root).2 = .error reason) :
      Reached settings allowed first
        (performAll root ((operation.body settings keepPeriodic memory).run root).1) none
  | crashed {root memory} (earlier : Reached settings allowed first root memory) (keepPeriodic : Bool)
      (operation : Operation) (admits : operation.Allowed allowed root) (cut scraps : Nat) :
      Reached settings allowed first
        { performAll root (((operation.body settings keepPeriodic memory).run root).1.take cut) with
          scraps } none
  | closed {root memory} (earlier : Reached settings allowed first root memory) :
      Reached settings allowed first root none

def Intact (root : CheckpointRoot) (record : CheckpointRecord) : Prop :=
  ∃ directory ∈ root.directories, directory.verified = true ∧ directory.record = record

structure Remembers (root : CheckpointRoot) (records : List CheckpointRecord) : Prop where
  distinct : Distinct records
  intact : ∀ record, record ∈ records ↔ Intact root record

def withGeneration (root : CheckpointRoot) (snapshot : Snapshot) : CheckpointRoot :=
  { root with
    directories := root.directories ++ [{
      record := snapshot.record root.nextGeneration
      lineageBest := snapshot.lineageBest
      members := snapshot.members
      present := snapshot.members }]
    finalized := root.finalized ++ [snapshot.record root.nextGeneration] }

structure Closed (settings : Settings) (allowed : List CheckpointRecord → Snapshot → Prop)
    (invariant : CheckpointRoot → Prop) : Prop where
  distinct : ∀ root, invariant root → Distinct (root.directories.map (·.record))
  idle : ∀ root root', invariant root → root'.directories = root.directories →
    root'.finalized = root.finalized → root'.retention = root.retention → invariant root'
  project : ∀ root after records, invariant root → Remembers root records →
    Projecting settings root (order records) after → invariant after
  finalize : ∀ root snapshot, invariant root → allowed root.finalized snapshot →
    (∀ policy, settings.retention = some policy → snapshot.bytes ≤ policy.maxGenerationBytes) →
      invariant (withGeneration root snapshot)

theorem mem_verifiedRecords {root : CheckpointRoot} {record : CheckpointRecord} :
    record ∈ root.verifiedRecords ↔ Intact root record := by
  simp only [CheckpointRoot.verifiedRecords, CheckpointRoot.verifiedDirectories, List.mem_map,
    List.mem_filter, List.mem_insertionSort, Intact]
  constructor
  · rintro ⟨directory, ⟨member, verified⟩, same⟩
    exact ⟨directory, member, verified, same⟩
  · rintro ⟨directory, member, verified, same⟩
    exact ⟨directory, ⟨member, verified⟩, same⟩

theorem verifiedRecords_distinct {root : CheckpointRoot}
    (distinct : Distinct (root.directories.map (·.record))) : Distinct root.verifiedRecords := by
  have sorted : (root.directories.insertionSort fun first second =>
      second.record.place ≤ first.record.place).Perm root.directories :=
    List.perm_insertionSort _ _
  refine Distinct.sublist ?_ (List.filter_sublist.map _)
  unfold Distinct at distinct ⊢
  rw [List.map_map] at distinct ⊢
  exact (sorted.map _).nodup_iff.mpr distinct

theorem mem_order {records : List CheckpointRecord} {record : CheckpointRecord} :
    record ∈ order records ↔ record ∈ records :=
  List.mem_insertionSort _

theorem Distinct.order {records : List CheckpointRecord} (distinct : Distinct records) :
    Distinct (order records) :=
  ((List.perm_insertionSort _ records).map _).nodup_iff.mpr distinct

theorem Projecting.same {settings : Settings} {root after : CheckpointRoot}
    {records : List CheckpointRecord} (projecting : Projecting settings root records after) :
    ∀ directory ∈ after.directories, ∃ earlier ∈ root.directories,
      directory.record = earlier.record ∧ directory.lineageBest = earlier.lineageBest ∧
        directory.members = earlier.members ∧ directory.present.Sublist earlier.present := by
  cases projecting with
  | pointers directories _ _ _ =>
    have shrinks : Shrinks (fun _ => False) root after := .of_directories directories
    exact shrinks.same
  | pruning _ _ _ shrinks _ _ => exact shrinks.same

theorem Projecting.finalized {settings : Settings} {root after : CheckpointRoot}
    {records : List CheckpointRecord} (projecting : Projecting settings root records after) :
    after.finalized = root.finalized := by
  cases projecting with
  | pointers _ _ finalized _ => exact finalized
  | pruning _ _ _ _ finalized _ => exact finalized

theorem verified_of_same {directory earlier : Directory}
    (members : directory.members = earlier.members)
    (present : directory.present.Sublist earlier.present) (verified : directory.verified = true) :
    earlier.verified = true := by
  simp only [Directory.verified, List.all_eq_true, List.contains_iff_mem, members] at verified ⊢
  intro member inside
  exact present.subset (verified member inside)

theorem Projected.remembers {settings : Settings} {root after : CheckpointRoot}
    {records kept : List CheckpointRecord} {latest : Option CheckpointRecord}
    (projected : Projected settings root (order records) latest kept after)
    (remembers : Remembers root records) : Remembers after kept := by
  refine ⟨remembers.distinct.order.sublist projected.sublist, ?_⟩
  intro record
  constructor
  · intro member
    obtain ⟨directory, inside, verified, rfl⟩ :=
      (remembers.intact _).mp (mem_order.mp (projected.sublist.subset member))
    exact ⟨directory, projected.stays directory inside member, verified, rfl⟩
  · rintro ⟨directory, inside, verified, rfl⟩
    obtain ⟨earlier, before, same, _, members, present⟩ :=
      projected.projecting.same directory inside
    have listed : directory.record ∈ order records := by
      rw [mem_order, remembers.intact, same]
      exact ⟨earlier, before, verified_of_same members present verified, rfl⟩
    obtain kept | gone := projected.gone _ listed
    · exact kept
    · exact absurd rfl (gone directory inside)

theorem le_foldl_max (numbers : List Nat) (start : Nat) :
    start ≤ numbers.foldl max start ∧ ∀ number ∈ numbers, number ≤ numbers.foldl max start := by
  induction numbers generalizing start with
  | nil => simp
  | cons first rest ih =>
    obtain ⟨above, bounds⟩ := ih (max start first)
    simp only [List.foldl_cons, List.mem_cons, forall_eq_or_imp]
    exact ⟨(Nat.le_max_left _ _).trans above, (Nat.le_max_right _ _).trans above, bounds⟩

theorem lt_nextGeneration {root : CheckpointRoot} {directory : Directory}
    (inside : directory ∈ root.directories) :
    directory.record.generationId < root.nextGeneration :=
  Nat.lt_succ_of_le ((le_foldl_max _ 0).2 _
    (List.mem_map_of_mem (f := fun directory : Directory => directory.record.generationId) inside))

theorem verified_of_present {directory : Directory} (all : directory.present = directory.members) :
    directory.verified = true := by
  simp [Directory.verified, all]

theorem withGeneration_remembers {root : CheckpointRoot} {records : List CheckpointRecord}
    (remembers : Remembers root records) (snapshot : Snapshot) :
    Remembers (withGeneration root snapshot) (records ++ [snapshot.record root.nextGeneration]) := by
  constructor
  · unfold Distinct
    refine nodup_map_concat remembers.distinct fun record listed same => ?_
    obtain ⟨directory, present, _, rfl⟩ := (remembers.intact record).mp listed
    simp only [Snapshot.record] at same
    have older := lt_nextGeneration present
    omega
  · intro record
    simp only [List.mem_append, remembers.intact, List.mem_singleton, Intact, withGeneration,
      or_and_right, exists_or, exists_eq_left]
    rw [verified_of_present rfl, eq_comm (a := record)]
    simp only [true_and]

section

variable {settings : Settings} {allowed : List CheckpointRecord → Snapshot → Prop}
  {invariant : CheckpointRoot → Prop} (closed : Closed settings allowed invariant)
  {keepPeriodic : Bool} {root : CheckpointRoot}

include closed

theorem Closed.failing (holds : invariant root) (reason : String) :
    invariant { root with failure := some reason } :=
  closed.idle root _ holds rfl rfl rfl

theorem Closed.reconcile (holds : invariant root) :
    Survives (reconcile settings keepPeriodic) root invariant (fun _ => invariant)
      fun value after => invariant after ∧ Remembers after value.2 ∧
        after.finalized = root.finalized := by
  have remembers : Remembers root root.verifiedRecords :=
    ⟨verifiedRecords_distinct (closed.distinct root holds), fun _ => mem_verifiedRecords⟩
  unfold Checkpoints.reconcile
  refine survives_bind (survives_look holds (survives_ite ?_ ?_))
  · intro _
    have failed := closed.failing holds "retention refuses unverified checkpoint generations"
    exact survives_bind (survives_emit holds failed (survives_raise failed failed))
  · intro _
    refine (project_survives root.verifiedRecords).mono ?_ ?_ ?_
    · intro after projecting
      exact closed.project root after _ holds remembers projecting
    · intro _ after projecting
      exact closed.project root after _ holds remembers projecting
    · intro value after projected
      exact ⟨closed.project root after _ holds remembers projected.projecting,
        projected.remembers remembers, projected.projecting.finalized⟩

end

theorem stage_all (root : CheckpointRoot) (members staged : List Member) :
    performAll { root with staging := staged :: root.staging } (members.map Write.member) =
      { root with staging := (staged ++ members) :: root.staging } := by
  induction members generalizing staged with
  | nil => simp
  | cons member members ih =>
    have next := ih (staged ++ [member])
    rw [List.append_assoc] at next
    exact next

theorem stage_take (root : CheckpointRoot) (members : List Member) (cut : Nat) :
    ∃ staging, performAll root ((Write.stage :: members.map Write.member).take cut) =
      { root with staging } := by
  cases cut with
  | zero => exact ⟨root.staging, rfl⟩
  | succ cut =>
    rw [List.take_succ_cons, ← List.map_take]
    exact ⟨_, stage_all root (members.take cut) []⟩

section

variable {settings : Settings} {allowed : List CheckpointRecord → Snapshot → Prop}
  {invariant : CheckpointRoot → Prop} (closed : Closed settings allowed invariant)
  {keepPeriodic : Bool} {root : CheckpointRoot} {snapshot : Snapshot}
  {records : List CheckpointRecord}

include closed

theorem Closed.admission {failed : String → CheckpointRoot → Prop} (holds : invariant root)
    (fails : ∀ reason root', invariant root' → failed reason root') :
    Survives (admission settings keepPeriodic root snapshot) root invariant failed
      fun _ after => after = root := by
  unfold Checkpoints.admission
  split
  · exact survives_pure holds rfl
  · refine survives_ite (fun _ => survives_raise holds (fails _ _ holds)) fun _ => ?_
    refine retentionCheck_survives holds ?_ fun _ _ => rfl
    intro reason _
    exact ⟨closed.failing holds reason, fails _ _ (closed.failing holds reason)⟩

theorem Closed.stagedCheck {failed : String → CheckpointRoot → Prop} (holds : invariant root)
    (fails : ∀ reason root', invariant root' → failed reason root') (staged : CheckpointRoot) :
    Survives (stagedCheck settings staged snapshot) root invariant failed
      fun _ after => after = root ∧
        ∀ policy, settings.retention = some policy → snapshot.bytes ≤ policy.maxGenerationBytes := by
  unfold Checkpoints.stagedCheck
  split
  · rename_i unlimited
    exact survives_pure holds ⟨rfl, by simp [unlimited]⟩
  · rename_i policy limited
    split
    · rename_i checked
      refine survives_pure holds ⟨rfl, ?_⟩
      intro policy' same
      rw [limited, Option.some.injEq] at same
      subst same
      unfold checkWritten at checked
      split at checked
      · cases checked
      · omega
    · rename_i reason _
      have failure := closed.failing holds reason
      have discarded : invariant
          (({ root with failure := some reason } : CheckpointRoot).perform .discard) :=
        closed.idle root _ holds rfl rfl rfl
      exact survives_bind (survives_emitAll (take_pointers holds failure discarded)
        (survives_raise discarded (fails _ _ discarded)))

theorem Closed.saveKnown (holds : invariant root) (remembers : Remembers root records)
    (admits : allowed root.finalized snapshot) :
    Survives (saveKnown settings keepPeriodic snapshot records) root invariant
      (fun _ => invariant) fun value after => invariant after ∧ Remembers after value.2 ∧
        after.finalized = root.finalized ++ [value.1] ∧
          ∃ generation, value.1 = snapshot.record generation := by
  have fails : ∀ (_ : String) root', invariant root' → invariant root' := fun _ _ => id
  unfold Checkpoints.saveKnown
  refine survives_bind (survives_look holds (survives_ite ?_ ?_))
  · intro _
    exact survives_raise holds holds
  · intro _
    refine survives_bind ((closed.admission holds fails).mono (fun _ => id) (fun _ _ => id) ?_)
    intro _ after unchanged
    rw [unchanged]
    have staged := stage_all root snapshot.members []
    have staging : invariant { root with staging := snapshot.members :: root.staging } :=
      closed.idle root _ holds rfl rfl rfl
    refine survives_bind (survives_emitAll ?_ ?_)
    · intro cut
      obtain ⟨staging, same⟩ := stage_take root snapshot.members cut
      rw [same]
      exact closed.idle root _ holds rfl rfl rfl
    · change Survives _ (performAll { root with staging := [] :: root.staging } _) _ _ _
      rw [staged]
      refine survives_bind (survives_look staging (survives_bind ?_))
      refine (closed.stagedCheck staging fails _).mono (fun _ => id) (fun _ _ => id) ?_
      rintro _ _ ⟨rfl, fits⟩
      have finalized : invariant (withGeneration root snapshot) :=
        closed.finalize root snapshot holds admits fits
      have known := withGeneration_remembers remembers snapshot
      refine survives_bind (survives_emit staging finalized (survives_bind ?_))
      refine Survives.mono (project_survives _) ?_ ?_ ?_
      · intro after projecting
        exact closed.project _ after _ finalized known projecting
      · intro _ after projecting
        exact closed.project _ after _ finalized known projecting
      · rintro ⟨_, kept⟩ after projected
        have reached := closed.project _ after _ finalized known projected.projecting
        exact survives_pure reached ⟨reached, projected.remembers known,
          projected.projecting.finalized, _, rfl⟩

theorem Closed.save {memory : Option (List CheckpointRecord)} (holds : invariant root)
    (remembers : ∀ records, memory = some records → Remembers root records)
    (admits : allowed root.finalized snapshot) :
    Survives (save settings keepPeriodic memory snapshot) root invariant
      (fun _ => invariant) fun value after => invariant after ∧ Remembers after value.2 ∧
        after.finalized = root.finalized ++ [value.1] ∧
          ∃ generation, value.1 = snapshot.record generation := by
  unfold Checkpoints.save
  refine survives_bind ?_
  cases memory with
  | some records =>
    exact survives_pure holds (closed.saveKnown holds (remembers records rfl) admits)
  | none =>
    refine survives_bind ((closed.reconcile holds).mono (fun _ => id) (fun _ _ => id) ?_)
    rintro _ after ⟨reached, known, same⟩
    rw [← same] at admits ⊢
    exact survives_pure reached (closed.saveKnown reached known admits)

theorem Closed.body {memory : Option (List CheckpointRecord)} {operation : Operation}
    (holds : invariant root) (remembers : ∀ records, memory = some records → Remembers root records)
    (admits : operation.Allowed allowed root) :
    Survives (operation.body settings keepPeriodic memory) root invariant (fun _ => invariant)
      fun records after => invariant after ∧ Remembers after records := by
  cases operation with
  | reconcile =>
    refine survives_bind ((closed.reconcile holds).mono (fun _ => id) (fun _ _ => id) ?_)
    rintro _ after ⟨reached, known, _⟩
    exact survives_pure reached ⟨reached, known⟩
  | save snapshot =>
    refine survives_bind ((closed.save holds remembers admits).mono (fun _ => id)
      (fun _ _ => id) ?_)
    rintro _ after ⟨reached, known, _⟩
    exact survives_pure reached ⟨reached, known⟩

theorem Closed.reached {first : CheckpointRoot} {memory : Option (List CheckpointRecord)}
    (holds : invariant first) (reached : Reached settings allowed first root memory) :
    invariant root ∧ ∀ records, memory = some records → Remembers root records := by
  induction reached with
  | start => exact ⟨holds, by simp⟩
  | returned _ keepPeriodic operation admits records ended ih =>
    obtain ⟨after, known⟩ := (closed.body ih.1 ih.2 admits).done records ended
    refine ⟨after, ?_⟩
    rintro _ ⟨⟩
    exact known
  | refused _ keepPeriodic operation admits reason ended ih =>
    exact ⟨(closed.body ih.1 ih.2 admits).failed reason ended, by simp⟩
  | crashed _ keepPeriodic operation admits cut scraps ih =>
    exact ⟨closed.idle _ _ ((closed.body ih.1 ih.2 admits).crashed cut) rfl rfl rfl, by simp⟩
  | closed _ ih => exact ⟨ih.1, by simp⟩

end

end SparseLab.Checkpoints
