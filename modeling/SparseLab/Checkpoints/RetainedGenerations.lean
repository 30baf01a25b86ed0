import SparseLab.Checkpoints.Reports

/-! Whatever the keep-set would select of all finalized generations is still there. -/

namespace SparseLab.Checkpoints

open Library

def Nondecreasing (finalized : List CheckpointRecord) (snapshot : Snapshot) : Prop :=
  ∀ record ∈ finalized, record.step ≤ snapshot.step

def Older (first second : CheckpointRecord) : Prop :=
  first.step ≤ second.step ∧ first.generationId < second.generationId

theorem Older.place_lt {first second : CheckpointRecord} (older : Older first second) :
    first.place < second.place := by
  obtain ⟨steps, generations⟩ := older
  rw [CheckpointRecord.place, CheckpointRecord.place, Prod.Lex.toLex_lt_toLex]
  obtain earlier | same := Nat.lt_or_eq_of_le steps
  · exact .inl earlier
  · exact .inr ⟨same, generations⟩

theorem older_distinct {records : List CheckpointRecord} (sorted : records.Pairwise Older) :
    Distinct records := by
  unfold Distinct
  refine List.pairwise_map.mpr (sorted.imp ?_)
  rintro first second ⟨_, generations⟩
  exact Nat.ne_of_lt generations

theorem order_sublist {records finalized : List CheckpointRecord} (distinct : Distinct records)
    (sorted : finalized.Pairwise Older) (inside : ∀ record ∈ records, record ∈ finalized) :
    (order records).Sublist finalized := by
  let before (first second : CheckpointRecord) : Prop := first.place < second.place
  have irrefl : Std.Antisymm before :=
    ⟨fun _ _ first second => absurd first (lt_asymm second)⟩
  have ordered : (order records).Pairwise before := by
    have weak : (order records).Pairwise fun first second => first.place ≤ second.place :=
      List.pairwise_insertionSort (fun first second : CheckpointRecord => first.place ≤ second.place) records
    refine (weak.and (List.pairwise_map.mp distinct.order)).imp ?_
    rintro first second ⟨places, generations⟩
    refine lt_of_le_of_ne places ?_
    intro same
    exact generations (congrArg (fun place => (ofLex place).2) same)
  refine List.sublist_of_subperm_of_pairwise (r := before) ?_ ordered
    (sorted.imp fun older => older.place_lt)
  refine List.subperm_of_subset distinct.order.nodup ?_
  intro record member
  exact inside record (mem_order.mp member)

structure Keeps (settings : Settings) (policy : CheckpointRetention) (root : CheckpointRoot) : Prop
    extends Sound settings root where
  sorted : root.finalized.Pairwise Older
  kept : ∀ role record, Selects settings.inherited policy root.finalized record role →
    Intact root record

section

variable {settings : Settings} {policy : CheckpointRetention} {root after : CheckpointRoot}
  {records : List CheckpointRecord}

theorem Intact.finalized (sound : Sound settings root) {record : CheckpointRecord}
    (intact : Intact root record) : record ∈ root.finalized := by
  obtain ⟨directory, inside, _, rfl⟩ := intact
  exact sound.finalized directory inside

theorem Sound.sublist (sound : Sound settings root) (sorted : root.finalized.Pairwise Older)
    (remembers : Remembers root records) : (order records).Sublist root.finalized := by
  refine order_sublist remembers.distinct sorted ?_
  intro record member
  exact ((remembers.intact record).mp member).finalized sound

theorem older_than_next (sorted : root.finalized.Pairwise Older)
    (latest : ∀ record, root.finalized.getLast? = some record → Intact root record)
    {record : CheckpointRecord} (member : record ∈ root.finalized) :
    record.generationId < root.nextGeneration := by
  cases last : root.finalized.getLast? with
  | none =>
    rw [List.getLast?_eq_none_iff] at last
    simp [last] at member
  | some final =>
    obtain ⟨directory, inside, _, rfl⟩ := latest final last
    have bound := lt_nextGeneration inside
    have whole := List.dropLast_append_getLast? _ last
    rw [← whole, List.pairwise_append] at sorted
    rw [← whole, List.mem_append, List.mem_singleton] at member
    obtain before | rfl := member
    · have earlier := (sorted.2.2 record before _ (List.mem_singleton_self _)).2
      omega
    · exact bound

theorem sorted_withGeneration (sorted : root.finalized.Pairwise Older)
    (latest : ∀ record, root.finalized.getLast? = some record → Intact root record)
    {snapshot : Snapshot} (forward : Nondecreasing root.finalized snapshot) :
    (withGeneration root snapshot).finalized.Pairwise Older := by
  refine List.pairwise_append.mpr ⟨sorted, by simp, ?_⟩
  intro record member new inside
  rw [List.mem_singleton.mp inside]
  exact ⟨forward record member, older_than_next sorted latest member⟩

namespace Keeps

section

variable (keeps : Keeps settings policy root)

include keeps

theorem sublist (remembers : Remembers root records) : (order records).Sublist root.finalized :=
  keeps.toSound.sublist keeps.sorted remembers

theorem chosen_eq (remembers : Remembers root records) :
    chosen settings.inherited policy (order records) =
      chosen settings.inherited policy root.finalized := by
  refine chosen_kept (keeps.sublist remembers) (older_distinct keeps.sorted) ?_
  intro role record selects
  exact mem_order.mpr ((remembers.intact record).mpr (keeps.kept role record selects))

theorem selects_iff (remembers : Remembers root records) {role : Role} {record : CheckpointRecord} :
    Selects settings.inherited policy (order records) record role ↔
      Selects settings.inherited policy root.finalized record role := by
  rw [← mem_chosen, ← mem_chosen, keeps.chosen_eq remembers]

theorem keepSet_eq (remembers : Remembers root records) :
    keepSet settings.inherited policy (order records) =
      keepSet settings.inherited policy root.finalized := by
  have distinct := older_distinct keeps.sorted
  have roles : rolesOf settings.inherited policy (order records) =
      rolesOf settings.inherited policy root.finalized := by
    funext path
    rw [rolesOf, rolesOf, keeps.chosen_eq remembers]
  have inside : ∀ record ∈ keepSet settings.inherited policy root.finalized,
      record ∈ order records := by
    intro record member
    obtain ⟨role, selects⟩ := (mem_keepSet distinct).mp member
    exact mem_order.mpr ((remembers.intact record).mpr (keeps.kept role record selects))
  unfold keepSet at inside ⊢
  rw [roles]
  exact filter_sublist_eq (keeps.sublist remembers) distinct.nodup inside

theorem idle (directories : after.directories = root.directories)
    (finalized : after.finalized = root.finalized) (retention : after.retention = root.retention) :
    Keeps settings policy after := by
  refine ⟨keeps.toSound.idle directories finalized retention, ?_, ?_⟩
  · rw [finalized]
    exact keeps.sorted
  · intro role record selects
    rw [finalized] at selects
    rw [Intact, directories]
    exact keeps.kept role record selects

theorem project (declared : settings.retention = some policy) (remembers : Remembers root records)
    (projecting : Projecting settings root (order records) after) :
    Keeps settings policy after := by
  refine ⟨keeps.toSound.project remembers projecting, ?_, ?_⟩
  · rw [projecting.finalized]
    exact keeps.sorted
  · intro role record selects
    rw [projecting.finalized] at selects
    have intact := keeps.kept role record selects
    cases projecting with
    | pointers directories retention finalized staging => rwa [Intact, directories]
    | pruning report plans retention shrinks finalized staging =>
      refine shrinks.intact intact ((mem_protectedPaths_plan declared plans).mpr ?_)
      refine ⟨record, ?_, rfl⟩
      rw [mem_keepSet remembers.distinct.order]
      exact ⟨role, (keeps.selects_iff remembers).mpr selects⟩

theorem withGeneration {snapshot : Snapshot} (forward : Nondecreasing root.finalized snapshot)
    (fits : ∀ policy, settings.retention = some policy →
      snapshot.bytes ≤ policy.maxGenerationBytes) :
    Keeps settings policy (withGeneration root snapshot) := by
  refine ⟨keeps.toSound.withGeneration snapshot fits, ?_, ?_⟩
  · exact sorted_withGeneration keeps.sorted (keeps.kept .latest) forward
  · intro role record selects
    obtain rfl | ⟨earlier, before⟩ := selects.append
    · exact intact_new root snapshot
    · exact (keeps.kept earlier record before).withGeneration snapshot

end

theorem closed (declared : settings.retention = some policy) :
    Closed settings Nondecreasing (Keeps settings policy) where
  distinct _ keeps := keeps.distinct
  idle _ _ keeps directories finalized retention := keeps.idle directories finalized retention
  project _ _ _ keeps remembers projecting := keeps.project declared remembers projecting
  finalize _ _ keeps forward fits := keeps.withGeneration forward fits

theorem empty : Keeps settings policy .empty := by
  refine ⟨Sound.empty, .nil, ?_⟩
  intro role record selects
  exact absurd selects.mem List.not_mem_nil

end Keeps

theorem Sound.whole (sound : Sound settings root) {directory : Directory}
    (inside : directory ∈ root.directories) (verified : directory.verified = true) :
    directory.present = directory.members := by
  obtain ⟨nodup, part⟩ := sound.part directory inside
  simp only [Directory.verified, List.all_eq_true, List.contains_iff_mem] at verified
  exact part.eq_of_length_le (List.subperm_of_subset nodup verified).length_le

structure Remains (settings : Settings) (policy : CheckpointRetention)
    (first root : CheckpointRoot) : Prop extends Keeps settings policy root where
  longer : first.finalized.length ≤ root.finalized.length
  left : root.finalized = first.finalized → ∀ directory ∈ root.directories,
    ∃ earlier ∈ first.directories, directory.record = earlier.record ∧
      directory.members = earlier.members

theorem Remains.closed {first : CheckpointRoot} (declared : settings.retention = some policy) :
    Closed settings Nondecreasing (Remains settings policy first) where
  distinct _ remains := remains.distinct
  idle root root' remains directories finalized retention := by
    refine ⟨remains.toKeeps.idle directories finalized retention, ?_, ?_⟩
    · rw [finalized]
      exact remains.longer
    · rw [finalized, directories]
      exact remains.left
  project root after records remains remembers projecting := by
    refine ⟨remains.toKeeps.project declared remembers projecting, ?_, ?_⟩
    · rw [projecting.finalized]
      exact remains.longer
    · intro same directory inside
      rw [projecting.finalized] at same
      obtain ⟨middle, between, record, _, members, _⟩ := projecting.same directory inside
      obtain ⟨earlier, before, record', members'⟩ := remains.left same middle between
      exact ⟨earlier, before, record.trans record', members.trans members'⟩
  finalize root snapshot remains forward fits := by
    have longer := remains.longer
    have grown : (Checkpoints.withGeneration root snapshot).finalized.length =
        root.finalized.length + 1 := List.length_append
    refine ⟨remains.toKeeps.withGeneration forward fits, by omega, ?_⟩
    intro same
    have lengths := congrArg List.length same
    omega

theorem Remains.retainedRows_eq {first : CheckpointRoot} (keeps : Keeps settings policy first)
    (remains : Remains settings policy first root) (same : root.finalized = first.finalized) :
    retainedRows settings.inherited policy settings.run (order root.verifiedRecords) root.bytesOf =
      retainedRows settings.inherited policy settings.run (order first.verifiedRecords)
        first.bytesOf := by
  have chosen_eq : chosen settings.inherited policy (order root.verifiedRecords) =
      chosen settings.inherited policy (order first.verifiedRecords) := by
    rw [remains.chosen_eq remains.toSound.remembered, keeps.chosen_eq keeps.toSound.remembered, same]
  have kept : keepSet settings.inherited policy (order root.verifiedRecords) =
      keepSet settings.inherited policy (order first.verifiedRecords) := by
    rw [remains.keepSet_eq remains.toSound.remembered, keeps.keepSet_eq keeps.toSound.remembered,
      same]
  have bytes : ∀ record ∈ keepSet settings.inherited policy (order first.verifiedRecords),
      root.bytesOf record = first.bytesOf record := by
    intro record member
    have listed : record ∈ order first.verifiedRecords := List.mem_of_mem_filter member
    rw [← kept] at member
    have listed' : record ∈ order root.verifiedRecords := List.mem_of_mem_filter member
    obtain ⟨before, inside, verified, rfl⟩ := mem_verifiedRecords.mp (mem_order.mp listed)
    obtain ⟨directory, inside', verified', equal⟩ := mem_verifiedRecords.mp (mem_order.mp listed')
    obtain ⟨earlier, present, record, members⟩ := remains.left same directory inside'
    have unique : earlier = before :=
      List.inj_on_of_nodup_map (List.Nodup.of_map _ keeps.distinct) present inside
        (record.symm.trans equal)
    rw [← equal, bytesOf_eq remains.toSound inside', equal, bytesOf_eq keeps.toSound inside,
      Directory.bytes, Directory.bytes, remains.toSound.whole inside' verified',
      keeps.toSound.whole inside verified, members, unique]
  unfold retainedRows
  rw [kept]
  congr 1
  refine List.map_congr_left ?_
  intro record member
  unfold localRow
  rw [bytes record member, rolesOf, chosen_eq, ← rolesOf]

structure Retained (settings : Settings) (policy : CheckpointRetention) (root : CheckpointRoot) :
    Prop where
  milestones : ∀ milestone ∈ ownMilestones settings.inherited policy, ∀ record,
    firstReached milestone root.finalized = some record → Intact root record
  inherited : ∀ report, root.retention = some report →
    ∀ row ∈ settings.inherited, row ∈ report.retained
  terminal : ∀ record, terminal policy root.finalized = some record → Intact root record
  latest : ∀ record, root.finalized.getLast? = some record → Intact root record
  previous : ∀ record, root.finalized.dropLast.getLast? = some record → Intact root record
  best : ∀ record, best root.finalized = some record → Intact root record
  bounded : settings.inherited.length +
    (keepSet settings.inherited policy (order root.verifiedRecords)).length ≤ policy.retainedUpper
  published : ∀ report, root.retention = some report →
    report.retained.length ≤ policy.retainedUpper ∧
      (report.retained.map (·.fullDirectoryBytes)).sum ≤
        policy.retainedUpper * policy.maxGenerationBytes
  agrees : chosen settings.inherited policy (order root.verifiedRecords) =
    chosen settings.inherited policy root.finalized
  again : ∀ later memory, Reached settings Nondecreasing root later memory →
    later.finalized = root.finalized → ∀ report,
      planned settings root (order root.verifiedRecords) = .ok report →
        planned settings later (order later.verifiedRecords) =
          if policy.maxPeakBytes < footprint settings later then
            .error "observed checkpoint bytes exceed peak plan; refusing pruning"
          else .ok report
  admits : planned settings root (order root.verifiedRecords) ≠
    .error "previously retained checkpoint is missing or unverified"

theorem Keeps.again {later : CheckpointRoot} {memory : Option (List CheckpointRecord)}
    (keeps : Keeps settings policy root) (declared : settings.retention = some policy)
    (reached : Reached settings Nondecreasing root later memory)
    (same : later.finalized = root.finalized) {report : Option Report}
    (plans : planned settings root (order root.verifiedRecords) = .ok report) :
    planned settings later (order later.verifiedRecords) =
      if policy.maxPeakBytes < footprint settings later then
        .error "observed checkpoint bytes exceed peak plan; refusing pruning"
      else .ok report := by
  have start : Remains settings policy root root :=
    ⟨keeps, Nat.le_refl _, fun _ directory inside => ⟨directory, inside, rfl, rfl⟩⟩
  have remains := ((Remains.closed declared).reached start reached).1
  rw [keeps.toSound.planned_eq keeps.toSound.remembered declared] at plans
  rw [remains.toSound.planned_eq remains.toSound.remembered declared, remains.retainedRows_eq keeps same]
  split at plans
  · cases plans
  · rename_i small
    split at plans
    · cases plans
    · cases plans
      rw [if_neg small]

end

def sampleRetention : CheckpointRetention where
  milestones := [⟨"warm", 2, 0⟩]
  terminalStep := 9
  terminalTargets := 90
  maxGenerations := 5
  maxGenerationBytes := 8
  maxRetainedBytes := 40
  maxPeakBytes := 80
  reserveFreeBytes := 0
  names := by decide
  within := by decide
  generations := by decide
  retained := by decide
  peak := by decide

def sampleSettings : Settings where
  run := "run"
  encoding := ⟨fun _ => 1, fun _ => 1, fun _ => 1, 1⟩
  retention := some sampleRetention
  inherited := []
  admitted := .inl rfl

def sampleSnapshot (step : Nat) : Snapshot where
  step := step
  tokensSeen := 10 * step
  validationLoss := none
  lineageBest := none
  digest := toString step
  files := [⟨"model", 4⟩]
  manifestBytes := 2
  available := 100
  names := by simp

def sampleSave (root : CheckpointRoot) (step cut : Nat) : CheckpointRoot :=
  performAll root
    ((((Operation.save (sampleSnapshot step)).body sampleSettings false none).run root).1.take cut)

theorem sampleSave_reached {first root : CheckpointRoot} {memory : Option (List CheckpointRecord)}
    {allowed : List CheckpointRecord → Snapshot → Prop}
    (reached : Reached sampleSettings allowed first root memory) (step cut : Nat)
    (admits : allowed root.finalized (sampleSnapshot step)) :
    Reached sampleSettings allowed first (sampleSave root step cut) none :=
  (Reached.closed reached).crashed false (.save (sampleSnapshot step)) admits cut _

end SparseLab.Checkpoints
