import Mathlib.Algebra.Order.BigOperators.Group.List
import Mathlib.Algebra.Order.Group.Nat
import SparseLab.Checkpoints.Runs

/-!
What `retention.json` says of a root that managers leave, and what is left to refuse in `plan`.
-/

namespace SparseLab.Checkpoints

open Library

/-- What `plan` checks before it reports. -/
structure Admissible (inherited : List Row) (policy : CheckpointRetention) (run : String)
    (report : Option Report) (bytes : CheckpointRecord → Nat) (peak : Nat)
    (records : List CheckpointRecord) : Prop where
  previous : ∀ earlier, report = some earlier → ∀ row ∈ earlier.retained,
    observed inherited records row = some row.manifestSha256
  inheritedSmall : ∀ row ∈ inherited, row.fullDirectoryBytes ≤ policy.maxGenerationBytes
  small : ∀ record ∈ keepSet inherited policy records, bytes record ≤ policy.maxGenerationBytes
  count : (retainedRows inherited policy run records bytes).length ≤ policy.maxGenerations
  total : ((retainedRows inherited policy run records bytes).map (·.fullDirectoryBytes)).sum ≤
    policy.maxRetainedBytes
  peak : peak ≤ policy.maxPeakBytes

section

variable {inherited : List Row} {policy : CheckpointRetention} {run : String}
  {report : Option Report} {bytes : CheckpointRecord → Nat} {peak : Nat}
  {records : List CheckpointRecord}

theorem plan_eq_ok {planned : Report} :
    plan inherited policy run report bytes peak records = .ok planned ↔
      Admissible inherited policy run report bytes peak records ∧
        planned = { policy, retained := retainedRows inherited policy run records bytes } := by
  have previous : (∃ row ∈ (report.map Report.retained).getD [],
      observed inherited records row ≠ some row.manifestSha256) ↔
        ¬ ∀ earlier, report = some earlier → ∀ row ∈ earlier.retained,
          observed inherited records row = some row.manifestSha256 := by
    cases report <;> simp
  unfold plan
  dsimp only
  rw [if_congr previous rfl rfl]
  constructor
  · intro admits
    split at admits
    · cases admits
    · rename_i retained
      split at admits
      · cases admits
      · rename_i small
        split at admits
        · cases admits
        · rename_i small'
          split at admits
          · cases admits
          · rename_i limits
            split at admits
            · cases admits
            · rename_i peaks
              cases admits
              simp only [not_exists, not_and, Nat.not_lt, not_or] at small small' limits peaks
              exact ⟨⟨not_not.mp retained, small, small', limits.1, limits.2, peaks⟩, rfl⟩
  · rintro ⟨admissible, rfl⟩
    rw [if_neg (not_not.mpr admissible.previous), if_neg, if_neg, if_neg, if_neg]
    · exact Nat.not_lt.mpr admissible.peak
    · exact not_or.mpr ⟨Nat.not_lt.mpr admissible.count, Nat.not_lt.mpr admissible.total⟩
    · rintro ⟨record, member, large⟩
      exact absurd (admissible.small record member) (Nat.not_le.mpr large)
    · rintro ⟨row, member, large⟩
      exact absurd (admissible.inheritedSmall row member) (Nat.not_le.mpr large)

theorem mem_retainedRows {row : Row} :
    row ∈ retainedRows inherited policy run records bytes ↔
      row ∈ inherited ∨ ∃ record ∈ keepSet inherited policy records,
        row = localRow inherited policy run records bytes record := by
  simp [retainedRows, eq_comm]

end

section

variable {settings : Settings} {policy : CheckpointRetention}

theorem Settings.binds (declared : settings.retention = some policy) :
    ∃ reached : List Milestone, reached.Sublist policy.milestones ∧
      Binds reached settings.inherited := by
  obtain nothing | ⟨policy', report, step, tokens, declared', selected⟩ := settings.admitted
  · rw [nothing]
    exact ⟨[], List.nil_sublist _, Nat.le_refl _, by simp, by simp, .nil⟩
  · rw [declared, Option.some.injEq] at declared'
    subst declared'
    exact ⟨_, List.filter_sublist, inheritedMilestones_binds selected⟩

theorem Settings.foreign (declared : settings.retention = some policy) {row : Row}
    (member : row ∈ settings.inherited) : row.isLocal = false := by
  obtain ⟨_, _, binds⟩ := Settings.binds declared
  exact binds.foreign row member

theorem Settings.keepSet_length (declared : settings.retention = some policy)
    {records : List CheckpointRecord} (distinct : Distinct records) :
    settings.inherited.length + (keepSet settings.inherited policy records).length ≤
      policy.retainedUpper := by
  obtain ⟨reached, sublist, binds⟩ := Settings.binds declared
  have own := binds.own_length sublist
  have kept : (keepSet settings.inherited policy records).length ≤ _ :=
    Checkpoints.keepSet_length distinct
  unfold CheckpointRetention.retainedUpper
  omega

def Apart (rows : List Row) : Prop :=
  rows.Pairwise fun first second =>
    ∀ name, .milestone name ∈ first.roles → .milestone name ∉ second.roles

theorem retainedRows_apart (declared : settings.retention = some policy)
    {records : List CheckpointRecord} (distinct : Distinct records) (run : String)
    (bytes : CheckpointRecord → Nat) :
    Apart (retainedRows settings.inherited policy run records bytes) := by
  obtain ⟨reached, sublist, binds⟩ := Settings.binds declared
  unfold Apart retainedRows
  rw [List.pairwise_append]
  refine ⟨binds.apart.imp fun apart name => apart.2 (.milestone name), ?_, ?_⟩
  · rw [List.pairwise_map]
    have kept : Distinct (keepSet settings.inherited policy records) :=
      distinct.sublist List.filter_sublist
    refine kept.nodup.imp_of_mem ?_
    intro first second member member' different name named named'
    obtain ⟨record, ⟨milestone, own, rfl, found⟩, path⟩ := mem_rolesOf.mp named
    obtain ⟨record', ⟨milestone', own', same, found'⟩, path'⟩ := mem_rolesOf.mp named'
    have equal : milestone' = milestone :=
      List.inj_on_of_nodup_map policy.names (List.mem_of_mem_filter own')
        (List.mem_of_mem_filter own) same
    rw [equal, found, Option.some.injEq] at found'
    subst found'
    exact different (distinct.path_eq (List.mem_of_mem_filter member)
      (List.mem_of_mem_filter member') (path.symm.trans path'))
  · intro row member other member' name named named'
    obtain ⟨record, _, rfl⟩ := List.mem_map.mp member'
    obtain ⟨_, ⟨milestone, own, rfl, _⟩, _⟩ := mem_rolesOf.mp named'
    have unbound := of_decide_eq_true (List.mem_filter.mp own).2
    exact unbound (List.mem_flatMap.mpr ⟨row, member, named⟩)

structure Reported (settings : Settings) (root : CheckpointRoot) (report : Report) : Prop where
  declared : settings.retention = some report.policy
  rows : ∀ row ∈ report.retained, row ∈ settings.inherited ∨ row.isLocal = true ∧
    ∃ record, Intact root record ∧ row.relativePath = record.relativePath ∧
      row.manifestSha256 = record.manifestSha256
  inherits : ∀ row ∈ settings.inherited, row ∈ report.retained
  count : report.retained.length ≤ report.policy.retainedUpper
  small : ∀ row ∈ report.retained, row.fullDirectoryBytes ≤ report.policy.maxGenerationBytes
  apart : Apart report.retained

theorem Reported.intact {root after : CheckpointRoot} {report : Report}
    (reported : Reported settings root report)
    (intact : ∀ record, Intact root record → Intact after record) :
    Reported settings after report := by
  refine ⟨reported.declared, ?_, reported.inherits, reported.count, reported.small,
    reported.apart⟩
  intro row member
  obtain inherited | ⟨isLocal, record, present, same⟩ := reported.rows row member
  · exact .inl inherited
  · exact .inr ⟨isLocal, record, intact record present, same⟩

theorem find?_eq_of {α : Type} {items : List α} {test : α → Bool} {item : α} (member : item ∈ items)
    (passes : test item = true) (only : ∀ other ∈ items, test other = true → other = item) :
    items.find? test = some item := by
  cases found : items.find? test with
  | none =>
    rw [List.find?_eq_none] at found
    exact absurd passes (found item member)
  | some other =>
    rw [only other (List.mem_of_find?_eq_some found) (List.find?_some found)]

theorem Remembers.order {root : CheckpointRoot} {records : List CheckpointRecord}
    (remembers : Remembers root records) : Remembers root (order records) := by
  refine ⟨remembers.distinct.order, ?_⟩
  intro record
  rw [mem_order]
  exact remembers.intact record

theorem Reported.observed {root : CheckpointRoot} {report : Report}
    (reported : Reported settings root report) {records : List CheckpointRecord}
    (remembers : Remembers root records) {row : Row} (member : row ∈ report.retained) :
    observed settings.inherited records row = some row.manifestSha256 := by
  unfold Checkpoints.observed
  obtain inherited | ⟨isLocal, record, present, path, digest⟩ := reported.rows row member
  · rw [if_neg (by simp [Settings.foreign reported.declared inherited])]
    obtain ⟨_, _, binds⟩ := Settings.binds reported.declared
    rw [find?_eq_of inherited (by simp)]
    · rfl
    · intro other inside same
      have located : (settings.inherited.map (·.verifiedLocation)).Nodup :=
        List.pairwise_map.mpr (binds.apart.imp And.left)
      exact List.inj_on_of_nodup_map located inside inherited (of_decide_eq_true same)
  · have listed := (remembers.intact record).mpr present
    rw [if_pos isLocal, find?_eq_of listed (by simp [path])]
    · simp [digest]
    · intro other inside same
      rw [decide_eq_true_eq, path] at same
      exact remembers.distinct.path_eq inside listed same

end

structure Sound (settings : Settings) (root : CheckpointRoot) : Prop where
  distinct : Distinct (root.directories.map (·.record))
  finalized : ∀ directory ∈ root.directories, directory.record ∈ root.finalized
  part : ∀ directory ∈ root.directories, directory.members.Nodup ∧
    directory.present.Sublist directory.members
  small : ∀ policy, settings.retention = some policy → ∀ directory ∈ root.directories,
    (directory.members.map (·.bytes)).sum ≤ policy.maxGenerationBytes
  reported : ∀ report, root.retention = some report → Reported settings root report
  newest : ∀ record ∈ root.finalized, ∃ latest, Intact root latest ∧ record.place ≤ latest.place

section

variable {settings : Settings} {root after : CheckpointRoot} {records : List CheckpointRecord}

theorem Sound.empty : Sound settings .empty :=
  ⟨List.nodup_nil, by simp [CheckpointRoot.empty], by simp [CheckpointRoot.empty],
    by simp [CheckpointRoot.empty], by simp [CheckpointRoot.empty], by simp [CheckpointRoot.empty]⟩

theorem Sound.remembered (sound : Sound settings root) : Remembers root root.verifiedRecords :=
  ⟨verifiedRecords_distinct sound.distinct, fun _ => mem_verifiedRecords⟩

theorem bytesOf_eq (sound : Sound settings root) {directory : Directory}
    (inside : directory ∈ root.directories) :
    root.bytesOf directory.record = directory.bytes := by
  unfold CheckpointRoot.bytesOf
  rw [find?_eq_of inside (by simp)]
  · rfl
  · intro other present same
    have equal := sound.distinct.path_eq (List.mem_map_of_mem present) (List.mem_map_of_mem inside)
      (of_decide_eq_true same)
    exact List.inj_on_of_nodup_map (List.Nodup.of_map _ sound.distinct) present inside equal

theorem bytesOf_small (sound : Sound settings root) {policy : CheckpointRetention}
    (declared : settings.retention = some policy) {record : CheckpointRecord}
    (intact : Intact root record) : root.bytesOf record ≤ policy.maxGenerationBytes := by
  obtain ⟨directory, inside, _, rfl⟩ := intact
  rw [bytesOf_eq sound inside]
  refine Nat.le_trans ?_ (sound.small policy declared directory inside)
  exact ((sound.part directory inside).2.map _).sum_le_sum (by simp)

theorem order_last {latest : CheckpointRecord} (last : (order records).getLast? = some latest)
    {record : CheckpointRecord} (member : record ∈ order records) :
    record.place ≤ latest.place := by
  have sorted : (order records).Pairwise fun first second => first.place ≤ second.place :=
    List.pairwise_insertionSort (r := fun first second : CheckpointRecord => first.place ≤ second.place) records
  have split := List.dropLast_append_getLast? latest last
  rw [← split, List.pairwise_append] at sorted
  rw [← split, List.mem_append, List.mem_singleton] at member
  obtain before | rfl := member
  · exact sorted.2.2 record before latest (List.mem_singleton_self latest)
  · exact le_rfl

theorem planned_eq_ok {report : Option Report} :
    planned settings root records = .ok report ↔
      (settings.retention = none ∧ report = none) ∨
      ∃ policy, settings.retention = some policy ∧
        Admissible settings.inherited policy settings.run root.retention root.bytesOf
          (footprint settings root) records ∧
        report = some
          { policy, retained := retainedRows settings.inherited policy settings.run records
              root.bytesOf } := by
  unfold planned
  cases declared : settings.retention with
  | none => simp [eq_comm]
  | some policy =>
    simp only [reduceCtorEq, false_and, false_or, Option.some.injEq, exists_eq_left']
    cases result : plan settings.inherited policy settings.run root.retention root.bytesOf
        (footprint settings root) records with
    | error reason =>
      simp only [Except.map, reduceCtorEq, false_iff, not_and]
      intro admissible
      have returned := plan_eq_ok.mpr ⟨admissible, rfl⟩
      rw [result] at returned
      cases returned
    | ok report' =>
      obtain ⟨admissible, rfl⟩ := plan_eq_ok.mp result
      simp [Except.map, admissible, eq_comm]

theorem mem_protectedPaths_plan {policy : CheckpointRetention} {report : Option Report}
    (declared : settings.retention = some policy)
    (plans : planned settings root records = .ok report) {path : RelativePath} :
    path ∈ protectedPaths report records ↔
      ∃ record ∈ keepSet settings.inherited policy records, record.relativePath = path := by
  obtain ⟨unlimited, _⟩ | ⟨policy', declared', _, rfl⟩ := planned_eq_ok.mp plans
  · rw [unlimited] at declared
    cases declared
  · rw [declared, Option.some.injEq] at declared'
    subst declared'
    simp only [protectedPaths, List.mem_map, List.mem_filter, mem_retainedRows]
    constructor
    · rintro ⟨row, ⟨inherited | ⟨record, kept, rfl⟩, isLocal⟩, rfl⟩
      · simp [Settings.foreign declared inherited] at isLocal
      · exact ⟨record, kept, rfl⟩
    · rintro ⟨record, kept, rfl⟩
      exact ⟨_, ⟨.inr ⟨record, kept, rfl⟩, rfl⟩, rfl⟩

theorem last_two {last : CheckpointRecord} (final : records.getLast? = some last) :
    last ∈ records.drop (records.length - 2) ∧
      ∀ previous, records.dropLast.getLast? = some previous →
        previous ∈ records.drop (records.length - 2) := by
  have whole := List.dropLast_append_getLast? last final
  generalize records.dropLast = before at whole
  subst whole
  constructor
  · rw [List.drop_append_of_le_length (by simp)]
    simp
  · intro previous later
    have shorter := List.dropLast_append_getLast? previous later
    generalize before.dropLast = first at shorter
    subst shorter
    simp

theorem protected_pointers {report : Option Report} (distinct : Distinct records)
    (plans : planned settings root records = .ok report) {record : CheckpointRecord}
    (pointer : records.getLast? = some record ∨ records.dropLast.getLast? = some record ∨
      best records = some record) :
    record.relativePath ∈ protectedPaths report records := by
  obtain ⟨unlimited, rfl⟩ | ⟨policy, declared, _, _⟩ := planned_eq_ok.mp plans
  · simp only [protectedPaths, List.mem_append, List.mem_map, Option.mem_toList,
      Option.map_eq_some_iff]
    obtain last | previous | least := pointer
    · exact .inl ⟨record, (last_two last).1, rfl⟩
    · cases final : records.getLast? with
      | none =>
        rw [List.getLast?_eq_none_iff] at final
        simp [final] at previous
      | some last => exact .inl ⟨record, (last_two final).2 record previous, rfl⟩
    · exact .inr ⟨record, least, rfl⟩
  · rw [mem_protectedPaths_plan declared plans]
    refine ⟨record, (mem_keepSet distinct).mpr ?_, rfl⟩
    obtain last | previous | least := pointer
    · exact ⟨.latest, last⟩
    · exact ⟨.previous, previous⟩
    · exact ⟨.best, least⟩

theorem Shrinks.intact {keep : RelativePath → Prop} (shrinks : Shrinks keep root after)
    {record : CheckpointRecord} (intact : Intact root record) (kept : keep record.relativePath) :
    Intact after record := by
  obtain ⟨directory, inside, verified, rfl⟩ := intact
  exact ⟨directory, shrinks.kept directory inside kept, verified, rfl⟩

theorem planned_reported {policy : CheckpointRetention}
    (remembers : Remembers root records) (declared : settings.retention = some policy)
    (admissible : Admissible settings.inherited policy settings.run root.retention root.bytesOf
      (footprint settings root) (order records)) :
    Reported settings root
      { policy, retained := retainedRows settings.inherited policy settings.run (order records)
          root.bytesOf } := by
  refine ⟨declared, ?_, ?_, ?_, ?_, retainedRows_apart declared remembers.distinct.order _ _⟩
  · intro row member
    obtain inherited | ⟨record, kept, rfl⟩ := mem_retainedRows.mp member
    · exact .inl inherited
    · have listed := mem_order.mp (List.mem_of_mem_filter kept)
      exact .inr ⟨rfl, record, (remembers.intact record).mp listed, rfl, rfl⟩
  · intro row member
    exact mem_retainedRows.mpr (.inl member)
  · have bounded := Settings.keepSet_length declared remembers.distinct.order
    simpa [retainedRows] using bounded
  · intro row member
    obtain inherited | ⟨record, kept, rfl⟩ := mem_retainedRows.mp member
    · exact admissible.inheritedSmall row inherited
    · exact admissible.small record kept

theorem retained_total {rows : List Row} {most count : Nat}
    (small : ∀ row ∈ rows, row.fullDirectoryBytes ≤ most) (few : rows.length ≤ count) :
    (rows.map (·.fullDirectoryBytes)).sum ≤ count * most := by
  refine Nat.le_trans ?_ (Nat.mul_le_mul_right most few)
  clear few
  induction rows with
  | nil => simp
  | cons row rows ih =>
    have first := small row List.mem_cons_self
    have rest := ih fun row member => small row (List.mem_cons_of_mem _ member)
    simp only [List.map_cons, List.sum_cons, List.length_cons, Nat.succ_mul]
    omega

theorem Sound.plan_eq {policy : CheckpointRetention} (sound : Sound settings root)
    (remembers : Remembers root records) (declared : settings.retention = some policy)
    (peak : Nat) :
    plan settings.inherited policy settings.run root.retention root.bytesOf peak (order records) =
      if ∃ row ∈ settings.inherited, policy.maxGenerationBytes < row.fullDirectoryBytes then
        .error "inherited checkpoint exceeds declared per-generation bytes"
      else if policy.maxPeakBytes < peak then
        .error "observed checkpoint bytes exceed peak plan; refusing pruning"
      else
        .ok
          { policy, retained := retainedRows settings.inherited policy settings.run (order records)
              root.bytesOf } := by
  unfold plan
  dsimp only
  rw [if_neg]
  · by_cases large : ∃ row ∈ settings.inherited, policy.maxGenerationBytes < row.fullDirectoryBytes
    · rw [if_pos large, if_pos large]
    · have small : ∀ record ∈ keepSet settings.inherited policy (order records),
          root.bytesOf record ≤ policy.maxGenerationBytes := by
        intro record kept
        exact bytesOf_small sound declared
          ((remembers.intact record).mp (mem_order.mp (List.mem_of_mem_filter kept)))
      have count : (retainedRows settings.inherited policy settings.run (order records)
          root.bytesOf).length ≤ policy.milestones.length + 4 := by
        have bounded := Settings.keepSet_length declared remembers.distinct.order
        simpa [retainedRows, CheckpointRetention.retainedUpper] using bounded
      have total : _ ≤ _ * policy.maxGenerationBytes := retained_total ?_ count
      · have generations := policy.generations
        have retained := policy.retained
        rw [if_neg large, if_neg large, if_neg, if_neg]
        · omega
        · rintro ⟨record, kept, exceeds⟩
          exact absurd (small record kept) (Nat.not_le.mpr exceeds)
      · intro row member
        obtain inherited | ⟨record, kept, rfl⟩ := mem_retainedRows.mp member
        · exact Nat.not_lt.mp fun exceeds => large ⟨row, inherited, exceeds⟩
        · exact small record kept
  · rintro ⟨row, member, missing⟩
    cases current : root.retention with
    | none => simp [current] at member
    | some report =>
      rw [current] at member
      exact missing ((sound.reported report current).observed remembers.order member)

theorem Sound.planned_eq {policy : CheckpointRetention} (sound : Sound settings root)
    (remembers : Remembers root records) (declared : settings.retention = some policy) :
    planned settings root (order records) =
      if ∃ row ∈ settings.inherited, policy.maxGenerationBytes < row.fullDirectoryBytes then
        .error "inherited checkpoint exceeds declared per-generation bytes"
      else if policy.maxPeakBytes < footprint settings root then
        .error "observed checkpoint bytes exceed peak plan; refusing pruning"
      else
        .ok (some
          { policy, retained := retainedRows settings.inherited policy settings.run
              (order records) root.bytesOf }) := by
  unfold planned
  rw [declared]
  dsimp only
  rw [sound.plan_eq remembers declared]
  split
  · rfl
  · split <;> rfl

theorem Sound.shrinks {keep : RelativePath → Prop} (sound : Sound settings root)
    (shrinks : Shrinks keep root after) (finalized : after.finalized = root.finalized)
    (newest : ∀ record, Intact root record → ∃ latest, Intact after latest ∧
      record.place ≤ latest.place)
    (reported : ∀ report, after.retention = some report → Reported settings after report) :
    Sound settings after := by
  refine ⟨sound.distinct.sublist shrinks.records, ?_, ?_, ?_, reported, ?_⟩
  · intro directory inside
    obtain ⟨earlier, before, same, _⟩ := shrinks.same directory inside
    rw [finalized, same]
    exact sound.finalized earlier before
  · intro directory inside
    obtain ⟨earlier, before, _, _, members, present⟩ := shrinks.same directory inside
    rw [members]
    exact (sound.part earlier before).imp id present.trans
  · intro policy declared directory inside
    obtain ⟨earlier, before, _, _, members, _⟩ := shrinks.same directory inside
    rw [members]
    exact sound.small policy declared earlier before
  · intro record member
    rw [finalized] at member
    obtain ⟨latest, intact, before⟩ := sound.newest record member
    obtain ⟨latest', intact', before'⟩ := newest latest intact
    exact ⟨latest', intact', before.trans before'⟩

theorem Sound.idle (sound : Sound settings root) (directories : after.directories = root.directories)
    (finalized : after.finalized = root.finalized) (retention : after.retention = root.retention) :
    Sound settings after := by
  have intact : ∀ record, Intact root record → Intact after record := by
    intro record present
    rwa [Intact, directories]
  refine sound.shrinks (@Shrinks.of_directories (fun _ => True) _ _ directories) finalized ?_ ?_
  · intro record present
    exact ⟨record, intact record present, le_rfl⟩
  · intro report current
    rw [retention] at current
    exact (sound.reported report current).intact intact

theorem Sound.project (sound : Sound settings root) (remembers : Remembers root records)
    (projecting : Projecting settings root (order records) after) : Sound settings after := by
  cases projecting with
  | pointers directories retention finalized staging =>
    exact sound.idle directories finalized retention
  | pruning report plans retention shrinks finalized staging =>
    refine sound.shrinks shrinks finalized ?_ ?_
    · intro record present
      have listed := mem_order.mpr ((remembers.intact record).mpr present)
      cases last : (order records).getLast? with
      | none =>
        rw [List.getLast?_eq_none_iff] at last
        simp [last] at listed
      | some latest =>
        have there : Intact root latest :=
          (remembers.intact latest).mp (mem_order.mp (List.mem_of_getLast? last))
        exact ⟨latest, shrinks.intact there
          (protected_pointers remembers.distinct.order plans (.inl last)), order_last last listed⟩
    · intro current published
      rw [retention] at published
      obtain ⟨unlimited, rfl⟩ | ⟨policy, declared, admissible, rfl⟩ := planned_eq_ok.mp plans
      · have declared := (sound.reported current published).declared
        rw [unlimited] at declared
        cases declared
      · rw [Option.some_or, Option.some.injEq] at published
        subst published
        have reported := planned_reported remembers declared admissible
        refine ⟨reported.declared, ?_, reported.inherits, reported.count, reported.small,
          reported.apart⟩
        intro row member
        obtain inherited | ⟨record, kept, rfl⟩ := mem_retainedRows.mp member
        · exact .inl inherited
        · have listed := mem_order.mp (List.mem_of_mem_filter kept)
          refine .inr ⟨rfl, record, ?_, rfl, rfl⟩
          exact shrinks.intact ((remembers.intact record).mp listed)
            ((mem_protectedPaths_plan declared plans).mpr ⟨record, kept, rfl⟩)

theorem Intact.withGeneration {record : CheckpointRecord} (intact : Intact root record)
    (snapshot : Snapshot) : Intact (withGeneration root snapshot) record := by
  obtain ⟨directory, inside, verified, rfl⟩ := intact
  exact ⟨directory, List.mem_append_left _ inside, verified, rfl⟩

theorem intact_new (root : CheckpointRoot) (snapshot : Snapshot) :
    Intact (withGeneration root snapshot) (snapshot.record root.nextGeneration) :=
  ⟨_, List.mem_append_right _ (List.mem_singleton_self _), verified_of_present rfl, rfl⟩

theorem Snapshot.members_nodup (snapshot : Snapshot) : snapshot.members.Nodup := by
  refine List.Nodup.of_map (·.name) ?_
  simpa [Snapshot.members] using snapshot.names

theorem Sound.withGeneration (sound : Sound settings root) (snapshot : Snapshot)
    (fits : ∀ policy, settings.retention = some policy →
      snapshot.bytes ≤ policy.maxGenerationBytes) :
    Sound settings (withGeneration root snapshot) := by
  refine ⟨?_, ?_, ?_, ?_, ?_, ?_⟩
  · unfold Distinct Checkpoints.withGeneration
    rw [List.map_append, List.map_append, List.nodup_append]
    refine ⟨sound.distinct, by simp, ?_⟩
    intro generation member new inside same
    simp only [List.map_map, List.mem_map, Function.comp_apply] at member
    obtain ⟨directory, present, rfl⟩ := member
    simp only [List.map_cons, List.map_nil, List.mem_singleton, Snapshot.record] at inside
    have older := lt_nextGeneration present
    omega
  · intro directory inside
    obtain before | new := List.mem_append.mp inside
    · exact List.mem_append_left _ (sound.finalized directory before)
    · rw [List.mem_singleton.mp new]
      exact List.mem_append_right _ (List.mem_singleton_self _)
  · intro directory inside
    obtain before | new := List.mem_append.mp inside
    · exact sound.part directory before
    · rw [List.mem_singleton.mp new]
      exact ⟨snapshot.members_nodup, List.Sublist.refl _⟩
  · intro policy declared directory inside
    obtain before | new := List.mem_append.mp inside
    · exact sound.small policy declared directory before
    · rw [List.mem_singleton.mp new]
      exact fits policy declared
  · intro report current
    exact (sound.reported report current).intact fun _ intact => intact.withGeneration snapshot
  · intro record member
    obtain before | new := List.mem_append.mp member
    · obtain ⟨latest, intact, above⟩ := sound.newest record before
      exact ⟨latest, intact.withGeneration snapshot, above⟩
    · rw [List.mem_singleton.mp new]
      exact ⟨_, intact_new root snapshot, le_rfl⟩

theorem Sound.closed (allowed : List CheckpointRecord → Snapshot → Prop) :
    Closed settings allowed (Sound settings) where
  distinct _ sound := sound.distinct
  idle _ _ sound directories finalized retention := sound.idle directories finalized retention
  project _ _ _ sound remembers projecting := sound.project remembers projecting
  finalize _ snapshot sound _ fits := sound.withGeneration snapshot fits

end

end SparseLab.Checkpoints
