import SparseLab.Checkpoints.KeepSets
import SparseLab.Checkpoints.Manager

/-! What a projection leaves of the generations, wherever a crash stops it. -/

namespace SparseLab.Checkpoints

open Library

/-- What is left of the directories of an earlier root, where those at `keep` are untouched. -/
structure Shrinks (keep : RelativePath → Prop) (before after : CheckpointRoot) : Prop where
  records : (after.directories.map (·.record)).Sublist (before.directories.map (·.record))
  kept : ∀ directory ∈ before.directories, keep directory.record.relativePath →
    directory ∈ after.directories
  same : ∀ directory ∈ after.directories, ∃ earlier ∈ before.directories,
    directory.record = earlier.record ∧ directory.lineageBest = earlier.lineageBest ∧
      directory.members = earlier.members ∧ directory.present.Sublist earlier.present

def Write.prunes : Write → Option RelativePath
  | .unlink path _ => some path
  | .rmdir path => some path
  | _ => none

section

variable {keep : RelativePath → Prop} {before middle : CheckpointRoot}

theorem Shrinks.of_directories {after : CheckpointRoot}
    (same : after.directories = before.directories) : Shrinks keep before after := by
  refine ⟨by rw [same], ?_, ?_⟩
  · intro directory member _
    rwa [same]
  · intro directory member
    exact ⟨directory, same ▸ member, rfl, rfl, rfl, List.Sublist.refl _⟩

theorem Shrinks.prune (shrinks : Shrinks keep before middle) {write : Write} {path : RelativePath}
    (prunes : write.prunes = some path) (unkept : ¬ keep path) :
    Shrinks keep before (middle.perform write) := by
  cases write with
  | unlink path' member =>
    cases prunes
    refine ⟨?_, ?_, ?_⟩
    · have unchanged : ((middle.perform (.unlink path member)).directories.map (·.record)) =
          middle.directories.map (·.record) := by
        simp only [CheckpointRoot.perform, List.map_map]
        refine List.map_congr_left ?_
        intro directory _
        dsimp only [Function.comp_apply]
        split <;> rfl
      rw [unchanged]
      exact shrinks.records
    · intro directory inside kept
      refine List.mem_map.mpr ⟨directory, shrinks.kept directory inside kept, ?_⟩
      rw [if_neg]
      rintro rfl
      exact unkept kept
    · intro directory inside
      obtain ⟨other, present, rfl⟩ := List.mem_map.mp inside
      obtain ⟨earlier, first, record, lineage, members, left⟩ := shrinks.same other present
      split
      · exact ⟨earlier, first, record, lineage, members,
          List.filter_sublist.trans left⟩
      · exact ⟨earlier, first, record, lineage, members, left⟩
  | rmdir path' =>
    cases prunes
    refine ⟨?_, ?_, ?_⟩
    · exact (List.filter_sublist.map _).trans shrinks.records
    · intro directory inside kept
      refine List.mem_filter.mpr ⟨shrinks.kept directory inside kept, ?_⟩
      rw [decide_eq_true_eq]
      rintro rfl
      exact unkept kept
    · intro directory inside
      exact shrinks.same directory (List.mem_of_mem_filter inside)
  | _ => cases prunes

end

structure Unpruned (before after : CheckpointRoot) : Prop where
  staging : after.staging = before.staging
  retention : after.retention = before.retention
  finalized : after.finalized = before.finalized
  latest : after.latest = before.latest
  best : after.best = before.best

theorem removal_prunes {root : CheckpointRoot} {record : CheckpointRecord} {write : Write}
    (member : write ∈ root.removal record) : write.prunes = some record.relativePath := by
  simp only [CheckpointRoot.removal, List.mem_append, List.mem_flatMap, List.mem_map,
    List.mem_singleton] at member
  obtain ⟨_, _, _, _, rfl⟩ | rfl := member <;> rfl

theorem Unpruned.prune {before middle : CheckpointRoot} (unpruned : Unpruned before middle)
    {write : Write} {path : RelativePath} (prunes : write.prunes = some path) :
    Unpruned before (middle.perform write) := by
  cases write with
  | unlink => exact ⟨unpruned.staging, unpruned.retention, unpruned.finalized, unpruned.latest,
      unpruned.best⟩
  | rmdir => exact ⟨unpruned.staging, unpruned.retention, unpruned.finalized, unpruned.latest,
      unpruned.best⟩
  | _ => cases prunes

structure Removes (keep : RelativePath → Prop) (before after : CheckpointRoot) : Prop
    extends Shrinks keep before after, Unpruned before after

section

variable {keep : RelativePath → Prop} {before root : CheckpointRoot}
  {pruned : List CheckpointRecord}

theorem pruned_writes {write : Write} (member : write ∈ pruned.flatMap root.removal) :
    ∃ record ∈ pruned, write.prunes = some record.relativePath := by
  obtain ⟨record, inside, removes⟩ := List.mem_flatMap.mp member
  exact ⟨record, inside, removal_prunes removes⟩

theorem removal_removes (unkept : ∀ record ∈ pruned, ¬ keep record.relativePath) (cut : Nat) :
    Removes keep before (performAll before ((pruned.flatMap root.removal).take cut)) := by
  refine performAll_take ?_ ⟨.of_directories rfl, rfl, rfl, rfl, rfl, rfl⟩ cut
  intro write member state removes
  obtain ⟨record, inside, prunes⟩ := pruned_writes member
  exact ⟨removes.toShrinks.prune prunes (unkept record inside), removes.toUnpruned.prune prunes⟩

def Gone (path : RelativePath) (root : CheckpointRoot) : Prop :=
  ∀ directory ∈ root.directories, directory.record.relativePath ≠ path

theorem Gone.prune {path : RelativePath} {write : Write} {state : CheckpointRoot}
    (gone : Gone path state) (prunes : write.prunes.isSome) : Gone path (state.perform write) := by
  cases write with
  | unlink other member =>
    intro directory inside
    obtain ⟨earlier, present, rfl⟩ := List.mem_map.mp inside
    split <;> exact gone earlier present
  | rmdir other =>
    intro directory inside
    exact gone directory (List.mem_of_mem_filter inside)
  | _ => cases prunes

theorem removal_gone {record : CheckpointRecord} (inside : record ∈ pruned)
    (state : CheckpointRoot) :
    Gone record.relativePath (performAll state (pruned.flatMap root.removal)) := by
  induction pruned generalizing state with
  | nil => cases inside
  | cons first rest ih =>
    rw [List.flatMap_cons, performAll_append]
    obtain rfl | later := List.mem_cons.mp inside
    · refine performAll_preserved ?_ ?_
      · intro write member state gone
        obtain ⟨_, _, prunes⟩ := pruned_writes member
        exact gone.prune (by simp [prunes])
      · rw [CheckpointRoot.removal, performAll_append]
        intro directory present
        simpa using (List.mem_filter.mp present).2
    · exact ih later _

end

inductive Projecting (settings : Settings) (root : CheckpointRoot)
    (records : List CheckpointRecord) (after : CheckpointRoot) : Prop
  | pointers (directories : after.directories = root.directories)
      (retention : after.retention = root.retention) (finalized : after.finalized = root.finalized)
      (staging : after.staging = root.staging)
  | pruning (report : Option Report) (plans : planned settings root records = .ok report)
      (retention : after.retention = report.or root.retention)
      (shrinks : Shrinks (· ∈ protectedPaths report records) root after)
      (finalized : after.finalized = root.finalized) (staging : after.staging = root.staging)

structure Projected (settings : Settings) (root : CheckpointRoot)
    (records : List CheckpointRecord) (latest : Option CheckpointRecord)
    (kept : List CheckpointRecord) (after : CheckpointRoot) : Prop where
  projecting : Projecting settings root records after
  newest : latest = records.getLast?
  sublist : kept.Sublist records
  gone : ∀ record ∈ records, record ∈ kept ∨ Gone record.relativePath after
  stays : ∀ directory ∈ root.directories, directory.record ∈ kept → directory ∈ after.directories
  latest : after.latest = latest
  best : after.best = best records

section

variable {settings : Settings} {keepPeriodic : Bool} {root : CheckpointRoot}
  {records : List CheckpointRecord}

theorem retentionCheck_survives {α : Type} {outcome : Except String α}
    {crashed : CheckpointRoot → Prop} {failed : String → CheckpointRoot → Prop}
    {done : α → CheckpointRoot → Prop} (before : crashed root)
    (refused : ∀ reason, outcome = .error reason →
      crashed { root with failure := some reason } ∧ failed reason { root with failure := some reason })
    (admitted : ∀ value, outcome = .ok value → done value root) :
    Survives (retentionCheck outcome) root crashed failed done := by
  unfold retentionCheck
  cases outcome with
  | ok value => exact survives_pure before (admitted value rfl)
  | error reason =>
    obtain ⟨crash, fail⟩ := refused reason rfl
    exact survives_bind (survives_emit before crash (survives_raise crash fail))

theorem take_pointers {first second : Write} {invariant : CheckpointRoot → Prop}
    (before : invariant root) (middle : invariant (root.perform first))
    (after : invariant ((root.perform first).perform second)) (cut : Nat) :
    invariant (performAll root ([first, second].take cut)) := by
  match cut with
  | 0 => exact before
  | 1 => exact middle
  | rest + 2 =>
    rw [List.take_of_length_le (by simp)]
    exact after

def published (root : CheckpointRoot) (records : List CheckpointRecord)
    (report : Option Report) : CheckpointRoot :=
  { root with
    latest := records.getLast?
    best := best records
    retention := report.or root.retention }

def unprotected (records : List CheckpointRecord) (report : Option Report) :
    List CheckpointRecord :=
  records.filter (not ∘ fun record => decide (record.relativePath ∈ protectedPaths report records))

theorem unprotected_removes (report : Option Report) (cut : Nat) :
    Removes (· ∈ protectedPaths report records) (published root records report)
      (performAll (published root records report)
        (((unprotected records report).flatMap root.removal).take cut)) := by
  refine removal_removes ?_ cut
  intro record member
  simpa using (List.mem_filter.mp member).2

theorem removal_projecting {report : Option Report}
    (plans : planned settings root records = .ok report) (cut : Nat) :
    Projecting settings root records (performAll (published root records report)
      (((unprotected records report).flatMap root.removal).take cut)) := by
  have removes := @unprotected_removes root records report cut
  exact .pruning report plans removes.retention
    ⟨removes.records, removes.kept, removes.same⟩ removes.finalized removes.staging

theorem removal_projected {report : Option Report} {latest : CheckpointRecord}
    (plans : planned settings root records = .ok report) (last : records.getLast? = some latest) :
    Projected settings root records (some latest)
      (records.filter fun record => decide (record.relativePath ∈ protectedPaths report records))
      (performAll (published root records report)
        ((unprotected records report).flatMap root.removal)) := by
  have whole := List.take_length (l := (unprotected records report).flatMap root.removal)
  have projecting := @removal_projecting settings root records report plans
    ((unprotected records report).flatMap root.removal).length
  have removes := @unprotected_removes root records report
    ((unprotected records report).flatMap root.removal).length
  rw [whole] at projecting removes
  refine ⟨projecting, last.symm, List.filter_sublist, ?_, ?_, removes.latest.trans last,
    removes.best⟩
  · intro record member
    by_cases kept : record.relativePath ∈ protectedPaths report records
    · exact .inl (List.mem_filter.mpr ⟨member, decide_eq_true kept⟩)
    · exact .inr (removal_gone (List.mem_filter.mpr ⟨member, by simpa using kept⟩) _)
  · intro directory member kept
    exact removes.kept directory member (of_decide_eq_true (List.mem_filter.mp kept).2)

theorem project_survives (unordered : List CheckpointRecord) :
    Survives (project settings keepPeriodic unordered) root
      (Projecting settings root (order unordered))
      (fun _ => Projecting settings root (order unordered))
      fun value => Projected settings root (order unordered) value.1 value.2 := by
  have unchanged : Projecting settings root (order unordered) root := .pointers rfl rfl rfl rfl
  unfold project
  refine survives_bind (survives_look unchanged (survives_bind ?_))
  refine retentionCheck_survives unchanged (fun _ _ => ⟨.pointers rfl rfl rfl rfl, .pointers rfl rfl rfl rfl⟩) ?_
  intro report plans
  generalize order unordered = records at *
  cases last : records.getLast? with
  | none =>
    rw [List.getLast?_eq_none_iff] at last
    subst last
    refine survives_bind (survives_emitAll ?_ (survives_pure (.pointers rfl rfl rfl rfl) ?_))
    · exact take_pointers unchanged (.pointers rfl rfl rfl rfl) (.pointers rfl rfl rfl rfl)
    · exact ⟨.pointers rfl rfl rfl rfl, rfl, List.Sublist.refl _, by simp, by simp, rfl, rfl⟩
  | some latest =>
    refine survives_bind (survives_emitAll ?_ ?_)
    · exact take_pointers unchanged (.pointers rfl rfl rfl rfl) (.pointers rfl rfl rfl rfl)
    · refine survives_ite ?_ ?_
      · intro _
        refine survives_pure (.pointers rfl rfl rfl rfl) ?_
        refine ⟨.pointers rfl rfl rfl rfl, last.symm, List.Sublist.refl _, ?_, ?_, rfl, rfl⟩
        · intro record member
          exact .inl member
        · intro directory member _
          exact member
      · intro _
        have before : performAll (performAll root [.latest (some latest), .best (best records)])
            (report.map Write.retention).toList = published root records report := by
          rw [published, last]
          cases report <;> rfl
        refine survives_bind (survives_emitAll ?_ ?_)
        · intro cut
          obtain none | some := cut
          · exact .pointers rfl rfl rfl rfl
          · rw [List.take_of_length_le (by cases report <;> simp), before]
            exact removal_projecting plans 0
        · rw [before]
          simp only [List.partition_eq_filter_filter]
          refine survives_bind (survives_emitAll (removal_projecting plans) (survives_pure ?_ ?_))
          · exact (removal_projected plans last).projecting
          · exact removal_projected plans last

end

end SparseLab.Checkpoints
