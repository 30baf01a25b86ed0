import SparseLab.Data.Recoverability

/-! What a recovery removes when cleanups before it were stopped anywhere. -/

namespace SparseLab.Data

open Library

variable {settings : Settings} {disk : Disk} {groups : Split → List (List Record)}
  {ledgers : Split → SplitChunks}

def stoppedRecoveries (settings : Settings) (disk : Disk) : List Nat → Disk
  | [] => disk
  | cut :: cuts =>
    stoppedRecoveries settings
      (disk.performAll ((recoverPublished settings disk).actions.take cut)) cuts

def recovered (settings : Settings) (disk : Disk) : Disk :=
  disk.performAll (recoverPublished settings disk).actions

/-- The next run completes the cleanup of a directory that was `before` when it was published. -/
structure CompletesCleanup (settings : Settings) (before disk : Disk) : Prop where
  accepted : resume settings disk true = .ok ()
  chunks : ∀ split index part,
    (recovered settings disk).read (.entry .root (.chunk split index part)) = none
  markers : ∀ name ∈ [Name.staging, Name.stagingTmp],
    (recovered settings disk).read (.entry .root name) = none
  present : ∀ name ∈ Name.manifest :: finalNames settings, before.read (.entry .root name) ≠ none
  kept : ∀ name ∈ Name.manifest :: finalNames settings,
    disk.read (.entry .root name) = before.read (.entry .root name) ∧
      (recovered settings disk).read (.entry .root name) = before.read (.entry .root name)
  again : resume settings (recovered settings disk) true = .ok () ∧
    (recoverPublished settings (recovered settings disk)).actions = []

structure Emptied (settings : Settings) (disk : Disk) (groups : Split → List (List Record)) :
    Prop extends Cleaned settings disk groups where
  chunks : ∀ split index part, disk.read (.entry .root (.chunk split index part)) = none
  temporary : disk.read (.entry .root .stagingTmp) = none

def Shrinking (settings : Settings) (disk : Disk) (groups : Split → List (List Record)) : Prop :=
  Published settings disk groups ∨ Cleaning settings disk groups ∨ Emptied settings disk groups

section

theorem Cleaning.emptied (cleaning : Cleaning settings disk groups) {cut : Nat}
    (cleaned : Cleaned settings (disk.performAll ((removals settings groups).take cut)) groups) :
    Emptied settings (disk.performAll ((removals settings groups).take cut)) groups := by
  -- While anything else is left to remove, the marker is there.
  have gone : ∀ name ∈ doomed settings groups,
      (disk.performAll ((removals settings groups).take cut)).read (.entry .root name) = none := by
    rw [removals_eq] at cleaned ⊢
    rcases Volume.cut_append disk _ [.unlink (.entry .root .staging)] cut with
      inside | ⟨rest, later⟩
    · rw [inside, ← List.map_take, ← List.map_take] at cleaned
      have still := cleaning.unlinks fun name (member : name ∈ (doomed settings groups).take cut) =>
        owned_of_doomed (List.mem_of_mem_take member)
      have marker := still.marker
      rw [cleaned.marker] at marker
      cases marker
    · intro name member
      rw [later]
      have listed := List.mem_map_of_mem (f := Path.entry .root) member
      have removed := Volume.read_unlinkAll disk (.inl listed)
      cases rest with
      | zero => exact removed
      | succ rest =>
        rw [List.take_succ_cons, List.take_nil]
        change ((disk.performAll _).performAll
          ([Path.entry .root .staging].map fun path => .unlink path)).read _ = none
        exact Volume.read_unlinkAll _ (.inr removed)
  refine ⟨cleaned, ?_, gone _ (by simp [doomed])⟩
  intro split index part
  by_contra present
  have file := owned_of_inventory (cleaned.inventory _ present)
  exact present (gone _ (List.mem_append_left _ (mem_removedNames.mpr file)))

theorem Cleaning.shrinks (cleaning : Cleaning settings disk groups) (cut : Nat) :
    Shrinking settings (disk.performAll ((removals settings groups).take cut)) groups :=
  .inr ((cleaning.removals_cut cut).imp_right cleaning.emptied)

theorem Cleaning.removed (cleaning : Cleaning settings disk groups) :
    Emptied settings (disk.performAll (removals settings groups)) groups := by
  have unmarked : (disk.performAll (removals settings groups)).read (.entry .root .staging) =
      none := by
    rw [removals, Volume.performAll_append]
    exact Volume.read_unlink_self _ _
  have whole := cleaning.removals_cut (removals settings groups).length
  rw [List.take_length] at whole
  rcases whole with still | cleaned
  · rw [still.marker] at unmarked
    cases unmarked
  · rw [← List.take_length (l := removals settings groups)] at cleaned ⊢
    exact cleaning.emptied cleaned

end

section

theorem Emptied.resume (emptied : Emptied settings disk groups) :
    Data.resume settings disk true = .ok () ∧ (recoverPublished settings disk).actions = [] := by
  constructor
  · simp only [Data.resume, if_true, emptied.marker]
  · simp only [recoverPublished, readOwner, emptied.marker]

theorem Published.cleanup (published : Published settings disk groups)
    (agrees : Agrees settings groups ledgers)
    (bounded : ∀ split, (groups split).length ≤ sortableChunks) :
    (cleanupPublished settings disk ledgers).result = .ok () ∧
      (∀ cut, Shrinking settings
        (disk.performAll ((cleanupPublished settings disk ledgers).actions.take cut)) groups) ∧
      Emptied settings
        (disk.performAll (cleanupPublished settings disk ledgers).actions) groups := by
  obtain ⟨cuts, cleaning⟩ := published.commit_cut
  rw [published.cleanupPublished_eq agrees bounded]
  refine ⟨rfl, ?_, ?_⟩
  · intro cut
    rcases Volume.cut_append disk (commitCleanup settings (cleanupOf settings groups))
      (removals settings groups) cut with inside | ⟨rest, later⟩
    · rw [inside]
      exact (cuts cut).imp_right .inl
    · rw [later]
      exact cleaning.shrinks rest
  · rw [Volume.performAll_append]
    exact cleaning.removed

theorem Shrinking.recovers (shrinking : Shrinking settings disk groups)
    (bounded : ∀ split, (groups split).length ≤ sortableChunks) :
    resume settings disk true = .ok () ∧
      (∀ cut, Shrinking settings
        (disk.performAll ((recoverPublished settings disk).actions.take cut)) groups) ∧
      Emptied settings (recovered settings disk) groups := by
  rcases shrinking with published | cleaning | emptied
  · obtain ⟨ledgers, opened, agrees⟩ := published.openSplits_ok bounded
    have checked : checkManifest settings disk none (some ledgers) = .ok () :=
      published.checkManifest_ok (by simp) fun _ found => Option.some.inj found ▸ agrees
    have recoverEq : recoverPublished settings disk = cleanupPublished settings disk ledgers := by
      simp only [recoverPublished, readOwner, published.marker, ne_eq, not_true_eq_false,
        ↓reduceIte, opened, checked]
    obtain ⟨result, cuts, emptied⟩ := published.cleanup agrees bounded
    simp only [resume, if_true, published.marker, recovered, recoverEq]
    exact ⟨result, cuts, emptied⟩
  · have checked : checkManifest settings disk (some (cleanupOf settings groups)) none = .ok () :=
      cleaning.checkManifest_ok (fun _ found => (Option.some.inj found).symm) (by simp)
    have recoverEq : recoverPublished settings disk =
        { actions := removals settings groups, result := .ok () } := by
      simp only [recoverPublished, readOwner, cleaning.marker, ne_eq, not_true_eq_false,
        ↓reduceIte, checked, cleaning.finishCleanup_eq bounded]
    simp only [resume, if_true, cleaning.marker, recovered, recoverEq]
    exact ⟨trivial, cleaning.shrinks, cleaning.removed⟩
  · obtain ⟨accepted, idle⟩ := emptied.resume
    rw [recovered, idle]
    refine ⟨accepted, fun cut => ?_, emptied⟩
    rw [List.take_nil]
    exact .inr (.inr emptied)

theorem Shrinking.stopped (shrinking : Shrinking settings disk groups)
    (bounded : ∀ split, (groups split).length ≤ sortableChunks) (cuts : List Nat) :
    Shrinking settings (stoppedRecoveries settings disk cuts) groups := by
  induction cuts generalizing disk with
  | nil => exact shrinking
  | cons cut cuts ih => exact ih ((shrinking.recovers bounded).2.1 cut)

theorem Shrinking.prepared (shrinking : Shrinking settings disk groups) :
    Prepared settings disk groups := by
  rcases shrinking with published | cleaning | emptied
  · exact published.toPrepared
  · exact cleaning.toPrepared
  · exact emptied.toPrepared

theorem Prepared.kept_eq {other : Disk} (prepared : Prepared settings disk groups)
    (prepared' : Prepared settings other groups) {name : Name}
    (member : name ∈ Name.manifest :: finalNames settings) :
    disk.read (.entry .root name) = other.read (.entry .root name) ∧
      disk.read (.entry .root name) ≠ none := by
  rcases List.mem_cons.mp member with rfl | final
  · rw [prepared.manifest, prepared'.manifest]
    exact ⟨rfl, Option.some_ne_none _⟩
  · obtain ⟨split, array, inside, rfl⟩ := mem_finalNames.mp final
    rw [prepared.final split array inside, prepared'.final split array inside]
    exact ⟨rfl, Option.some_ne_none _⟩

theorem Shrinking.completes {before : Disk} (shrinking : Shrinking settings disk groups)
    (bounded : ∀ split, (groups split).length ≤ sortableChunks)
    (prepared : Prepared settings before groups) : CompletesCleanup settings before disk := by
  obtain ⟨accepted, _, emptied⟩ := shrinking.recovers bounded
  refine ⟨accepted, emptied.chunks, ?_, fun name member => (prepared.kept_eq prepared member).2, ?_,
    emptied.resume⟩
  · intro name member
    simp only [List.mem_cons, List.not_mem_nil, or_false] at member
    rcases member with rfl | rfl
    · exact emptied.marker
    · exact emptied.temporary
  · intro name member
    exact ⟨(shrinking.prepared.kept_eq prepared member).1,
      (emptied.toPrepared.kept_eq prepared member).1⟩

theorem Overfull.refused (overfull : Overfull settings disk) :
    resume settings disk true ≠ .ok () := by
  obtain ⟨⟨failure, refused⟩, _⟩ := overfull.recovers
  intro accepted
  rcases overfull.marker with marker | ⟨_, marker, _⟩ <;>
    simp only [resume, if_true, marker, refused] at accepted <;>
    cases accepted

theorem Published.overfull (published : Published settings disk groups) {split : Split}
    (many : ¬ (groups split).length ≤ sortableChunks) : Overfull settings disk := by
  obtain ⟨recoverable, clean⟩ := published.recoverable split
  exact ⟨.inl published.marker, split, groups split, Nat.lt_of_not_le many, recoverable, clean⟩

theorem Published.cleanup_refused (published : Published settings disk groups)
    (agrees : Agrees settings groups ledgers) {split : Split}
    (many : ¬ (groups split).length ≤ sortableChunks) :
    (cleanupPublished settings disk ledgers).result = .error "invalid owned cleanup filename" ∧
      ¬ CompletesCleanup settings disk
        (disk.performAll (cleanupPublished settings disk ledgers).actions) := by
  constructor
  · have wide : ownedFilename settings (.chunk split sortableChunks .receipt) = false := by
      have digits : (zeroPadded 6 sortableChunks).length ≠ 6 := by
        rw [Ne, length_zeroPadded_eq (by decide)]
        exact Nat.lt_irrefl _
      simp [ownedFilename, digits]
    obtain ⟨entry, member, same⟩ := List.mem_map.mp (mem_ownedNames.mpr
      ⟨split, sortableChunks, .receipt, rfl, Nat.lt_of_not_le many, trivial⟩)
    have owned : ownedProof settings entry ∈ (cleanupOf settings groups).files :=
      List.mem_map_of_mem member
    have refused : ownedFilename settings (ownedProof settings entry).1 = false := by
      rw [ownedProof, same]
      exact wide
    simp only [cleanupPublished, published.cleanupReceipt_eq agrees,
      finishCleanup_refuses owned refused]
  · intro completes
    have left := ((published.overfull many).cleanupPublished (agrees.split split) (by
      rw [agrees.receipts, length_receiptsOf]
      exact Nat.lt_of_not_le many)).2 (cleanupPublished settings disk ledgers).actions.length
    rw [List.take_length] at left
    exact left.refused completes.accepted

/-- Wherever the cleanup of a published directory and the recoveries after it are stopped, the next
run completes it, exactly when no split has over a million chunks. -/
theorem published_cleanup (published : Published settings disk groups)
    (agrees : Agrees settings groups ledgers) :
    (∀ cut cuts, CompletesCleanup settings disk (stoppedRecoveries settings
      (disk.performAll ((cleanupPublished settings disk ledgers).actions.take cut)) cuts)) ↔
      ∀ split, (groups split).length ≤ sortableChunks := by
  constructor
  · intro completes
    by_contra unbounded
    obtain ⟨split, many⟩ := not_forall.mp unbounded
    exact (published.overfull many).refused (completes 0 []).accepted
  · intro bounded cut cuts
    obtain ⟨_, shrinks, _⟩ := published.cleanup agrees bounded
    exact ((shrinks cut).stopped bounded cuts).completes bounded published.toPrepared

end

section

def contentAt (settings : Settings) (groups : Split → List (List Record)) : Name → Option File
  | .manifest => some (.manifest (manifestFor settings groups)
      (settings.signManifest (manifestFor settings groups)))
  | .staging => some (.owner settings.owner none)
  | .final split array => some (.array array (rawOf (groups split).flatten array))
  | .chunk split index .receipt => some (.receipt (receiptAt settings split (groups split) index))
  | .chunk split index (.raw array) =>
    some (.raw array (rawOf (groupAt (groups split) index) array))
  | _ => none

def publishedNames (settings : Settings) (groups : Split → List (List Record)) : List Name :=
  keptNames settings ++ (ownedFiles settings groups).map Prod.fst

def publishedFiles (settings : Settings) (groups : Split → List (List Record)) :
    List (Path × File) :=
  (publishedNames settings groups).filterMap fun name =>
    (contentAt settings groups name).map fun file => (.entry .root name, file)

def publishedDisk (settings : Settings) (groups : Split → List (List Record)) : Disk :=
  Volume.performAll ∅ ((publishedFiles settings groups).map fun entry => .write entry.1 entry.2)

theorem mem_publishedFiles {entry : Path × File} : entry ∈ publishedFiles settings groups ↔
    ∃ name ∈ publishedNames settings groups, ∃ file, contentAt settings groups name = some file ∧
      entry = (.entry .root name, file) := by
  simp only [publishedFiles, List.mem_filterMap, Option.map_eq_some_iff, eq_comm (a := entry)]

theorem read_publishedDisk {name : Name} (member : name ∈ publishedNames settings groups) {file : File}
    (content : contentAt settings groups name = some file) :
    (publishedDisk settings groups).read (.entry .root name) = some file := by
  have listed : (Path.entry .root name, file) ∈ publishedFiles settings groups :=
    mem_publishedFiles.mpr ⟨name, member, file, content, rfl⟩
  refine Volume.read_writeAll ∅ ?_ listed
  intro first firstMember second secondMember same
  obtain ⟨_, _, file, content, rfl⟩ := mem_publishedFiles.mp firstMember
  obtain ⟨_, _, file', content', rfl⟩ := mem_publishedFiles.mp secondMember
  simp only [Path.entry.injEq, true_and] at same
  rw [same, content'] at content
  exact (Option.some.inj content).symm

theorem present_publishedDisk {path : Path} (present : (publishedDisk settings groups).read path ≠ none) :
    ∃ name ∈ publishedNames settings groups, path = .entry .root name := by
  rcases Volume.present_performAll _ present with before | ⟨action, member, target⟩
  · exact absurd (AList.lookup_empty path) before
  · obtain ⟨entry, listed, rfl⟩ := List.mem_map.mp member
    obtain ⟨name, inside, file, _, rfl⟩ := mem_publishedFiles.mp listed
    exact ⟨name, inside, List.mem_singleton.mp target⟩

theorem published_publishedDisk (valid : ∀ split, ∀ group ∈ groups split, ValidGroup settings group)
    (nonempty : ∀ split, ∀ array ∈ settings.arrays,
      (rawOf (groups split).flatten array).length ≠ 0) :
    Published settings (publishedDisk settings groups) groups := by
  have owned : ∀ split index part, index < (groups split).length → KeptPart settings part →
      Name.chunk split index part ∈ publishedNames settings groups := fun split index part inside kept =>
    List.mem_append_right _ (mem_ownedNames.mpr ⟨split, index, part, rfl, inside, kept⟩)
  refine ⟨⟨?_, ?_, nonempty, valid, ?_, ?_⟩, ?_, ?_⟩
  · exact read_publishedDisk (by simp [publishedNames, keptNames]) rfl
  · intro split array member
    exact read_publishedDisk (List.mem_append_left _ (List.mem_append_right _
      (mem_finalNames.mpr ⟨split, array, member, rfl⟩))) rfl
  · intro name present
    obtain ⟨other, member, same⟩ := present_publishedDisk present
    cases same
    exact .inr (List.mem_append.mp member)
  · rw [works_eq_nil]
    intro path outside
    by_contra present
    obtain ⟨name, _, rfl⟩ := present_publishedDisk present
    exact outside rfl
  · exact read_publishedDisk (by simp [publishedNames, keptNames]) rfl
  · intro split
    exact ⟨fun index inside => read_publishedDisk (owned split index .receipt inside trivial) rfl,
      fun index inside array member => read_publishedDisk
        (owned split index (.raw array) inside member) rfl⟩

def ledgersOf (settings : Settings) (groups : Split → List (List Record)) (split : Split) :
    SplitChunks where
  place := .root
  split := split
  sealedReceipts := receiptsOf settings split (groups split)
  state := tally (groups split).flatten

theorem agrees_ledgersOf : Agrees settings groups (ledgersOf settings groups) :=
  ⟨fun _ => rfl, fun _ => rfl, fun _ => rfl, fun _ => rfl⟩

def oneToken : Record := some fun _ => [7]

def singleTokens (count : Nat) : Split → List (List Record)
  | .train => List.replicate count [oneToken]
  | .validation => [[oneToken]]

theorem published_singleTokens (count : Nat) : Published tokenSettings
    (publishedDisk tokenSettings (singleTokens (count + 1))) (singleTokens (count + 1)) := by
  have single : ValidGroup tokenSettings [oneToken] := by
    refine ⟨List.cons_ne_nil _ _, by decide, by decide, ?_⟩
    intro record member
    rw [List.mem_singleton.mp member]
    refine ⟨?_, by decide⟩
    rintro values ⟨⟩
    exact ⟨by decide, fun _ _ => rfl⟩
  apply published_publishedDisk
  · intro split group member
    cases split with
    | train => rwa [List.eq_of_mem_replicate member]
    | validation => rwa [List.mem_singleton.mp member]
  · intro split array _
    cases split with
    | train =>
      rw [singleTokens, List.replicate_succ, List.flatten_cons, rawOf_append, List.length_append]
      simp [rawOf, oneToken]
    | validation => simp [singleTokens, rawOf, oneToken]

theorem cleanup_fails_past_a_million_chunks :
    ∃ disk groups ledgers, Published tokenSettings disk groups ∧
      Agrees tokenSettings groups ledgers ∧ (groups .train).length = 1000001 ∧
      (cleanupPublished tokenSettings disk ledgers).result =
        .error "invalid owned cleanup filename" ∧
      ¬ CompletesCleanup tokenSettings disk
        (disk.performAll (cleanupPublished tokenSettings disk ledgers).actions) := by
  have published := published_singleTokens 1000000
  have length : (singleTokens (1000000 + 1) .train).length = 1000001 := List.length_replicate
  generalize singleTokens (1000000 + 1) = groups at published length
  have many : ¬ (groups .train).length ≤ sortableChunks := by
    rw [length]
    norm_num [sortableChunks]
  exact ⟨_, groups, _, published, agrees_ledgersOf, length,
    published.cleanup_refused agrees_ledgersOf many⟩

theorem published_cleanup_of_two_chunks :
    CompletesCleanup tokenSettings (publishedDisk tokenSettings (singleTokens 1))
      (stoppedRecoveries tokenSettings ((publishedDisk tokenSettings (singleTokens 1)).performAll
        ((cleanupPublished tokenSettings (publishedDisk tokenSettings (singleTokens 1))
          (ledgersOf tokenSettings (singleTokens 1))).actions.take 4)) [0, 1]) := by
  refine (published_cleanup (published_singleTokens 0) agrees_ledgersOf).mpr ?_ 4 [0, 1]
  intro split
  cases split <;> norm_num [singleTokens, sortableChunks]

end

end SparseLab.Data
