import SparseLab.Data.SessionRecovery

/-!
Opening a directory again after a crash, and what a process that continues from there collects.
-/

namespace SparseLab.Data

open Library

variable {settings : Settings} {disk : Disk} {groups : Split → List (List Record)}
  {split : Split} {session : Session} {journal : Journal} {records : List Record}

structure Unmarked (disk : Disk) : Prop where
  root : disk.read (.directory .root) = some .directory
  marker : disk.read (.entry .root .staging) = none

theorem Unmarked.construct_error (unmarked : Unmarked disk) :
    construct settings disk = .error "No such file or directory: staging.json" := by
  simp only [construct, unmarked.root, readOwner, unmarked.marker, bind,
    Except.bind]

section

variable (empty : ∀ path, disk.read path = none)

include empty

variable (settings) in
theorem holds_createDirectory :
    Holds settings (disk.performAll (createDirectory .root settings.owner)) fun _ => [] := by
  have apart : Path.entry .root .stagingTmp ≠ Path.entry .root .staging := by simp
  have moved : (disk.performAll (createDirectory .root settings.owner)).read
      (.entry .root .stagingTmp) = none := by
    simp only [createDirectory, storeDocument, storeFile, List.cons_append, List.nil_append,
      Volume.performAll_cons, Volume.performAll_nil]
    exact Volume.read_rename_source _ apart
  have present : ∀ path,
      (disk.performAll (createDirectory .root settings.owner)).read path ≠ none →
        path = .directory .root ∨ path = .entry .root .staging := by
    intro path found
    rcases Volume.present_performAll _ found with earlier | ⟨action, member, target⟩
    · exact absurd (empty path) earlier
    · rcases paths_createDirectory member (Volume.targets_subset_paths target) with
        same | same | same
      · exact .inl same
      · rw [same] at found
        exact absurd moved found
      · exact .inr same
  refine ⟨?_, read_createDirectory _ _ _, ?_, ?_, ?_⟩
  · rw [createDirectory, Volume.performAll_cons, Volume.read_performAll_other]
    · exact Volume.read_write_self _ _ _
    · intro action member touched
      simp only [storeDocument, storeFile, List.cons_append, List.nil_append, List.mem_cons,
        List.not_mem_nil, or_false] at member
      rcases member with rfl | rfl | rfl <;> simp [Action.paths] at touched
  · intro split
    refine ⟨⟨?_, ?_⟩, ?_, ?_⟩
    · intro index inside
      exact absurd inside (Nat.not_lt_zero _)
    · intro index inside
      exact absurd inside (Nat.not_lt_zero _)
    · intro group member
      exact absurd member List.not_mem_nil
    · intro index part found
      rcases present _ found with same | same <;> simp at same
  · intro name found
    rcases present _ found with same | same
    · cases same
    · injection same with _ sameName
      subst sameName
      exact .inr trivial
  · intro split sequence name found
    rcases present _ found with same | same <;> simp at same

theorem cut_createDirectory (cut : Nat) :
    (∀ path, (disk.performAll ((createDirectory .root settings.owner).take cut)).read path =
        none) ∨
      Unmarked (disk.performAll ((createDirectory .root settings.owner).take cut)) ∨
      Holds settings (disk.performAll ((createDirectory .root settings.owner).take cut))
        fun _ => [] := by
  have whole : (createDirectory .root settings.owner).length = 4 := rfl
  have unmarked : ∀ file : List (Action Path File),
      (∀ action ∈ file, action.paths = [Path.entry .root .stagingTmp]) →
      Unmarked (disk.performAll (.write (.directory .root) .directory :: file)) := by
    intro file only
    constructor
    · rw [Volume.performAll_cons, Volume.read_performAll_other]
      · exact Volume.read_write_self _ _ _
      · intro action member touched
        simp [only action member] at touched
    · rw [Volume.read_performAll_other]
      · exact empty _
      · intro action member touched
        rcases List.mem_cons.mp member with rfl | later
        · simp [Action.paths] at touched
        · simp [only action later] at touched
  obtain rfl | rfl | rfl | rfl | beyond :
      cut = 0 ∨ cut = 1 ∨ cut = 2 ∨ cut = 3 ∨ 4 ≤ cut := by omega
  · exact .inl empty
  · exact .inr (.inl (unmarked [] (by simp)))
  · exact .inr (.inl (unmarked [.write _ .torn] (by simp [Action.paths])))
  · exact .inr (.inl (unmarked [.write _ .torn, .write _ _] (by simp [Action.paths])))
  · rw [List.take_of_length_le (by omega)]
    exact .inr (.inr (holds_createDirectory settings empty))

end

structure Constructs (settings : Settings) (disk : Disk) (actions : Actions)
    (groups : Split → List (List Record)) : Prop where
  returned : construct settings disk = .ok actions
  holds : Holds settings (disk.performAll actions) groups
  clean : Clean (disk.performAll actions) groups

theorem Holds.constructs (holds : Holds settings disk groups)
    (bounded : ∀ split, (groups split).length ≤ sortableChunks) :
    ∃ actions, Constructs settings disk actions groups ∧
      ∀ cut, Holds settings (disk.performAll (actions.take cut)) groups := by
  obtain ⟨actions, returned, cuts, clean⟩ := holds.construct_ok bounded
  refine ⟨actions, ⟨returned, ?_, clean⟩, cuts⟩
  have whole := cuts actions.length
  rwa [List.take_length] at whole

variable (settings) in
theorem constructs_new (empty : ∀ path, disk.read path = none) :
    ∃ actions, Constructs settings disk actions (fun _ => []) ∧
      ∀ cut, (∀ path, (disk.performAll (actions.take cut)).read path = none) ∨
        Unmarked (disk.performAll (actions.take cut)) ∨
        Holds settings (disk.performAll (actions.take cut)) fun _ => [] := by
  have created := holds_createDirectory settings empty
  obtain ⟨inspected, inspectEq, cuts, clean⟩ := created.inspect fun _ => Nat.zero_le _
  refine ⟨createDirectory .root settings.owner ++ inspected, ⟨?_, ?_, ?_⟩, ?_⟩
  · simp only [construct, empty, inspectEq, bind, Except.bind, pure, Except.pure]
  · have whole := cuts inspected.length
    rwa [List.take_length, ← Volume.performAll_append] at whole
  · rwa [Volume.performAll_append]
  · intro cut
    rcases Volume.cut_append disk (createDirectory .root settings.owner) inspected cut with
      inside | ⟨rest, later⟩
    · rw [inside]
      exact cut_createDirectory empty cut
    · rw [later]
      exact .inr (.inr (cuts rest))

theorem Constructs.opens {actions : Actions} (constructs : Constructs settings disk actions groups)
    (bounded : ∀ split, (groups split).length ≤ sortableChunks) :
    ∃ session, Session.openAt settings disk = .ok (actions, session) ∧
      session.disk = disk.performAll actions ∧ (∀ split sequence, session.works split sequence = none) ∧
      ∀ journal : Journal, (∀ split, (groups split).flatten <+: journal.records split) →
        Live settings session (journal.reopened session) groups fun _ => [] := by
  have few : ∀ split, (groups split).length ≤ 1000000000 := by
    intro split
    have million : sortableChunks ≤ 1000000000 := by norm_num [sortableChunks]
    exact Nat.le_trans (bounded split) million
  obtain ⟨train, trainEq, trainPlace, trainSplit, trainTracks⟩ :=
    openSplit_tracks (constructs.holds.splits .train) (constructs.clean.chunks .train)
      (few .train)
  obtain ⟨validation, validationEq, validationPlace, validationSplit, validationTracks⟩ :=
    openSplit_tracks (constructs.holds.splits .validation) (constructs.clean.chunks .validation)
      (few .validation)
  refine ⟨?session, ?returned, ?_⟩
  case returned =>
    simp only [Session.openAt, constructs.returned, openSplits, trainEq, validationEq, bind,
      Except.bind, pure, Except.pure]
    rfl
  refine ⟨rfl, fun _ _ => rfl, ?_⟩
  · intro journal appended
    refine ⟨constructs.holds, ?_, ?_, ?_, ?_, ?_, ?_, constructs.clean.manifest,
      constructs.clean.manifestTmp⟩
    · intro split
      cases split <;> assumption
    · intro split
      cases split <;> assumption
    · intro split
      cases split <;> assumption
    · intro split
      rw [List.append_nil, List.prefix_iff_eq_take.mp (appended split)]
      cases split with
      | train =>
        change List.take train.state.acquiredDocuments _ = _
        rw [trainTracks.state, tally_acquired]
      | validation =>
        change List.take validation.state.acquiredDocuments _ = _
        rw [validationTracks.state, tally_acquired]
    · intro split sequence work present
      cases present
    · intro split finished present
      cases present

variable (settings) in
theorem openAt_new : ∃ opening session, Session.openAt settings ∅ = .ok (opening, session) ∧
    Live settings session {} (fun _ => []) fun _ => [] := by
  obtain ⟨opening, constructs, _⟩ :=
    constructs_new settings fun path => AList.lookup_empty path
  obtain ⟨session, opened, _, _, lives⟩ := constructs.opens fun _ => Nat.zero_le _
  have live := lives {} fun split => List.nil_prefix
  have journal : Journal.reopened {} session = {} := by
    simp [Journal.reopened]
  rw [journal] at live
  exact ⟨opening, session, opened, live⟩

section

/-- What appending the records after those of `before` and finishing comes to. -/
def expectedCollection (settings : Settings) (split : Split) (before : List Record) :
    List Record → Except String (SplitChunks.Finished × List (Option File))
  | [] => .ok (finishedOf settings before,
      settings.arrays.map fun array => some (.array array (rawOf before array)))
  | record :: rest => do
      let _ ← SplitChunks.recordBytes settings split record
      expectedCollection settings split (before ++ [record]) rest

variable {chunks : SplitChunks} {chunkGroups : List (List Record)} {pending : List Record}

theorem Tracks.collect (tracks : Tracks settings disk chunks chunkGroups pending) :
    chunks.collect settings disk records =
      expectedCollection settings chunks.split (chunkGroups.flatten ++ pending) records := by
  induction records generalizing disk chunks chunkGroups pending with
  | nil =>
    obtain ⟨actions, after, groups', finishEq, extended, _, _, stored⟩ := tracks.finish
    have files : settings.arrays.map (fun array =>
        (disk.performAll actions).read (.entry after.place (.final after.split array))) =
          settings.arrays.map fun array =>
            some (.array array (rawOf (chunkGroups.flatten ++ pending) array)) := by
      apply List.map_congr_left
      intro array member
      rw [extended.place, extended.split]
      exact (stored array member).1
    simp only [SplitChunks.collect, SplitChunks.appendAll, Volume.performAll_nil, finishEq, bind,
      Except.bind, pure, Except.pure, files, expectedCollection]
  | cons record rest ih =>
    have frontier : chunks.state.acquiredDocuments + chunks.pending.acquiredDocuments + 1 =
        chunkGroups.flatten.length + pending.length + 1 := by
      rw [tracks.state, tracks.counted]
      rfl
    have spec := recordBytes_spec settings chunks.split record
    rw [expectedCollection]
    cases checked : SplitChunks.recordBytes settings chunks.split record with
    | error failure =>
      have refused : chunks.appendRecord settings
          (chunks.state.acquiredDocuments + chunks.pending.acquiredDocuments + 1) record =
            .error failure := by
        simp only [SplitChunks.appendRecord, ne_eq, not_true_eq_false, ↓reduceIte, checked,
          bind, Except.bind]
      simp only [SplitChunks.collect, SplitChunks.appendAll, refused, bind, Except.bind]
    | ok bytes =>
      rw [checked] at spec
      obtain ⟨first, middle, groups', pending', firstEq, extended, _, same⟩ :=
        tracks.appendRecord spec.1
      have later := ih extended.tracks
      rw [same, extended.split] at later
      simp only [bind, Except.bind]
      rw [← later]
      simp only [SplitChunks.collect, SplitChunks.appendAll, frontier, firstEq, bind,
        Except.bind]
      cases middle.appendAll settings rest with
      | error failure => rfl
      | ok appended => simp only [pure, Except.pure, Volume.performAll_append]

theorem expectedCollection_append {kept more before : List Record}
    (valid : ∀ record ∈ kept, ValidRecord settings record) :
    expectedCollection settings split before (kept ++ more) =
      expectedCollection settings split (before ++ kept) more := by
  induction kept generalizing before with
  | nil => rw [List.nil_append, List.append_nil]
  | cons record kept ih =>
    have rest := @ih (before ++ [record])
      fun later member => valid later (List.mem_cons_of_mem _ member)
    have first := recordBytes_valid settings (valid record List.mem_cons_self) split
    simp only [List.cons_append, expectedCollection, first, bind, Except.bind]
    rw [rest, List.append_assoc, List.singleton_append]

theorem Live.collect {pending : Split → List Record}
    (live : Live settings session journal groups pending) :
    session.collect settings split records =
      expectedCollection settings split (journal.records split) records := by
  rw [Session.collect, (live.tracks split).collect, live.split, live.records]

theorem uninterrupted_eq :
    Session.uninterrupted settings split records =
      expectedCollection settings split [] records := by
  obtain ⟨opening, session, opened, live⟩ := openAt_new settings
  simp only [Session.uninterrupted, opened, bind, Except.bind]
  exact live.collect

end

end SparseLab.Data
