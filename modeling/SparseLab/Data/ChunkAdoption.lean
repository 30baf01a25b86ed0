import SparseLab.Data.ChunkReopening

/-! Worker chunks: a batch sealed in a scratch directory extends the ledger that adopts it. -/

namespace SparseLab.Data

open Library

variable {settings : Settings} {disk : Disk} {groups workGroups : List (List Record)}
  {chunks work : SplitChunks}

def Remaining (settings : Settings) (disk : Disk) (work : SplitChunks)
    (workGroups : List (List Record)) (index : Nat) : Prop :=
  ∀ later, index ≤ later → later < workGroups.length →
    disk.read (work.chunkPath later .receipt) =
        some (.receipt (receiptAt settings work.split workGroups later)) ∧
      ∀ array ∈ settings.arrays, disk.read (work.chunkPath later (.raw array)) =
        some (.raw array (rawOf (groupAt workGroups later) array))

theorem adoptRaw_spec (tracks : Tracks settings disk chunks groups [])
    (places : work.place ≠ chunks.place) {index : Nat} (inside : index < workGroups.length)
    (remaining : Remaining settings disk work workGroups index) :
    ∃ renames, chunks.adoptRaw settings work disk index = .ok renames ∧
      (∀ action ∈ renames, ∀ path ∈ action.paths,
        (∃ array ∈ settings.arrays, path = work.chunkPath index (.raw array)) ∨
          ∃ array ∈ settings.arrays, path = chunks.chunkPath groups.length (.raw array)) ∧
      (∀ array ∈ settings.arrays,
        (disk.performAll renames).read (chunks.chunkPath groups.length (.raw array)) =
          some (.raw array (rawOf (groupAt workGroups index) array))) ∧
      ∀ array ∈ settings.arrays,
        (disk.performAll renames).read (chunks.chunkPath groups.length (.rawTmp array)) = none := by
  have count : chunks.sealedReceipts.length = groups.length := by
    rw [tracks.receipts, length_receiptsOf]
  have absent : ∀ part, disk.read (chunks.chunkPath groups.length part) = none := by
    intro part
    by_contra present
    rcases tracks.parts _ _ present with ⟨inside, _⟩ | ⟨_, nonempty, _⟩
    · omega
    · exact nonempty rfl
  have free : (settings.arrays.any fun array =>
      (disk.read (chunks.chunkPath groups.length (.raw array))).isSome) = false := by
    simp [absent]
  have apart : ∀ first second : ArrayName,
      work.chunkPath index (.raw first) ≠ chunks.chunkPath groups.length (.raw second) := by
    intro first second same
    simp only [SplitChunks.chunkPath, Path.entry.injEq] at same
    exact places same.1
  have paths : ∀ action ∈ settings.arrays.map (fun array => Action.rename
      (work.chunkPath index (.raw array)) (chunks.chunkPath groups.length (.raw array)) :
        ArrayName → Action Path File), ∀ path ∈ action.paths,
      (∃ array ∈ settings.arrays, path = work.chunkPath index (.raw array)) ∨
        ∃ array ∈ settings.arrays, path = chunks.chunkPath groups.length (.raw array) := by
    intro action member path touched
    obtain ⟨array, inside, rfl⟩ := List.mem_map.mp member
    simp only [Action.paths, List.mem_cons, List.not_mem_nil, or_false] at touched
    rcases touched with same | same
    · exact .inl ⟨array, inside, same⟩
    · exact .inr ⟨array, inside, same⟩
  refine ⟨_, ?_, paths, ?_, ?_⟩
  · simp only [SplitChunks.adoptRaw, count, free, Bool.false_eq_true, ↓reduceIte]
  · intro array member
    apply Volume.read_renameAll disk _ _ apart settings.arraysNodup _ member
    · intro first second same
      simpa [SplitChunks.chunkPath] using same
    · intro first second same
      simpa [SplitChunks.chunkPath] using same
    · exact (remaining index (Nat.le_refl _) inside).2
  · intro array member
    rw [Volume.read_performAll_other, absent]
    intro action inside touched
    rcases paths action inside _ touched with ⟨other, _, same⟩ | ⟨other, _, same⟩
    · simp only [SplitChunks.chunkPath, Path.entry.injEq] at same
      exact places same.1.symm
    · simp [SplitChunks.chunkPath] at same

theorem adoptedReceipt_eq {index : Nat} (splits : work.split = chunks.split)
    (tracks : Tracks settings disk chunks (groups ++ workGroups.take index) []) :
    chunks.adoptedReceipt (groups.flatten.length + 1)
        (receiptAt settings work.split workGroups index) =
      receiptFor settings chunks.split (groups ++ workGroups.take index).length
        (groups ++ workGroups.take index).flatten.length (groupAt workGroups index) := by
  have count : chunks.sealedReceipts.length = (groups ++ workGroups.take index).length := by
    rw [tracks.receipts, length_receiptsOf]
  have first : groups.flatten.length + 1 + ((workGroups.take index).flatten.length + 1) - 1 =
      (groups ++ workGroups.take index).flatten.length + 1 := by
    rw [List.flatten_append, List.length_append]
    omega
  simp only [SplitChunks.adoptedReceipt, receiptAt, receiptFor, first, count, splits]

theorem adoptChunks_spec {disk : Disk} {chunks : SplitChunks}
    (valid : ∀ group ∈ workGroups, ValidGroup settings group)
    (places : work.place ≠ chunks.place) (splits : work.split = chunks.split) {index : Nat}
    (tracks : Tracks settings disk chunks (groups ++ workGroups.take index) [])
    (remaining : Remaining settings disk work workGroups index) :
    ∃ actions after,
      SplitChunks.adoptChunks settings work (groups.flatten.length + 1) disk chunks index
        ((receiptsOf settings work.split workGroups).drop index) = .ok (actions, after) ∧
      Extends settings disk chunks (groups ++ workGroups.take index) actions after
        (groups ++ workGroups) [] ∧
      ∀ action ∈ actions, ∀ path ∈ action.paths,
        (∃ index part, path = chunks.chunkPath index part) ∨
          ∃ index, ∃ array ∈ settings.arrays, path = work.chunkPath index (.raw array) := by
  by_cases inside : index < workGroups.length
  · have receiptInside : index < (receiptsOf settings work.split workGroups).length := by
      rwa [length_receiptsOf]
    have receipt : (receiptsOf settings work.split workGroups)[index] =
        receiptAt settings work.split workGroups index := by
      simp [receiptsOf]
    have found := (remaining index (Nat.le_refl _) inside).1
    have count : chunks.sealedReceipts.length = (groups ++ workGroups.take index).length := by
      rw [tracks.receipts, length_receiptsOf]
    have group := valid _ (groupAt_mem inside)
    obtain ⟨renames, renameEq, paths, raw, moved⟩ := adoptRaw_spec tracks places inside remaining
    have away : ∀ action ∈ renames, ∀ path ∈ action.paths,
        Away settings chunks.place chunks.split (groups ++ workGroups.take index).length path := by
      intro action member path touched
      rcases paths action member path touched with ⟨array, _, rfl⟩ | ⟨array, member, rfl⟩
      · exact Away.other_place places
      · exact Away.loose member
    have committed := tracks.commit group away raw moved
    obtain ⟨payload, payloadEq⟩ : ∃ payload, receiptFor settings chunks.split
      (groups ++ workGroups.take index).length (groups ++ workGroups.take index).flatten.length
        (groupAt workGroups index) = payload := ⟨_, rfl⟩
    rw [payloadEq, List.append_assoc, ← take_succ_groups inside] at committed
    have chunkPaths : ∀ action ∈ renames ++ chunks.storeReceipt payload, ∀ path ∈ action.paths,
        (∃ index part, path = chunks.chunkPath index part) ∨
          ∃ array ∈ settings.arrays, path = work.chunkPath index (.raw array) := by
      intro action member path touched
      rcases List.mem_append.mp member with renamed | stored
      · rcases paths action renamed path touched with atWork | ⟨array, _, atRoot⟩
        · exact .inr atWork
        · exact .inl ⟨_, _, atRoot⟩
      · have storing : ChunkActions settings chunks (chunks.storeReceipt payload) :=
          chunkActions_storeReceipt payload
        obtain ⟨index, part, same, _⟩ := storing action stored path touched
        exact .inl ⟨index, part, same⟩
    have later : Remaining settings (disk.performAll (renames ++ chunks.storeReceipt payload)) work
        workGroups (index + 1) := by
      intro other after below
      have kept : ∀ part, (disk.performAll (renames ++ chunks.storeReceipt payload)).read
          (work.chunkPath other part) = disk.read (work.chunkPath other part) := by
        intro part
        apply Volume.read_performAll_other
        intro action member touched
        rcases chunkPaths action member _ touched with ⟨_, _, same⟩ | ⟨_, _, same⟩ <;>
          simp only [SplitChunks.chunkPath, Path.entry.injEq, Name.chunk.injEq] at same
        · exact places same.1
        · have sameIndex := same.2.2.1
          omega
      have earlier := remaining other (by omega) below
      refine ⟨(kept _).trans earlier.1, ?_⟩
      intro array member
      exact (kept _).trans (earlier.2 array member)
    obtain ⟨more, after, moreEq, extended, morePaths⟩ := adoptChunks_spec valid
      (places.trans_eq committed.place.symm) (splits.trans committed.split.symm) committed.tracks
      later
    refine ⟨(renames ++ chunks.storeReceipt payload) ++ more, after, ?_, committed.trans extended,
      ?_⟩
    · rw [List.drop_eq_getElem_cons receiptInside, receipt, SplitChunks.adoptChunks]
      have frontier : payload.firstAcquiredIndex = chunks.state.acquiredDocuments + 1 := by
        rw [← payloadEq, tracks.state]
        rfl
      have read : readReceipt disk work.place work.split index =
          .ok (receiptAt settings work.split workGroups index) := by
        rw [SplitChunks.chunkPath] at found
        simp only [readReceipt, found]
      have validated : validateReceipt settings chunks.split chunks.sealedReceipts.length payload =
          .ok () := by
        rw [← payloadEq, count]
        exact validateReceipt_receiptFor settings group _ _ _
      simp only [read, bind, Except.bind, ne_eq, not_true_eq_false, ↓reduceIte,
        adoptedReceipt_eq splits tracks, payloadEq, validated, frontier, renameEq, moreEq]
      rfl
    · intro action member path touched
      rcases List.mem_append.mp member with first | rest
      · rcases chunkPaths action first path touched with atRoot | atWork
        · exact .inl atRoot
        · exact .inr ⟨index, atWork⟩
      · rcases morePaths action rest path touched with ⟨index, part, same⟩ | atWork
        · exact .inl ⟨index, part, same⟩
        · exact .inr atWork
  · have whole : workGroups.take index = workGroups := List.take_of_length_le (by omega)
    rw [List.drop_of_length_le (by rw [length_receiptsOf]; omega)]
    rw [whole] at tracks ⊢
    exact ⟨[], chunks, rfl, Extends.refl tracks, by simp⟩
termination_by workGroups.length - index

theorem discardWork_ok {place : Place} (owned : ∀ name, disk.read (.entry place name) ≠ none →
      discardable settings name = true) :
    discardWork settings disk place = .ok ((names disk place).map (fun name =>
      .unlink (.entry place name)) ++ [.unlink (.directory place)]) := by
  have none : (names disk place).find? (fun name => !discardable settings name) = none := by
    rw [List.find?_eq_none]
    intro name member
    simp [owned name (mem_names.mp member)]
  rw [discardWork, none]

def discardPaths (disk : Disk) (place : Place) : List Path :=
  (names disk place).map (Path.entry place) ++ [Path.directory place]

def discardActions (disk : Disk) (place : Place) : Actions :=
  (discardPaths disk place).map fun path => .unlink path

theorem discardWork_eq {place : Place} (owned : ∀ name, disk.read (.entry place name) ≠ none →
      discardable settings name = true) :
    discardWork settings disk place = .ok (discardActions disk place) := by
  rw [discardWork_ok owned, discardActions, discardPaths, List.map_append, List.map_map]
  rfl

theorem mem_discardPaths {place : Place} {path : Path} (inside : path.place = place) :
    path ∈ discardPaths disk place ∨ disk.read path = none := by
  cases path with
  | directory parent =>
    obtain rfl : parent = place := inside
    simp [discardPaths]
  | entry parent name =>
    obtain rfl : parent = place := inside
    by_cases present : disk.read (.entry parent name) = none
    · exact .inr present
    · refine .inl (List.mem_append_left _ (List.mem_map.mpr ⟨name, mem_names.mpr present, rfl⟩))

theorem discardPaths_owned {place : Place} {path : Path} (member : path ∈ discardPaths disk place) :
    path = .directory place ∨
      ∃ name, path = .entry place name ∧ disk.read (.entry place name) ≠ none := by
  rcases List.mem_append.mp member with entry | directory
  · obtain ⟨name, found, rfl⟩ := List.mem_map.mp entry
    exact .inr ⟨name, rfl, mem_names.mp found⟩
  · exact .inl (List.mem_singleton.mp directory)

theorem read_discardActions {place : Place} {path : Path} (inside : path.place = place) :
    (disk.performAll (discardActions disk place)).read path = none :=
  Volume.read_unlinkAll disk (mem_discardPaths inside)

theorem paths_discardActions {place : Place} {action : Action Path File} {path : Path}
    (member : action ∈ discardActions disk place) (touched : path ∈ action.paths) :
    path = .directory place ∨
      ∃ name, path = .entry place name ∧ disk.read (.entry place name) ≠ none := by
  obtain ⟨removed, inside, rfl⟩ := List.mem_map.mp member
  rw [List.mem_singleton.mp touched]
  exact discardPaths_owned inside

theorem Tracks.adopt (tracks : Tracks settings disk chunks groups [])
    (workTracks : Tracks settings disk work workGroups []) {sequence : Nat}
    (place : work.place = .work chunks.split sequence) (root : chunks.place = .root)
    (splits : work.split = chunks.split)
    (marker : disk.read (.entry work.place .staging) =
      some (.owner (.work settings.owner chunks.split sequence) none))
    (owned : ∀ name, disk.read (.entry work.place name) ≠ none →
      discardable settings name = true) :
    ∃ actions after,
      SplitChunks.adopt settings disk chunks work (groups.flatten.length + 1) =
        .ok (actions, after) ∧
      Extends settings disk chunks groups actions after (groups ++ workGroups) [] ∧
      (∀ action ∈ actions, ∀ path ∈ action.paths,
        (∃ index part, path = chunks.chunkPath index part) ∨ path = .directory work.place ∨
          ∃ name, path = .entry work.place name ∧ discardable settings name = true) ∧
      ∀ path, path.place = work.place → (disk.performAll actions).read path = none := by
  have places : work.place ≠ chunks.place := by
    rw [place, root]
    exact Place.noConfusion
  have remaining : Remaining settings disk work workGroups 0 := by
    intro index _ inside
    exact ⟨workTracks.stored.receipt index inside, workTracks.stored.raw index inside⟩
  have started : Tracks settings disk chunks (groups ++ workGroups.take 0) [] := by
    rw [List.take_zero, List.append_nil]
    exact tracks
  obtain ⟨adopted, after, adoptEq, extended, paths⟩ :=
    adoptChunks_spec workTracks.valid places splits started remaining
  rw [List.take_zero, List.append_nil] at extended
  rw [List.drop_zero, ← workTracks.receipts] at adoptEq
  have ownedPart : ∀ array ∈ settings.arrays, ∀ index,
      discardable settings (.chunk work.split index (.raw array)) = true := by
    intro array inside index
    simpa [discardable] using inside
  have ownedAfter : ∀ name, (disk.performAll adopted).read (.entry work.place name) ≠ none →
      discardable settings name = true := by
    intro name present
    rcases Volume.present_performAll _ present with earlier | ⟨action, member, target⟩
    · exact owned name earlier
    · rcases paths action member _ (Volume.targets_subset_paths target) with
        ⟨_, _, same⟩ | ⟨index, array, inside, same⟩ <;>
        simp only [SplitChunks.chunkPath, Path.entry.injEq] at same
      · exact absurd same.1 places
      · rw [same.2]
        exact ownedPart array inside index
  have discarded := discardWork_eq ownedAfter
  have discards : Extends settings (disk.performAll adopted) after (groups ++ workGroups)
      (discardActions (disk.performAll adopted) work.place) after (groups ++ workGroups) [] := by
    apply extended.tracks.elsewhere
    intro action member path touched index part same
    rw [SplitChunks.chunkPath, extended.place] at same
    rcases paths_discardActions member touched with directory | ⟨name, entry, _⟩
    · rw [directory] at same
      cases same
    · rw [entry] at same
      injection same with samePlace
      exact places samePlace
  refine ⟨adopted ++ discardActions (disk.performAll adopted) work.place, after, ?_,
    extended.trans discards, ?_, ?_⟩
  · have frontier : groups.flatten.length + 1 = chunks.state.acquiredDocuments + 1 := by
      rw [tracks.state]
      rfl
    have accepted : SplitChunks.adoptable settings disk chunks work (groups.flatten.length + 1) =
        .ok true := by
      rw [place] at marker
      simp only [SplitChunks.adoptable, place, readOwner, marker, tracks.counted,
        workTracks.counted, splits, frontier, bind, Except.bind, pure, Except.pure]
      simp
    simp only [SplitChunks.adopt, accepted, adoptEq, discarded, bind, Except.bind, ↓reduceIte]
    rfl
  · intro action member path touched
    rcases List.mem_append.mp member with first | rest
    · rcases paths action first path touched with atRoot | ⟨index, array, inside, same⟩
      · exact .inl atRoot
      · exact .inr (.inr ⟨_, same, ownedPart array inside index⟩)
    · rcases paths_discardActions rest touched with directory | ⟨name, entry, present⟩
      · exact .inr (.inl directory)
      · exact .inr (.inr ⟨name, entry, ownedAfter name present⟩)
  · intro path inside
    rw [Volume.performAll_append]
    exact read_discardActions inside

theorem discardable_chunk {split : Split} {index : Nat} {part : Part} (owned : OwnedPart settings part) :
    discardable settings (.chunk split index part) = true := by
  rcases owned with rfl | loose
  · rfl
  · cases part with
    | receipt => rfl
    | receiptTmp => rfl
    | raw array => simpa [discardable, LoosePart] using loose
    | rawTmp array => simpa [discardable, LoosePart] using loose

theorem paths_createDirectory {place : Place} {owner : Owner} {action : Action Path File}
    {path : Path} (member : action ∈ createDirectory place owner) (touched : path ∈ action.paths) :
    path = .directory place ∨ path = .entry place .stagingTmp ∨ path = .entry place .staging := by
  simp only [createDirectory, storeDocument, storeFile, List.cons_append, List.nil_append,
    List.mem_cons, List.not_mem_nil, or_false] at member
  rcases member with rfl | rfl | rfl | rfl <;>
    simp only [Action.paths, List.mem_cons, List.not_mem_nil, or_false] at touched
  · exact .inl touched
  · exact .inr (.inl touched)
  · exact .inr (.inl touched)
  · exact .inr touched

theorem read_createDirectory (place : Place) (owner : Owner) (disk : Disk) :
    (disk.performAll (createDirectory place owner)).read (.entry place .staging) =
      some (.owner owner none) :=
  Volume.read_rename_target _ (Volume.read_write_self _ _ _) _

theorem writeWork_spec {split : Split} {sequence : Nat} {batch : List Record}
    (free : occupied disk (.work split sequence) = false)
    (valid : ∀ record ∈ batch, ValidRecord settings record) :
    ∃ actions work workGroups,
      SplitChunks.writeWork settings disk split sequence batch = .ok (actions, work) ∧
      Tracks settings (disk.performAll actions) work workGroups [] ∧
      workGroups.flatten = batch ∧ work.place = .work split sequence ∧ work.split = split ∧
      (disk.performAll actions).read (.entry (.work split sequence) .staging) =
        some (.owner (.work settings.owner split sequence) none) ∧
      ∀ action ∈ actions, ∀ path ∈ action.paths, path = .directory (.work split sequence) ∨
        ∃ name, path = .entry (.work split sequence) name ∧ discardable settings name = true := by
  let created := createDirectory (.work split sequence) (.work settings.owner split sequence)
  let empty : SplitChunks := { place := .work split sequence, split }
  have fresh : ∀ index part,
      (disk.performAll created).read (.entry (.work split sequence) (.chunk split index part)) =
        none := by
    intro index part
    rw [Volume.read_performAll_other]
    · exact read_of_not_occupied free rfl
    · intro action member touched
      rcases paths_createDirectory member touched with same | same | same <;> cases same
  have started : Tracks settings (disk.performAll created) empty [] [] := by
    refine ⟨rfl, rfl, rfl, rfl, ⟨?_, ?_⟩, ?_, fun some => absurd rfl some, ?_⟩
    · intro index inside
      exact absurd inside (Nat.not_lt_zero _)
    · intro index inside
      exact absurd inside (Nat.not_lt_zero _)
    · intro group member
      exact absurd member List.not_mem_nil
    · intro index part present
      exact absurd (fresh index part) present
  obtain ⟨appended, middle, groups, pending, appendEq, appending, appendLocal, records⟩ :=
    started.appendAll valid
  obtain ⟨sealing, work, workGroups, sealEq, sealed', sealLocal, rest⟩ := appending.tracks.sealRest
  have whole := appending.trans sealed'
  have chunkLocal : ChunkActions settings empty (appended ++ sealing) :=
    appendLocal.append (sealLocal.of_same appending.place appending.split)
  refine ⟨created ++ appended ++ sealing, work, workGroups, ?_, ?_, ?_, whole.place, whole.split,
    ?_, ?_⟩
  · have appendEmpty : ({ place := .work split sequence, split } : SplitChunks).appendAll settings
        batch = .ok (appended, middle) := appendEq
    simp only [SplitChunks.writeWork, free, Bool.false_eq_true, ↓reduceIte, bind, Except.bind,
      appendEmpty, sealEq]
    rfl
  · rw [List.append_assoc, Volume.performAll_append]
    exact whole.tracks
  · rw [rest, records]
    rfl
  · rw [List.append_assoc, Volume.performAll_append, Volume.read_performAll_other]
    · exact read_createDirectory _ _ _
    · intro action member touched
      obtain ⟨index, part, same, _⟩ := chunkLocal action member _ touched
      simp [SplitChunks.chunkPath] at same
  · intro action member path touched
    rw [List.append_assoc] at member
    rcases List.mem_append.mp member with first | rest
    · rcases paths_createDirectory first touched with same | same | same
      · exact .inl same
      · exact .inr ⟨_, same, rfl⟩
      · exact .inr ⟨_, same, rfl⟩
    · obtain ⟨index, part, same, owned⟩ := chunkLocal action rest path touched
      exact .inr ⟨_, same, discardable_chunk owned⟩

end SparseLab.Data
