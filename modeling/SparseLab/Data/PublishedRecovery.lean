import SparseLab.Data.SessionRecovery

/-! Recovery completes the cleanup of a published directory from any crash. -/

namespace SparseLab.Data

open Library

def chunkFiles (settings : Settings) (split : Split) (groups : List (List Record)) (index : Nat) :
    List (Name × File) :=
  (.chunk split index .receipt, .receipt (receiptAt settings split groups index)) ::
    settings.arrays.map fun array =>
      (.chunk split index (.raw array), .raw array (rawOf (groupAt groups index) array))

def splitFiles (settings : Settings) (split : Split) (groups : List (List Record)) :
    List (Name × File) :=
  (List.range groups.length).flatMap (chunkFiles settings split groups)

def ownedFiles (settings : Settings) (groups : Split → List (List Record)) : List (Name × File) :=
  splitFiles settings .train (groups .train) ++
    splitFiles settings .validation (groups .validation)

def manifestFor (settings : Settings) (groups : Split → List (List Record)) : Manifest :=
  manifestOf settings fun split => finishedOf settings (groups split).flatten

def ownedProof (settings : Settings) (entry : Name × File) : Name × FileProof :=
  (entry.1, proofOf settings entry.2)

def cleanupOf (settings : Settings) (groups : Split → List (List Record)) : Cleanup where
  manifestSha256 := settings.signManifest (manifestFor settings groups)
  files := (ownedFiles settings groups).map (ownedProof settings)

variable {settings : Settings} {disk : Disk} {groups : Split → List (List Record)}
  {split : Split} {actions : Actions} {ledgers : Split → SplitChunks}

theorem mem_splitFiles {splitGroups : List (List Record)} {entry : Name × File} :
    entry ∈ splitFiles settings split splitGroups ↔ ∃ index < splitGroups.length,
      entry = (.chunk split index .receipt,
          .receipt (receiptAt settings split splitGroups index)) ∨
        ∃ array ∈ settings.arrays, entry = (.chunk split index (.raw array),
          .raw array (rawOf (groupAt splitGroups index) array)) := by
  simp only [splitFiles, chunkFiles, List.mem_flatMap, List.mem_range, List.mem_cons, List.mem_map,
    eq_comm (b := entry)]

theorem mem_ownedFiles {entry : Name × File} :
    entry ∈ ownedFiles settings groups ↔ ∃ split, entry ∈ splitFiles settings split (groups split) := by
  rw [ownedFiles, List.mem_append]
  constructor
  · rintro (member | member)
    · exact ⟨_, member⟩
    · exact ⟨_, member⟩
  · rintro ⟨split, member⟩
    cases split with
    | train => exact .inl member
    | validation => exact .inr member

theorem mem_ownedNames {name : Name} :
    name ∈ (ownedFiles settings groups).map Prod.fst ↔ ∃ split index part,
      name = .chunk split index part ∧ index < (groups split).length ∧ KeptPart settings part := by
  rw [List.mem_map]
  constructor
  · rintro ⟨entry, member, rfl⟩
    obtain ⟨split, found⟩ := mem_ownedFiles.mp member
    obtain ⟨index, inside, rfl | ⟨array, arrayMember, rfl⟩⟩ := mem_splitFiles.mp found
    · exact ⟨split, index, _, rfl, inside, trivial⟩
    · exact ⟨split, index, _, rfl, inside, arrayMember⟩
  · rintro ⟨split, index, part, rfl, inside, kept⟩
    cases part with
    | receipt =>
      exact ⟨_, mem_ownedFiles.mpr ⟨split, mem_splitFiles.mpr ⟨index, inside, .inl rfl⟩⟩, rfl⟩
    | raw array =>
      exact ⟨_, mem_ownedFiles.mpr ⟨split, mem_splitFiles.mpr
        ⟨index, inside, .inr ⟨array, kept, rfl⟩⟩⟩, rfl⟩
    | receiptTmp => exact absurd kept id
    | rawTmp array => exact absurd kept id

theorem mem_finalNames {name : Name} :
    name ∈ finalNames settings ↔ ∃ split, ∃ array ∈ settings.arrays, name = .final split array := by
  simp only [finalNames, splits, List.mem_flatMap, List.mem_map, eq_comm (b := name)]
  constructor
  · rintro ⟨split, _, array, member, rfl⟩
    exact ⟨split, array, member, rfl⟩
  · rintro ⟨split, array, member, rfl⟩
    exact ⟨split, by cases split <;> simp, array, member, rfl⟩

theorem owned_of_inventory {split : Split} {index : Nat} {part : Part}
    (listed : Name.chunk split index part = .stagingTmp ∨
      .chunk split index part ∈ keptNames settings ∨
      .chunk split index part ∈ (ownedFiles settings groups).map Prod.fst) :
    .chunk split index part ∈ (ownedFiles settings groups).map Prod.fst := by
  rcases listed with temporary | kept | owned
  · cases temporary
  · rcases List.mem_append.mp kept with listed | final
    · simp at listed
    · obtain ⟨_, _, _, same⟩ := mem_finalNames.mp final
      cases same
  · exact owned

structure Prepared (settings : Settings) (disk : Disk) (groups : Split → List (List Record)) :
    Prop where
  manifest : disk.read (.entry .root .manifest) = some (.manifest (manifestFor settings groups)
    (settings.signManifest (manifestFor settings groups)))
  final : ∀ split, ∀ array ∈ settings.arrays, disk.read (.entry .root (.final split array)) =
    some (.array array (rawOf (groups split).flatten array))
  nonempty : ∀ split, ∀ array ∈ settings.arrays, (rawOf (groups split).flatten array).length ≠ 0
  valid : ∀ split, ∀ group ∈ groups split, ValidGroup settings group
  inventory : ∀ name, disk.read (.entry .root name) ≠ none → name = .stagingTmp ∨
    name ∈ keptNames settings ∨ name ∈ (ownedFiles settings groups).map Prod.fst
  scratch : works disk = []

structure Published (settings : Settings) (disk : Disk) (groups : Split → List (List Record)) :
    Prop extends Prepared settings disk groups where
  marker : disk.read (.entry .root .staging) = some (.owner settings.owner none)
  stored : ∀ split, Stored settings .root split disk (groups split)

structure Cleaning (settings : Settings) (disk : Disk) (groups : Split → List (List Record)) :
    Prop extends Prepared settings disk groups where
  marker : disk.read (.entry .root .staging) =
    some (.owner settings.owner (some (cleanupOf settings groups)))
  remaining : ∀ entry ∈ ownedFiles settings groups,
    disk.read (.entry .root entry.1) = none ∨ disk.read (.entry .root entry.1) = some entry.2

structure Cleaned (settings : Settings) (disk : Disk) (groups : Split → List (List Record)) :
    Prop extends Prepared settings disk groups where
  marker : disk.read (.entry .root .staging) = none

structure Agrees (settings : Settings) (groups : Split → List (List Record))
    (ledgers : Split → SplitChunks) : Prop where
  split : ∀ split, (ledgers split).split = split
  receipts : ∀ split, (ledgers split).sealedReceipts = receiptsOf settings split (groups split)
  pending : ∀ split, (ledgers split).pending.acquiredDocuments = 0
  state : ∀ split, (ledgers split).state = tally (groups split).flatten

theorem Published.read_owned (published : Published settings disk groups) {entry : Name × File}
    (member : entry ∈ ownedFiles settings groups) :
    disk.read (.entry .root entry.1) = some entry.2 := by
  obtain ⟨split, found⟩ := mem_ownedFiles.mp member
  obtain ⟨index, inside, rfl | ⟨array, arrayMember, rfl⟩⟩ := mem_splitFiles.mp found
  · exact (published.stored split).receipt index inside
  · exact (published.stored split).raw index inside array arrayMember

theorem Prepared.kept (prepared : Prepared settings disk groups)
    (marker : disk.read (.entry .root .staging) ≠ none) {name : Name}
    (member : name ∈ keptNames settings) : name ∈ names disk .root := by
  rw [mem_names]
  rcases List.mem_append.mp member with listed | final
  · simp only [List.mem_cons, List.not_mem_nil, or_false] at listed
    rcases listed with rfl | rfl
    · rw [prepared.manifest]
      exact Option.some_ne_none _
    · exact marker
  · obtain ⟨split, array, inside, rfl⟩ := mem_finalNames.mp final
    rw [prepared.final split array inside]
    exact Option.some_ne_none _

theorem Prepared.frame (prepared : Prepared settings disk groups)
    (touched : ∀ action ∈ actions, ∀ path ∈ action.paths, ∃ name, path = .entry .root name ∧
      name ≠ .manifest ∧ ∀ split array, name ≠ .final split array)
    (targets : ∀ action ∈ actions, ∀ path ∈ action.targets,
      path = .entry .root .staging ∨ path = .entry .root .stagingTmp) :
    Prepared settings (disk.performAll actions) groups := by
  refine ⟨?_, ?_, prepared.nonempty, prepared.valid, ?_, ?_⟩
  · rw [Volume.read_performAll_other]
    · exact prepared.manifest
    · intro action member inside
      obtain ⟨name, same, notManifest, _⟩ := touched action member _ inside
      injection same with _ sameName
      exact notManifest sameName.symm
  · intro split array arrayMember
    rw [Volume.read_performAll_other]
    · exact prepared.final split array arrayMember
    · intro action member inside
      obtain ⟨name, same, _, notFinal⟩ := touched action member _ inside
      injection same with _ sameName
      exact notFinal split array sameName.symm
  · intro name present
    rcases Volume.present_performAll _ present with earlier | ⟨action, member, target⟩
    · exact prepared.inventory name earlier
    · rcases targets action member _ target with same | same <;> injection same with _ sameName
      · refine .inr (.inl ?_)
        rw [sameName]
        simp [keptNames]
      · exact .inl sameName
  · rw [works_eq_nil]
    intro path outside
    by_contra present
    rcases Volume.present_performAll _ present with earlier | ⟨action, member, target⟩
    · exact earlier (works_eq_nil.mp prepared.scratch path outside)
    · rcases targets action member _ target with same | same <;>
        rw [same] at outside <;> exact outside rfl

section

theorem cleanupFiles_eq {ledger : SplitChunks} {splitGroups : List (List Record)}
    (stored : Stored settings .root ledger.split disk splitGroups) (index : Nat) :
    cleanupFiles settings disk ledger index
        ((receiptsOf settings ledger.split splitGroups).drop index) =
      .ok ((((List.range splitGroups.length).drop index).flatMap
        (chunkFiles settings ledger.split splitGroups)).map (ownedProof settings)) := by
  by_cases inside : index < splitGroups.length
  · have receiptInside : index < (receiptsOf settings ledger.split splitGroups).length := by
      rwa [length_receiptsOf]
    have rangeInside : index < (List.range splitGroups.length).length := by
      rwa [List.length_range]
    have receipt : (receiptsOf settings ledger.split splitGroups)[index] =
        receiptAt settings ledger.split splitGroups index := by
      simp [receiptsOf]
    have found : readFile disk (.chunk ledger.split index .receipt) =
        .ok (.receipt (receiptAt settings ledger.split splitGroups index)) := by
      rw [readFile, stored.receipt index inside]
    have rest := cleanupFiles_eq stored (index + 1)
    rw [List.drop_eq_getElem_cons receiptInside, receipt, cleanupFiles, found, rest,
      List.drop_eq_getElem_cons rangeInside, List.getElem_range, List.flatMap_cons, List.map_append]
    simp only [bind, Except.bind, pure, Except.pure, chunkFiles, receiptAt, receiptFor, ownedProof,
      proofOf, sizeBytes, List.map_cons, List.map_map, Function.comp_def, List.cons_append]
  · rw [List.drop_of_length_le (by rw [length_receiptsOf]; omega),
      List.drop_of_length_le (by rw [List.length_range]; omega)]
    rfl
termination_by splitGroups.length - index

theorem mem_expectedNames (agrees : Agrees settings groups ledgers) {name : Name} :
    name ∈ expectedNames settings ledgers ↔
      name ∈ keptNames settings ∨ name ∈ (ownedFiles settings groups).map Prod.fst := by
  rw [expectedNames, List.mem_append, mem_ownedNames]
  apply or_congr_right
  simp only [splits, ownedNames, List.mem_flatMap, agrees.receipts, length_receiptsOf,
    List.mem_range, List.mem_cons, List.mem_map]
  constructor
  · rintro ⟨split, _, index, inside, rfl | ⟨array, member, rfl⟩⟩
    · exact ⟨split, index, _, rfl, inside, trivial⟩
    · exact ⟨split, index, _, rfl, inside, member⟩
  · rintro ⟨split, index, part, rfl, inside, kept⟩
    refine ⟨split, by cases split <;> simp, index, inside, ?_⟩
    cases part with
    | receipt => exact .inl rfl
    | raw array => exact .inr ⟨array, kept, rfl⟩
    | receiptTmp => exact absurd kept id
    | rawTmp array => exact absurd kept id

theorem Published.cleanupReceipt_eq (published : Published settings disk groups)
    (agrees : Agrees settings groups ledgers) :
    cleanupReceipt settings disk ledgers = .ok (cleanupOf settings groups) := by
  have marker : disk.read (.entry .root .staging) ≠ none := by
    rw [published.marker]
    exact Option.some_ne_none _
  have pending : (splits.any fun split => (ledgers split).pending.acquiredDocuments ≠ 0) =
      false := by
    simp [splits, agrees.pending]
  have known : (∀ name ∈ names disk .root,
      name ∈ expectedNames settings ledgers ++ [.stagingTmp]) ∧ works disk = [] := by
    refine ⟨?_, published.scratch⟩
    intro name member
    rw [List.mem_append]
    rcases published.inventory name (mem_names.mp member) with temporary | expected
    · exact .inr (List.mem_singleton.mpr temporary)
    · exact .inl ((mem_expectedNames agrees).mpr expected)
  have complete : ∀ name ∈ expectedNames settings ledgers, name ∈ names disk .root := by
    intro name member
    rcases (mem_expectedNames agrees).mp member with kept | owned
    · exact published.kept marker kept
    · obtain ⟨entry, found, rfl⟩ := List.mem_map.mp owned
      rw [mem_names, published.read_owned found]
      exact Option.some_ne_none _
  have files : ∀ split, cleanupFiles settings disk (ledgers split) 0
      (ledgers split).sealedReceipts =
        .ok ((splitFiles settings split (groups split)).map (ownedProof settings)) := by
    intro split
    have stored := published.stored split
    rw [← agrees.split split] at stored
    have all := cleanupFiles_eq stored 0
    rw [List.drop_zero, List.drop_zero, agrees.split split] at all
    rw [agrees.receipts]
    exact all
  have manifest : readManifest disk = .ok (manifestFor settings groups,
      settings.signManifest (manifestFor settings groups)) := by
    rw [readManifest, published.manifest]
  simp only [cleanupReceipt, readOwner, published.marker, bind, Except.bind, ne_eq,
    not_true_eq_false, ↓reduceIte]
  rw [if_neg (by rw [pending]; exact Bool.false_ne_true), if_neg (not_not_intro known),
    if_neg (not_not_intro complete)]
  simp only [files, manifest, pure, Except.pure, cleanupOf, ownedFiles, List.map_append]

end

section

theorem ownedFilename_of_mem (bounded : ∀ split, (groups split).length ≤ sortableChunks)
    {name : Name} (member : name ∈ (ownedFiles settings groups).map Prod.fst) :
    ownedFilename settings name = true := by
  obtain ⟨split, index, part, rfl, inside, kept⟩ := mem_ownedNames.mp member
  have narrow : (zeroPadded 6 index).length = 6 :=
    (length_zeroPadded_eq (by decide)).mpr (Nat.lt_of_lt_of_le inside (bounded split))
  cases part with
  | receipt => simp [ownedFilename, narrow]
  | raw array =>
    have inArrays : array ∈ settings.arrays := kept
    simp [ownedFilename, narrow, inArrays]
  | receiptTmp => exact absurd kept id
  | rawTmp array => exact absurd kept id

theorem Cleaning.verifyOwned_ok (cleaning : Cleaning settings disk groups) :
    verifyOwned settings disk (cleanupOf settings groups).files = .ok () := by
  have all : ∀ entries : List (Name × File), (∀ entry ∈ entries, entry ∈ ownedFiles settings groups) →
      verifyOwned settings disk (entries.map (ownedProof settings)) = .ok () := by
    intro entries members
    induction entries with
    | nil => rfl
    | cons entry entries ih =>
      have rest := ih fun later inside => members later (List.mem_cons_of_mem _ inside)
      rw [List.map_cons]
      rcases cleaning.remaining entry (members entry List.mem_cons_self) with gone | whole
      · simp only [verifyOwned, ownedProof, gone]
        exact rest
      · simp only [verifyOwned, ownedProof, whole, proofOf, ne_eq, not_true_eq_false, ↓reduceIte]
        exact rest
  exact all _ fun _ member => member

def removedNames (settings : Settings) (groups : Split → List (List Record)) : List Name :=
  ((cleanupOf settings groups).files.map Prod.fst).mergeSort fun first second =>
    first.chars ≤ second.chars

theorem mem_removedNames {name : Name} : name ∈ removedNames settings groups ↔
    name ∈ (ownedFiles settings groups).map Prod.fst := by
  rw [removedNames, List.mem_mergeSort, cleanupOf, List.map_map]
  rfl

def removals (settings : Settings) (groups : Split → List (List Record)) : Actions :=
  (removedNames settings groups).map (fun name => .unlink (.entry .root name)) ++
    [.unlink (.entry .root .stagingTmp), .unlink (.entry .root .staging)]

/-- Everything that goes before the marker. -/
def doomed (settings : Settings) (groups : Split → List (List Record)) : List Name :=
  removedNames settings groups ++ [.stagingTmp]

theorem removals_eq : removals settings groups =
    ((doomed settings groups).map (Path.entry .root)).map (fun path => .unlink path) ++
      [.unlink (.entry .root .staging)] := by
  simp [removals, doomed, Function.comp_def]

theorem owned_of_doomed {name : Name} (member : name ∈ doomed settings groups) :
    name = .stagingTmp ∨ name ∈ (ownedFiles settings groups).map Prod.fst := by
  rcases List.mem_append.mp member with removed | temporary
  · exact .inr (mem_removedNames.mp removed)
  · exact .inl (List.mem_singleton.mp temporary)

theorem Cleaning.finishCleanup_eq (cleaning : Cleaning settings disk groups)
    (bounded : ∀ split, (groups split).length ≤ sortableChunks) (cold : Bool) :
    finishCleanup settings disk (cleanupOf settings groups) cold =
      .ok (removals settings groups) := by
  have named : (removedNames settings groups).any (fun name => !ownedFilename settings name) =
      false := by
    rw [List.any_eq_false]
    intro name member
    simp [ownedFilename_of_mem bounded (mem_removedNames.mp member)]
  have inventory : cleanupInventory settings disk (removedNames settings groups) := by
    refine ⟨?_, ?_, cleaning.scratch⟩
    · intro name member
      apply cleaning.kept _ member
      rw [cleaning.marker]
      exact Option.some_ne_none _
    · intro name member
      rw [List.mem_append, List.mem_append, mem_removedNames]
      rcases cleaning.inventory name (mem_names.mp member) with temporary | kept | owned
      · exact .inr (List.mem_singleton.mpr temporary)
      · exact .inl (.inl kept)
      · exact .inl (.inr owned)
  rw [removedNames] at named inventory
  simp only [finishCleanup, named, Bool.false_eq_true, ↓reduceIte, inventory, not_true_eq_false,
    bind, Except.bind]
  cases cold with
  | false => rfl
  | true =>
    rw [cleaning.verifyOwned_ok]
    rfl

theorem Cleaning.unlinks (cleaning : Cleaning settings disk groups) {removed : List Name}
    (owned : ∀ name ∈ removed,
      name = .stagingTmp ∨ name ∈ (ownedFiles settings groups).map Prod.fst) :
    Cleaning settings
      (disk.performAll ((removed.map (Path.entry .root)).map fun path => .unlink path)) groups := by
  have touched : ∀ action ∈ (removed.map (Path.entry .root)).map fun path =>
      (.unlink path : Action Path File), ∀ path ∈ action.paths, ∃ name,
        path = .entry .root name ∧ name ≠ .staging ∧ name ≠ .manifest ∧
          ∀ split array, name ≠ .final split array := by
    intro action member path inside
    obtain ⟨_, found, rfl⟩ := List.mem_map.mp member
    obtain ⟨name, nameMember, rfl⟩ := List.mem_map.mp found
    refine ⟨name, List.mem_singleton.mp inside, ?_⟩
    rcases owned name nameMember with rfl | file
    · simp
    · obtain ⟨split, index, part, rfl, _⟩ := mem_ownedNames.mp file
      simp
  refine ⟨cleaning.toPrepared.frame ?_ ?_, ?_, ?_⟩
  · intro action member path inside
    obtain ⟨name, same, _, apart⟩ := touched action member path inside
    exact ⟨name, same, apart⟩
  · intro action member path target
    obtain ⟨_, _, rfl⟩ := List.mem_map.mp member
    exact absurd target List.not_mem_nil
  · rw [Volume.read_performAll_other]
    · exact cleaning.marker
    · intro action member inside
      obtain ⟨name, same, notStaging, _⟩ := touched action member _ inside
      injection same with _ sameName
      exact notStaging sameName.symm
  · intro entry member
    rcases Volume.read_unlinkAll_or disk (.entry .root entry.1) (removed.map (Path.entry .root))
      with gone | same
    · exact .inl gone
    · rw [same]
      exact cleaning.remaining entry member

theorem Cleaning.unlinkMarker (cleaning : Cleaning settings disk groups) :
    Cleaned settings (disk.perform (.unlink (.entry .root .staging))) groups := by
  have prepared : Prepared settings (disk.performAll [.unlink (.entry .root .staging)]) groups :=
    cleaning.toPrepared.frame
    (by
      intro action member path inside
      rw [List.mem_singleton.mp member] at inside
      exact ⟨_, List.mem_singleton.mp inside, by simp, by simp⟩)
    (by
      intro action member path target
      rw [List.mem_singleton.mp member] at target
      exact absurd target List.not_mem_nil)
  exact ⟨prepared, Volume.read_unlink_self _ _⟩

theorem Cleaning.removals_cut (cleaning : Cleaning settings disk groups) (cut : Nat) :
    Cleaning settings (disk.performAll ((removals settings groups).take cut)) groups ∨
      Cleaned settings (disk.performAll ((removals settings groups).take cut)) groups := by
  rw [removals_eq]
  rcases Volume.cut_append disk _ [.unlink (.entry .root .staging)] cut with inside | ⟨rest, later⟩
  · rw [inside, ← List.map_take, ← List.map_take]
    exact .inl (cleaning.unlinks fun name member => owned_of_doomed (List.mem_of_mem_take member))
  · rw [later]
    have before := cleaning.unlinks fun name => owned_of_doomed
    cases rest with
    | zero => exact .inl before
    | succ rest =>
      rw [List.take_succ_cons, List.take_nil]
      exact .inr before.unlinkMarker

end

section

theorem Published.temporary (published : Published settings disk groups) (only : ∀ action ∈ actions,
      action.paths = [Path.entry .root .stagingTmp]) :
    Published settings (disk.performAll actions) groups := by
  have apart : ∀ path, path ≠ .entry .root .stagingTmp →
      (disk.performAll actions).read path = disk.read path := by
    intro path different
    apply Volume.read_performAll_other
    intro action member inside
    rw [only action member] at inside
    exact different (List.mem_singleton.mp inside)
  refine ⟨published.toPrepared.frame ?_ ?_, ?_, ?_⟩
  · intro action member path inside
    rw [only action member] at inside
    exact ⟨_, List.mem_singleton.mp inside, by simp, by simp⟩
  · intro action member path target
    have inside := Volume.targets_subset_paths target
    rw [only action member] at inside
    exact .inr (List.mem_singleton.mp inside)
  · rw [apart _ (by simp)]
    exact published.marker
  · intro split
    refine ⟨?_, ?_⟩
    · intro index inside
      rw [apart _ (by simp)]
      exact (published.stored split).receipt index inside
    · intro index inside array member
      rw [apart _ (by simp)]
      exact (published.stored split).raw index inside array member

theorem Published.commit (published : Published settings disk groups)
    (intent : disk.read (.entry .root .stagingTmp) =
      some (.owner settings.owner (some (cleanupOf settings groups)))) :
    Cleaning settings (disk.performAll
      [.rename (.entry .root .stagingTmp) (.entry .root .staging)]) groups := by
  refine ⟨published.toPrepared.frame ?_ ?_, Volume.read_rename_target _ intent _, ?_⟩
  · intro action member path inside
    rw [List.mem_singleton.mp member] at inside
    simp only [Action.paths, List.mem_cons, List.not_mem_nil, or_false] at inside
    rcases inside with rfl | rfl
    · exact ⟨_, rfl, by simp, by simp⟩
    · exact ⟨_, rfl, by simp, by simp⟩
  · intro action member path target
    rw [List.mem_singleton.mp member] at target
    exact .inl (List.mem_singleton.mp target)
  · intro entry member
    obtain ⟨split, index, part, same, _⟩ :=
      mem_ownedNames.mp (List.mem_map_of_mem (f := Prod.fst) member)
    rw [Volume.read_performAll_other]
    · exact .inr (published.read_owned member)
    · intro action found inside
      rw [List.mem_singleton.mp found, same] at inside
      simp [Action.paths] at inside

theorem Published.commit_cut (published : Published settings disk groups) :
    (∀ cut, Published settings
        (disk.performAll ((commitCleanup settings (cleanupOf settings groups)).take cut)) groups ∨
      Cleaning settings
        (disk.performAll ((commitCleanup settings (cleanupOf settings groups)).take cut)) groups) ∧
      Cleaning settings
        (disk.performAll (commitCleanup settings (cleanupOf settings groups))) groups := by
  let file : File := .owner settings.owner (some (cleanupOf settings groups))
  let temporary : Path := .entry .root .stagingTmp
  let setup : Actions := [.unlink temporary, .write temporary .torn, .write temporary file]
  have shape : commitCleanup settings (cleanupOf settings groups) =
      setup ++ [.rename temporary (.entry .root .staging)] := rfl
  have only : ∀ action ∈ setup, action.paths = [temporary] := by
    intro action member
    simp only [setup, List.mem_cons, List.not_mem_nil, or_false] at member
    rcases member with rfl | rfl | rfl <;> rfl
  have ready := published.temporary only
  have committed := ready.commit (Volume.read_write_self _ _ _)
  rw [shape]
  constructor
  · intro cut
    rcases Volume.cut_append disk setup [.rename temporary (.entry .root .staging)] cut with
      inside | ⟨rest, later⟩
    · rw [inside]
      exact .inl (published.temporary fun action member =>
        only action (List.mem_of_mem_take member))
    · rw [later]
      cases rest with
      | zero => exact .inl ready
      | succ rest =>
        rw [List.take_succ_cons, List.take_nil]
        exact .inr committed
  · rw [Volume.performAll_append]
    exact committed

end

section

def Shelved (settings : Settings) (disk : Disk) (groups : Split → List (List Record)) : Prop :=
  Published settings disk groups ∨ Cleaning settings disk groups ∨ Cleaned settings disk groups

theorem Published.cleanupPublished_eq (published : Published settings disk groups)
    (agrees : Agrees settings groups ledgers)
    (bounded : ∀ split, (groups split).length ≤ sortableChunks) :
    cleanupPublished settings disk ledgers = {
      actions := commitCleanup settings (cleanupOf settings groups) ++ removals settings groups
      result := .ok () } := by
  simp only [cleanupPublished, published.cleanupReceipt_eq agrees,
    published.commit_cut.2.finishCleanup_eq bounded]

theorem Published.cleanupPublished_ok (published : Published settings disk groups)
    (agrees : Agrees settings groups ledgers)
    (bounded : ∀ split, (groups split).length ≤ sortableChunks) :
    (cleanupPublished settings disk ledgers).result = .ok () ∧
      ∀ cut, Shelved settings
        (disk.performAll ((cleanupPublished settings disk ledgers).actions.take cut)) groups := by
  obtain ⟨cuts, cleaning⟩ := published.commit_cut
  rw [published.cleanupPublished_eq agrees bounded]
  refine ⟨rfl, ?_⟩
  intro cut
  rcases Volume.cut_append disk (commitCleanup settings (cleanupOf settings groups))
    (removals settings groups) cut with inside | ⟨rest, later⟩
  · rw [inside]
    exact (cuts cut).imp_right .inl
  · rw [later]
    exact .inr (cleaning.removals_cut rest)

theorem Prepared.verifyArrays_ok (prepared : Prepared settings disk groups) :
    verifyArrays settings disk (manifestFor settings groups).arrays = .ok () := by
  have all : ∀ arrays : List ArrayMetadata,
      (∀ metadata ∈ arrays, metadata ∈ (manifestFor settings groups).arrays) →
        verifyArrays settings disk arrays = .ok () := by
    intro arrays members
    induction arrays with
    | nil => rfl
    | cons metadata arrays ih =>
      have rest := ih fun later inside => members later (List.mem_cons_of_mem _ inside)
      have listed := members metadata List.mem_cons_self
      simp only [manifestFor, manifestOf, finishedOf, List.mem_flatMap, List.mem_map] at listed
      obtain ⟨split, _, entry, ⟨array, arrayMember, rfl⟩, rfl⟩ := listed
      have found := prepared.final split array arrayMember
      have some := prepared.nonempty split array arrayMember
      simp only [verifyArrays, found, ne_eq, not_true_eq_false, ↓reduceIte, some, or_false]
      exact rest
  exact all _ fun _ member => member

theorem requiredArrays_manifestFor :
    requiredArrays (manifestFor settings groups) = finalNames settings := by
  simp only [requiredArrays, manifestFor, manifestOf, finishedOf, finalNames, List.map_flatMap,
    List.map_map, Function.comp_def]

theorem Prepared.checkManifest_ok (prepared : Prepared settings disk groups)
    {cleanup : Option Cleanup} {opened : Option (Split → SplitChunks)}
    (committed : ∀ found ∈ cleanup, found = cleanupOf settings groups)
    (agrees : ∀ ledgers ∈ opened, Agrees settings groups ledgers) :
    checkManifest settings disk cleanup opened = .ok () := by
  have manifest : readManifest disk = .ok (manifestFor settings groups,
      settings.signManifest (manifestFor settings groups)) := by
    rw [readManifest, prepared.manifest]
  have identity : ¬ (settings.signManifest (manifestFor settings groups) ≠
        settings.signManifest (manifestFor settings groups) ∨
      (manifestFor settings groups).cacheIdentity ≠ settings.cacheIdentity) := by
    rw [not_or]
    exact ⟨not_not_intro rfl, not_not_intro rfl⟩
  have arrays : ¬ (¬ (∀ name ∈ requiredArrays (manifestFor settings groups),
        name ∈ finalNames settings) ∨
      ¬ ∀ name ∈ finalNames settings, name ∈ requiredArrays (manifestFor settings groups)) := by
    rw [requiredArrays_manifestFor, or_self, not_not]
    exact fun _ member => member
  have signature : (cleanup.any fun cleanup => cleanup.manifestSha256 ≠
      settings.signManifest (manifestFor settings groups)) = false := by
    cases cleanup with
    | none => rfl
    | some found =>
      rw [committed found rfl]
      simp [cleanupOf]
  have counters : (opened.any fun ledgers => splits.any fun split =>
      (manifestFor settings groups).counters split ≠ (ledgers split).state) = false := by
    cases opened with
    | none => rfl
    | some ledgers =>
      simp [splits, (agrees ledgers rfl).state, manifestFor, manifestOf, finishedOf]
  simp only [checkManifest, manifest, bind, Except.bind, if_neg identity, if_neg arrays, signature,
    counters, Bool.false_eq_true, ↓reduceIte]
  exact prepared.verifyArrays_ok

theorem Published.recoverable (published : Published settings disk groups) (split : Split) :
    Recoverable settings .root split disk (groups split) ∧
      ∀ index part, disk.read (.entry .root (.chunk split index part)) ≠ none →
        index < (groups split).length := by
  have sealed : ∀ index part, disk.read (.entry .root (.chunk split index part)) ≠ none →
      index < (groups split).length ∧ KeptPart settings part := by
    intro index part present
    obtain ⟨other, found, foundPart, same, inside, keptPart⟩ :=
      mem_ownedNames.mp (owned_of_inventory (published.inventory _ present))
    injection same with sameSplit sameIndex samePart
    subst sameSplit sameIndex samePart
    exact ⟨inside, keptPart⟩
  exact ⟨⟨published.stored split, published.valid split, fun index part present =>
    .inl (sealed index part present)⟩, fun index part present => (sealed index part present).1⟩

theorem Published.openSplits_ok (published : Published settings disk groups)
    (bounded : ∀ split, (groups split).length ≤ sortableChunks) :
    ∃ ledgers, openSplits settings disk = .ok ledgers ∧ Agrees settings groups ledgers := by
  have few : ∀ split, (groups split).length ≤ 1000000000 := by
    intro split
    have million : sortableChunks ≤ 1000000000 := by norm_num [sortableChunks]
    exact Nat.le_trans (bounded split) million
  let ledger : Split → SplitChunks := fun split => {
    place := .root, split
    sealedReceipts := receiptsOf settings split (groups split)
    state := tally (groups split).flatten }
  have opens : ∀ split, openSplit settings disk .root split = .ok (ledger split) := by
    intro split
    obtain ⟨recoverable, clean⟩ := published.recoverable split
    have opened := openSplit_eq recoverable clean
    rwa [List.take_of_length_le (few split)] at opened
  refine ⟨ledger, ?_, fun _ => rfl, fun _ => rfl, fun _ => rfl, fun _ => rfl⟩
  simp only [openSplits, opens, bind, Except.bind, pure, Except.pure, Except.ok.injEq]
  funext split
  cases split <;> rfl

theorem Shelved.recovers (shelved : Shelved settings disk groups)
    (bounded : ∀ split, (groups split).length ≤ sortableChunks)
    (marker : disk.read (.entry .root .staging) ≠ none) :
    (recoverPublished settings disk).result = .ok () ∧
      ∀ cut, Shelved settings
        (disk.performAll ((recoverPublished settings disk).actions.take cut)) groups := by
  rcases shelved with published | cleaning | cleaned
  · obtain ⟨ledgers, opened, agrees⟩ := published.openSplits_ok bounded
    have checked : checkManifest settings disk none (some ledgers) = .ok () :=
      published.checkManifest_ok (by simp)
        fun _ found => Option.some.inj found ▸ agrees
    have recoverEq : recoverPublished settings disk = cleanupPublished settings disk ledgers := by
      simp only [recoverPublished, readOwner, published.marker, ne_eq, not_true_eq_false,
        ↓reduceIte, opened, checked]
    rw [recoverEq]
    exact published.cleanupPublished_ok agrees bounded
  · have checked : checkManifest settings disk (some (cleanupOf settings groups)) none = .ok () :=
      cleaning.checkManifest_ok (fun _ found => (Option.some.inj found).symm)
        (by simp)
    have recoverEq : recoverPublished settings disk =
        { actions := removals settings groups, result := .ok () } := by
      simp only [recoverPublished, readOwner, cleaning.marker, ne_eq, not_true_eq_false,
        ↓reduceIte, checked, cleaning.finishCleanup_eq bounded]
    rw [recoverEq]
    exact ⟨rfl, fun cut => .inr (cleaning.removals_cut cut)⟩
  · exact absurd cleaned.marker marker

end

end SparseLab.Data
