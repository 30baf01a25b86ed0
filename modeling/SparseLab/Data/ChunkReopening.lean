import SparseLab.Data.ChunkRecovery

/-! Reading a ledger back from its receipts, and writing its final arrays. -/

namespace SparseLab.Data

open Library

variable {settings : Settings} {place : Place} {split : Split} {disk : Disk}
  {groups groups' : List (List Record)} {pending : List Record} {chunks after : SplitChunks}

theorem take_succ_groups {index : Nat} (inside : index < groups.length) :
    groups.take (index + 1) = groups.take index ++ [groupAt groups index] := by
  have found : groupAt groups index = groups[index] := by
    simp [groupAt, List.getD_eq_getElem?_getD, List.getElem?_eq_getElem inside]
  rw [found, List.take_succ_eq_append_getElem inside]

theorem receiptsOf_take_succ {index : Nat} (inside : index < groups.length) :
    receiptsOf settings split (groups.take (index + 1)) =
      receiptsOf settings split (groups.take index) ++ [receiptAt settings split groups index] := by
  have count : (groups.take index).length = index := List.length_take_of_le (by omega)
  rw [take_succ_groups inside, receiptsOf_append, count]
  rfl

theorem checkRaw_stored (stored : Stored settings place split disk groups) {index : Nat}
    (inside : index < groups.length) :
    checkRaw settings disk place split index (receiptAt settings split groups index).arrays =
      .ok () := by
  have all : ∀ arrays : List ArrayName, (∀ array ∈ arrays, array ∈ settings.arrays) →
      checkRaw settings disk place split index (arrays.map fun array => (array, {
        length := (rawOf (groupAt groups index) array).length * settings.itemsize array
        sha256 := settings.sha256 (.raw array (rawOf (groupAt groups index) array)) })) =
          .ok () := by
    intro arrays members
    induction arrays with
    | nil => rfl
    | cons array arrays ih =>
      have found := stored.raw index inside array (members array List.mem_cons_self)
      have rest := ih fun other member => members other (List.mem_cons_of_mem _ member)
      simp only [List.map_cons, checkRaw, found, ne_eq, not_true_eq_false, ↓reduceIte, rest]
  exact all settings.arrays fun _ member => member

theorem readSealed_eq (stored : Stored settings place split disk groups)
    (valid : ∀ group ∈ groups, ValidGroup settings group)
    (last : disk.read (.entry place (.chunk split groups.length .receipt)) = none)
    {fuel index : Nat} (started : index ≤ groups.length) :
    readSealed settings disk place split fuel (receiptsOf settings split (groups.take index))
      (tally (groups.take index).flatten) =
        .ok (receiptsOf settings split (groups.take (index + fuel)),
          tally (groups.take (index + fuel)).flatten) := by
  induction fuel generalizing index with
  | zero => rfl
  | succ fuel ih =>
    have count : (receiptsOf settings split (groups.take index)).length = index := by
      rw [length_receiptsOf, List.length_take_of_le started]
    rw [readSealed, count]
    rcases Nat.lt_or_eq_of_le started with inside | atEnd
    · have receipt := stored.receipt index inside
      have validated := validateReceipt_receiptFor settings
        (valid _ (groupAt_mem inside)) split index (groups.take index).flatten.length
      have next := @ih (index + 1) inside
      have shifted : index + 1 + fuel = index + (fuel + 1) := by omega
      rw [receiptsOf_take_succ inside, take_succ_groups inside, List.flatten_append,
        List.flatten_singleton, tally_append, shifted] at next
      simp only [receipt, readReceipt, bind, Except.bind]
      rw [receiptAt, validated]
      simp only [receiptFor, tally_acquired, ne_eq, not_true_eq_false, ↓reduceIte]
      have raw := checkRaw_stored stored inside
      simp only [receiptAt, receiptFor] at raw next
      rw [raw]
      exact next
    · subst atEnd
      rw [last, List.take_length, List.take_of_length_le (by omega)]

theorem openSplit_eq (recoverable : Recoverable settings place split disk groups)
    (clean : ∀ index part, disk.read (.entry place (.chunk split index part)) ≠ none →
      index < groups.length) :
    openSplit settings disk place split = .ok {
      place, split
      sealedReceipts := receiptsOf settings split (groups.take 1000000000)
      state := tally (groups.take 1000000000).flatten } := by
  have last : disk.read (.entry place (.chunk split groups.length .receipt)) = none := by
    by_contra present
    have inside := clean _ _ present
    omega
  have start : readSealed settings disk place split 1000000000 [] {} = .ok
      (receiptsOf settings split (groups.take (0 + 1000000000)),
        tally (groups.take (0 + 1000000000)).flatten) :=
    readSealed_eq recoverable.stored recoverable.valid last (Nat.zero_le _)
  rw [Nat.zero_add] at start
  rw [openSplit, start]
  rfl

theorem openSplit_tracks (recoverable : Recoverable settings place split disk groups)
    (clean : ∀ index part, disk.read (.entry place (.chunk split index part)) ≠ none →
      index < groups.length) (bounded : groups.length ≤ 1000000000) :
    ∃ chunks, openSplit settings disk place split = .ok chunks ∧ chunks.place = place ∧
      chunks.split = split ∧ Tracks settings disk chunks groups [] := by
  have whole : groups.take 1000000000 = groups := List.take_of_length_le bounded
  refine ⟨_, openSplit_eq recoverable clean, rfl, rfl, ?_, ?_, rfl, rfl,
    recoverable.stored, recoverable.valid, fun some => absurd rfl some, ?_⟩
  · rw [whole]
  · rw [whole]
  · intro index part present
    rcases recoverable.parts index part present with kept | ⟨same, _⟩
    · exact .inl kept
    · have inside := clean index part present
      omega

theorem Tracks.elsewhere (tracks : Tracks settings disk chunks groups pending) {actions : Actions}
    (apart : ∀ action ∈ actions, ∀ path ∈ action.paths, ∀ index part,
      path ≠ chunks.chunkPath index part) :
    Extends settings disk chunks groups actions chunks groups pending := by
  refine ⟨tracks.frame ?_, rfl, rfl, List.prefix_refl _, ?_⟩
  · intro index part
    apply Volume.read_performAll_other
    intro action member touched
    exact apart action member _ touched index part rfl
  · intro cut
    refine ⟨groups, List.prefix_refl _, List.prefix_refl _, tracks.recoverable.cut ?_ cut⟩
    intro action member path touched index part same
    exact absurd same (apart action member path touched index part)

theorem lookup_map_key {κ β : Type} [BEq κ] [LawfulBEq κ] {value : κ → β} {keys : List κ} {key : κ}
    (member : key ∈ keys) : (keys.map fun key => (key, value key)).lookup key = some (value key) := by
  induction keys with
  | nil => simp at member
  | cons first rest ih =>
    rw [List.map_cons, List.lookup_cons]
    by_cases same : key = first
    · simp [same]
    · have later := (List.mem_cons.mp member).resolve_left same
      simp [beq_false_of_ne same, ih later]

theorem readArray_eq (tracks : Tracks settings disk chunks groups pending) {array : ArrayName}
    (member : array ∈ settings.arrays) (index : Nat) :
    chunks.readArray settings disk array index
        ((receiptsOf settings chunks.split groups).drop index) =
      .ok (rawOf (groups.drop index).flatten array) := by
  by_cases inside : index < groups.length
  · have receiptInside : index < (receiptsOf settings chunks.split groups).length := by
      rwa [length_receiptsOf]
    have receipt : (receiptsOf settings chunks.split groups)[index] =
        receiptAt settings chunks.split groups index := by
      simp [receiptsOf]
    have group : groups[index] = groupAt groups index := by
      simp [groupAt, List.getD_eq_getElem?_getD, List.getElem?_eq_getElem inside]
    have raw := tracks.stored.raw index inside array member
    have recorded : (receiptAt settings chunks.split groups index).arrays.lookup array = some {
        length := (rawOf (groupAt groups index) array).length * settings.itemsize array
        sha256 := settings.sha256 (.raw array (rawOf (groupAt groups index) array)) } :=
      lookup_map_key member
    have first : chunks.readRaw settings disk array index
        (receiptAt settings chunks.split groups index) =
          .ok (rawOf (groupAt groups index) array) := by
      simp only [SplitChunks.readRaw, SplitChunks.chunkPath, raw, recorded, Option.map_some, ne_eq,
        not_true_eq_false, ↓reduceIte]
    have rest := readArray_eq tracks member (index + 1)
    rw [List.drop_eq_getElem_cons receiptInside, receipt, SplitChunks.readArray, first, rest,
      List.drop_eq_getElem_cons inside, group, List.flatten_cons, rawOf_append]
    rfl
  · rw [List.drop_of_length_le (by rw [length_receiptsOf]; omega),
      List.drop_of_length_le (by omega)]
    rfl
termination_by groups.length - index

def OwnPath (settings : Settings) (chunks : SplitChunks) (path : Path) : Prop :=
  (∃ index part, path = chunks.chunkPath index part) ∨
    ∃ array ∈ settings.arrays, path = .entry chunks.place (.final chunks.split array) ∨
      path = .entry chunks.place (.finalTmp chunks.split array)

theorem paths_storeArray {array : ArrayName} {values : List Int} {action : Action Path File}
    {path : Path} (member : action ∈ chunks.storeArray array values)
    (touched : path ∈ action.paths) :
    path = .entry chunks.place (.final chunks.split array) ∨
      path = .entry chunks.place (.finalTmp chunks.split array) := by
  simp only [SplitChunks.storeArray, storeDocument, storeFile, List.cons_append, List.nil_append,
    List.mem_cons, List.not_mem_nil, or_false] at member
  rcases member with rfl | rfl | rfl | rfl | rfl <;>
    simp only [Action.paths, List.mem_cons, List.not_mem_nil, or_false] at touched
  · exact .inl touched
  · exact .inr touched
  · exact .inr touched
  · exact .inr touched
  · exact touched.symm

theorem read_storeArrays (content : ArrayName → List Int) (disk : Disk) {array : ArrayName}
    (member : array ∈ settings.arrays) :
    (disk.performAll (settings.arrays.flatMap fun array =>
        chunks.storeArray array (content array))).read
          (.entry chunks.place (.final chunks.split array)) = some (.array array (content array)) ∧
      (disk.performAll (settings.arrays.flatMap fun array =>
        chunks.storeArray array (content array))).read
          (.entry chunks.place (.finalTmp chunks.split array)) = none := by
  have stored : ∀ array (disk : Disk),
      (disk.performAll (chunks.storeArray array (content array))).read
        (.entry chunks.place (.final chunks.split array)) =
          some (.array array (content array)) := by
    intro array disk
    exact Volume.read_rename_target _ (Volume.read_write_self _ _ _) _
  have moved : ∀ array (disk : Disk),
      (disk.performAll (chunks.storeArray array (content array))).read
        (.entry chunks.place (.finalTmp chunks.split array)) = none := by
    intro array disk
    exact Volume.read_rename_source _ (by simp)
  constructor
  · apply Volume.read_blocks disk stored _ settings.arraysNodup member
    intro key other different action inside touched
    rcases paths_storeArray inside touched with same | same
    · simp only [Path.entry.injEq, Name.final.injEq, true_and] at same
      exact different same
    · simp at same
  · apply Volume.read_blocks disk moved _ settings.arraysNodup member
    intro key other different action inside touched
    rcases paths_storeArray inside touched with same | same
    · simp at same
    · simp only [Path.entry.injEq, Name.finalTmp.injEq, true_and] at same
      exact different same

def finishedOf (settings : Settings) (records : List Record) : SplitChunks.Finished where
  arrays := settings.arrays.map fun array => (array, rawOf records array)
  stats := tally records

theorem Tracks.finish (tracks : Tracks settings disk chunks groups pending) :
    ∃ actions after groups',
      chunks.finish settings disk =
        .ok (actions, after, finishedOf settings (groups.flatten ++ pending)) ∧
      Extends settings disk chunks groups actions after groups' [] ∧
      (∀ action ∈ actions, ∀ path ∈ action.paths, OwnPath settings chunks path) ∧
      groups'.flatten = groups.flatten ++ pending ∧
      ∀ array ∈ settings.arrays,
        (disk.performAll actions).read (.entry chunks.place (.final chunks.split array)) =
            some (.array array (rawOf (groups.flatten ++ pending) array)) ∧
          (disk.performAll actions).read (.entry chunks.place (.finalTmp chunks.split array)) =
            none := by
  obtain ⟨sealActions, after, groups', sealEq, extended, sealLocal, same⟩ := tracks.sealRest
  let content := rawOf (groups.flatten ++ pending)
  let storing := settings.arrays.flatMap fun array => after.storeArray array (content array)
  have arrays : settings.arrays.mapM (fun array => (do
      let values ← after.readArray settings (disk.performAll sealActions) array 0
        after.sealedReceipts
      pure (array, values) : Except String (ArrayName × List Int))) =
        .ok (settings.arrays.map fun array => (array, content array)) := by
    apply mapM_ok
    intro array member
    have read := readArray_eq extended.tracks member 0
    rw [List.drop_zero, List.drop_zero, same, ← extended.tracks.receipts] at read
    rw [read]
    rfl
  have storingPaths : ∀ action ∈ storing, ∀ path ∈ action.paths, ∃ array ∈ settings.arrays,
      path = .entry chunks.place (.final chunks.split array) ∨
        path = .entry chunks.place (.finalTmp chunks.split array) := by
    intro action member path touched
    obtain ⟨array, inside, found⟩ := List.mem_flatMap.mp member
    have paths := paths_storeArray found touched
    rw [extended.place, extended.split] at paths
    exact ⟨array, inside, paths⟩
  have stored : Extends settings (disk.performAll sealActions) after groups' storing after
      groups' [] := by
    apply extended.tracks.elsewhere
    intro action member path touched index part collision
    obtain ⟨array, _, same | same⟩ := storingPaths action member path touched <;>
      rw [same] at collision <;> simp [SplitChunks.chunkPath] at collision
  refine ⟨sealActions ++ storing, after, groups', ?_, extended.trans stored, ?_, same, ?_⟩
  · simp only [SplitChunks.finish, sealEq, bind, Except.bind] at arrays ⊢
    rw [arrays]
    simp only [pure, Except.pure, List.flatMap_map, extended.tracks.state, same, storing, content,
      finishedOf]
  · intro action member path touched
    rcases List.mem_append.mp member with before | after
    · obtain ⟨index, part, same, _⟩ := sealLocal action before path touched
      exact .inl ⟨index, part, same⟩
    · exact .inr (storingPaths action after path touched)
  · intro array member
    rw [Volume.performAll_append, ← extended.place, ← extended.split]
    exact read_storeArrays content _ member

end SparseLab.Data
