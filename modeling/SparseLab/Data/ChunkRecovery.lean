import SparseLab.Data.ChunkLedger

/-! What every cut of an operation's actions leaves of a chunk ledger. -/

namespace SparseLab.Data

open Library

variable (settings : Settings)

def KeptPart : Part → Prop
  | .receipt => True
  | .raw array => array ∈ settings.arrays
  | _ => False

def LoosePart : Part → Prop
  | .receipt => False
  | .receiptTmp => True
  | .raw array | .rawTmp array => array ∈ settings.arrays

structure Stored (place : Place) (split : Split) (disk : Disk) (groups : List (List Record)) :
    Prop where
  receipt : ∀ index < groups.length,
    disk.read (.entry place (.chunk split index .receipt)) =
      some (.receipt (receiptAt settings split groups index))
  raw : ∀ index < groups.length, ∀ array ∈ settings.arrays,
    disk.read (.entry place (.chunk split index (.raw array))) =
      some (.raw array (rawOf (groupAt groups index) array))

structure Recoverable (place : Place) (split : Split) (disk : Disk)
    (groups : List (List Record)) : Prop where
  stored : Stored settings place split disk groups
  valid : ∀ group ∈ groups, ValidGroup settings group
  parts : ∀ index part, disk.read (.entry place (.chunk split index part)) ≠ none →
    (index < groups.length ∧ KeptPart settings part) ∨
      (index = groups.length ∧ LoosePart settings part)

def Away (place : Place) (split : Split) (count : Nat) (path : Path) : Prop :=
  ∀ index part, path = .entry place (.chunk split index part) →
    index = count ∧ LoosePart settings part

variable {settings} {place : Place} {split : Split} {disk : Disk} {groups : List (List Record)}

theorem Away.other_place {other : Place} {name : Name} {count : Nat} (different : other ≠ place) :
    Away settings place split count (.entry other name) := by
  intro index part same
  injection same with samePlace
  exact absurd samePlace different

theorem Away.other_split {otherPlace : Place} {otherSplit : Split} {index count : Nat} {part : Part}
    (different : otherSplit ≠ split) :
    Away settings place split count (.entry otherPlace (.chunk otherSplit index part)) := by
  intro index part same
  injection same with _ sameName
  injection sameName with sameSplit
  exact absurd sameSplit different

theorem Away.loose {count : Nat} {part : Part} (loose : LoosePart settings part) :
    Away settings place split count (.entry place (.chunk split count part)) := by
  intro index part same
  injection same with _ sameName
  injection sameName with _ sameIndex samePart
  subst sameIndex samePart
  exact ⟨rfl, loose⟩

namespace Recoverable

section

variable (recoverable : Recoverable settings place split disk groups)

include recoverable

theorem perform {action : Action Path File}
    (away : ∀ path ∈ action.paths, Away settings place split groups.length path) :
    Recoverable settings place split (disk.perform action) groups := by
  have untouched : ∀ index part, index < groups.length →
      (disk.perform action).read (.entry place (.chunk split index part)) =
        disk.read (.entry place (.chunk split index part)) := by
    intro index part inside
    apply Volume.read_perform_other
    intro touched
    have atEnd := (away _ touched index part rfl).1
    omega
  refine ⟨⟨?_, ?_⟩, recoverable.valid, ?_⟩
  · intro index inside
    rw [untouched index _ inside]
    exact recoverable.stored.receipt index inside
  · intro index inside array member
    rw [untouched index _ inside]
    exact recoverable.stored.raw index inside array member
  · intro index part present
    rcases Volume.present_perform disk present with earlier | target
    · exact recoverable.parts index part earlier
    · exact .inr (away _ (Volume.targets_subset_paths target) index part rfl)

theorem cut {actions : Actions} (away : ∀ action ∈ actions, ∀ path ∈ action.paths,
      Away settings place split groups.length path) (count : Nat) :
    Recoverable settings place split (disk.performAll (actions.take count)) groups := by
  have preserved : ∀ action ∈ actions, ∀ disk, Recoverable settings place split disk groups →
      Recoverable settings place split (disk.perform action) groups := by
    intro action member disk holds
    exact holds.perform (away action member)
  exact Volume.cut_invariant disk preserved recoverable count

theorem performAll {actions : Actions} (away : ∀ action ∈ actions, ∀ path ∈ action.paths,
      Away settings place split groups.length path) :
    Recoverable settings place split (disk.performAll actions) groups := by
  have whole := recoverable.cut away actions.length
  rwa [List.take_length] at whole

theorem commit {group : List Record} (valid : ValidGroup settings group)
    (receipt : disk.read (.entry place (.chunk split groups.length .receiptTmp)) =
      some (.receipt (receiptFor settings split groups.length groups.flatten.length group)))
    (raw : ∀ array ∈ settings.arrays,
      disk.read (.entry place (.chunk split groups.length (.raw array))) =
        some (.raw array (rawOf group array)))
    (moved : ∀ array ∈ settings.arrays,
      disk.read (.entry place (.chunk split groups.length (.rawTmp array))) = none) :
    Recoverable settings place split
      (disk.perform (.rename (.entry place (.chunk split groups.length .receiptTmp))
        (.entry place (.chunk split groups.length .receipt)))) (groups ++ [group]) := by
  have untouched : ∀ index part,
      (index ≠ groups.length ∨ part ≠ .receiptTmp ∧ part ≠ .receipt) →
      (disk.perform (.rename (.entry place (.chunk split groups.length .receiptTmp))
        (.entry place (.chunk split groups.length .receipt)))).read
          (.entry place (.chunk split index part)) =
        disk.read (.entry place (.chunk split index part)) := by
    intro index part apart
    apply Volume.read_perform_other
    simp only [Action.paths, List.mem_cons, List.not_mem_nil, or_false, Path.entry.injEq,
      Name.chunk.injEq, true_and, not_or, not_and]
    constructor <;> intro sameIndex <;> rcases apart with other | ⟨notTmp, notReceipt⟩
    · exact absurd sameIndex other
    · exact notTmp
    · exact absurd sameIndex other
    · exact notReceipt
  refine ⟨⟨?_, ?_⟩, ?_, ?_⟩
  · intro index inside
    rw [List.length_append, List.length_singleton] at inside
    rcases Nat.lt_succ_iff_lt_or_eq.mp inside with earlier | last
    · rw [untouched index _ (.inl (by omega)), receiptAt_append settings earlier]
      exact recoverable.stored.receipt index earlier
    · subst last
      rw [receiptAt_last]
      exact Volume.read_rename_target _ receipt _
  · intro index inside array member
    rw [List.length_append, List.length_singleton] at inside
    rw [untouched index _ (.inr (by simp))]
    rcases Nat.lt_succ_iff_lt_or_eq.mp inside with earlier | last
    · rw [groupAt_append earlier]
      exact recoverable.stored.raw index earlier array member
    · subst last
      rw [groupAt_last]
      exact raw array member
  · intro other member
    rcases List.mem_append.mp member with earlier | last
    · exact recoverable.valid other earlier
    · rw [List.mem_singleton.mp last]
      exact valid
  · intro index part present
    rw [List.length_append, List.length_singleton]
    rcases Volume.present_perform disk present with earlier | target
    · rcases recoverable.parts index part earlier with ⟨inside, kept⟩ | ⟨last, loose⟩
      · exact .inl ⟨by omega, kept⟩
      · subst last
        cases part with
        | receipt => exact absurd loose id
        | receiptTmp =>
          rw [Volume.read_rename_source disk (by simp)] at present
          exact absurd rfl present
        | raw array => exact .inl ⟨by omega, loose⟩
        | rawTmp array =>
          rw [untouched _ _ (.inr (by simp)), moved array loose] at present
          exact absurd rfl present
    · simp only [Action.targets, List.mem_singleton, Path.entry.injEq, Name.chunk.injEq,
        true_and] at target
      obtain ⟨rfl, rfl⟩ := target
      exact .inl ⟨by omega, trivial⟩

end

end Recoverable

structure Tracks (settings : Settings) (disk : Disk) (chunks : SplitChunks)
    (groups : List (List Record)) (pending : List Record) : Prop where
  receipts : chunks.sealedReceipts = receiptsOf settings chunks.split groups
  state : chunks.state = tally groups.flatten
  counted : chunks.pending = tally pending
  streams : chunks.streams = if pending = [] then none else some (rawOf pending)
  stored : Stored settings chunks.place chunks.split disk groups
  valid : ∀ group ∈ groups, ValidGroup settings group
  pendingValid : pending ≠ [] → ValidGroup settings pending
  parts : ∀ index part,
    disk.read (.entry chunks.place (.chunk chunks.split index part)) ≠ none →
      (index < groups.length ∧ KeptPart settings part) ∨
        (index = groups.length ∧ pending ≠ [] ∧ ∃ array ∈ settings.arrays, part = .rawTmp array)

structure Extends (settings : Settings) (disk : Disk) (chunks : SplitChunks)
    (groups : List (List Record)) (actions : Actions) (after : SplitChunks)
    (groups' : List (List Record)) (pending' : List Record) : Prop where
  tracks : Tracks settings (disk.performAll actions) after groups' pending'
  place : after.place = chunks.place
  split : after.split = chunks.split
  grows : groups <+: groups'
  cuts : ∀ cut, ∃ kept, groups <+: kept ∧ kept <+: groups' ∧
    Recoverable settings chunks.place chunks.split (disk.performAll (actions.take cut)) kept

def OwnedPart (settings : Settings) (part : Part) : Prop :=
  part = .receipt ∨ LoosePart settings part

def ChunkActions (settings : Settings) (chunks : SplitChunks) (actions : Actions) : Prop :=
  ∀ action ∈ actions, ∀ path ∈ action.paths,
    ∃ index part, path = chunks.chunkPath index part ∧ OwnedPart settings part

variable {chunks after : SplitChunks} {pending pending' : List Record}
  {groups' groups'' : List (List Record)} {actions more : Actions}

section

variable (tracks : Tracks settings disk chunks groups pending)

include tracks

theorem Tracks.recoverable :
    Recoverable settings chunks.place chunks.split disk groups := by
  refine ⟨tracks.stored, tracks.valid, ?_⟩
  intro index part present
  rcases tracks.parts index part present with kept | ⟨last, _, array, member, rfl⟩
  · exact .inl kept
  · exact .inr ⟨last, member⟩

theorem Tracks.frame {other : Disk}
    (same : ∀ index part, other.read (chunks.chunkPath index part) =
      disk.read (chunks.chunkPath index part)) :
    Tracks settings other chunks groups pending := by
  refine ⟨tracks.receipts, tracks.state, tracks.counted, tracks.streams, ⟨?_, ?_⟩, tracks.valid,
    tracks.pendingValid, ?_⟩
  · intro index inside
    exact (same index _).trans (tracks.stored.receipt index inside)
  · intro index inside array member
    exact (same index _).trans (tracks.stored.raw index inside array member)
  · intro index part present
    have sameEntry := same index part
    rw [SplitChunks.chunkPath] at sameEntry
    rw [sameEntry] at present
    exact tracks.parts index part present

theorem Extends.refl :
    Extends settings disk chunks groups [] chunks groups pending := by
  refine ⟨tracks, rfl, rfl, List.prefix_refl _, ?_⟩
  intro cut
  rw [List.take_nil]
  exact ⟨groups, List.prefix_refl _, List.prefix_refl _, tracks.recoverable⟩

end

theorem Extends.trans {last : SplitChunks} {pending'' : List Record}
    (first : Extends settings disk chunks groups actions after groups' pending')
    (second : Extends settings (disk.performAll actions) after groups' more last groups''
      pending'') :
    Extends settings disk chunks groups (actions ++ more) last groups'' pending'' := by
  refine ⟨?_, second.place.trans first.place, second.split.trans first.split,
    first.grows.trans second.grows, ?_⟩
  · rw [Volume.performAll_append]
    exact second.tracks
  · intro cut
    rcases Volume.cut_append disk actions more cut with inside | ⟨rest, later⟩
    · obtain ⟨kept, before, within, recoverable⟩ := first.cuts cut
      rw [inside]
      exact ⟨kept, before, within.trans second.grows, recoverable⟩
    · obtain ⟨kept, before, within, recoverable⟩ := second.cuts rest
      rw [later, ← first.place, ← first.split]
      exact ⟨kept, first.grows.trans before, within, recoverable⟩

theorem Tracks.receipt_eq (tracks : Tracks settings disk chunks groups pending) :
    chunks.receipt settings (rawOf pending) =
      receiptFor settings chunks.split groups.length groups.flatten.length pending := by
  simp only [SplitChunks.receipt, receiptFor, tracks.receipts, length_receiptsOf, tracks.state,
    tally_acquired, tracks.counted]

theorem Tracks.commit (tracks : Tracks settings disk chunks groups pending) {setup : Actions}
    {group : List Record} (valid : ValidGroup settings group)
    (away : ∀ action ∈ setup, ∀ path ∈ action.paths,
      Away settings chunks.place chunks.split groups.length path)
    (raw : ∀ array ∈ settings.arrays,
      (disk.performAll setup).read (chunks.chunkPath groups.length (.raw array)) =
        some (.raw array (rawOf group array)))
    (moved : ∀ array ∈ settings.arrays,
      (disk.performAll setup).read (chunks.chunkPath groups.length (.rawTmp array)) = none) :
    Extends settings disk chunks groups
      (setup ++ chunks.storeReceipt (receiptFor settings chunks.split groups.length
        groups.flatten.length group))
      (chunks.sealedWith (receiptFor settings chunks.split groups.length groups.flatten.length
        group)) (groups ++ [group]) [] := by
  obtain ⟨payload, payloadEq⟩ : ∃ payload, receiptFor settings chunks.split groups.length
    groups.flatten.length group = payload := ⟨_, rfl⟩
  have count : chunks.sealedReceipts.length = groups.length := by
    rw [tracks.receipts, length_receiptsOf]
  let temporary := chunks.chunkPath groups.length .receiptTmp
  let target := chunks.chunkPath groups.length .receipt
  let init := setup ++ storeFile temporary (.receipt payload)
  have actionsEq : setup ++ chunks.storeReceipt payload = init ++ [.rename temporary target] := by
    simp only [SplitChunks.storeReceipt, storeDocument, count, init, temporary, target,
      SplitChunks.chunkPath, List.append_assoc]
  have initAway : ∀ action ∈ init, ∀ path ∈ action.paths,
      Away settings chunks.place chunks.split groups.length path := by
    intro action member path touched
    rcases List.mem_append.mp member with before | stored
    · exact away action before path touched
    · have same : path = temporary := by
        simp only [storeFile, List.mem_cons, List.not_mem_nil, or_false] at stored
        rcases stored with rfl | rfl <;> simpa [Action.paths] using touched
      rw [same]
      exact Away.loose trivial
  have initKeeps : ∀ path, path ≠ temporary →
      (disk.performAll init).read path = (disk.performAll setup).read path := by
    intro path other
    rw [Volume.performAll_append]
    apply Volume.read_performAll_other
    intro action member touched
    simp only [storeFile, List.mem_cons, List.not_mem_nil, or_false] at member
    rcases member with rfl | rfl <;> simp [Action.paths, other] at touched
  have stored : (disk.performAll init).read temporary = some (.receipt payload) := by
    rw [Volume.performAll_append]
    exact Volume.read_write_self _ _ _
  have beforeCommit := tracks.recoverable.performAll initAway
  have committed : Recoverable settings chunks.place chunks.split
      ((disk.performAll init).perform (.rename temporary target)) (groups ++ [group]) := by
    apply beforeCommit.commit valid
    · rw [payloadEq]
      exact stored
    · intro array member
      rw [initKeeps _ (by simp [temporary, SplitChunks.chunkPath])]
      exact raw array member
    · intro array member
      rw [initKeeps _ (by simp [temporary, SplitChunks.chunkPath])]
      exact moved array member
  have whole : disk.performAll (init ++ [.rename temporary target]) =
      (disk.performAll init).perform (.rename temporary target) := by
    rw [Volume.performAll_append]
    rfl
  have bookkeeping : (chunks.sealedWith payload).sealedReceipts =
        receiptsOf settings chunks.split (groups ++ [group]) ∧
      (chunks.sealedWith payload).state = tally (groups ++ [group]).flatten := by
    rw [← payloadEq]
    constructor
    · rw [receiptsOf_append, ← tracks.receipts]
      rfl
    · rw [List.flatten_append, List.flatten_singleton, tally_append, ← tracks.state]
      rfl
  rw [payloadEq, actionsEq]
  refine ⟨?_, rfl, rfl, List.prefix_append _ _, ?_⟩
  · rw [whole]
    refine ⟨bookkeeping.1, bookkeeping.2, rfl, rfl, committed.stored, committed.valid,
      fun some => absurd rfl some, ?_⟩
    intro index part present
    rcases committed.parts index part present with kept | ⟨last, _⟩
    · exact .inl kept
    · -- No action of the commit names a chunk after the committed one.
      rw [List.length_append, List.length_singleton] at last
      rcases Volume.present_perform _ present with earlier | touched
      · rcases beforeCommit.parts index part earlier with ⟨inside, _⟩ | ⟨same, _⟩ <;> omega
      · simp only [Action.targets, List.mem_singleton, target, SplitChunks.chunkPath,
          Path.entry.injEq, Name.chunk.injEq] at touched
        have sameIndex := touched.2.2.1
        omega
  · intro cut
    rcases Volume.cut_append disk init [.rename temporary target] cut with inside | ⟨rest, later⟩
    · rw [inside]
      exact ⟨groups, List.prefix_refl _, List.prefix_append _ _,
        tracks.recoverable.cut initAway cut⟩
    · rw [later]
      cases rest with
      | zero => exact ⟨groups, List.prefix_refl _, List.prefix_append _ _, beforeCommit⟩
      | succ rest =>
        rw [List.take_succ_cons, List.take_nil]
        exact ⟨groups ++ [group], List.prefix_append _ _, List.prefix_refl _, committed⟩

theorem ChunkActions.append {first second : Actions} (one : ChunkActions settings chunks first)
    (other : ChunkActions settings chunks second) : ChunkActions settings chunks (first ++ second) := by
  intro action member
  rcases List.mem_append.mp member with before | after
  · exact one action before
  · exact other action after

theorem chunkActions_storeReceipt (payload : Receipt) :
    ChunkActions settings chunks (chunks.storeReceipt payload) := by
  intro action member path touched
  simp only [SplitChunks.storeReceipt, storeDocument, storeFile, List.cons_append,
    List.nil_append, List.mem_cons, List.not_mem_nil, or_false] at member
  rcases member with rfl | rfl | rfl <;>
    simp only [Action.paths, List.mem_cons, List.not_mem_nil, or_false] at touched
  · exact ⟨_, _, touched, .inr trivial⟩
  · exact ⟨_, _, touched, .inr trivial⟩
  · rcases touched with same | same
    · exact ⟨_, _, same, .inr trivial⟩
    · exact ⟨_, _, same, .inl rfl⟩

section

variable (written : ArrayName → List Int)

theorem sealRaw_eq : chunks.sealRaw settings written = Volume.publishAll
    (fun array => chunks.chunkPath chunks.sealedReceipts.length (.rawTmp array))
    (fun array => chunks.chunkPath chunks.sealedReceipts.length (.raw array))
    (fun array => .raw array (written array)) settings.arrays := rfl

theorem paths_sealRaw {action : Action Path File} {path : Path}
    (member : action ∈ chunks.sealRaw settings written) (touched : path ∈ action.paths) :
    ∃ part, LoosePart settings part ∧
      path = chunks.chunkPath chunks.sealedReceipts.length part := by
  rw [sealRaw_eq] at member
  obtain ⟨array, inside, same | same⟩ := Volume.paths_publishAll member touched
  · exact ⟨.rawTmp array, inside, same⟩
  · exact ⟨.raw array, inside, same⟩

theorem read_sealRaw (disk : Disk) {array : ArrayName} (member : array ∈ settings.arrays) :
    (disk.performAll (chunks.sealRaw settings written)).read
        (chunks.chunkPath chunks.sealedReceipts.length (.raw array)) =
          some (.raw array (written array)) ∧
      (disk.performAll (chunks.sealRaw settings written)).read
        (chunks.chunkPath chunks.sealedReceipts.length (.rawTmp array)) = none := by
  rw [sealRaw_eq]
  apply Volume.read_publishAll
  · intro first second same
    simpa [SplitChunks.chunkPath] using same
  · intro first second same
    simpa [SplitChunks.chunkPath] using same
  · simp [SplitChunks.chunkPath]
  · exact settings.arraysNodup
  · exact member

end

theorem Tracks.sealChunk (tracks : Tracks settings disk chunks groups pending)
    (some : pending ≠ []) :
    ∃ actions after, chunks.sealChunk settings = .ok (actions, after) ∧
      Extends settings disk chunks groups actions after (groups ++ [pending]) [] ∧
      ChunkActions settings chunks actions := by
  have valid := tracks.pendingValid some
  have written : (chunks.streams.getD fun _ => []) = rawOf pending := by
    rw [tracks.streams, if_neg some]
    rfl
  have count : chunks.sealedReceipts.length = groups.length := by
    rw [tracks.receipts, length_receiptsOf]
  have pendingSome : chunks.pending.acquiredDocuments ≠ 0 := by
    rw [tracks.counted, tally_acquired]
    exact fun empty => some (List.length_eq_zero_iff.mp empty)
  have sealEq : chunks.sealChunk settings = .ok
      (chunks.sealRaw settings (rawOf pending) ++ chunks.storeReceipt
        (receiptFor settings chunks.split groups.length groups.flatten.length pending),
      chunks.sealedWith
        (receiptFor settings chunks.split groups.length groups.flatten.length pending)) := by
    simp only [SplitChunks.sealChunk, if_neg pendingSome, written, tracks.receipt_eq, count,
      validateReceipt_receiptFor settings valid]
    rfl
  refine ⟨_, _, sealEq, tracks.commit valid ?_ ?_ ?_, ?_⟩
  · intro action member path touched
    obtain ⟨part, loose, rfl⟩ := paths_sealRaw _ member touched
    rw [count]
    exact Away.loose loose
  · intro array member
    rw [← count]
    exact (read_sealRaw _ disk member).1
  · intro array member
    rw [← count]
    exact (read_sealRaw _ disk member).2
  · apply ChunkActions.append _ (chunkActions_storeReceipt _)
    intro action member path touched
    obtain ⟨part, loose, same⟩ := paths_sealRaw _ member touched
    exact ⟨_, part, same, .inr loose⟩

theorem paths_openStreams {action : Action Path File} {path : Path}
    (member : action ∈ chunks.openStreams settings) (touched : path ∈ action.paths) :
    ∃ array ∈ settings.arrays,
      path = chunks.chunkPath chunks.sealedReceipts.length (.rawTmp array) := by
  simp only [SplitChunks.openStreams] at member
  split at member
  · simp at member
  · obtain ⟨array, inside, rfl⟩ := List.mem_map.mp member
    exact ⟨array, inside, List.mem_singleton.mp touched⟩

def SplitChunks.withRecord (chunks : SplitChunks) (record : Record) : SplitChunks :=
  { chunks with
    pending := SplitChunks.countRecord chunks.pending record
    streams := some (SplitChunks.writeRecord chunks.streams record) }

theorem Tracks.pendingBytes (tracks : Tracks settings disk chunks groups pending) :
    chunks.pendingBytes settings = byteSize settings pending := by
  rw [SplitChunks.pendingBytes, tracks.streams]
  by_cases empty : pending = []
  · subst empty
    rw [if_pos rfl, byteSize_nil]
  · rw [if_neg empty]
    rfl

theorem Tracks.joinPending (tracks : Tracks settings disk chunks groups pending) {record : Record}
    (valid : ValidRecord settings record)
    (fits : ¬ chunks.full settings (byteSize settings [record])) :
    Extends settings disk chunks groups (chunks.openStreams settings) (chunks.withRecord record)
      groups (pending ++ [record]) := by
  have count : chunks.sealedReceipts.length = groups.length := by
    rw [tracks.receipts, length_receiptsOf]
  have away : ∀ action ∈ chunks.openStreams settings, ∀ path ∈ action.paths,
      Away settings chunks.place chunks.split groups.length path := by
    intro action member path touched
    obtain ⟨array, inside, rfl⟩ := paths_openStreams member touched
    rw [count]
    exact Away.loose inside
  have recoverable := tracks.recoverable.performAll away
  have group : ValidGroup settings (pending ++ [record]) := by
    have limit := settings.recordLimitPos
    refine ⟨by simp, ?_, ?_, ?_⟩
    · rw [List.length_append, List.length_singleton]
      by_cases empty : pending = []
      · subst empty
        rw [List.length_nil]
        omega
      · have bound := (tracks.pendingValid empty).records
        have some := List.length_pos_iff.mpr empty
        simp only [SplitChunks.full, tracks.counted, tally_acquired, not_and, not_or] at fits
        have room := (fits (by omega)).1
        omega
    · rw [byteSize_append]
      by_cases empty : pending = []
      · subst empty
        rw [byteSize_nil, Nat.zero_add]
        exact valid.2
      · have some := List.length_pos_iff.mpr empty
        simp only [SplitChunks.full, tracks.counted, tally_acquired, tracks.pendingBytes, not_and,
          not_or] at fits
        have room := (fits (by omega)).2
        omega
    · intro other member
      rcases List.mem_append.mp member with earlier | last
      · have some : pending ≠ [] := List.ne_nil_of_mem earlier
        exact (tracks.pendingValid some).valid other earlier
      · rw [List.mem_singleton.mp last]
        exact valid
  refine ⟨⟨tracks.receipts, tracks.state, ?_, ?_, recoverable.stored, tracks.valid,
    fun _ => group, ?_⟩, rfl, rfl, List.prefix_refl _, ?_⟩
  · rw [← countRecord_tally, ← tracks.counted]
    rfl
  · rw [if_neg (by simp)]
    change some (SplitChunks.writeRecord chunks.streams record) = _
    rw [tracks.streams]
    by_cases empty : pending = []
    · rw [if_pos empty, writeRecord_none, empty, List.nil_append]
    · rw [if_neg empty, writeRecord_rawOf]
  · intro index part present
    rcases Volume.present_performAll _ present with earlier | ⟨action, member, target⟩
    · rcases tracks.parts index part earlier with kept | ⟨last, _, array⟩
      · exact .inl kept
      · exact .inr ⟨last, by simp, array⟩
    · obtain ⟨array, inside, same⟩ :=
        paths_openStreams member (Volume.targets_subset_paths target)
      simp only [SplitChunks.chunkPath, Path.entry.injEq, Name.chunk.injEq] at same
      exact .inr ⟨same.2.2.1.trans count, by simp, array, inside, same.2.2.2⟩
  · intro cut
    exact ⟨groups, List.prefix_refl _, List.prefix_refl _, tracks.recoverable.cut away cut⟩

theorem chunkActions_openStreams : ChunkActions settings chunks (chunks.openStreams settings) := by
  intro action member path touched
  obtain ⟨array, inside, same⟩ := paths_openStreams member touched
  exact ⟨_, _, same, .inr inside⟩

theorem ChunkActions.of_same {other : SplitChunks} (place : other.place = chunks.place)
    (split : other.split = chunks.split) (inOther : ChunkActions settings other actions) :
    ChunkActions settings chunks actions := by
  intro action member path touched
  obtain ⟨index, part, same, owned⟩ := inOther action member path touched
  refine ⟨index, part, ?_, owned⟩
  rw [same, SplitChunks.chunkPath, SplitChunks.chunkPath, place, split]

theorem Tracks.appendRecord (tracks : Tracks settings disk chunks groups pending)
    {record : Record} (valid : ValidRecord settings record) :
    ∃ actions after groups' pending',
      chunks.appendRecord settings (groups.flatten.length + pending.length + 1) record =
        .ok (actions, after) ∧
      Extends settings disk chunks groups actions after groups' pending' ∧
      ChunkActions settings chunks actions ∧
      groups'.flatten ++ pending' = groups.flatten ++ pending ++ [record] := by
  have frontier : ¬ groups.flatten.length + pending.length + 1 ≠
      chunks.state.acquiredDocuments + chunks.pending.acquiredDocuments + 1 := by
    rw [tracks.state, tracks.counted, tally_acquired, tally_acquired]
    exact not_not_intro rfl
  simp only [SplitChunks.appendRecord, if_neg frontier, recordBytes_valid settings valid]
  by_cases full : chunks.full settings (byteSize settings [record])
  · have some : pending ≠ [] := by
      intro empty
      have counted := full.1
      rw [tracks.counted, empty] at counted
      exact counted rfl
    obtain ⟨sealActions, after, sealEq, extended, sealLocal⟩ := tracks.sealChunk some
    have roomy : ¬ after.full settings (byteSize settings [record]) := by
      intro stillFull
      have counted := stillFull.1
      rw [extended.tracks.counted] at counted
      exact counted rfl
    have joined := extended.tracks.joinPending valid roomy
    refine ⟨sealActions ++ after.openStreams settings, after.withRecord record, groups ++ [pending],
      [record], ?_, extended.trans joined, sealLocal.append ?_, ?_⟩
    · simp only [bind, Except.bind, if_pos full, sealEq]
      rfl
    · exact chunkActions_openStreams.of_same extended.place extended.split
    · rw [List.flatten_append, List.flatten_singleton]
  · refine ⟨chunks.openStreams settings, chunks.withRecord record, groups, pending ++ [record], ?_,
      tracks.joinPending valid full, chunkActions_openStreams, ?_⟩
    · simp only [bind, Except.bind, if_neg full]
      rfl
    · rw [List.append_assoc]

theorem Tracks.sealRest (tracks : Tracks settings disk chunks groups pending) :
    ∃ actions after groups', chunks.sealChunk settings = .ok (actions, after) ∧
      Extends settings disk chunks groups actions after groups' [] ∧
      ChunkActions settings chunks actions ∧ groups'.flatten = groups.flatten ++ pending := by
  by_cases empty : pending = []
  · subst empty
    refine ⟨[], chunks, groups, ?_, Extends.refl tracks, ?_, by rw [List.append_nil]⟩
    · rw [SplitChunks.sealChunk, if_pos (by rw [tracks.counted]; rfl)]
    · simp [ChunkActions]
  · obtain ⟨actions, after, sealEq, extended, sealLocal⟩ := tracks.sealChunk empty
    refine ⟨actions, after, groups ++ [pending], sealEq, extended, sealLocal, ?_⟩
    rw [List.flatten_append, List.flatten_singleton]

theorem Tracks.appendAll {disk : Disk} {chunks : SplitChunks} {groups : List (List Record)}
    {pending records : List Record} (tracks : Tracks settings disk chunks groups pending)
    (valid : ∀ record ∈ records, ValidRecord settings record) :
    ∃ actions after groups' pending', chunks.appendAll settings records = .ok (actions, after) ∧
      Extends settings disk chunks groups actions after groups' pending' ∧
      ChunkActions settings chunks actions ∧
      groups'.flatten ++ pending' = groups.flatten ++ pending ++ records := by
  induction records generalizing disk chunks groups pending with
  | nil => exact ⟨[], chunks, groups, pending, rfl, Extends.refl tracks, by simp [ChunkActions],
      by rw [List.append_nil]⟩
  | cons record records ih =>
    obtain ⟨first, middle, groups', pending', firstEq, firstExtends, firstLocal, same⟩ :=
      tracks.appendRecord (valid record List.mem_cons_self)
    obtain ⟨rest, after, groups'', pending'', restEq, restExtends, restLocal, restSame⟩ :=
      ih firstExtends.tracks fun later member => valid later (List.mem_cons_of_mem _ member)
    have frontier : chunks.state.acquiredDocuments + chunks.pending.acquiredDocuments + 1 =
        groups.flatten.length + pending.length + 1 := by
      rw [tracks.state, tracks.counted]
      rfl
    refine ⟨first ++ rest, after, groups'', pending'', ?_, firstExtends.trans restExtends,
      firstLocal.append (restLocal.of_same firstExtends.place firstExtends.split), ?_⟩
    · simp only [SplitChunks.appendAll, frontier, firstEq, restEq, bind, Except.bind]
      rfl
    · rw [restSame, same, List.append_assoc, List.append_assoc, List.singleton_append,
        List.append_assoc]

end SparseLab.Data
