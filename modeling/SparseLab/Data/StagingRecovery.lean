import Mathlib.Data.List.Sort
import SparseLab.Data.ChunkAdoption

/-! A whole staging directory after a crash, and the constructor that opens it again. -/

namespace SparseLab.Data

open Library

section

variable {settings : Settings} {disk : Disk} {split : Split} {groups : List (List Record)}

def sortableChunks : Nat := 10 ^ 6

theorem receiptChars_lt {first second : Nat} (smaller : first < second)
    (narrow : second < sortableChunks) :
    (Name.chunk split first .receipt).chars < (Name.chunk split second .receipt).chars := by
  have digits : zeroPadded 6 first < zeroPadded 6 second :=
    zeroPadded_lt (by decide) smaller narrow
  have widths : (zeroPadded 6 first).length = (zeroPadded 6 second).length := by
    rw [zeroPadded_of_lt (by decide) narrow,
      zeroPadded_of_lt (by decide) (Nat.lt_trans smaller narrow), length_fixedDigits,
      length_fixedDigits]
  rw [Name.chars_chunk, Name.chars_chunk]
  exact List.append_left_lt (append_lt_append widths digits _ _)

theorem receiptChars_overflow :
    (Name.chunk split sortableChunks .receipt).chars <
      (Name.chunk split (sortableChunks - 1) .receipt).chars := by
  rw [Name.chars_chunk, Name.chars_chunk]
  exact List.append_left_lt (zeroPadded_million_lt _ _)

section

variable (recoverable : Recoverable settings .root split disk groups)

include recoverable

theorem receipts_perm :
    List.Perm ((names disk .root).filter (isReceipt split))
      (expectedReceipts split groups.length) := by
  rw [List.perm_ext_iff_of_nodup ((nodup_names disk .root).filter _)]
  · intro name
    rw [List.mem_filter, mem_names, expectedReceipts, List.mem_map]
    constructor
    · rintro ⟨present, receipt⟩
      cases name with
      | chunk owner index part =>
        cases part <;> simp only [isReceipt, Bool.false_eq_true, decide_eq_true_eq] at receipt
        subst receipt
        rcases recoverable.parts index _ present with ⟨inside, _⟩ | ⟨_, loose⟩
        · exact ⟨index, List.mem_range.mpr inside, rfl⟩
        · exact absurd loose id
      | _ => simp [isReceipt] at receipt
    · rintro ⟨index, inside, rfl⟩
      refine ⟨?_, by simp [isReceipt]⟩
      rw [recoverable.stored.receipt index (List.mem_range.mp inside)]
      exact Option.some_ne_none _
  · rw [expectedReceipts]
    apply List.Nodup.map _ List.nodup_range
    intro first second same
    injection same

theorem receiptCount_eq :
    receiptCount disk split = groups.length := by
  rw [receiptCount, (receipts_perm recoverable).length_eq, expectedReceipts, List.length_map,
    List.length_range]

theorem sortedReceipts_perm :
    List.Perm (sortedReceipts disk split) (expectedReceipts split groups.length) :=
  (List.mergeSort_perm _ _).trans (receipts_perm recoverable)

end

theorem sortedReceipts_pairwise (disk : Disk) (split : Split) :
    (sortedReceipts disk split).Pairwise fun first second => first.chars ≤ second.chars := by
  have transitive : ∀ first second third : Name, decide (first.chars ≤ second.chars) = true →
      decide (second.chars ≤ third.chars) = true → decide (first.chars ≤ third.chars) = true := by
    intro first second third one two
    simp only [decide_eq_true_eq] at one two ⊢
    exact le_trans one two
  have total : ∀ first second : Name,
      (decide (first.chars ≤ second.chars) || decide (second.chars ≤ first.chars)) = true := by
    intro first second
    simp only [Bool.or_eq_true, decide_eq_true_eq]
    exact le_total _ _
  have sorted := List.pairwise_mergeSort transitive total
    ((names disk .root).filter (isReceipt split))
  exact sorted.imp of_decide_eq_true

theorem sortedReceipts_eq (recoverable : Recoverable settings .root split disk groups)
    (bounded : groups.length ≤ sortableChunks) :
    sortedReceipts disk split = expectedReceipts split groups.length := by
  have increasing : (expectedReceipts split groups.length).Pairwise fun first second =>
      first.chars < second.chars := by
    rw [expectedReceipts, List.pairwise_map]
    apply List.Pairwise.imp_of_mem _ List.pairwise_lt_range
    intro first second _ inside smaller
    have narrow := List.mem_range.mp inside
    exact receiptChars_lt smaller (by omega)
  apply List.Perm.eq_of_pairwise _ (sortedReceipts_pairwise disk split)
    (increasing.imp fun smaller => le_of_lt smaller) (sortedReceipts_perm recoverable)
  intro first second firstMember secondMember one two
  have firstExpected := (sortedReceipts_perm recoverable).mem_iff.mp firstMember
  obtain ⟨index, _, rfl⟩ := List.mem_map.mp firstExpected
  obtain ⟨other, _, rfl⟩ := List.mem_map.mp secondMember
  have same := le_antisymm one two
  rw [Name.chars_chunk, Name.chars_chunk] at same
  have digits := List.append_cancel_right (List.append_cancel_left same)
  rw [zeroPadded_injective digits]

theorem sortedReceipts_ne (disk : Disk) (split : Split) {count : Nat}
    (many : sortableChunks < count) :
    sortedReceipts disk split ≠ expectedReceipts split count := by
  intro same
  have sorted := sortedReceipts_pairwise disk split
  rw [same, expectedReceipts, List.pairwise_map] at sorted
  have ordered := List.pairwise_iff_getElem.mp sorted (sortableChunks - 1) sortableChunks
    (by rw [List.length_range]; omega) (by rw [List.length_range]; exact many)
    (Nat.sub_lt (by norm_num [sortableChunks]) (by decide))
  rw [List.getElem_range, List.getElem_range] at ordered
  exact not_lt.mpr ordered receiptChars_overflow

end

def OtherEntry (settings : Settings) : Name → Prop
  | .staging | .manifest | .manifestTmp => True
  | .final _ array | .finalTmp _ array => array ∈ settings.arrays
  | _ => False

structure Holds (settings : Settings) (disk : Disk) (groups : Split → List (List Record)) :
    Prop where
  root : disk.read (.directory .root) = some .directory
  marker : disk.read (.entry .root .staging) = some (.owner settings.owner none)
  splits : ∀ split, Recoverable settings .root split disk (groups split)
  others : ∀ name, disk.read (.entry .root name) ≠ none →
    (∃ split index part, name = .chunk split index part) ∨ OtherEntry settings name
  works : ∀ split sequence name, disk.read (.entry (.work split sequence) name) ≠ none →
    discardable settings name = true

def Ordinary (settings : Settings) : Path → Prop
  | .directory place => place ≠ .root
  | .entry .root name => name ≠ .staging ∧
      ((∃ split index part, name = .chunk split index part) ∨ OtherEntry settings name)
  | .entry (.work _ _) name => discardable settings name = true

variable {settings : Settings} {disk : Disk} {groups kept : Split → List (List Record)}

theorem Holds.of_splits (holds : Holds settings disk groups) {actions : Actions}
    (ordinary : ∀ action ∈ actions, ∀ path ∈ action.paths, Ordinary settings path)
    (splits : ∀ split, Recoverable settings .root split (disk.performAll actions) (kept split)) :
    Holds settings (disk.performAll actions) kept := by
  refine ⟨?_, ?_, splits, ?_, ?_⟩
  · rw [Volume.read_performAll_other]
    · exact holds.root
    · intro action member touched
      exact ordinary action member _ touched rfl
  · rw [Volume.read_performAll_other]
    · exact holds.marker
    · intro action member touched
      exact (ordinary action member _ touched).1 rfl
  · intro name present
    rcases Volume.present_performAll _ present with earlier | ⟨action, member, target⟩
    · exact holds.others name earlier
    · exact (ordinary action member _ (Volume.targets_subset_paths target)).2
  · intro split sequence name present
    rcases Volume.present_performAll _ present with earlier | ⟨action, member, target⟩
    · exact holds.works split sequence name earlier
    · exact ordinary action member _ (Volume.targets_subset_paths target)

def Removable (settings : Settings) (counts : Split → Nat) (path : Path) : Prop :=
  Ordinary settings path ∧ ∀ split, Away settings .root split (counts split) path

theorem Holds.removable (holds : Holds settings disk groups) {actions : Actions}
    (removable : ∀ action ∈ actions, ∀ path ∈ action.paths,
      Removable settings (fun split => (groups split).length) path) (cut : Nat) :
    Holds settings (disk.performAll (actions.take cut)) groups := by
  apply holds.of_splits
  · intro action member path touched
    exact (removable action (List.mem_of_mem_take member) path touched).1
  · intro split
    apply (holds.splits split).cut
    intro action member path touched
    exact (removable action member path touched).2 split

theorem removable_work {place : Place} {counts : Split → Nat} (work : place ≠ .root) {path : Path}
    (touched : path = .directory place ∨
      ∃ name, path = .entry place name ∧ discardable settings name = true) :
    Removable settings counts path := by
  rcases touched with rfl | ⟨name, rfl, owned⟩
  · refine ⟨work, ?_⟩
    intro split index part same
    cases same
  · refine ⟨?_, fun split => Away.other_place work⟩
    cases place with
    | root => exact absurd rfl work
    | work split sequence => exact owned

theorem removable_other {counts : Split → Nat} {name : Name} (other : OtherEntry settings name)
    (notMarker : name ≠ .staging) : Removable settings counts (.entry .root name) := by
  refine ⟨⟨notMarker, .inr other⟩, ?_⟩
  intro split index part same
  injection same with _ sameName
  subst sameName
  exact absurd other id

theorem removable_loose {counts : Split → Nat} {split : Split} {part : Part}
    (loose : LoosePart settings part) :
    Removable settings counts (.entry .root (.chunk split (counts split) part)) := by
  refine ⟨⟨by simp, .inl ⟨_, _, _, rfl⟩⟩, ?_⟩
  intro other
  by_cases same : split = other
  · subst same
    exact Away.loose loose
  · exact Away.other_split same

section

theorem counts_eq (holds : Holds settings disk groups) :
    receiptCount disk = fun split => (groups split).length := by
  funext split
  exact receiptCount_eq (holds.splits split)

theorem find_zip_ne {first second : List Name} (lengths : first.length = second.length) :
    (first.zip second).find? (fun entry => entry.1 ≠ entry.2) = none ↔ first = second := by
  induction first generalizing second with
  | nil =>
    cases second with
    | nil => simp
    | cons _ _ => simp at lengths
  | cons name first ih =>
    cases second with
    | nil => simp at lengths
    | cons other second =>
      have rest := ih (by simpa using lengths : first.length = second.length)
      by_cases same : name = other
      · simp only [same, List.zip_cons_cons, ne_eq, not_true_eq_false, decide_false,
          Bool.false_eq_true, not_false_eq_true, List.find?_cons_of_neg, List.cons.injEq,
          true_and]
        exact rest
      · simp [same]

theorem inspectSplit_ok (holds : Holds settings disk groups) {split : Split}
    (bounded : (groups split).length ≤ sortableChunks) :
    inspectSplit settings disk split = .ok () := by
  have recoverable := holds.splits split
  have sorted := sortedReceipts_eq recoverable bounded
  have contiguous := (find_zip_ne (by rw [sorted])).mpr sorted
  rw [inspectSplit, receiptCount_eq recoverable, contiguous]
  apply forM_ok
  intro index member
  have inside := List.mem_range.mp member
  have group := recoverable.valid _ (groupAt_mem inside)
  simp only [readReceipt, recoverable.stored.receipt index inside, bind, Except.bind]
  exact validateReceipt_receiptFor settings group _ _ _

theorem inspectSplit_refuses (holds : Holds settings disk groups) {split : Split}
    (many : sortableChunks < (groups split).length) :
    ∃ receipt : String, inspectSplit settings disk split =
      .error s!"noncontiguous sealed staging chunk: {receipt}" := by
  have recoverable := holds.splits split
  have lengths := (sortedReceipts_perm recoverable).length_eq
  rw [inspectSplit, receiptCount_eq recoverable]
  cases found : ((sortedReceipts disk split).zip
      (expectedReceipts split (groups split).length)).find? fun entry => entry.1 ≠ entry.2 with
  | none => exact absurd ((find_zip_ne lengths).mp found) (sortedReceipts_ne disk split many)
  | some entry => exact ⟨entry.1.text, rfl⟩

def inspectedPaths (disk : Disk) (counts : Split → Nat) : List Path :=
  (works disk).flatMap (discardPaths disk) ++
    ((names disk .root).filter (unsealedEntry counts)).map (Path.entry .root) ++
    [.entry .root .manifest, .entry .root .manifestTmp]

section

variable (holds : Holds settings disk groups)

include holds

theorem allowedEntry_of_holds {name : Name} (present : disk.read (.entry .root name) ≠ none) :
    allowedEntry settings (fun split => (groups split).length) name = true := by
  cases name with
  | chunk split index part =>
    rcases (holds.splits split).parts index part present with ⟨inside, owned⟩ | ⟨last, loose⟩
    · cases part with
      | receipt => simpa [allowedEntry] using inside
      | receiptTmp => exact absurd owned id
      | raw array =>
        simp only [allowedEntry, Bool.decide_and, Bool.and_eq_true, decide_eq_true_eq]
        exact ⟨Nat.le_of_lt inside, owned⟩
      | rawTmp array => exact absurd owned id
    · subst last
      cases part with
      | receipt => exact absurd loose id
      | receiptTmp => simp [allowedEntry]
      | raw array =>
        simp only [allowedEntry, Bool.decide_and, Bool.and_eq_true, decide_eq_true_eq]
        exact ⟨Nat.le_refl _, loose⟩
      | rawTmp array =>
        simp only [allowedEntry, Bool.decide_and, Bool.and_eq_true, decide_eq_true_eq]
        exact ⟨trivial, loose⟩
  | staging | manifest | manifestTmp => rfl
  | stagingTmp | other text =>
    rcases holds.others _ present with ⟨_, _, _, same⟩ | other
    · cases same
    · exact absurd other id
  | final split array | finalTmp split array =>
    rcases holds.others _ present with ⟨_, _, _, same⟩ | other
    · cases same
    · simpa [allowedEntry, OtherEntry] using other

theorem discards_ok : (works disk).mapM (discardWork settings disk) =
      .ok ((works disk).map (discardActions disk)) := by
  apply mapM_ok
  intro place member
  apply discardWork_eq
  intro name present
  cases place with
  | root => exact absurd rfl (mem_works.mp member).1
  | work split sequence => exact holds.works split sequence name present

theorem inspectInventory_ok (bounded : ∀ split, (groups split).length ≤ sortableChunks) :
    inspectInventory settings disk = .ok
      ((inspectedPaths disk fun split => (groups split).length).map fun path => .unlink path) := by
  have none : (names disk .root).find? (fun name =>
      !allowedEntry settings (fun split => (groups split).length) name) = none := by
    rw [List.find?_eq_none]
    intro name member
    simp [allowedEntry_of_holds holds (mem_names.mp member)]
  have discarded : ((works disk).map (discardActions disk)).flatten =
      ((works disk).flatMap (discardPaths disk)).map fun path => .unlink path := by
    rw [List.map_flatMap, List.flatMap_def]
    rfl
  simp only [inspectInventory, discards_ok holds, inspectSplit_ok holds (bounded .train),
    inspectSplit_ok holds (bounded .validation), counts_eq holds, none, bind, Except.bind, pure,
    Except.pure, discarded, inspectedPaths, List.map_append, List.map_map]
  rfl

theorem inspectInventory_refuses {split : Split} (many : sortableChunks < (groups split).length) :
    ∃ receipt : String, inspectInventory settings disk =
      .error s!"noncontiguous sealed staging chunk: {receipt}" := by
  by_cases train : (groups .train).length ≤ sortableChunks
  · have validation : sortableChunks < (groups .validation).length := by
      cases split with
      | train => exact absurd many (Nat.not_lt.mpr train)
      | validation => exact many
    obtain ⟨receipt, refused⟩ := inspectSplit_refuses holds validation
    refine ⟨receipt, ?_⟩
    simp only [inspectInventory, discards_ok holds, inspectSplit_ok holds train, refused, bind,
      Except.bind]
  · obtain ⟨receipt, refused⟩ := inspectSplit_refuses holds (Nat.lt_of_not_le train)
    refine ⟨receipt, ?_⟩
    simp only [inspectInventory, discards_ok holds, refused, bind, Except.bind]

theorem inspectedPaths_removable {path : Path}
    (member : path ∈ inspectedPaths disk fun split => (groups split).length) :
    Removable settings (fun split => (groups split).length) path := by
  rcases List.mem_append.mp member with earlier | manifest
  · rcases List.mem_append.mp earlier with work | unsealed
    · obtain ⟨place, found, inside⟩ := List.mem_flatMap.mp work
      have notRoot := (mem_works.mp found).1
      refine removable_work notRoot ?_
      rcases discardPaths_owned inside with directory | ⟨name, same, present⟩
      · exact .inl directory
      · refine .inr ⟨name, same, ?_⟩
        cases place with
        | root => exact absurd rfl notRoot
        | work split sequence => exact holds.works split sequence name present
    · obtain ⟨name, found, rfl⟩ := List.mem_map.mp unsealed
      obtain ⟨listed, matched⟩ := List.mem_filter.mp found
      cases name with
      | chunk split index part =>
        have last : index = (groups split).length := by simpa [unsealedEntry] using matched
        subst last
        rcases (holds.splits split).parts _ part (mem_names.mp listed) with
          ⟨inside, _⟩ | ⟨_, loose⟩
        · omega
        · exact removable_loose loose
      | _ => simp [unsealedEntry] at matched
  · simp only [List.mem_cons, List.not_mem_nil, or_false] at manifest
    rcases manifest with rfl | rfl <;> exact removable_other trivial (by simp)

end

structure Clean (disk : Disk) (groups : Split → List (List Record)) : Prop where
  chunks : ∀ split index part, disk.read (.entry .root (.chunk split index part)) ≠ none →
    index < (groups split).length
  works : ∀ path : Path, path.place ≠ .root → disk.read path = none
  manifest : disk.read (.entry .root .manifest) = none
  manifestTmp : disk.read (.entry .root .manifestTmp) = none

section

variable (holds : Holds settings disk groups)

include holds

theorem Holds.clean :
    Clean (disk.performAll
      ((inspectedPaths disk fun split => (groups split).length).map fun path => .unlink path))
      groups := by
  constructor
  · intro split index part present
    by_contra beyond
    apply present
    apply Volume.read_unlinkAll
    by_cases absent : disk.read (.entry .root (.chunk split index part)) = none
    · exact .inr absent
    · refine .inl (List.mem_append_left _ (List.mem_append_right _ ?_))
      apply List.mem_map_of_mem
      rw [List.mem_filter]
      refine ⟨mem_names.mpr absent, ?_⟩
      rcases (holds.splits split).parts index part absent with ⟨inside, _⟩ | ⟨last, _⟩
      · exact absurd inside beyond
      · simpa [unsealedEntry] using last
  · intro path notRoot
    apply Volume.read_unlinkAll
    by_cases absent : disk.read path = none
    · exact .inr absent
    · refine .inl (List.mem_append_left _ (List.mem_append_left _ ?_))
      have listed : path.place ∈ Data.works disk := mem_works.mpr ⟨notRoot, path, rfl, absent⟩
      exact List.mem_flatMap.mpr ⟨_, listed, (mem_discardPaths rfl).resolve_right absent⟩
  · apply Volume.read_unlinkAll
    exact .inl (List.mem_append_right _ List.mem_cons_self)
  · apply Volume.read_unlinkAll
    exact .inl (List.mem_append_right _ (List.mem_cons_of_mem _ List.mem_cons_self))

theorem Holds.inspect (bounded : ∀ split, (groups split).length ≤ sortableChunks) :
    ∃ actions, inspectInventory settings disk = .ok actions ∧
      (∀ cut, Holds settings (disk.performAll (actions.take cut)) groups) ∧
      Clean (disk.performAll actions) groups := by
  refine ⟨_, inspectInventory_ok holds bounded, ?_, holds.clean⟩
  intro cut
  apply holds.removable
  intro action member path touched
  obtain ⟨removed, listed, rfl⟩ := List.mem_map.mp member
  rw [List.mem_singleton.mp touched]
  exact inspectedPaths_removable holds listed

theorem Holds.construct_ok (bounded : ∀ split, (groups split).length ≤ sortableChunks) :
    ∃ actions, construct settings disk = .ok actions ∧
      (∀ cut, Holds settings (disk.performAll (actions.take cut)) groups) ∧
      Clean (disk.performAll actions) groups := by
  obtain ⟨actions, inspected, kept⟩ := holds.inspect bounded
  refine ⟨actions, ?_, kept⟩
  simp only [construct, holds.root, readOwner, holds.marker, bind, Except.bind,
    ne_eq, not_true_eq_false, ↓reduceIte, inspected]

theorem Holds.construct_refuses {split : Split} (many : sortableChunks < (groups split).length) :
    ∃ receipt : String, construct settings disk =
      .error s!"noncontiguous sealed staging chunk: {receipt}" := by
  obtain ⟨receipt, refused⟩ := inspectInventory_refuses holds many
  refine ⟨receipt, ?_⟩
  simp only [construct, holds.root, readOwner, holds.marker, bind, Except.bind,
    ne_eq, not_true_eq_false, ↓reduceIte, refused]

end

end

end SparseLab.Data
