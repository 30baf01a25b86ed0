import SparseLab.Corpus.DiskDuplicates
import SparseLab.Library.Rearrangements

/-! Both resolutions isolate held-out documents, in whatever order documents are indexed. -/

namespace SparseLab.Corpus

open Library

theorem error_bind {ε α β : Type} {attempt : Except ε α} {failure : ε}
    {continuation : α → Except ε β} (raised : attempt = .error failure) :
    (attempt >>= continuation) = .error failure := by
  rw [raised]
  rfl

theorem map_mapM {ε α β γ : Type} (image : α → β) (attempt : γ → Except ε α) (values : List γ) :
    (values.mapM attempt).map (List.map image) =
      values.mapM fun value => (attempt value).map image := by
  induction values with
  | nil => rfl
  | cons value values ih =>
    rw [List.mapM_cons, List.mapM_cons, ← ih]
    cases attempt value with
    | error failure => rfl
    | ok result =>
      cases values.mapM attempt with
      | error failure => rfl
      | ok results => rfl

variable {Id Key : Type} {documents others : List (Document Id Key)}

section

section

variable [LinearOrder Id]

theorem sorted_by_id (documents : List (Document Id Key)) :
    (sortedDocuments documents).Pairwise fun left right => left.documentId ≤ right.documentId := by
  let before : Document Id Key → Document Id Key → Prop :=
    fun left right => left.documentId ≤ right.documentId
  have total : Std.Total before := ⟨fun left right => le_total left.documentId right.documentId⟩
  have trans : IsTrans (Document Id Key) before :=
    ⟨fun left middle right => le_trans (a := left.documentId)⟩
  exact List.pairwise_insertionSort before documents

theorem eq_of_sorted (distinct : (documents.map (·.documentId)).Nodup)
    (sorted : documents.Pairwise fun left right => left.documentId ≤ right.documentId)
    (again : others.Pairwise fun left right => left.documentId ≤ right.documentId)
    (reordered : others.Perm documents) : others = documents := by
  refine List.Perm.eq_of_pairwise ?_ again sorted reordered
  intro one other oneIn otherIn below above
  exact eq_of_documentId distinct (reordered.mem_iff.mp oneIn) otherIn (le_antisymm below above)

theorem sortedDocuments_congr (distinct : (documents.map (·.documentId)).Nodup)
    (reordered : others.Perm documents) : sortedDocuments others = sortedDocuments documents :=
  eq_of_sorted (sortedDocuments_distinct distinct) (sorted_by_id documents) (sorted_by_id others)
    (((List.perm_insertionSort _ _).trans reordered).trans (List.perm_insertionSort _ _).symm)

end

theorem keys_of_rows (documents : List (Document Id Key)) (method : Method) :
    ((indexPrepared documents).documents.flatMap fun row => row.document.keys method) =
      documents.flatMap fun document => document.keys method := by
  conv_rhs => rw [← rows_documents documents, List.flatMap_map]

theorem keys_nodup (document : Document Id Key) (method : Method) :
    (document.keys method).Nodup := by
  cases method with
  | raw => exact List.nodup_singleton _
  | normalized => exact List.nodup_singleton _
  | canonicalOrigin => exact document.distinctOrigins

variable [LinearOrder Key]

theorem repeatedKeys_congr (reordered : others.Perm documents) (method : Method) :
    (indexPrepared others).repeatedKeys method = (indexPrepared documents).repeatedKeys method := by
  have keys := reordered.flatMap_right fun document => document.keys method
  simp only [Index.repeatedKeys, origins_of_method, keys_of_rows, keys.count_eq]
  refine List.Perm.eq_of_pairwise (fun _ _ _ _ => le_antisymm) (List.pairwise_insertionSort _ _)
    (List.pairwise_insertionSort _ _) ?_
  exact ((List.perm_insertionSort _ _).trans (keys.dedup.filter _)).trans
    (List.perm_insertionSort _ _).symm

theorem indexKeys_congr (reordered : others.Perm documents) :
    indexKeys others = indexKeys documents := by
  simp only [indexKeys, repeatedKeys_congr reordered]

theorem entries_of_key (row : Row Id Key) (method : Method) (key : Key) :
    ((methods.flatMap fun method => (row.document.keys method).map fun key =>
        (⟨method, key, row.number⟩ : Origin Key)).filter fun entry => entry.method = method ∧
          entry.origin = key) =
      if key ∈ row.document.keys method then [⟨method, key, row.number⟩] else [] := by
  have own : (methods.flatMap fun method => (row.document.keys method).map fun key =>
      (⟨method, key, row.number⟩ : Origin Key)).filter (fun entry => entry.method = method ∧
        entry.origin = key) =
      ((row.document.keys method).filter (· = key)).map fun key => ⟨method, key, row.number⟩ := by
    cases method <;> simp [methods, List.filter_append, List.filter_map, Function.comp_def]
  rw [own, List.filter_eq]
  by_cases present : key ∈ row.document.keys method
  · rw [if_pos present, List.count_eq_one_of_mem (keys_nodup _ _) present]
    rfl
  · rw [if_neg present, List.count_eq_zero.mpr present]
    rfl

theorem rows_of_key (documents : List (Document Id Key)) (method : Method) (key : Key) :
    ((indexPrepared documents).origins.filter fun entry => entry.method = method ∧
        entry.origin = key).filterMap
      (fun entry => (indexPrepared documents).documents.find? (·.number = entry.documentNumber)) =
    (indexPrepared documents).documents.filter fun row => key ∈ row.document.keys method := by
  have entries : (indexPrepared documents).origins.filter (fun entry => entry.method = method ∧
        entry.origin = key) =
      ((indexPrepared documents).documents.filter fun row => key ∈ row.document.keys method).map
        fun row => ⟨method, key, row.number⟩ := by
    change List.filter _ (List.flatMap _ (indexPrepared documents).documents) = _
    rw [List.filter_flatMap]
    simp only [entries_of_key]
    induction (indexPrepared documents).documents with
    | nil => rfl
    | cons row rows ih =>
      rw [List.flatMap_cons, ih, List.filter_cons]
      by_cases present : key ∈ row.document.keys method <;> simp [present]
  rw [entries, List.filterMap_map]
  have found : ∀ row ∈ (indexPrepared documents).documents.filter
      fun row => key ∈ row.document.keys method,
      ((fun entry : Origin Key => (indexPrepared documents).documents.find?
        (·.number = entry.documentNumber)) ∘ fun row => ⟨method, key, row.number⟩) row = some row :=
    fun row member => find_number (List.mem_of_mem_filter member)
  rw [List.filterMap_congr found, List.filterMap_some]

variable [LinearOrder Id]

theorem documents_of_rows (documents : List (Document Id Key)) (method : Method) (key : Key) :
    ((indexPrepared documents).rowsOf method key).map (·.document) =
      sortedDocuments (mappingGroup documents method key) := by
  rw [Index.rowsOf, rows_of_key]
  have members : ((indexPrepared documents).documents.filter
      fun row => key ∈ row.document.keys method).map (·.document) =
        mappingGroup documents method key := by
    rw [mappingGroup]
    conv_rhs => rw [← rows_documents documents, List.filter_map]
    rfl
  rw [sortedDocuments, ← members]
  exact List.map_insertionSort _ _ _ _ fun _ _ _ _ => Iff.rfl

def groupLine (method : Method) (key : Key) (documents : List (Document Id Key)) :
    Except DuplicateFailure (DuplicateGroup Id Key) :=
  if 1 < (heldout documents).length then .error .crossSplit
  else
    match selected documents with
    | some winner =>
      .ok ⟨method, key, documents.map (·.documentId), sortedSplits documents, winner.documentId⟩
    | none => .error .crossSplit

theorem group_line (documents : List (Document Id Key)) (method : Method) (key : Key) :
    ((indexPrepared documents).group method key).map Prod.fst =
      groupLine method key (sortedDocuments (mappingGroup documents method key)) := by
  rw [← documents_of_rows, groupLine]
  unfold Index.group
  by_cases mixed :
      1 < (heldout (((indexPrepared documents).rowsOf method key).map (·.document))).length
  · simp only [if_pos mixed, refuseIf_raises mixed]
    rfl
  · simp only [if_neg mixed, refuseIf_bind mixed]
    cases selected (((indexPrepared documents).rowsOf method key).map (·.document)) with
    | none => rfl
    | some winner => rfl

theorem groups_congr (distinct : (documents.map (·.documentId)).Nodup)
    (reordered : others.Perm documents) :
    ((indexKeys others).mapM (indexGroup others)).map (List.map Prod.fst) =
      ((indexKeys documents).mapM (indexGroup documents)).map (List.map Prod.fst) := by
  rw [indexKeys_congr reordered, map_mapM, map_mapM]
  congr 1
  funext entry
  have members : (mappingGroup others entry.1 entry.2).Perm
      (mappingGroup documents entry.1 entry.2) := reordered.filter _
  have apart : ((mappingGroup documents entry.1 entry.2).map (·.documentId)).Nodup :=
    (List.filter_sublist.map _).nodup distinct
  rw [indexGroup, indexGroup, group_line, group_line, sortedDocuments_congr apart members]

end

section

def Overlap (documents : List (Document Id Key)) : Prop :=
  ∃ one ∈ documents, ∃ other ∈ documents, Connected documents one other ∧
    one.split = .validation ∧ other.split = .test

def Discordant (documents : List (Document Id Key)) : Prop :=
  ∃ one ∈ documents, ∃ other ∈ documents, Connected documents one other ∧
    one.metadataOnly ≠ other.metadataOnly

theorem heldoutMask_three {members : List (Document Id Key)} : heldoutMask members = 3 ↔
    ∃ one ∈ members, ∃ other ∈ members, one.split = .validation ∧ other.split = .test := by
  rw [heldoutMask_eq, maskOf_three, hasSplit_iff, hasSplit_iff]
  constructor
  · rintro ⟨⟨one, oneIn, validation⟩, other, otherIn, test⟩
    exact ⟨one, oneIn, other, otherIn, validation, test⟩
  · rintro ⟨one, oneIn, other, otherIn, validation, test⟩
    exact ⟨⟨one, oneIn, validation⟩, other, otherIn, test⟩

theorem cleaningMask_mixed {members : List (Document Id Key)} : cleaningMask members = 3 ↔
    ∃ one ∈ members, ∃ other ∈ members, one.metadataOnly ≠ other.metadataOnly := by
  rw [cleaningMask_three]
  simp only [not_forall, exists_prop, ne_eq]

end

section

variable [LinearOrder Id]

theorem verdicts_perm (distinct : (documents.map (·.documentId)).Nodup)
    {ones twos : List (Document Id Key)} {verdicts again : List (Verdict Id)}
    (reordered : ones.Perm twos) (decided : List.Forall₂ (Decided documents) ones verdicts)
    (decidedAgain : List.Forall₂ (Decided documents) twos again) : verdicts.Perm again := by
  have unique : Relator.RightUnique (Decided documents) := by
    rintro document one other ⟨winner, wins, rfl⟩ ⟨another, winsAgain, rfl⟩
    rw [wins.unique distinct winsAgain]
  exact List.rel_perm_imp unique decided decidedAgain reordered

theorem decided_congr (reordered : others.Perm documents) :
    (Decided others : Document Id Key → Verdict Id → Prop) = Decided documents := by
  funext document verdict
  simp only [Decided, Wins, connected_congr fun document => reordered.mem_iff, reordered.mem_iff]

variable [LinearOrder Key]

def SameOutcome (one other : Except DuplicateFailure (Resolution Id Key)) : Prop :=
  (∃ failure, one = .error failure ∧ other = .error failure) ∨
    ∃ resolution again, one = .ok resolution ∧ other = .ok again ∧
      resolution.groups = again.groups ∧ resolution.verdicts.Perm again.verdicts

theorem some_component_iff (distinct : (documents.map (·.documentId)).Nodup)
    {groups : List (DuplicateGroup Id Key × List Nat)}
    (grouped : (indexKeys documents).mapM (indexGroup documents) = .ok groups)
    (pair : Document Id Key → Document Id Key → Prop) :
    (∃ row ∈ (indexPrepared documents).documents,
        ∃ one ∈ rowComponent documents (rootAfter (groups.map Prod.snd)) row,
          ∃ other ∈ rowComponent documents (rootAfter (groups.map Prod.snd)) row, pair one other) ↔
      ∃ one ∈ documents, ∃ other ∈ documents, Connected documents one other ∧ pair one other := by
  constructor
  · rintro ⟨row, member, one, oneIn, other, otherIn, holds⟩
    obtain ⟨oneHere, oneWay⟩ := (mem_rowComponent distinct grouped member one).mp oneIn
    obtain ⟨otherHere, otherWay⟩ := (mem_rowComponent distinct grouped member other).mp otherIn
    exact ⟨one, oneHere, other, otherHere,
      Relation.EqvGen.trans _ _ _ (Relation.EqvGen.symm _ _ oneWay) otherWay, holds⟩
  · rintro ⟨one, oneIn, other, otherIn, connected, holds⟩
    obtain ⟨row, member, rfl⟩ := row_of_document oneIn
    exact ⟨row, member, _,
      (mem_rowComponent distinct grouped member _).mpr ⟨oneIn, Relation.EqvGen.refl _⟩, other,
      (mem_rowComponent distinct grouped member other).mpr ⟨otherIn, connected⟩, holds⟩

theorem deduplicate_eq (distinct : (documents.map (·.documentId)).Nodup)
    {groups : List (DuplicateGroup Id Key × List Nat)}
    (grouped : (indexKeys documents).mapM (indexGroup documents) = .ok groups) :
    (Overlap documents → deduplicate (indexPrepared documents) = .error .heldoutOverlap) ∧
      (¬ Overlap documents → Discordant documents →
        deduplicate (indexPrepared documents) = .error .discordantCleaning) ∧
      (¬ Overlap documents → ¬ Discordant documents → ∃ verdicts,
        deduplicate (indexPrepared documents) = .ok ⟨groups.map Prod.fst, verdicts⟩) := by
  have overlap := some_component_iff distinct grouped
    fun one other => one.split = .validation ∧ other.split = .test
  have discord := some_component_iff distinct grouped
    fun one other => one.metadataOnly ≠ other.metadataOnly
  simp only [← heldoutMask_three] at overlap
  simp only [← cleaningMask_mixed] at discord
  refine ⟨?_, ?_, ?_⟩
  · intro mixed
    exact (ok_bind grouped).trans (refuseIf_raises (overlap.mpr mixed))
  · intro apart mixed
    exact (ok_bind grouped).trans ((refuseIf_bind (overlap.not.mpr apart)).trans
      (refuseIf_raises (discord.mpr mixed)))
  · intro apart concordant
    exact ⟨_, (ok_bind grouped).trans ((refuseIf_bind (overlap.not.mpr apart)).trans
      (refuseIf_bind (discord.not.mpr concordant)))⟩

theorem deduplicate_reordered (distinct : (documents.map (·.documentId)).Nodup)
    (reordered : others.Perm documents) :
    SameOutcome (deduplicate (indexPrepared others)) (deduplicate (indexPrepared documents)) := by
  have apart : (others.map (·.documentId)).Nodup := (reordered.map _).nodup_iff.mpr distinct
  have lines := groups_congr distinct reordered
  have sameOverlap : Overlap others ↔ Overlap documents := by
    simp only [Overlap, connected_congr fun document => reordered.mem_iff, reordered.mem_iff]
  have sameDiscord : Discordant others ↔ Discordant documents := by
    simp only [Discordant, connected_congr fun document => reordered.mem_iff, reordered.mem_iff]
  cases here : (indexKeys documents).mapM (indexGroup documents) with
  | error failure =>
    rw [here] at lines
    cases there : (indexKeys others).mapM (indexGroup others) with
    | error another =>
      rw [there] at lines
      cases lines
      exact Or.inl ⟨failure, error_bind there, error_bind here⟩
    | ok groups =>
      rw [there] at lines
      cases lines
  | ok groups =>
    rw [here] at lines
    cases there : (indexKeys others).mapM (indexGroup others) with
    | error another =>
      rw [there] at lines
      cases lines
    | ok again =>
      rw [there] at lines
      have sameGroups : again.map Prod.fst = groups.map Prod.fst := Except.ok.inj lines
      obtain ⟨overlap, discord, passes⟩ := deduplicate_eq distinct here
      obtain ⟨overlapThere, discordThere, passesThere⟩ := deduplicate_eq apart there
      by_cases mixed : Overlap documents
      · exact Or.inl ⟨_, overlapThere (sameOverlap.mpr mixed), overlap mixed⟩
      · by_cases discordant : Discordant documents
        · exact Or.inl ⟨_, discordThere (sameOverlap.not.mpr mixed) (sameDiscord.mpr discordant),
            discord mixed discordant⟩
        · obtain ⟨verdicts, resolved⟩ := passes mixed discordant
          obtain ⟨verdictsThere, resolvedThere⟩ :=
            passesThere (sameOverlap.not.mpr mixed) (sameDiscord.not.mpr discordant)
          refine Or.inr ⟨_, _, resolvedThere, resolved, sameGroups, ?_⟩
          have decidedThere := (deduplicate_ok apart resolvedThere).2
          rw [decided_congr reordered] at decidedThere
          exact verdicts_perm distinct reordered decidedThere
            (deduplicate_ok distinct resolved).2

end

section

theorem isolated_congr (same : ∀ document, document ∈ others ↔ document ∈ documents) :
    Isolated others ↔ Isolated documents := by
  simp only [Isolated, connected_congr same, same]

variable {resolution : Resolution Id Key}

def Retained (resolution : Resolution Id Key) (document : Document Id Key) : Prop :=
  ∃ verdict ∈ resolution.verdicts,
    verdict.documentId = document.documentId ∧ verdict.dropReason = none

theorem dropReason_none [LinearOrder Id] {document winner : Document Id Key} :
    dropReason document winner = none ↔
      document.metadataOnly = false ∧ winner.documentId = document.documentId := by
  unfold dropReason
  cases document.metadataOnly with
  | true => simp
  | false =>
    by_cases same : winner.documentId = document.documentId
    · simp [same]
    · simp only [Bool.false_eq_true, if_false, ne_eq, same, not_false_eq_true, if_true]
      split <;> simp

variable [LinearOrder Id]

structure Isolates (documents : List (Document Id Key)) (resolution : Resolution Id Key) :
    Prop where
  decided : ∃ order, order.Perm documents ∧
    List.Forall₂ (Decided documents) order resolution.verdicts
  one_kept : ∀ one ∈ documents, ∀ other ∈ documents, Connected documents one other →
    Retained resolution one → Retained resolution other → one = other
  heldout_apart : ∀ one ∈ documents, one.split = .train → Retained resolution one →
    ∀ other ∈ documents, Connected documents one other → other.split = .train
  some_kept : ∀ one ∈ documents,
    (∀ other ∈ documents, Connected documents one other → ¬ Retained resolution other) →
      ∀ other ∈ documents, Connected documents one other → other.metadataOnly = true

theorem retained_iff (distinct : (documents.map (·.documentId)).Nodup)
    {order : List (Document Id Key)} (reordered : order.Perm documents)
    (decided : List.Forall₂ (Decided documents) order resolution.verdicts)
    {document : Document Id Key} (member : document ∈ documents) :
    Retained resolution document ↔ Wins documents document document ∧ document.metadataOnly = false := by
  constructor
  · rintro ⟨verdict, listed, sameId, kept⟩
    obtain ⟨other, otherIn, winner, wins, rfl⟩ := forall₂_right decided listed
    have same : other = document :=
      eq_of_documentId distinct (reordered.mem_iff.mp otherIn) member sameId
    subst same
    obtain ⟨ordinary, own⟩ := dropReason_none.mp kept
    rw [eq_of_documentId distinct wins.1 member own] at wins
    exact ⟨wins, ordinary⟩
  · rintro ⟨wins, ordinary⟩
    obtain ⟨verdict, listed, winner, winsAgain, rfl⟩ :=
      forall₂_left decided (reordered.mem_iff.mpr member)
    rw [← wins.unique distinct winsAgain] at listed
    exact ⟨_, listed, rfl, dropReason_none.mpr ⟨ordinary, rfl⟩⟩

theorem isolates_of_decided (distinct : (documents.map (·.documentId)).Nodup)
    (isolated : Isolated documents) {order : List (Document Id Key)}
    (reordered : order.Perm documents)
    (decided : List.Forall₂ (Decided documents) order resolution.verdicts) :
    Isolates documents resolution where
  decided := ⟨order, reordered, decided⟩
  one_kept := by
    intro one oneIn other otherIn connected oneKept otherKept
    have oneWins := ((retained_iff distinct reordered decided oneIn).mp oneKept).1
    have otherWins := ((retained_iff distinct reordered decided otherIn).mp otherKept).1
    exact (oneWins.congr connected).unique distinct otherWins
  heldout_apart := by
    intro one oneIn train kept other otherIn connected
    have wins := ((retained_iff distinct reordered decided oneIn).mp kept).1
    by_contra heldout
    exact wins.heldout otherIn connected heldout train
  some_kept := by
    intro one oneIn dropped other otherIn connected
    obtain ⟨_, -, winner, wins, -⟩ := forall₂_left decided (reordered.mem_iff.mpr oneIn)
    have own := wins.congr wins.2.1
    have excluded : winner.metadataOnly = true := by
      by_contra ordinary
      rw [Bool.not_eq_true] at ordinary
      exact dropped winner wins.1 wins.2.1
        ((retained_iff distinct reordered decided wins.1).mpr ⟨own, ordinary⟩)
    rw [← excluded, ← (isolated one oneIn other otherIn connected).2]
    exact (isolated one oneIn winner wins.1 wins.2.1).2

variable [LinearOrder Key]

def Settles (documents : List (Document Id Key))
    (outcome : Except DuplicateFailure (Resolution Id Key)) : Prop :=
  ((∃ resolution, outcome = .ok resolution) ↔ Isolated documents) ∧
    ∀ resolution, outcome = .ok resolution → Isolates documents resolution

theorem deduplicate_settles (distinct : (documents.map (·.documentId)).Nodup) :
    Settles documents (deduplicate (indexPrepared documents)) := by
  refine ⟨⟨?_, deduplicate_isolated distinct⟩, ?_⟩
  · rintro ⟨resolution, resolved⟩
    exact (deduplicate_ok distinct resolved).1
  · intro resolution resolved
    obtain ⟨isolated, decided⟩ := deduplicate_ok distinct resolved
    exact isolates_of_decided distinct isolated (List.Perm.refl _) decided

theorem resolveStored_settles (distinct : (documents.map (·.documentId)).Nodup) :
    Settles documents (resolveStored documents) := by
  have reordered : (sortedDocuments documents).Perm documents := List.perm_insertionSort _ _
  have same := isolated_congr fun document => reordered.mem_iff (a := document)
  refine ⟨⟨?_, fun isolated => resolveStored_isolated distinct (same.mpr isolated)⟩, ?_⟩
  · rintro ⟨resolution, resolved⟩
    exact same.mp (resolveStored_ok distinct resolved).1
  · intro resolution resolved
    obtain ⟨isolated, decided⟩ := resolveStored_ok distinct resolved
    rw [decided_congr reordered] at decided
    exact isolates_of_decided distinct (same.mp isolated) reordered decided

/-- Disk and memory accept the same document sets and give the same verdicts, which isolate
held-out documents and do not depend on the order of the shards. -/
theorem duplicate_resolution_isolates (set : DocumentSet Id Key) :
    Settles set.documents (deduplicate (indexPrepared set.documents)) ∧
      Settles set.documents (resolveStored set.documents) ∧
      (∀ onDisk inMemory, deduplicate (indexPrepared set.documents) = .ok onDisk →
        resolveStored set.documents = .ok inMemory → onDisk.verdicts.Perm inMemory.verdicts) ∧
      ∀ reordered : DocumentSet Id Key, reordered.documents.Perm set.documents →
        SameOutcome (deduplicate (indexPrepared reordered.documents))
            (deduplicate (indexPrepared set.documents)) ∧
          resolveStored reordered.documents = resolveStored set.documents := by
  refine ⟨deduplicate_settles set.distinct, resolveStored_settles set.distinct, ?_, ?_⟩
  · intro onDisk inMemory resolved stored
    have sorted : (sortedDocuments set.documents).Perm set.documents :=
      List.perm_insertionSort _ _
    have decided := (resolveStored_ok set.distinct stored).2
    rw [decided_congr sorted] at decided
    exact verdicts_perm set.distinct sorted.symm (deduplicate_ok set.distinct resolved).2 decided
  · intro reordered same
    refine ⟨deduplicate_reordered set.distinct same, ?_⟩
    unfold resolveStored
    rw [sortedDocuments_congr set.distinct same]

end

end SparseLab.Corpus
