import SparseLab.Corpus.TextLinks

/-! When the three resolutions of release schema 2 agree. -/

namespace SparseLab.Corpus

open Library

variable {Id Key Rights Digest : Type} {documents : List (Document Id Key)}

section

theorem map_rows {β : Type} (documents : List (Document Id Key)) (image : Document Id Key → β) :
    ((indexPrepared documents).documents.map fun row => image row.document) =
      documents.map image := by
  conv_rhs => rw [← rows_documents documents, List.map_map]
  rfl

variable [LinearOrder Id]

theorem foldl_linkRows (groups : List (DuplicateGroup Id Key)) :
    groups.foldl (fun representative group =>
      linkRows representative group.origins group.representative) id = links groups := rfl

theorem textVerdict_congr {one other : Id → Id} {document : Document Id Key}
    (same : one document.documentId = other document.documentId) :
    textVerdict one document = textVerdict other document := by
  rw [textVerdict, textVerdict, same]

variable [LinearOrder Key] [DecidableEq Rights] {rights : Id → Rights}
  {groups : List (DuplicateGroup Id Key)}

def endOf (documents : List (Document Id Key)) (groups : List (DuplicateGroup Id Key)) : Id → Id :=
  chosen (links groups) documents.length

theorem endOf_climbs (grouped : textGroups rights documents = .ok groups) {start top : Id}
    {steps : Nat} (climbs : Climbs (links groups) steps start top) :
    endOf documents groups start = top := by
  obtain ⟨few, bound, last, way⟩ := links_climbs grouped start
  rw [endOf, chosen_climbs way bound, climbs.unique way]

theorem foldl_linkRest (grouped : textGroups rights documents = .ok groups) :
    groups.foldl (fun representative group => linkRest representative group.origins) id =
      links groups := by
  have origins : ∀ group ∈ groups, ∃ rest, group.origins = group.representative :: rest := by
    intro group member
    obtain ⟨_, -, _, first, rest, -, representative, origins⟩ := mem_textGroups grouped member
    exact ⟨rest.map (·.documentId), by rw [origins, representative, List.map_cons]⟩
  clear grouped
  rw [links]
  have each : ∀ {representative : Id → Id}, Falls representative →
      groups.foldl (fun representative group => linkRest representative group.origins)
        representative = groups.foldl linkGroup representative := by
    induction groups with
    | nil => exact fun _ => rfl
    | cons group groups ih =>
      intro representative falls
      obtain ⟨⟨rest, here⟩, others⟩ := List.forall_mem_cons.mp origins
      rw [List.foldl_cons, List.foldl_cons, linkRest_group falls here]
      exact ih others (falls_linkGroup falls group)
  exact each falls_id

theorem resolveTextStored_eq (distinct : (documents.map (·.documentId)).Nodup) :
    resolveTextStored rights documents = (textGroups rights documents).map fun groups =>
      ⟨groups, (sortedDocuments documents).map (textVerdict (endOf documents groups))⟩ := by
  have found : ((textKeys (sortedDocuments documents)).mapM fun entry =>
      storedTextGroup rights (sortedDocuments documents) entry.1 entry.2).map (List.filterMap id) =
        textGroups rights documents := storedTextGroups distinct
  cases made : (textKeys (sortedDocuments documents)).mapM fun entry =>
      storedTextGroup rights (sortedDocuments documents) entry.1 entry.2 with
  | error failure =>
    rw [made] at found
    rw [← found]
    exact error_bind made
  | ok results =>
    rw [made] at found
    have grouped : textGroups rights documents = .ok (results.filterMap id) := found.symm
    rw [grouped]
    refine (ok_bind made).trans (congrArg Except.ok ?_)
    rw [Resolution.mk.injEq]
    refine ⟨rfl, List.map_congr_left ?_⟩
    intro document member
    refine textVerdict_congr ?_
    have length : (sortedDocuments documents).length = documents.length :=
      (List.perm_insertionSort _ _).length_eq
    obtain ⟨steps, -, top, climbs⟩ := links_climbs grouped document.documentId
    rw [foldl_linkRest grouped, length, endOf_climbs grouped climbs]
    exact chooseAll_climbs (links_climbs grouped) (List.mem_map_of_mem member) climbs

theorem deduplicateText_eq :
    deduplicateText rights (indexPrepared documents) = (textGroups rights documents).map
      fun groups => ⟨groups, documents.map (textVerdict (endOf documents groups))⟩ := by
  unfold deduplicateText
  rw [textKeys_repeated]
  cases grouped : textGroups rights documents with
  | error failure => exact error_bind grouped
  | ok groups =>
    refine (ok_bind grouped).trans (congrArg Except.ok ?_)
    rw [Resolution.mk.injEq]
    refine ⟨rfl, ?_⟩
    have length : (indexPrepared documents).documents.length = documents.length := by
      rw [← List.length_map (·.document), rows_documents]
    rw [← map_rows documents (textVerdict (endOf documents groups))]
    refine List.map_congr_left ?_
    intro row _
    refine textVerdict_congr ?_
    obtain ⟨steps, -, top, climbs⟩ := links_climbs grouped row.document.documentId
    rw [foldl_linkRows, map_rows documents (·.documentId), length, endOf_climbs grouped climbs]
    refine compressRounds_climbs ?_ ?_ climbs
    · intro id absent
      by_contra moved
      exact absent (links_moved grouped moved).1
    · intro start
      obtain ⟨few, bound, last, way⟩ := links_climbs grouped start
      exact ⟨few, by omega, last, way⟩

end

section

theorem textConnected_congr {others : List (Document Id Key)}
    (same : ∀ document, document ∈ others ↔ document ∈ documents) :
    TextConnected others = TextConnected documents := by
  unfold TextConnected
  simp only [same]

variable [LinearOrder Id]

def TextLeast (documents : List (Document Id Key)) (document winner : Document Id Key) : Prop :=
  winner ∈ documents ∧ TextConnected documents document winner ∧
    ∀ other ∈ documents, TextConnected documents document other →
      winner.documentId ≤ other.documentId

/-- The verdict of a document whose component `winner` is the least of. -/
def leastVerdict (document winner : Document Id Key) : Verdict Id :=
  ⟨document.documentId, winner.documentId,
    textReason document (winner.documentId ≠ document.documentId)⟩

end

section

theorem reference_of_ordinal {α : Type} {values : List α} {one other : α × Nat}
    (oneIn : one ∈ values.zipIdx) (otherIn : other ∈ values.zipIdx) (same : one.2 = other.2) :
    one = other := by
  have numbers : (values.zipIdx.map Prod.snd).Nodup := by
    have range : values.zipIdx.map Prod.snd = List.range' 0 values.length :=
      List.zipIdx_map_snd 0 values
    rw [range]
    exact List.nodup_range'
  exact List.inj_on_of_nodup_map numbers oneIn otherIn same

theorem reference_of_value {α : Type} {values : List α} (distinct : values.Nodup)
    {one other : α × Nat} (oneIn : one ∈ values.zipIdx) (otherIn : other ∈ values.zipIdx)
    (same : one.1 = other.1) : one = other := by
  have apart : (values.zipIdx.map Prod.fst).Nodup := by
    rwa [List.zipIdx_map_fst]
  exact List.inj_on_of_nodup_map apart oneIn otherIn same

theorem textShares_numbered {one other : Document Id Key} : TextShares one other ↔
    ∃ method < 2, ∃ key ∈ one.keys (methodOf method), key ∈ other.keys (methodOf method) := by
  rw [textShares_iff]
  constructor
  · rintro ⟨method, known, key, oneKey, otherKey⟩
    cases method with
    | raw => exact ⟨0, Nat.zero_lt_two, key, oneKey, otherKey⟩
    | normalized => exact ⟨1, Nat.one_lt_two, key, oneKey, otherKey⟩
    | canonicalOrigin => simp [textMethods] at known
  · rintro ⟨method, -, key, oneKey, otherKey⟩
    refine ⟨methodOf method, ?_, key, oneKey, otherKey⟩
    cases method with
    | zero => decide
    | succ method => exact List.mem_cons_of_mem _ List.mem_cons_self

section

variable {references : List (Document Id Key)}

theorem references_connected (distinct : references.Nodup) {one other : Document Id Key × Nat}
    (oneIn : one ∈ references.zipIdx) (otherIn : other ∈ references.zipIdx) :
    TextConnected references one.1 other.1 ↔
      Relation.EqvGen (fun left right => left ∈ references.zipIdx ∧ right ∈ references.zipIdx ∧
        TextShares left.1 right.1) one other := by
  have valued : ∀ left ∈ references.zipIdx, ∀ right ∈ references.zipIdx,
      left.1 = right.1 → left = right :=
    fun left leftIn right rightIn => reference_of_value distinct leftIn rightIn
  refine eqvGen_named valued ?_ ?_ oneIn otherIn
  · rintro left right ⟨leftIn, rightIn, shares⟩
    rw [← List.zipIdx_map_fst 0 references] at leftIn rightIn
    obtain ⟨first, firstIn, rfl⟩ := List.mem_map.mp leftIn
    obtain ⟨second, secondIn, rfl⟩ := List.mem_map.mp rightIn
    exact ⟨first, firstIn, second, secondIn, rfl, rfl, shares⟩
  · intro first firstIn second secondIn shares
    exact Or.inr ⟨List.fst_mem_of_mem_zipIdx firstIn, List.fst_mem_of_mem_zipIdx secondIn, shares⟩

theorem forall₂_references {β : Type} {related : Document Id Key → β → Prop} {values : List β}
    (each : List.Forall₂ (fun reference => related reference.1) references.zipIdx values) :
    List.Forall₂ related references values := by
  have mapped := List.forall₂_map_left_iff.mpr each
  rwa [List.zipIdx_map_fst] at mapped

end

variable [LinearOrder Key] {references : List (Document Id Key)}

theorem mem_referencesFor {method : Nat} {key : Key} {reference : Document Id Key × Nat} :
    reference ∈ referencesFor references method key ↔
      reference ∈ references.zipIdx ∧ key ∈ reference.1.keys (methodOf method) := by
  rw [referencesFor, List.mem_filter, decide_eq_true_eq, keyAt_iff]

def ordinalGroups (documents references : List (Document Id Key)) : List (List Nat) :=
  (repeatedNumbers documents).map fun key => (referencesFor references key.1 key.2).map Prod.snd

theorem ordinals_connected (distinct : references.Nodup) (same : references.Perm documents)
    {one other : Document Id Key × Nat} (oneIn : one ∈ references.zipIdx)
    (otherIn : other ∈ references.zipIdx) :
    Relation.EqvGen (fun left right => ∃ group ∈ ordinalGroups documents references,
        left ∈ group ∧ right ∈ group) one.2 other.2 ↔
      TextConnected references one.1 other.1 := by
  rw [references_connected distinct oneIn otherIn]
  have numbered : ∀ left ∈ references.zipIdx, ∀ right ∈ references.zipIdx,
      left.2 = right.2 → left = right :=
    fun left leftIn right rightIn => reference_of_ordinal leftIn rightIn
  refine eqvGen_named numbered ?_ ?_ oneIn otherIn
  · rintro left right ⟨group, groupIn, leftIn, rightIn⟩
    obtain ⟨⟨method, key⟩, listed, rfl⟩ := List.mem_map.mp groupIn
    have known := (mem_numberedKeys.mp (List.mem_of_mem_filter listed)).1
    obtain ⟨first, firstIn, rfl⟩ := List.mem_map.mp leftIn
    obtain ⟨second, secondIn, rfl⟩ := List.mem_map.mp rightIn
    rw [mem_referencesFor] at firstIn secondIn
    exact ⟨first, firstIn.1, second, secondIn.1, rfl, rfl,
      textShares_numbered.mpr ⟨method, known, key, firstIn.2, secondIn.2⟩⟩
  · intro first firstIn second secondIn shares
    by_cases here : first = second
    · exact Or.inl here
    · right
      obtain ⟨method, known, key, firstKey, secondKey⟩ := textShares_numbered.mp shares
      have firstDocument := same.mem_iff.mp (List.fst_mem_of_mem_zipIdx firstIn)
      have secondDocument := same.mem_iff.mp (List.fst_mem_of_mem_zipIdx secondIn)
      have several : 1 < (mappingGroup documents (methodOf method) key).length := by
        by_contra short
        refine here (reference_of_value distinct firstIn secondIn ?_)
        exact eq_of_short (by omega) (mem_mappingGroup.mpr ⟨firstDocument, firstKey⟩)
          (mem_mappingGroup.mpr ⟨secondDocument, secondKey⟩)
      have listed : (method, key) ∈ repeatedNumbers documents :=
        List.mem_filter.mpr ⟨mem_numberedKeys.mpr ⟨known, first.1, firstDocument,
          keyAt_iff.mpr firstKey⟩, decide_eq_true several⟩
      exact ⟨_, List.mem_map_of_mem listed,
        List.mem_map_of_mem (mem_referencesFor.mpr ⟨firstIn, firstKey⟩),
        List.mem_map_of_mem (mem_referencesFor.mpr ⟨secondIn, secondKey⟩)⟩

variable [LinearOrder Id] [DecidableEq Rights] [DecidableEq Digest] {signature : Id → Digest}
  {rights : Id → Rights} {groups : List (DuplicateGroup Id Key)}

theorem root_least (distinct : (documents.map (·.documentId)).Nodup)
    {reference : Document Id Key × Nat}
    (member : reference ∈ (sortedDocuments documents).zipIdx) :
    ∃ winner root, TextLeast documents reference.1 winner ∧
      (sortedDocuments documents)[root]? = some winner ∧
      (root = reference.2 ↔ winner.documentId = reference.1.documentId) ∧
      chosen ((ordinalGroups documents (sortedDocuments documents)).foldl
        (joinGroup ((ordinalGroups documents (sortedDocuments documents)).map List.length).sum) id)
        ((ordinalGroups documents (sortedDocuments documents)).map List.length).sum
        reference.2 = root := by
  have sameMembers : ∀ document : Document Id Key,
      document ∈ sortedDocuments documents ↔ document ∈ documents := fun _ => mem_sortedDocuments
  have apart : (sortedDocuments documents).Nodup :=
    (sortedDocuments_distinct distinct).of_map
  have reordered : (sortedDocuments documents).Perm documents := List.perm_insertionSort _ _
  have sorted := sorted_by_id documents
  have connected_iff := fun {one other : Document Id Key × Nat}
    (oneIn : one ∈ (sortedDocuments documents).zipIdx)
    (otherIn : other ∈ (sortedDocuments documents).zipIdx) =>
      (ordinals_connected apart reordered oneIn otherIn).trans
        (iff_of_eq (congrFun (congrFun (textConnected_congr sameMembers) one.1) other.1))
  generalize sortedDocuments documents = references at *
  obtain ⟨steps, bound, root, climbs, connected, least⟩ :=
    least_after_groups (ordinalGroups documents references) reference.2
  have below : root ≤ reference.2 := least reference.2 (Relation.EqvGen.refl _)
  have inside : root < references.length := lt_of_le_of_lt below (List.snd_lt_of_mem_zipIdx member)
  have listed : (references[root], root) ∈ references.zipIdx :=
    List.mk_mem_zipIdx_iff_getElem?.mpr (List.getElem?_eq_getElem inside)
  refine ⟨references[root], root, ⟨?_, ?_, ?_⟩, List.getElem?_eq_getElem inside, ?_,
    chosen_climbs climbs bound⟩
  · exact (sameMembers _).mp (List.getElem_mem inside)
  · exact (connected_iff member listed).mp connected
  · intro other otherIn way
    rw [← sameMembers, ← List.zipIdx_map_fst 0 references] at otherIn
    obtain ⟨⟨_, ordinal⟩, otherListed, rfl⟩ := List.mem_map.mp otherIn
    have before := least ordinal ((connected_iff member otherListed).mpr way)
    have found := List.mk_mem_zipIdx_iff_getElem?.mp otherListed
    obtain ⟨ordinalInside, rfl⟩ := List.getElem?_eq_some_iff.mp found
    rcases Nat.lt_or_eq_of_le before with earlier | rfl
    · exact List.pairwise_iff_getElem.mp sorted root ordinal inside ordinalInside earlier
    · exact le_refl _
  · constructor
    · rintro rfl
      exact congrArg (fun found : Document Id Key × Nat => found.1.documentId)
        (reference_of_ordinal listed member rfl)
    · intro same
      have sameDocument : references[root] = reference.1 :=
        eq_of_documentId distinct ((sameMembers _).mp (List.getElem_mem inside))
          ((sameMembers _).mp (List.fst_mem_of_mem_zipIdx member)) same
      rw [← reference_of_value apart listed member sameDocument]

def streamedVerdicts (references : List (Document Id Key)) (ordinals : List (List Nat)) :
    List (Verdict Id) :=
  references.zipIdx.filterMap fun (document, ordinal) =>
    let root := chosen (ordinals.foldl (joinGroup (ordinals.map List.length).sum) id)
      (ordinals.map List.length).sum ordinal
    references[root]?.map fun winner =>
      ⟨document.documentId, winner.documentId, textReason document (root ≠ ordinal)⟩

theorem resolveTextStreamed_ok (distinct : (documents.map (·.documentId)).Nodup)
    (collisionFree : CollisionFree signature rights documents)
    (grouped : textGroups rights documents = .ok groups) :
    ∃ verdicts, resolveTextStreamed signature documents = .ok ⟨groups, verdicts⟩ ∧
      List.Forall₂ (fun document verdict => ∃ winner, TextLeast documents document winner ∧
        verdict = leastVerdict document winner) (sortedDocuments documents) verdicts := by
  have found := streamedGroups distinct collisionFree
  rw [grouped] at found
  cases made : ((sortedEntries signature (sortedDocuments documents)).splitBy
      TextEntry.sameKey).mapM streamedGroup with
  | error another =>
    rw [made] at found
    cases found
  | ok results =>
    rw [made] at found
    have pairs : results.filterMap id =
        groups.zip (ordinalGroups documents (sortedDocuments documents)) := Except.ok.inj found
    have length : groups.length =
        (ordinalGroups documents (sortedDocuments documents)).length := by
      have listed := grouped
      rw [textGroups, textKeys_numbered, mapM_eq_ok] at listed
      have same := listed.length_eq
      rw [List.length_map] at same
      rw [ordinalGroups, List.length_map, same]
    have firsts : (results.filterMap id).map Prod.fst = groups := by
      rw [pairs, List.map_fst_zip (le_of_eq length)]
    have seconds : (results.filterMap id).map Prod.snd =
        ordinalGroups documents (sortedDocuments documents) := by
      rw [pairs, List.map_snd_zip (le_of_eq length.symm)]
    refine ⟨streamedVerdicts (sortedDocuments documents)
      (ordinalGroups documents (sortedDocuments documents)), (ok_bind made).trans ?_, ?_⟩
    · change Except.ok (Resolution.mk ((results.filterMap id).map Prod.fst)
        (streamedVerdicts (sortedDocuments documents) ((results.filterMap id).map Prod.snd))) = _
      rw [firsts, seconds]
    · refine forall₂_references (forall₂_filterMap ?_)
      intro reference member
      obtain ⟨winner, root, leads, found, same, ends⟩ := root_least distinct member
      refine ⟨leastVerdict reference.1 winner, ?_, winner, leads, rfl⟩
      have reason : decide (root ≠ reference.2) =
          decide (winner.documentId ≠ reference.1.documentId) :=
        decide_eq_decide.mpr same.not
      simp only [ends, found, Option.map_some, reason]
      rfl

theorem resolveTextStreamed_error (distinct : (documents.map (·.documentId)).Nodup)
    (collisionFree : CollisionFree signature rights documents) {failure : TextFailure}
    (refused : textGroups rights documents = .error failure) :
    resolveTextStreamed signature documents = .error failure := by
  have found := streamedGroups distinct collisionFree
  rw [refused] at found
  unfold resolveTextStreamed
  cases made : ((sortedEntries signature (sortedDocuments documents)).splitBy
      TextEntry.sameKey).mapM streamedGroup with
  | error another =>
    rw [made] at found
    cases found
    exact error_bind made
  | ok results =>
    rw [made] at found
    cases found

end

end SparseLab.Corpus
