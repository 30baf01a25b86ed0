import SparseLab.Corpus.TextGroups

/-! The sorted rows of the streaming resolution, group by group. -/

namespace SparseLab.Corpus

open Library

section

variable {α β γ : Type}

theorem flatMap_ite (wanted : α → Bool) (image : α → β) (values : List α) :
    (values.flatMap fun value => if wanted value = true then [image value] else []) =
      (values.filter wanted).map image := by
  induction values with
  | nil => rfl
  | cons value values ih =>
    rw [List.flatMap_cons, ih, List.filter_cons]
    cases wanted value <;> simp

theorem perm_parts [DecidableEq γ] (part : α → γ) {keys : List γ} (distinct : keys.Nodup)
    (values : List α) (covered : ∀ value ∈ values, part value ∈ keys) :
    (keys.map fun key => values.filter fun value => part value = key).flatten.Perm values := by
  induction keys generalizing values with
  | nil =>
    rw [List.eq_nil_iff_forall_not_mem.mpr fun value member =>
      List.not_mem_nil (covered value member)]
    exact List.Perm.refl _
  | cons key keys ih =>
    rw [List.nodup_cons] at distinct
    have others := ih distinct.2 (values.filter fun value => !decide (part value = key)) (by
      intro value member
      rw [List.mem_filter, Bool.not_eq_true', decide_eq_false_iff_not] at member
      exact (List.mem_cons.mp (covered value member.1)).resolve_left member.2)
    have same : (keys.map fun other => (values.filter fun value =>
        !decide (part value = key)).filter fun value => part value = other) =
        keys.map fun other => values.filter fun value => part value = other := by
      refine List.map_congr_left ?_
      intro other member
      rw [List.filter_filter]
      refine List.filter_congr ?_
      intro value _
      by_cases here : part value = other
      · have apart : part value ≠ key := by
          rw [here]
          rintro rfl
          exact distinct.1 member
        rw [decide_eq_true here, decide_eq_false apart]
        rfl
      · rw [decide_eq_false here]
        rfl
    rw [same] at others
    rw [List.map_cons, List.flatten_cons]
    exact (others.append_left _).trans (List.filter_append_perm _ _)

theorem mapM_paired {ε : Type} (attempt : γ → Except ε α) (partner : γ → β) (values : List γ) :
    (values.mapM fun value => (attempt value).map fun result => (result, partner value)) =
      (values.mapM attempt).map fun results => results.zip (values.map partner) := by
  induction values with
  | nil => rfl
  | cons value values ih =>
    rw [List.mapM_cons, List.mapM_cons, ih]
    cases attempt value with
    | error failure => rfl
    | ok result =>
      cases values.mapM attempt with
      | error failure => rfl
      | ok results => rfl

end

variable {Id Key Rights Digest : Type} {references : List (Document Id Key)}

section

variable {signature : Id → Digest}

def keyAt (method : Nat) (document : Document Id Key) : Key :=
  match method with
  | 0 => document.rawContentSha256
  | _ => document.contentSha256

def entryOf (signature : Id → Digest) (method : Nat) (reference : Document Id Key × Nat) :
    TextEntry Id Key Digest :=
  ⟨method, keyAt method reference.1, reference.2, reference.1.documentId, reference.1.split,
    signature reference.1.documentId⟩

theorem textEntries_eq (ordinal : Nat) (document : Document Id Key) :
    textEntries signature ordinal document =
      [entryOf signature 0 (document, ordinal), entryOf signature 1 (document, ordinal)] := rfl

theorem keyAt_iff {method : Nat} {document : Document Id Key} {key : Key} :
    keyAt method document = key ↔ key ∈ document.keys (methodOf method) := by
  cases method with
  | zero => exact (List.mem_singleton.trans eq_comm).symm
  | succ method => exact (List.mem_singleton.trans eq_comm).symm

theorem columns_of_order {one other : TextEntry Id Key Digest} (same : one.order = other.order) :
    one.method = other.method ∧ one.key = other.key ∧ one.ordinal = other.ordinal := by
  simpa [TextEntry.order] using same

variable [LinearOrder Key]

def entriesFor (signature : Id → Digest) (references : List (Document Id Key)) (method : Nat)
    (key : Key) : List (TextEntry Id Key Digest) :=
  (references.zipIdx.filter fun reference => keyAt method reference.1 = key).map
    (entryOf signature method)

theorem zipIdx_pairwise {α : Type} (values : List α) :
    values.zipIdx.Pairwise fun left right => left.2 < right.2 := by
  have numbers : values.zipIdx.map Prod.snd = List.range' 0 values.length :=
    List.zipIdx_map_snd 0 values
  refine List.pairwise_map.mp ?_
  change (values.zipIdx.map Prod.snd).Pairwise (· < ·)
  rw [numbers]
  exact List.pairwise_lt_range'

theorem entriesFor_pairwise (method : Nat) (key : Key) :
    (entriesFor signature references method key).Pairwise fun left right =>
      left.order ≤ right.order := by
  refine List.pairwise_map.mpr ?_
  refine ((zipIdx_pairwise references).sublist List.filter_sublist).imp_of_mem ?_
  intro left right leftIn rightIn before
  have leftKey : keyAt method left.1 = key := by simpa using (List.mem_filter.mp leftIn).2
  have rightKey : keyAt method right.1 = key := by simpa using (List.mem_filter.mp rightIn).2
  simp only [TextEntry.order, entryOf, leftKey, rightKey, Prod.Lex.toLex_le_toLex, lt_irrefl,
    false_or, true_and]
  exact le_of_lt before

theorem sortedEntries_pairwise (signature : Id → Digest) (references : List (Document Id Key)) :
    (sortedEntries signature references).Pairwise fun left right => left.order ≤ right.order := by
  let before : TextEntry Id Key Digest → TextEntry Id Key Digest → Prop :=
    fun left right => left.order ≤ right.order
  have total : Std.Total before := ⟨fun left right => le_total left.order right.order⟩
  have trans : IsTrans (TextEntry Id Key Digest) before :=
    ⟨fun left middle right => le_trans (a := left.order)⟩
  exact List.pairwise_insertionSort before _

theorem mem_sortedEntries {entry : TextEntry Id Key Digest} :
    entry ∈ sortedEntries signature references ↔ ∃ reference ∈ references.zipIdx,
      entry = entryOf signature 0 reference ∨ entry = entryOf signature 1 reference := by
  rw [sortedEntries, (List.perm_insertionSort _ _).mem_iff, List.mem_flatMap]
  simp only [textEntries_eq, List.mem_cons, List.not_mem_nil, or_false]

theorem sortedEntries_unique {one other : TextEntry Id Key Digest}
    (oneIn : one ∈ sortedEntries signature references)
    (otherIn : other ∈ sortedEntries signature references) (same : one.order = other.order) :
    one = other := by
  obtain ⟨sameMethod, -, sameOrdinal⟩ := columns_of_order same
  obtain ⟨left, leftIn, leftRow⟩ := mem_sortedEntries.mp oneIn
  obtain ⟨right, rightIn, rightRow⟩ := mem_sortedEntries.mp otherIn
  have numbers : (references.zipIdx.map Prod.snd).Nodup := by
    have range : references.zipIdx.map Prod.snd = List.range' 0 references.length :=
      List.zipIdx_map_snd 0 references
    rw [range]
    exact List.nodup_range'
  have sameReference : left.2 = right.2 → left = right :=
    List.inj_on_of_nodup_map numbers leftIn rightIn
  rcases leftRow with rfl | rfl <;> rcases rightRow with rfl | rfl
  · rw [sameReference sameOrdinal]
  · cases sameMethod
  · cases sameMethod
  · rw [sameReference sameOrdinal]

theorem filter_sortedEntries {method : Nat} (known : method < 2) (key : Key) :
    ((sortedEntries signature references).filter fun entry =>
      (entry.method, entry.key) = (method, key)) = entriesFor signature references method key := by
  have rows : ((references.zipIdx.flatMap fun reference =>
      textEntries signature reference.2 reference.1).filter fun entry =>
        (entry.method, entry.key) = (method, key)) = entriesFor signature references method key := by
    rw [List.filter_flatMap, entriesFor, ← flatMap_ite]
    refine List.flatMap_congr ?_
    intro reference _
    rw [textEntries_eq]
    have cases : method = 0 ∨ method = 1 := by omega
    rcases cases with rfl | rfl
    · by_cases here : keyAt 0 reference.1 = key <;> simp [entryOf, here]
    · by_cases here : keyAt 1 reference.1 = key <;> simp [entryOf, here]
  refine List.Perm.eq_of_pairwise ?_
    ((sortedEntries_pairwise signature references).sublist List.filter_sublist)
    (entriesFor_pairwise method key) ?_
  · intro one other oneIn otherIn below above
    rw [← rows] at otherIn
    have inside : other ∈ sortedEntries signature references :=
      (List.perm_insertionSort _ _).mem_iff.mpr (List.mem_of_mem_filter otherIn)
    exact sortedEntries_unique (List.mem_of_mem_filter oneIn) inside (le_antisymm below above)
  · rw [← rows]
    exact (List.perm_insertionSort _ _).filter _

def numberedKeys (references : List (Document Id Key)) : List (Nat × Key) :=
  [0, 1].flatMap fun method => (mappingKeys references (methodOf method)).map fun key =>
    (method, key)

theorem mem_numberedKeys {method : Nat} {key : Key} :
    (method, key) ∈ numberedKeys references ↔
      method < 2 ∧ ∃ document ∈ references, keyAt method document = key := by
  simp only [numberedKeys, List.mem_flatMap, List.mem_map, Prod.mk.injEq, mem_mappingKeys,
    keyAt_iff]
  constructor
  · rintro ⟨_, listed, _, present, rfl, rfl⟩
    refine ⟨?_, present⟩
    simp only [List.mem_cons, List.not_mem_nil, or_false] at listed
    omega
  · rintro ⟨known, present⟩
    refine ⟨method, ?_, key, present, rfl, rfl⟩
    simp only [List.mem_cons, List.not_mem_nil, or_false]
    omega

theorem mappingKeys_strict (documents : List (Document Id Key)) (method : Method) :
    (mappingKeys documents method).Pairwise (· < ·) := by
  have distinct : (mappingKeys documents method).Nodup :=
    (List.perm_insertionSort _ _).nodup_iff.mpr (List.nodup_dedup _)
  exact (List.pairwise_insertionSort (· ≤ ·) _).imp₂ (fun _ _ => lt_of_le_of_ne) distinct

theorem numberedKeys_strict (references : List (Document Id Key)) :
    (numberedKeys references).Pairwise fun left right => toLex left < toLex right := by
  simp only [numberedKeys, List.flatMap_cons, List.flatMap_nil, List.append_nil,
    List.pairwise_append, List.pairwise_map, Prod.Lex.toLex_lt_toLex, List.mem_map]
  refine ⟨?_, ?_, ?_⟩
  · exact (mappingKeys_strict references _).imp fun before => Or.inr ⟨trivial, before⟩
  · exact (mappingKeys_strict references _).imp fun before => Or.inr ⟨trivial, before⟩
  · rintro _ ⟨first, -, rfl⟩ _ ⟨second, -, rfl⟩
    exact Or.inl Nat.zero_lt_one

theorem entriesFor_ne_nil {method : Nat} {key : Key}
    (listed : (method, key) ∈ numberedKeys references) :
    entriesFor signature references method key ≠ [] := by
  obtain ⟨-, document, inside, sameKey⟩ := mem_numberedKeys.mp listed
  rw [← List.zipIdx_map_fst 0 references] at inside
  obtain ⟨reference, referenceIn, rfl⟩ := List.mem_map.mp inside
  refine List.ne_nil_of_mem (List.mem_map_of_mem (List.mem_filter.mpr ⟨referenceIn, ?_⟩))
  exact decide_eq_true sameKey

theorem columns_of_entry {method : Nat} {key : Key} {entry : TextEntry Id Key Digest}
    (member : entry ∈ entriesFor signature references method key) :
    entry.method = method ∧ entry.key = key := by
  obtain ⟨reference, referenceIn, rfl⟩ := List.mem_map.mp member
  exact ⟨rfl, of_decide_eq_true (List.mem_filter.mp referenceIn).2⟩

theorem splitBy_sortedEntries (signature : Id → Digest) (references : List (Document Id Key)) :
    (sortedEntries signature references).splitBy TextEntry.sameKey =
      (numberedKeys references).map fun key => entriesFor signature references key.1 key.2 := by
  have parts : (numberedKeys references).map (fun key =>
      entriesFor signature references key.1 key.2) = (numberedKeys references).map fun key =>
        (sortedEntries signature references).filter fun entry =>
          (entry.method, entry.key) = key := by
    refine List.map_congr_left ?_
    rintro ⟨method, key⟩ member
    rw [filter_sortedEntries (mem_numberedKeys.mp member).1]
  have strict := numberedKeys_strict references
  have distinct : (numberedKeys references).Nodup :=
    strict.imp fun before same => absurd before (by rw [same]; exact lt_irrefl _)
  rw [parts, List.splitBy_eq_iff]
  refine ⟨?_, ?_, ?_, ?_⟩
  · have covered : ∀ entry ∈ sortedEntries signature references,
        (entry.method, entry.key) ∈ numberedKeys references := by
      intro entry member
      obtain ⟨reference, listed, row⟩ := mem_sortedEntries.mp member
      have inside : reference.1 ∈ references := List.fst_mem_of_mem_zipIdx listed
      rcases row with rfl | rfl
      · exact mem_numberedKeys.mpr ⟨Nat.zero_lt_two, reference.1, inside, rfl⟩
      · exact mem_numberedKeys.mpr ⟨Nat.one_lt_two, reference.1, inside, rfl⟩
    have perm := perm_parts (fun entry : TextEntry Id Key Digest => (entry.method, entry.key))
      distinct (sortedEntries signature references) covered
    refine (List.Perm.eq_of_pairwise ?_ ?_ (sortedEntries_pairwise signature references) perm).symm
    · intro one other oneIn otherIn below above
      exact sortedEntries_unique (perm.mem_iff.mp oneIn) otherIn (le_antisymm below above)
    · rw [List.pairwise_flatten, List.pairwise_map]
      constructor
      · intro part partIn
        obtain ⟨key, -, rfl⟩ := List.mem_map.mp partIn
        exact (sortedEntries_pairwise signature references).sublist List.filter_sublist
      · refine strict.imp ?_
        intro left right before one oneIn other otherIn
        have oneKey : (one.method, one.key) = left := by simpa using (List.mem_filter.mp oneIn).2
        have otherKey : (other.method, other.key) = right := by
          simpa using (List.mem_filter.mp otherIn).2
        rw [← oneKey, ← otherKey, Prod.Lex.toLex_lt_toLex] at before
        simp only [TextEntry.order, Prod.Lex.toLex_le_toLex]
        exact before.imp_right fun sameMethod => ⟨sameMethod.1, Or.inl sameMethod.2⟩
  · intro empty
    obtain ⟨⟨method, key⟩, listed, none⟩ := List.mem_map.mp empty
    rw [filter_sortedEntries (mem_numberedKeys.mp listed).1] at none
    exact entriesFor_ne_nil listed none
  · intro part partIn
    obtain ⟨key, -, rfl⟩ := List.mem_map.mp partIn
    refine (List.pairwise_of_forall_mem_list ?_).isChain
    intro one oneIn other otherIn
    have oneKey : (one.method, one.key) = key := by simpa using (List.mem_filter.mp oneIn).2
    have otherKey : (other.method, other.key) = key := by simpa using (List.mem_filter.mp otherIn).2
    have same := oneKey.trans otherKey.symm
    simpa [TextEntry.sameKey] using same
  · rw [List.isChain_map]
    refine (distinct.imp_of_mem ?_).isChain
    rintro ⟨leftMethod, leftKey⟩ ⟨rightMethod, rightKey⟩ leftIn rightIn differ
    rw [filter_sortedEntries (mem_numberedKeys.mp leftIn).1,
      filter_sortedEntries (mem_numberedKeys.mp rightIn).1]
    refine ⟨entriesFor_ne_nil leftIn, entriesFor_ne_nil rightIn, ?_⟩
    obtain ⟨lastMethod, lastKey⟩ := columns_of_entry (List.getLast_mem (entriesFor_ne_nil leftIn))
    obtain ⟨headMethod, headKey⟩ := columns_of_entry (List.head_mem (entriesFor_ne_nil rightIn))
    rw [TextEntry.sameKey, lastMethod, lastKey, headMethod, headKey, decide_eq_false_iff_not]
    rintro ⟨rfl, rfl⟩
    exact differ rfl

end

section

def CollisionFree (signature : Id → Digest) (rights : Id → Rights)
    (documents : List (Document Id Key)) : Prop :=
  ∀ one ∈ documents, ∀ other ∈ documents,
    (signature one.documentId = signature other.documentId ↔
      rights one.documentId = rights other.documentId)

variable [DecidableEq Rights] {signature : Id → Digest} {rights : Id → Rights}
  {documents : List (Document Id Key)}

theorem methodOf_normalized {method : Nat} : methodOf method = .normalized ↔ method ≠ 0 := by
  cases method with
  | zero => decide
  | succ method => exact ⟨fun _ => Nat.succ_ne_zero _, fun _ => rfl⟩

theorem clash_iff (collisionFree : CollisionFree signature rights documents) (method : Nat)
    {first : Document Id Key × Nat} {rows : List (Document Id Key × Nat)}
    (inside : ∀ reference ∈ first :: rows, reference.1 ∈ documents) :
    (∃ row ∈ (first :: rows).map (entryOf signature method),
        (entryOf signature method first).method ≠ 0 ∧
          row.signature ≠ (entryOf signature method first).signature) ↔
      methodOf method = .normalized ∧ signatureChanges (((first :: rows).map Prod.fst).map
        fun document => rights document.documentId) = true := by
  have differ : ∀ reference ∈ first :: rows,
      ((entryOf signature method reference).signature ≠ (entryOf signature method first).signature ↔
        rights reference.1.documentId ≠ rights first.1.documentId) := by
    intro reference member
    exact (collisionFree _ (inside reference member) _ (inside first List.mem_cons_self)).not
  rw [signatureChanges_iff, methodOf_normalized, List.map_map]
  constructor
  · rintro ⟨row, rowIn, normalized, other⟩
    obtain ⟨reference, member, rfl⟩ := List.mem_map.mp rowIn
    exact ⟨normalized, _, List.mem_map_of_mem member, _, List.mem_map_of_mem List.mem_cons_self,
      (differ reference member).mp other⟩
  · rintro ⟨normalized, one, oneIn, other, otherIn, apart⟩
    obtain ⟨left, leftIn, rfl⟩ := List.mem_map.mp oneIn
    obtain ⟨right, rightIn, rfl⟩ := List.mem_map.mp otherIn
    by_cases same : rights left.1.documentId = rights first.1.documentId
    · have other : rights right.1.documentId ≠ rights first.1.documentId := fun again =>
        apart (same.trans again.symm)
      exact ⟨_, List.mem_map_of_mem rightIn, normalized, (differ right rightIn).mpr other⟩
    · exact ⟨_, List.mem_map_of_mem leftIn, normalized, (differ left leftIn).mpr same⟩

end

section

variable [LinearOrder Key]

def referencesFor (references : List (Document Id Key)) (method : Nat) (key : Key) :
    List (Document Id Key × Nat) :=
  references.zipIdx.filter fun reference => keyAt method reference.1 = key

theorem referencesFor_documents (references : List (Document Id Key)) (method : Nat) (key : Key) :
    (referencesFor references method key).map Prod.fst =
      mappingGroup references (methodOf method) key := by
  have same : mappingGroup references (methodOf method) key =
      references.filter fun document => keyAt method document = key := by
    simp only [mappingGroup, keyAt_iff]
  rw [same]
  conv_rhs => rw [← List.zipIdx_map_fst 0 references, List.filter_map]
  rfl

def repeatedNumbers (documents : List (Document Id Key)) : List (Nat × Key) :=
  (numberedKeys documents).filter fun key => repeatedKey documents (methodOf key.1, key.2)

theorem textKeys_numbered (documents : List (Document Id Key)) :
    (textKeys documents).filter (repeatedKey documents) =
      (repeatedNumbers documents).map fun key => (methodOf key.1, key.2) := by
  have all : textKeys documents =
      (numberedKeys documents).map fun key => (methodOf key.1, key.2) := by
    simp only [textKeys, textMethods, numberedKeys, List.flatMap_cons, List.flatMap_nil,
      List.append_nil, List.map_append, List.map_map]
    rfl
  rw [all, repeatedNumbers, List.filter_map]
  rfl

variable {signature : Id → Digest} [DecidableEq Digest]

theorem streamedGroup_single {method : Nat} {key : Key}
    (single : ¬ 1 < (mappingGroup references (methodOf method) key).length) :
    streamedGroup (entriesFor signature references method key) = .ok none := by
  rw [← referencesFor_documents, List.length_map] at single
  change streamedGroup ((referencesFor references method key).map (entryOf signature method)) = _
  generalize referencesFor references method key = rows at single
  cases rows with
  | nil => rfl
  | cons first rest =>
    cases rest with
    | nil => rfl
    | cons second rest => simp at single

variable [LinearOrder Id] [DecidableEq Rights] {rights : Id → Rights}
  {documents : List (Document Id Key)}

theorem streamedGroup_eq (distinct : (documents.map (·.documentId)).Nodup)
    (collisionFree : CollisionFree signature rights documents) (method : Nat) (key : Key)
    (wanted : 1 < (mappingGroup documents (methodOf method) key).length) :
    streamedGroup (entriesFor signature (sortedDocuments documents) method key) =
      ((indexPrepared documents).textGroup rights (methodOf method) key).map fun group =>
        some (group, (referencesFor (sortedDocuments documents) method key).map Prod.snd) := by
  have length : (sortedDocuments (mappingGroup documents (methodOf method) key)).length =
      (mappingGroup documents (methodOf method) key).length :=
    (List.perm_insertionSort _ _).length_eq
  have members := referencesFor_documents (sortedDocuments documents) method key
  rw [mappingGroup_sorted distinct] at members
  have inside : ∀ reference ∈ referencesFor (sortedDocuments documents) method key,
      reference.1 ∈ documents := by
    intro reference member
    exact mem_sortedDocuments.mp (List.fst_mem_of_mem_zipIdx (List.mem_of_mem_filter member))
  have sameKey : ∀ reference ∈ referencesFor (sortedDocuments documents) method key,
      keyAt method reference.1 = key :=
    fun reference member => of_decide_eq_true (List.mem_filter.mp member).2
  rw [← length, ← members, List.length_map] at wanted
  rw [Index.textGroup, documents_of_rows, ← members, entriesFor]
  change streamedGroup ((referencesFor (sortedDocuments documents) method key).map
    (entryOf signature method)) = _
  generalize referencesFor (sortedDocuments documents) method key = rows at wanted inside sameKey
  cases rows with
  | nil => simp at wanted
  | cons first rest =>
    cases rest with
    | nil => simp at wanted
    | cons second rest =>
      have clash := clash_iff collisionFree method inside
      have splits : ((first :: second :: rest).map (entryOf signature method)).map
          (·.split) = ((first :: second :: rest).map Prod.fst).map (·.split) := by
        rw [List.map_map, List.map_map]
        rfl
      have identifiers : ((first :: second :: rest).map (entryOf signature method)).map
          (·.documentId) = ((first :: second :: rest).map Prod.fst).map (·.documentId) := by
        rw [List.map_map, List.map_map]
        rfl
      have ordinals : ((first :: second :: rest).map (entryOf signature method)).map
          (·.ordinal) = (first :: second :: rest).map Prod.snd := by
        rw [List.map_map]
        rfl
      have whole : streamedGroup ((first :: second :: rest).map (entryOf signature method)) = (do
          refuseIf (1 < (splitSet (((first :: second :: rest).map
            (entryOf signature method)).map (·.split))).length) .crossSplit
          refuseIf (∃ row ∈ (first :: second :: rest).map (entryOf signature method),
            (entryOf signature method first).method ≠ 0 ∧
              row.signature ≠ (entryOf signature method first).signature) .incompatibleRights
          .ok (some (⟨methodOf method, keyAt method first.1,
            ((first :: second :: rest).map (entryOf signature method)).map (·.documentId),
            splitSet (((first :: second :: rest).map (entryOf signature method)).map (·.split)),
            first.1.documentId⟩,
            ((first :: second :: rest).map (entryOf signature method)).map (·.ordinal)))) := rfl
      rw [whole, splits, identifiers, ordinals, sameKey first List.mem_cons_self]
      simp only [List.map_cons] at clash ⊢
      by_cases crosses : 1 < (splitSet (first.1.split :: second.1.split ::
          (rest.map Prod.fst).map (·.split))).length
      · simp only [refuseIf_raises crosses]
        rfl
      · simp only [refuseIf_bind crosses]
        by_cases clashes : methodOf method = .normalized ∧ signatureChanges
            (rights first.1.documentId :: rights second.1.documentId ::
              (rest.map Prod.fst).map fun document => rights document.documentId) = true
        · simp only [refuseIf_raises (clash.mpr clashes), refuseIf_raises clashes]
          rfl
        · simp only [refuseIf_bind (clash.not.mpr clashes), refuseIf_bind clashes]
          rfl

theorem streamedGroups (distinct : (documents.map (·.documentId)).Nodup)
    (collisionFree : CollisionFree signature rights documents) :
    (((sortedEntries signature (sortedDocuments documents)).splitBy TextEntry.sameKey).mapM
        streamedGroup).map (List.filterMap id) =
      (textGroups rights documents).map fun groups => groups.zip
        ((repeatedNumbers documents).map fun key =>
          (referencesFor (sortedDocuments documents) key.1 key.2).map Prod.snd) := by
  have same : ∀ method, mappingKeys (sortedDocuments documents) method =
      mappingKeys documents method := mappingKeys_congr (List.perm_insertionSort _ _)
  have keys : numberedKeys (sortedDocuments documents) = numberedKeys documents := by
    simp only [numberedKeys, same]
  rw [splitBy_sortedEntries, keys, List.mapM_map, textGroups, textKeys_numbered, List.mapM_map,
    ← mapM_paired]
  refine mapM_filter ?_ ?_
  · rintro ⟨method, key⟩ - wanted
    refine (streamedGroup_eq distinct collisionFree method key
      (by simpa [repeatedKey] using wanted)).trans ?_
    simp only [Function.comp_def]
    cases (indexPrepared documents).textGroup rights (methodOf method) key with
    | error failure => rfl
    | ok group => rfl
  · rintro ⟨method, key⟩ - unwanted
    refine streamedGroup_single ?_
    rw [mappingGroup_sorted distinct, sortedDocuments, (List.perm_insertionSort _ _).length_eq]
    simpa [repeatedKey] using unwanted

end

end SparseLab.Corpus
