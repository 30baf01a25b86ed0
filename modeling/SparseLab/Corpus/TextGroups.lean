import SparseLab.Corpus.DuplicateResolution
import SparseLab.Corpus.TextDuplicates

/-! The three resolutions of release schema 2 write the same groups. -/

namespace SparseLab.Corpus

open Library

theorem mapM_filter {ε α γ : Type} {attempt : γ → Except ε (Option α)} {direct : γ → Except ε α}
    {wanted : γ → Bool} {values : List γ}
    (present : ∀ value ∈ values, wanted value = true → attempt value = (direct value).map some)
    (absent : ∀ value ∈ values, wanted value = false → attempt value = .ok none) :
    (values.mapM attempt).map (List.filterMap id) = (values.filter wanted).mapM direct := by
  induction values with
  | nil => rfl
  | cons value values ih =>
    have rest := ih (fun later member => present later (List.mem_cons_of_mem _ member))
      fun later member => absent later (List.mem_cons_of_mem _ member)
    rw [List.mapM_cons]
    cases wantedHere : wanted value with
    | false =>
      rw [List.filter_cons_of_neg (by rw [wantedHere]; decide), ← rest,
        absent value List.mem_cons_self wantedHere]
      cases values.mapM attempt with
      | error failure => rfl
      | ok results => rfl
    | true =>
      rw [List.filter_cons_of_pos wantedHere, List.mapM_cons, ← rest,
        present value List.mem_cons_self wantedHere]
      cases direct value with
      | error failure => rfl
      | ok result =>
        cases values.mapM attempt with
        | error failure => rfl
        | ok results => rfl

variable {Id Key Rights Digest : Type} {documents : List (Document Id Key)}

section

theorem mem_splitSet {splits : List Split} {split : Split} :
    split ∈ splitSet splits ↔ split ∈ splits := by
  have listed : split ∈ [Split.test, .train, .validation] := by
    cases split <;> decide
  simp only [splitSet, List.mem_filter, List.contains_eq_mem, decide_eq_true_eq, listed, true_and]

theorem splitSet_length {splits : List Split} :
    1 < (splitSet splits).length ↔ ∃ one ∈ splits, ∃ other ∈ splits, one ≠ other := by
  have distinct : (splitSet splits).Nodup := List.Nodup.filter _ (by decide)
  rw [← distinct.dedup, one_lt_dedup]
  simp only [mem_splitSet]

theorem signatureChanges_iff [DecidableEq Rights] {signatures : List Rights} :
    signatureChanges signatures = true ↔
      ∃ one ∈ signatures, ∃ other ∈ signatures, one ≠ other := by
  induction signatures with
  | nil => simp [signatureChanges]
  | cons one signatures ih =>
    cases signatures with
    | nil => simp [signatureChanges]
    | cons other rest =>
      rw [signatureChanges, Bool.or_eq_true, ih, decide_eq_true_eq]
      constructor
      · rintro (differ | ⟨left, leftIn, right, rightIn, differ⟩)
        · exact ⟨one, List.mem_cons_self, other, by simp, differ⟩
        · exact ⟨left, List.mem_cons_of_mem _ leftIn, right, List.mem_cons_of_mem _ rightIn,
            differ⟩
      · rintro ⟨left, leftIn, right, rightIn, differ⟩
        by_cases same : one = other
        · subst same
          exact Or.inr ⟨left, by simpa using leftIn, right, by simpa using rightIn, differ⟩
        · exact Or.inl same

end

section

variable [LinearOrder Key]

theorem count_keys (documents : List (Document Id Key)) (method : Method) (key : Key) :
    (documents.flatMap fun document => document.keys method).count key =
      (mappingGroup documents method key).length := by
  induction documents with
  | nil => rfl
  | cons document documents ih =>
    rw [List.flatMap_cons, List.count_append, ih, mappingGroup, mappingGroup, List.filter_cons]
    by_cases present : key ∈ document.keys method
    · rw [List.count_eq_one_of_mem (keys_nodup _ _) present, if_pos (by simpa using present),
        List.length_cons, Nat.add_comm]
    · rw [List.count_eq_zero.mpr present, if_neg (by simpa using present), Nat.zero_add]

theorem repeatedKeys_eq (documents : List (Document Id Key)) (method : Method) :
    (indexPrepared documents).repeatedKeys method = (mappingKeys documents method).filter
      fun key => 1 < (mappingGroup documents method key).length := by
  simp only [Index.repeatedKeys, mappingKeys, origins_of_method, keys_of_rows, count_keys]
  refine List.Perm.eq_of_pairwise (fun _ _ _ _ => le_antisymm) (List.pairwise_insertionSort _ _)
    ((List.pairwise_insertionSort _ _).sublist List.filter_sublist) ?_
  exact (List.perm_insertionSort _ _).trans ((List.perm_insertionSort _ _).symm.filter _)

theorem mappingKeys_congr {others : List (Document Id Key)} (reordered : others.Perm documents)
    (method : Method) : mappingKeys others method = mappingKeys documents method := by
  refine List.Perm.eq_of_pairwise (fun _ _ _ _ => le_antisymm) (List.pairwise_insertionSort _ _)
    (List.pairwise_insertionSort _ _) ?_
  exact ((List.perm_insertionSort _ _).trans (reordered.flatMap_right _).dedup).trans
    (List.perm_insertionSort _ _).symm

variable [LinearOrder Id]

theorem mappingGroup_sorted (distinct : (documents.map (·.documentId)).Nodup) (method : Method)
    (key : Key) : mappingGroup (sortedDocuments documents) method key =
      sortedDocuments (mappingGroup documents method key) := by
  have apart : ((mappingGroup documents method key).map (·.documentId)).Nodup :=
    (List.filter_sublist.map _).nodup distinct
  refine eq_of_sorted (sortedDocuments_distinct apart) (sorted_by_id _)
    ((sorted_by_id _).sublist List.filter_sublist) ?_
  exact ((List.perm_insertionSort _ _).filter _).trans (List.perm_insertionSort _ _).symm

end

section

variable [LinearOrder Key]

def textKeys (documents : List (Document Id Key)) : List (Method × Key) :=
  textMethods.flatMap fun method => (mappingKeys documents method).map fun key => (method, key)

def repeatedKey (documents : List (Document Id Key)) (entry : Method × Key) : Bool :=
  1 < (mappingGroup documents entry.1 entry.2).length

theorem textKeys_repeated (documents : List (Document Id Key)) :
    (textMethods.flatMap fun method => ((indexPrepared documents).repeatedKeys method).map
      fun key => (method, key)) = (textKeys documents).filter (repeatedKey documents) := by
  simp only [repeatedKeys_eq, textKeys, textMethods, List.flatMap_cons, List.flatMap_nil,
    List.append_nil, List.filter_append, List.filter_map]
  rfl

variable [DecidableEq Rights] {rights : Id → Rights}

theorem storedTextGroup_single {method : Method} {key : Key}
    (single : ¬ 1 < (mappingGroup documents method key).length) :
    storedTextGroup rights documents method key = .ok none := by
  rw [storedTextGroup]
  generalize mappingGroup documents method key = members at single
  cases members with
  | nil => rfl
  | cons first rest =>
    cases rest with
    | nil => rfl
    | cons second rest => simp at single

variable [LinearOrder Id]

theorem textGroup_stored (distinct : (documents.map (·.documentId)).Nodup) {method : Method}
    {key : Key} (wanted : 1 < (mappingGroup documents method key).length) :
    storedTextGroup rights (sortedDocuments documents) method key =
      ((indexPrepared documents).textGroup rights method key).map some := by
  have length : (sortedDocuments (mappingGroup documents method key)).length =
      (mappingGroup documents method key).length := (List.perm_insertionSort _ _).length_eq
  rw [← length] at wanted
  rw [storedTextGroup, Index.textGroup, mappingGroup_sorted distinct, documents_of_rows]
  generalize sortedDocuments (mappingGroup documents method key) = members at wanted
  cases members with
  | nil => simp at wanted
  | cons first rest =>
    cases rest with
    | nil => simp at wanted
    | cons second rest =>
      simp only
      have clash : (method = .normalized ∧ 1 < ((first :: second :: rest).map fun document =>
          rights document.documentId).dedup.length) ↔
          (method = .normalized ∧ signatureChanges ((first :: second :: rest).map
            fun document => rights document.documentId) = true) := by
        rw [one_lt_dedup, signatureChanges_iff]
      by_cases crosses : 1 < (splitSet ((first :: second :: rest).map (·.split))).length
      · simp only [refuseIf_raises crosses]
        rfl
      · simp only [refuseIf_bind crosses]
        by_cases clashes : method = .normalized ∧ signatureChanges
            ((first :: second :: rest).map fun document => rights document.documentId) = true
        · simp only [refuseIf_raises (clash.mpr clashes), refuseIf_raises clashes]
          rfl
        · simp only [refuseIf_bind (clash.not.mpr clashes), refuseIf_bind clashes]
          rfl

def textGroups (rights : Id → Rights) (documents : List (Document Id Key)) :
    Except TextFailure (List (DuplicateGroup Id Key)) :=
  ((textKeys documents).filter (repeatedKey documents)).mapM fun entry =>
    (indexPrepared documents).textGroup rights entry.1 entry.2

theorem storedTextGroups (distinct : (documents.map (·.documentId)).Nodup) :
    ((textKeys (sortedDocuments documents)).mapM fun entry =>
        storedTextGroup rights (sortedDocuments documents) entry.1 entry.2).map
      (List.filterMap id) = textGroups rights documents := by
  have keys : ∀ method, mappingKeys (sortedDocuments documents) method =
      mappingKeys documents method := mappingKeys_congr (List.perm_insertionSort _ _)
  have same : textKeys (sortedDocuments documents) = textKeys documents := by
    simp only [textKeys, keys]
  rw [same]
  refine mapM_filter ?_ ?_
  · rintro ⟨method, key⟩ - wanted
    exact textGroup_stored distinct (by simpa [repeatedKey] using wanted)
  · rintro ⟨method, key⟩ - unwanted
    refine storedTextGroup_single ?_
    rw [mappingGroup_sorted distinct, sortedDocuments, (List.perm_insertionSort _ _).length_eq]
    simpa [repeatedKey] using unwanted

end

end SparseLab.Corpus
