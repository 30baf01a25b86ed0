import Mathlib.Algebra.Order.BigOperators.Group.List
import Mathlib.Algebra.Order.Ring.Nat
import SparseLab.Corpus.StoredDuplicates

/-! What the resolution over the disk index decides. -/

namespace SparseLab.Corpus

open Library

theorem two_le_sum {α : Type} {weight : α → Nat} {values : List α} {one other : α}
    (oneIn : one ∈ values) (otherIn : other ∈ values) (differ : one ≠ other)
    (oneCounts : 1 ≤ weight one) (otherCounts : 1 ≤ weight other) :
    2 ≤ (values.map weight).sum := by
  obtain ⟨front, back, rfl⟩ := List.append_of_mem oneIn
  have elsewhere : other ∈ front ++ back := by simpa [differ.symm] using otherIn
  have bound := List.single_le_sum (fun _ _ => Nat.zero_le _) _
    (List.mem_map_of_mem (f := weight) elsewhere)
  simp only [List.map_append, List.map_cons, List.sum_append, List.sum_cons] at bound ⊢
  omega

variable {Id Key : Type} {documents : List (Document Id Key)}

section

theorem rows_documents (documents : List (Document Id Key)) :
    (indexPrepared documents).documents.map (·.document) = documents := by
  simp only [indexPrepared, List.map_map]
  exact List.zipIdx_map_fst 1 documents

theorem rows_numbers (documents : List (Document Id Key)) :
    ((indexPrepared documents).documents.map (·.number)).Nodup := by
  simp only [indexPrepared, List.map_map]
  have numbers : (documents.zipIdx 1).map Prod.snd = List.range' 1 documents.length :=
    List.zipIdx_map_snd 1 documents
  change ((documents.zipIdx 1).map Prod.snd).Nodup
  rw [numbers]
  exact List.nodup_range'

theorem forall₂_rows {β : Type} {related : Document Id Key → β → Prop} {values : List β}
    (each : List.Forall₂ (fun row => related row.document) (indexPrepared documents).documents
      values) : List.Forall₂ related documents values := by
  have mapped := List.forall₂_map_left_iff.mpr each
  rwa [rows_documents] at mapped

theorem row_of_document {document : Document Id Key} (member : document ∈ documents) :
    ∃ row ∈ (indexPrepared documents).documents, row.document = document := by
  rw [← rows_documents documents] at member
  exact List.mem_map.mp member

theorem row_document_mem {row : Row Id Key} (member : row ∈ (indexPrepared documents).documents) :
    row.document ∈ documents := by
  have mapped : row.document ∈ (indexPrepared documents).documents.map (·.document) :=
    List.mem_map_of_mem member
  rwa [rows_documents] at mapped

theorem row_of_number {one other : Row Id Key} (oneIn : one ∈ (indexPrepared documents).documents)
    (otherIn : other ∈ (indexPrepared documents).documents) (same : one.number = other.number) :
    one = other :=
  List.inj_on_of_nodup_map (rows_numbers documents) oneIn otherIn same

theorem row_of_id (distinct : (documents.map (·.documentId)).Nodup) {one other : Row Id Key}
    (oneIn : one ∈ (indexPrepared documents).documents)
    (otherIn : other ∈ (indexPrepared documents).documents)
    (same : one.document = other.document) : one = other := by
  have apart : ((indexPrepared documents).documents.map (·.document)).Nodup := by
    rw [rows_documents]
    exact List.Nodup.of_map _ distinct
  exact List.inj_on_of_nodup_map apart oneIn otherIn same

theorem find_number {row : Row Id Key} (member : row ∈ (indexPrepared documents).documents) :
    (indexPrepared documents).documents.find? (·.number = row.number) = some row := by
  cases found : (indexPrepared documents).documents.find? (·.number = row.number) with
  | none =>
    have absent := List.find?_eq_none.mp found row member
    simp at absent
  | some other =>
    have same := List.find?_some found
    rw [decide_eq_true_eq] at same
    rw [row_of_number (List.mem_of_find?_eq_some found) member same]

theorem mem_origins {entry : Origin Key} :
    entry ∈ (indexPrepared documents).origins ↔
      ∃ row ∈ (indexPrepared documents).documents,
        entry.documentNumber = row.number ∧ entry.origin ∈ row.document.keys entry.method := by
  change entry ∈ (indexPrepared documents).documents.flatMap _ ↔ _
  simp only [List.mem_flatMap, List.mem_map]
  constructor
  · rintro ⟨row, rowIn, method, -, key, keyIn, rfl⟩
    exact ⟨row, rowIn, rfl, keyIn⟩
  · rintro ⟨row, rowIn, number, keyIn⟩
    exact ⟨row, rowIn, entry.method, mem_methods _, entry.origin, keyIn, by rw [← number]⟩

end

section

theorem origins_of_method (method : Method) :
    (((indexPrepared documents).origins.filter (·.method = method)).map (·.origin)) =
      (indexPrepared documents).documents.flatMap fun row => row.document.keys method := by
  change (List.filter _ (List.flatMap _ (indexPrepared documents).documents)).map _ = _
  rw [List.filter_flatMap, List.map_flatMap]
  refine List.flatMap_congr ?_
  intro row _
  cases method <;> simp [methods, List.filter_append, List.filter_map, Function.comp_def]

variable [LinearOrder Key]

theorem mem_repeatedKeys {method : Method} {key : Key} {one other : Row Id Key}
    (oneIn : one ∈ (indexPrepared documents).documents)
    (otherIn : other ∈ (indexPrepared documents).documents) (differ : one ≠ other)
    (oneKey : key ∈ one.document.keys method) (otherKey : key ∈ other.document.keys method) :
    key ∈ (indexPrepared documents).repeatedKeys method := by
  have several : 2 ≤ (((indexPrepared documents).documents.flatMap
      fun row => row.document.keys method).count key) := by
    rw [List.count_flatMap]
    exact two_le_sum oneIn otherIn differ (List.count_pos_iff.mpr oneKey)
      (List.count_pos_iff.mpr otherKey)
  rw [Index.repeatedKeys, (List.perm_insertionSort _ _).mem_iff, List.mem_filter, List.mem_dedup,
    origins_of_method, decide_eq_true_eq]
  exact ⟨List.mem_flatMap.mpr ⟨one, oneIn, oneKey⟩, several⟩

theorem key_of_repeated {method : Method} {key : Key}
    (repeated : key ∈ (indexPrepared documents).repeatedKeys method) :
    ∃ row ∈ (indexPrepared documents).documents, key ∈ row.document.keys method := by
  rw [Index.repeatedKeys, (List.perm_insertionSort _ _).mem_iff, List.mem_filter, List.mem_dedup,
    origins_of_method] at repeated
  exact List.mem_flatMap.mp repeated.1

variable [LinearOrder Id]

theorem mem_rowsOf {method : Method} {key : Key} {row : Row Id Key} :
    row ∈ (indexPrepared documents).rowsOf method key ↔
      row ∈ (indexPrepared documents).documents ∧ key ∈ row.document.keys method := by
  rw [Index.rowsOf, (List.perm_insertionSort _ _).mem_iff, List.mem_filterMap]
  simp only [List.mem_filter, decide_eq_true_eq, mem_origins]
  constructor
  · rintro ⟨entry, ⟨⟨other, otherIn, number, keyIn⟩, rfl, rfl⟩, found⟩
    rw [number, find_number otherIn] at found
    cases found
    exact ⟨otherIn, keyIn⟩
  · rintro ⟨rowIn, keyIn⟩
    exact ⟨⟨method, key, row.number⟩, ⟨⟨row, rowIn, rfl, keyIn⟩, rfl, rfl⟩, find_number rowIn⟩

end

section

theorem connected_rows (distinct : (documents.map (·.documentId)).Nodup) {one other : Row Id Key}
    (oneIn : one ∈ (indexPrepared documents).documents)
    (otherIn : other ∈ (indexPrepared documents).documents) :
    Connected documents one.document other.document ↔
      Relation.EqvGen (fun one other => one ∈ (indexPrepared documents).documents ∧
        other ∈ (indexPrepared documents).documents ∧ Shares one.document other.document)
        one other := by
  have injective : ∀ left ∈ (indexPrepared documents).documents,
      ∀ right ∈ (indexPrepared documents).documents, left.document = right.document → left = right :=
    fun left leftIn right rightIn => row_of_id distinct leftIn rightIn
  refine eqvGen_named injective ?_ ?_ oneIn otherIn
  · rintro left right ⟨leftIn, rightIn, shares⟩
    obtain ⟨first, firstIn, rfl⟩ := row_of_document leftIn
    obtain ⟨second, secondIn, rfl⟩ := row_of_document rightIn
    exact ⟨first, firstIn, second, secondIn, rfl, rfl, shares⟩
  · intro first firstIn second secondIn shares
    exact Or.inr ⟨row_document_mem firstIn, row_document_mem secondIn, shares⟩

variable [LinearOrder Key]

def indexKeys (documents : List (Document Id Key)) : List (Method × Key) :=
  methods.flatMap fun method =>
    ((indexPrepared documents).repeatedKeys method).map fun key => (method, key)

theorem mem_indexKeys {method : Method} {key : Key} :
    (method, key) ∈ indexKeys documents ↔
      key ∈ (indexPrepared documents).repeatedKeys method := by
  simp only [indexKeys, List.mem_flatMap, List.mem_map, Prod.mk.injEq]
  constructor
  · rintro ⟨_, -, _, present, rfl, rfl⟩
    exact present
  · intro present
    exact ⟨method, mem_methods method, key, present, rfl, rfl⟩

variable [LinearOrder Id]

theorem group_ok {method : Method} {key : Key} {result : DuplicateGroup Id Key × List Nat}
    (grouped : (indexPrepared documents).group method key = .ok result) :
    result.2 = ((indexPrepared documents).rowsOf method key).map (·.number) := by
  unfold Index.group at grouped
  simp only [refuseIf_bind_eq_ok] at grouped
  obtain ⟨-, grouped⟩ := grouped
  split at grouped
  next winner chosen => rw [← Except.ok.inj grouped]
  next => cases grouped

theorem group_apart {method : Method} {key : Key}
    (present : (indexPrepared documents).rowsOf method key ≠ [])
    (apart : ¬ (hasSplit .validation (((indexPrepared documents).rowsOf method key).map
        (·.document)) = true ∧
      hasSplit .test (((indexPrepared documents).rowsOf method key).map (·.document)) = true)) :
    ∃ result, (indexPrepared documents).group method key = .ok result := by
  unfold Index.group
  simp only [refuseIf_bind (heldout_length.not.mpr apart)]
  have nonempty : ((indexPrepared documents).rowsOf method key).map (·.document) ≠ [] := by
    rwa [Ne, List.map_eq_nil_iff]
  obtain ⟨winner, chosen⟩ := selected_isSome nonempty
  rw [chosen]
  exact ⟨_, rfl⟩

def indexGroup (documents : List (Document Id Key)) (entry : Method × Key) :
    Except DuplicateFailure (DuplicateGroup Id Key × List Nat) :=
  (indexPrepared documents).group entry.1 entry.2

theorem rowRoot_eq_iff (distinct : (documents.map (·.documentId)).Nodup)
    {groups : List (DuplicateGroup Id Key × List Nat)}
    (grouped : (indexKeys documents).mapM (indexGroup documents) = .ok groups)
    {one other : Row Id Key} (oneIn : one ∈ (indexPrepared documents).documents)
    (otherIn : other ∈ (indexPrepared documents).documents) :
    rootAfter (groups.map Prod.snd) one.number = rootAfter (groups.map Prod.snd) other.number ↔
      Connected documents one.document other.document := by
  rw [rootAfter_eq_iff, connected_rows distinct oneIn otherIn]
  have injective : ∀ left ∈ (indexPrepared documents).documents,
      ∀ right ∈ (indexPrepared documents).documents, left.number = right.number → left = right :=
    fun left leftIn right rightIn => row_of_number leftIn rightIn
  refine eqvGen_named injective ?_ ?_ oneIn otherIn
  · rintro left right ⟨numbers, numbersIn, leftIn, rightIn⟩
    obtain ⟨result, resultIn, rfl⟩ := List.mem_map.mp numbersIn
    obtain ⟨⟨method, key⟩, -, made⟩ := (mem_mapM grouped).mp resultIn
    rw [group_ok made, List.mem_map] at leftIn rightIn
    obtain ⟨first, firstIn, rfl⟩ := leftIn
    obtain ⟨second, secondIn, rfl⟩ := rightIn
    rw [mem_rowsOf] at firstIn secondIn
    exact ⟨first, firstIn.1, second, secondIn.1, rfl, rfl, method, key, firstIn.2, secondIn.2⟩
  · rintro first firstIn second secondIn ⟨method, key, firstKey, secondKey⟩
    by_cases same : first = second
    · exact Or.inl same
    · right
      have listed := mem_indexKeys.mpr (mem_repeatedKeys firstIn secondIn same firstKey secondKey)
      obtain ⟨result, made⟩ := mapM_exists.mp ⟨groups, grouped⟩ _ listed
      have resultIn := (mem_mapM grouped).mpr ⟨_, listed, made⟩
      refine ⟨result.2, List.mem_map_of_mem resultIn, ?_⟩
      rw [group_ok made]
      exact ⟨List.mem_map_of_mem (mem_rowsOf.mpr ⟨firstIn, firstKey⟩),
        List.mem_map_of_mem (mem_rowsOf.mpr ⟨secondIn, secondKey⟩)⟩

end

section

variable {members : List (Document Id Key)}

theorem cleaningMask_three : cleaningMask members = 3 ↔
    ¬ ∀ one ∈ members, ∀ other ∈ members, one.metadataOnly = other.metadataOnly := by
  rw [cleaningMask_eq, maskOf_three, List.any_eq_true, List.any_eq_true]
  constructor
  · rintro ⟨⟨one, oneIn, ordinary⟩, other, otherIn, excluded⟩ same
    rw [same one oneIn other otherIn, excluded] at ordinary
    cases ordinary
  · intro mixed
    by_contra never
    refine mixed ?_
    intro one oneIn other otherIn
    cases oneDecision : one.metadataOnly <;> cases otherDecision : other.metadataOnly
    · rfl
    · exact absurd ⟨⟨one, oneIn, by rw [oneDecision]; rfl⟩, other, otherIn, otherDecision⟩ never
    · exact absurd ⟨⟨other, otherIn, by rw [otherDecision]; rfl⟩, one, oneIn, oneDecision⟩ never
    · rfl

theorem preferredSplit_eq
    (apart : ¬ (hasSplit .validation members = true ∧ hasSplit .test members = true)) :
    preferredSplit (heldoutMask members) = (heldout members).head? := by
  rw [heldoutMask_eq, heldout_head apart]
  cases validation : hasSplit .validation members <;> cases test : hasSplit .test members
  · rfl
  · rfl
  · rfl
  · exact absurd ⟨validation, test⟩ apart

theorem masks_resolvable {members : List (Document Id Key)} :
    heldoutMask members ≠ 3 ∧ cleaningMask members ≠ 3 ↔ Resolvable members := by
  rw [Ne, Ne, heldoutMask_eq, maskOf_three, cleaningMask_three, not_not]
  exact Iff.rfl

end

section

variable [LinearOrder Id] [LinearOrder Key]

def rowComponent (documents : List (Document Id Key)) (root : Nat → Nat) (row : Row Id Key) :
    List (Document Id Key) :=
  ((indexPrepared documents).documents.filter fun other => root other.number = root row.number).map
    (·.document)

theorem mem_rowComponent (distinct : (documents.map (·.documentId)).Nodup)
    {groups : List (DuplicateGroup Id Key × List Nat)}
    (grouped : (indexKeys documents).mapM (indexGroup documents) = .ok groups)
    {row : Row Id Key} (member : row ∈ (indexPrepared documents).documents)
    (other : Document Id Key) :
    other ∈ rowComponent documents (rootAfter (groups.map Prod.snd)) row ↔
      other ∈ documents ∧ Connected documents row.document other := by
  simp only [rowComponent, List.mem_map, List.mem_filter, decide_eq_true_eq]
  constructor
  · rintro ⟨found, ⟨foundIn, same⟩, rfl⟩
    exact ⟨row_document_mem foundIn,
      (rowRoot_eq_iff distinct grouped member foundIn).mp same.symm⟩
  · rintro ⟨otherIn, connected⟩
    obtain ⟨found, foundIn, rfl⟩ := row_of_document otherIn
    exact ⟨found, ⟨foundIn,
      ((rowRoot_eq_iff distinct grouped member foundIn).mpr connected).symm⟩, rfl⟩

theorem deduplicate_ok (distinct : (documents.map (·.documentId)).Nodup)
    {resolution : Resolution Id Key}
    (resolved : deduplicate (indexPrepared documents) = .ok resolution) :
    Isolated documents ∧ List.Forall₂ (Decided documents) documents resolution.verdicts := by
  obtain ⟨groups, grouped, resolved⟩ := bind_eq_ok resolved
  simp only [refuseIf_bind_eq_ok, not_exists, not_and] at resolved
  obtain ⟨heldoutApart, cleaningSame, resolved⟩ := resolved
  have component := fun {row} (member : row ∈ (indexPrepared documents).documents) =>
    mem_rowComponent distinct grouped member
  have sound : ∀ row ∈ (indexPrepared documents).documents,
      Resolvable (rowComponent documents (rootAfter (groups.map Prod.snd)) row) := by
    intro row member
    exact masks_resolvable.mp ⟨heldoutApart row member, cleaningSame row member⟩
  cases resolved
  constructor
  · refine isolated_of_components ?_
    intro document member
    obtain ⟨row, rowIn, rfl⟩ := row_of_document member
    exact ⟨_, sound row rowIn, component rowIn⟩
  · refine forall₂_rows (forall₂_filterMap ?_)
    intro row member
    have present : row.document ∈ rowComponent documents (rootAfter (groups.map Prod.snd)) row :=
      (component member _).mpr ⟨row_document_mem member, Relation.EqvGen.refl _⟩
    obtain ⟨winner, best⟩ := selected_isSome (List.ne_nil_of_mem present)
    have inside := selected_best (sound row member).1 best
    refine ⟨verdictOf row.document winner, ?_, winner, wins_of_best (component member) inside, rfl⟩
    rw [selected, ← preferredSplit_eq (sound row member).1] at best
    exact congrArg (Option.map (verdictOf row.document)) best

theorem deduplicate_isolated (distinct : (documents.map (·.documentId)).Nodup)
    (isolated : Isolated documents) :
    ∃ resolution, deduplicate (indexPrepared documents) = .ok resolution := by
  have groups : ∃ groups, (indexKeys documents).mapM (indexGroup documents) = .ok groups := by
    rw [mapM_exists]
    rintro ⟨method, key⟩ listed
    obtain ⟨row, rowIn, keyIn⟩ := key_of_repeated (mem_indexKeys.mp listed)
    refine group_apart (List.ne_nil_of_mem (mem_rowsOf.mpr ⟨rowIn, keyIn⟩))
      (isolated.resolvable ?_).1
    intro one oneIn other otherIn
    obtain ⟨first, firstIn, rfl⟩ := List.mem_map.mp oneIn
    obtain ⟨second, secondIn, rfl⟩ := List.mem_map.mp otherIn
    rw [mem_rowsOf] at firstIn secondIn
    exact ⟨row_document_mem firstIn.1, row_document_mem secondIn.1,
      connected_of_key (row_document_mem firstIn.1) (row_document_mem secondIn.1) firstIn.2
        secondIn.2⟩
  obtain ⟨groups, grouped⟩ := groups
  have sound : ∀ row ∈ (indexPrepared documents).documents,
      heldoutMask (rowComponent documents (rootAfter (groups.map Prod.snd)) row) ≠ 3 ∧
        cleaningMask (rowComponent documents (rootAfter (groups.map Prod.snd)) row) ≠ 3 := by
    intro row member
    rw [masks_resolvable]
    refine isolated.resolvable ?_
    intro one oneIn other otherIn
    obtain ⟨oneHere, oneWay⟩ := (mem_rowComponent distinct grouped member one).mp oneIn
    obtain ⟨otherHere, otherWay⟩ := (mem_rowComponent distinct grouped member other).mp otherIn
    exact ⟨oneHere, otherHere, Relation.EqvGen.trans _ _ _ (Relation.EqvGen.symm _ _ oneWay) otherWay⟩
  refine ⟨_, (ok_bind grouped).trans ((refuseIf_bind ?_).trans (refuseIf_bind ?_))⟩
  · rintro ⟨row, member, mixed⟩
    exact (sound row member).1 mixed
  · rintro ⟨row, member, mixed⟩
    exact (sound row member).2 mixed

end

end SparseLab.Corpus
