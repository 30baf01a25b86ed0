import SparseLab.Corpus.DuplicateComponents

/-! What the in-memory resolution decides. -/

namespace SparseLab.Corpus

open Library

universe u v

theorem forall₂_filterMap {α : Type u} {β : Type v} {related : α → β → Prop} {image : α → Option β}
    {values : List α} (each : ∀ value ∈ values, ∃ found, image value = some found ∧
      related value found) : List.Forall₂ related values (values.filterMap image) := by
  induction values with
  | nil => exact List.Forall₂.nil
  | cons value values ih =>
    obtain ⟨found, same, holds⟩ := each value List.mem_cons_self
    rw [List.filterMap_cons_some same]
    exact List.Forall₂.cons holds (ih fun later member => each later (List.mem_cons_of_mem _ member))

theorem mem_mapM {ε α : Type} {γ : Type} {attempt : γ → Except ε α} {values : List γ}
    {results : List α} (returned : values.mapM attempt = .ok results) {result : α} :
    result ∈ results ↔ ∃ value ∈ values, attempt value = .ok result := by
  rw [mapM_eq_ok] at returned
  induction returned with
  | nil => simp
  | cons first _ ih =>
    rw [List.mem_cons, ih, List.exists_mem_cons_iff, first, Except.ok.injEq]
    exact or_congr_left eq_comm

theorem ok_bind {ε α β : Type} {attempt : Except ε α} {value : α} {continuation : α → Except ε β}
    (returned : attempt = .ok value) : (attempt >>= continuation) = continuation value := by
  rw [returned]
  rfl

theorem mapM_exists {ε α : Type} {γ : Type} {attempt : γ → Except ε α} {values : List γ} :
    (∃ results, values.mapM attempt = .ok results) ↔
      ∀ value ∈ values, ∃ result, attempt value = .ok result := by
  induction values with
  | nil => exact ⟨fun _ => List.forall_mem_nil _, fun _ => ⟨[], rfl⟩⟩
  | cons value values ih =>
    rw [List.forall_mem_cons, ← ih]
    constructor
    · rintro ⟨results, returned⟩
      rw [mapM_eq_ok, List.forall₂_cons_left_iff] at returned
      obtain ⟨result, rest, first, later, rfl⟩ := returned
      exact ⟨⟨result, first⟩, rest, mapM_eq_ok.mpr later⟩
    · rintro ⟨⟨result, first⟩, rest, later⟩
      exact ⟨result :: rest, mapM_eq_ok.mpr (List.Forall₂.cons first (mapM_eq_ok.mp later))⟩

theorem eq_of_short {α : Type} {values : List α} (short : values.length < 2) {one other : α}
    (oneIn : one ∈ values) (otherIn : other ∈ values) : one = other := by
  cases values with
  | nil => cases oneIn
  | cons first rest =>
    cases rest with
    | nil => rw [List.mem_singleton.mp oneIn, List.mem_singleton.mp otherIn]
    | cons second rest =>
      simp only [List.length_cons] at short
      omega

variable {Id Key : Type}

section

variable {documents : List (Document Id Key)} {method : Method} {key : Key}

theorem sortedSplits_length (none_heldout : (heldout documents).length = 0) :
    (sortedSplits documents).length ≤ 1 := by
  have empty := List.eq_nil_of_length_eq_zero none_heldout
  have absent : ∀ split, split ≠ .train → (documents.map (·.split)).contains split = false := by
    intro split other
    rw [List.contains_eq_mem, decide_eq_false_iff_not, List.mem_map]
    rintro ⟨document, member, same⟩
    have held : split ∈ heldout documents :=
      mem_heldout.mpr ⟨other, hasSplit_iff.mpr ⟨document, member, same⟩⟩
    rw [empty] at held
    exact absurd held List.not_mem_nil
  unfold sortedSplits
  rw [List.filter_cons_of_neg (by rw [absent _ (by decide)]; decide), List.filter_cons]
  split
  · rw [List.filter_cons_of_neg (by rw [absent _ (by decide)]; decide)]
    exact Nat.le_refl 1
  · rw [List.filter_cons_of_neg (by rw [absent _ (by decide)]; decide)]
    exact Nat.zero_le 1

section

variable [LinearOrder Id]

theorem mem_sortedDocuments {document : Document Id Key} :
    document ∈ sortedDocuments documents ↔ document ∈ documents :=
  (List.perm_insertionSort _ documents).mem_iff

theorem sortedDocuments_distinct (distinct : (documents.map (·.documentId)).Nodup) :
    ((sortedDocuments documents).map (·.documentId)).Nodup :=
  ((List.perm_insertionSort _ documents).map _).nodup_iff.mpr distinct

end

variable [LinearOrder Key]

theorem mem_mappingKeys :
    key ∈ mappingKeys documents method ↔ ∃ document ∈ documents, key ∈ document.keys method := by
  rw [mappingKeys, (List.perm_insertionSort _ _).mem_iff, List.mem_dedup, List.mem_flatMap]

theorem mem_mappingGroup {document : Document Id Key} :
    document ∈ mappingGroup documents method key ↔
      document ∈ documents ∧ key ∈ document.keys method := by
  simp [mappingGroup]

variable [LinearOrder Id]

theorem storedGroup_ok {found : Option (DuplicateGroup Id Key)}
    (grouped : storedGroup documents method key = .ok found) :
    ((mappingGroup documents method key).length < 2 ∧ found = none) ∨
      ∃ group, found = some group ∧
        group.origins = (mappingGroup documents method key).map (·.documentId) := by
  unfold storedGroup at grouped
  by_cases short : (mappingGroup documents method key).length < 2
  · simp only [short, if_true] at grouped
    exact Or.inl ⟨short, (Except.ok.inj grouped).symm⟩
  · simp only [short, if_false] at grouped
    split at grouped
    next winner chosen =>
      rw [refuseIf_bind_eq_ok] at grouped
      exact Or.inr ⟨_, (Except.ok.inj grouped.2).symm, rfl⟩
    next => cases grouped

theorem storedGroup_apart (apart : ¬ (hasSplit .validation (mappingGroup documents method key) = true ∧
      hasSplit .test (mappingGroup documents method key) = true)) :
    ∃ found, storedGroup documents method key = .ok found := by
  unfold storedGroup
  by_cases short : (mappingGroup documents method key).length < 2
  · simp only [short, if_true]
    exact ⟨none, rfl⟩
  · simp only [short, if_false]
    have nonempty : mappingGroup documents method key ≠ [] := by
      intro empty
      simp [empty] at short
    obtain ⟨winner, chosen⟩ := selected_isSome nonempty
    have bound := heldout_length.not.mpr apart
    have passes : ¬ (1 < (sortedSplits (mappingGroup documents method key)).length ∧
        (heldout (mappingGroup documents method key)).length ≠ 1) := by
      rintro ⟨several, other⟩
      have none_heldout : (heldout (mappingGroup documents method key)).length = 0 := by omega
      have few := sortedSplits_length none_heldout
      omega
    rw [chosen]
    exact ⟨_, refuseIf_bind passes⟩

end

section

variable [LinearOrder Id]

theorem assign_apply (representative : Id → Id) (ids : List Id) (winner identifier : Id) :
    assign representative ids winner identifier =
      if identifier ∈ ids then winner else representative identifier := by
  unfold assign
  induction ids generalizing representative with
  | nil => simp
  | cons first ids ih =>
    rw [List.foldl_cons, ih]
    by_cases later : identifier ∈ ids
    · simp [later]
    · by_cases same : identifier = first
      · subst same
        simp [later]
      · simp [later, same]

theorem chosen_eq {representative : Id → Id} {identifier winner : Id}
    (leads : representative identifier = winner) (stays : representative winner = winner)
    (more : Nat) : chosen representative (more + 2) identifier = winner := by
  rw [chosen]
  by_cases here : representative identifier = identifier
  · rw [if_pos here, ← here, leads]
  · rw [if_neg here, leads, chosen, if_pos stays]

end

section

theorem cleaning_length (members : List (Document Id Key)) :
    1 < (members.map (·.metadataOnly)).dedup.length ↔
      ¬ ∀ one ∈ members, ∀ other ∈ members, one.metadataOnly = other.metadataOnly := by
  rw [one_lt_dedup]
  simp only [List.mem_map, exists_exists_and_eq_and, ne_eq, not_forall, exists_prop]

variable [LinearOrder Id] {documents : List (Document Id Key)} {root : Id → Id}

def membersOf (documents : List (Document Id Key)) (root : Id → Id) (top : Id) :
    List (Document Id Key) :=
  documents.filter fun document => root document.documentId = top

theorem mem_membersOf {top : Id} {document : Document Id Key} :
    document ∈ membersOf documents root top ↔
      document ∈ documents ∧ root document.documentId = top := by
  simp [membersOf]

theorem resolveComponent_ok {before after : Id → Id} {members : List (Document Id Key)}
    (resolved : resolveComponent before members = .ok after) :
    Resolvable members ∧ ((members = [] ∧ after = before) ∨ ∃ winner, selected members = some winner ∧
      after = assign before (members.map (·.documentId)) winner.documentId) := by
  unfold resolveComponent at resolved
  simp only [refuseIf_bind_eq_ok] at resolved
  obtain ⟨apart, concordant, resolved⟩ := resolved
  rw [heldout_length] at apart
  rw [cleaning_length, not_not] at concordant
  refine ⟨⟨apart, concordant⟩, ?_⟩
  cases found : selected members with
  | none =>
    rw [found] at resolved
    exact Or.inl ⟨List.argmin_eq_none.mp found, (Except.ok.inj resolved).symm⟩
  | some winner =>
    rw [found] at resolved
    exact Or.inr ⟨winner, rfl, (Except.ok.inj resolved).symm⟩

theorem resolveComponent_sound (before : Id → Id) {members : List (Document Id Key)}
    (sound : Resolvable members) : ∃ after, resolveComponent before members = .ok after := by
  unfold resolveComponent
  rw [refuseIf_bind (by rw [heldout_length]; exact sound.1),
    refuseIf_bind (by rw [cleaning_length, not_not]; exact sound.2)]
  cases selected members with
  | none => exact ⟨_, rfl⟩
  | some winner => exact ⟨_, rfl⟩

variable (root) in
theorem resolveComponents_ok (tops : List Id) {before after : Id → Id}
    (resolved : (tops.map (membersOf documents root)).foldlM resolveComponent before = .ok after) :
    (∀ top ∈ tops, Resolvable (membersOf documents root top)) ∧
      ∀ document ∈ documents,
        (root document.documentId ∈ tops → ∃ winner,
          selected (membersOf documents root (root document.documentId)) = some winner ∧
            after document.documentId = winner.documentId) ∧
        (root document.documentId ∉ tops →
          after document.documentId = before document.documentId) := by
  induction tops generalizing before with
  | nil =>
    rw [← Except.ok.inj resolved]
    exact ⟨List.forall_mem_nil _, fun document member =>
      ⟨fun never => absurd never List.not_mem_nil, fun _ => rfl⟩⟩
  | cons top tops ih =>
    rw [List.map_cons, List.foldlM_cons] at resolved
    obtain ⟨between, first, rest⟩ := bind_eq_ok resolved
    obtain ⟨sound, written⟩ := resolveComponent_ok first
    obtain ⟨others, later⟩ := ih rest
    refine ⟨List.forall_mem_cons.mpr ⟨sound, others⟩, ?_⟩
    intro document member
    obtain ⟨again, kept⟩ := later document member
    have outside : root document.documentId ≠ top →
        between document.documentId = before document.documentId := by
      intro elsewhere
      rcases written with ⟨-, rfl⟩ | ⟨winner, -, rfl⟩
      · rfl
      · rw [assign_apply, if_neg]
        intro inside
        obtain ⟨other, otherIn, same⟩ := List.mem_map.mp inside
        rw [← same] at elsewhere
        exact elsewhere (mem_membersOf.mp otherIn).2
    constructor
    · intro present
      by_cases more : root document.documentId ∈ tops
      · exact again more
      · have here : root document.documentId = top :=
          (List.mem_cons.mp present).resolve_right more
        have inside : document ∈ membersOf documents root top :=
          mem_membersOf.mpr ⟨member, here⟩
        rcases written with ⟨empty, -⟩ | ⟨winner, found, same⟩
        · rw [empty] at inside
          exact absurd inside List.not_mem_nil
        · refine ⟨winner, by rw [here]; exact found, ?_⟩
          rw [kept more, same, assign_apply, if_pos]
          exact List.mem_map_of_mem inside
    · intro absent
      rw [kept fun more => absent (List.mem_cons_of_mem _ more)]
      exact outside fun same => absent (same ▸ List.mem_cons_self)

theorem resolveComponents_sound (tops : List Id) (before : Id → Id)
    (sound : ∀ top ∈ tops, Resolvable (membersOf documents root top)) :
    ∃ after, (tops.map (membersOf documents root)).foldlM resolveComponent before = .ok after := by
  induction tops generalizing before with
  | nil => exact ⟨before, rfl⟩
  | cons top tops ih =>
    obtain ⟨here, others⟩ := List.forall_mem_cons.mp sound
    obtain ⟨between, first⟩ := resolveComponent_sound before here
    obtain ⟨after, rest⟩ := ih between others
    refine ⟨after, ?_⟩
    rw [List.map_cons, List.foldlM_cons, first]
    exact rest

end

section

variable [LinearOrder Id] {documents : List (Document Id Key)}

theorem find_documentId (distinct : (documents.map (·.documentId)).Nodup)
    {winner : Document Id Key} (member : winner ∈ documents) :
    documents.find? (fun other => other.documentId = winner.documentId) = some winner := by
  cases found : documents.find? fun other => other.documentId = winner.documentId with
  | none =>
    have absent := List.find?_eq_none.mp found winner member
    simp at absent
  | some other =>
    have same := List.find?_some found
    rw [decide_eq_true_eq] at same
    rw [eq_of_documentId distinct (List.mem_of_find?_eq_some found) member same]

end

section

variable [LinearOrder Key] {documents : List (Document Id Key)}

def storedKeys (documents : List (Document Id Key)) : List (Method × Key) :=
  methods.flatMap fun method => (mappingKeys documents method).map fun key => (method, key)

theorem mem_storedKeys {method : Method} {key : Key} :
    (method, key) ∈ storedKeys documents ↔ ∃ document ∈ documents, key ∈ document.keys method := by
  simp only [storedKeys, List.mem_flatMap, List.mem_map, Prod.mk.injEq, mem_mappingKeys]
  constructor
  · rintro ⟨_, -, _, present, rfl, rfl⟩
    exact present
  · intro present
    exact ⟨method, mem_methods method, key, present, rfl, rfl⟩

variable [LinearOrder Id]

def storedGroupOf (documents : List (Document Id Key)) (entry : Method × Key) :
    Except DuplicateFailure (Option (DuplicateGroup Id Key)) :=
  storedGroup documents entry.1 entry.2

def storedRoot (groups : List (DuplicateGroup Id Key)) : Id → Id :=
  rootAfter (groups.map (·.origins))

theorem storedRoot_eq_iff (distinct : (documents.map (·.documentId)).Nodup)
    {found : List (Option (DuplicateGroup Id Key))}
    (grouped : (storedKeys documents).mapM (storedGroupOf documents) = .ok found)
    {one other : Document Id Key} (oneIn : one ∈ documents) (otherIn : other ∈ documents) :
    storedRoot (found.filterMap id) one.documentId =
        storedRoot (found.filterMap id) other.documentId ↔ Connected documents one other := by
  rw [storedRoot, rootAfter_eq_iff]
  have injective : ∀ left ∈ documents, ∀ right ∈ documents,
      left.documentId = right.documentId → left = right :=
    fun left leftIn right rightIn => eq_of_documentId distinct leftIn rightIn
  refine eqvGen_named injective ?_ ?_ oneIn otherIn
  · rintro left right ⟨ids, idsIn, leftIn, rightIn⟩
    obtain ⟨group, groupIn, rfl⟩ := List.mem_map.mp idsIn
    obtain ⟨result, resultIn, same⟩ := List.mem_filterMap.mp groupIn
    obtain ⟨⟨method, key⟩, -, made⟩ := (mem_mapM grouped).mp resultIn
    rcases storedGroup_ok made with ⟨-, none⟩ | ⟨again, some, origins⟩
    · rw [none] at same
      cases same
    · rw [some] at same
      cases same
      rw [origins, List.mem_map] at leftIn rightIn
      obtain ⟨first, firstIn, rfl⟩ := leftIn
      obtain ⟨second, secondIn, rfl⟩ := rightIn
      rw [mem_mappingGroup] at firstIn secondIn
      exact ⟨first, firstIn.1, second, secondIn.1, rfl, rfl, method, key, firstIn.2, secondIn.2⟩
  · rintro first firstIn second secondIn ⟨method, key, firstKey, secondKey⟩
    have firstHere := mem_mappingGroup.mpr ⟨firstIn, firstKey⟩
    have secondHere := mem_mappingGroup.mpr ⟨secondIn, secondKey⟩
    have listed := mem_storedKeys.mpr ⟨first, firstIn, firstKey⟩
    obtain ⟨result, made⟩ := mapM_exists.mp ⟨found, grouped⟩ _ listed
    have resultIn := (mem_mapM grouped).mpr ⟨_, listed, made⟩
    rcases storedGroup_ok made with ⟨short, -⟩ | ⟨group, some, origins⟩
    · exact Or.inl (eq_of_short short firstHere secondHere)
    · right
      have groupIn : group ∈ found.filterMap id := List.mem_filterMap.mpr ⟨result, resultIn, some⟩
      refine ⟨group.origins, List.mem_map_of_mem groupIn, ?_⟩
      rw [origins]
      exact ⟨List.mem_map_of_mem firstHere, List.mem_map_of_mem secondHere⟩

theorem mem_storedComponent (distinct : (documents.map (·.documentId)).Nodup)
    {found : List (Option (DuplicateGroup Id Key))}
    (grouped : (storedKeys documents).mapM (storedGroupOf documents) = .ok found)
    {document : Document Id Key} (member : document ∈ documents) (other : Document Id Key) :
    other ∈ membersOf documents (storedRoot (found.filterMap id))
        (storedRoot (found.filterMap id) document.documentId) ↔
      other ∈ documents ∧ Connected documents document other := by
  rw [mem_membersOf]
  constructor
  · rintro ⟨otherIn, same⟩
    exact ⟨otherIn, (storedRoot_eq_iff distinct grouped member otherIn).mp same.symm⟩
  · rintro ⟨otherIn, connected⟩
    exact ⟨otherIn, ((storedRoot_eq_iff distinct grouped member otherIn).mpr connected).symm⟩

theorem resolveStored_ok {unsorted : List (Document Id Key)}
    (distinct : (unsorted.map (·.documentId)).Nodup) {resolution : Resolution Id Key}
    (resolved : resolveStored unsorted = .ok resolution) :
    Isolated (sortedDocuments unsorted) ∧ List.Forall₂ (Decided (sortedDocuments unsorted))
      (sortedDocuments unsorted) resolution.verdicts := by
  obtain ⟨found, grouped, resolved⟩ := bind_eq_ok resolved
  obtain ⟨representative, represented, resolved⟩ := bind_eq_ok resolved
  cases resolved
  have apart := sortedDocuments_distinct distinct
  generalize sortedDocuments unsorted = documents at grouped represented apart ⊢
  obtain ⟨sound, each⟩ :=
    resolveComponents_ok (storedRoot (found.filterMap id)) _ represented
  have component := fun {document} (member : document ∈ documents) =>
    mem_storedComponent apart grouped member
  have listed : ∀ document ∈ documents, storedRoot (found.filterMap id) document.documentId ∈
      (documents.map fun document => storedRoot (found.filterMap id) document.documentId).eraseDups := by
    intro document member
    rw [List.mem_eraseDups]
    exact List.mem_map_of_mem member
  constructor
  · refine isolated_of_components ?_
    intro document member
    exact ⟨_, sound _ (listed document member), component member⟩
  · refine forall₂_filterMap ?_
    intro document member
    obtain ⟨winner, best, leads⟩ := (each document member).1 (listed document member)
    have inside := selected_best (sound _ (listed document member)).1 best
    have wins := wins_of_best (component member) inside
    have same := (mem_membersOf.mp inside.1).2
    obtain ⟨again, bestAgain, stays⟩ := (each winner wins.1).1 (listed winner wins.1)
    rw [same, best, Option.some.injEq] at bestAgain
    rw [← bestAgain] at stays
    obtain ⟨more, length⟩ : ∃ more, documents.length = more + 1 :=
      Nat.exists_eq_add_one.mpr (List.length_pos_of_mem member)
    have ends : chosen representative (documents.length + 1) document.documentId =
        winner.documentId := by
      rw [length]
      exact chosen_eq leads stays more
    refine ⟨verdictOf document winner, ?_, winner, wins, rfl⟩
    dsimp only
    rw [ends, find_documentId apart wins.1]
    rfl

theorem resolveStored_isolated {unsorted : List (Document Id Key)}
    (distinct : (unsorted.map (·.documentId)).Nodup)
    (isolated : Isolated (sortedDocuments unsorted)) :
    ∃ resolution, resolveStored unsorted = .ok resolution := by
  have apart := sortedDocuments_distinct distinct
  unfold resolveStored
  generalize sortedDocuments unsorted = documents at isolated apart ⊢
  have groups : ∃ found, (storedKeys documents).mapM (storedGroupOf documents) = .ok found := by
    rw [mapM_exists]
    rintro ⟨method, key⟩ -
    refine storedGroup_apart ?_
    refine (isolated.resolvable ?_).1
    intro one oneIn other otherIn
    rw [mem_mappingGroup] at oneIn otherIn
    exact ⟨oneIn.1, otherIn.1, connected_of_key oneIn.1 otherIn.1 oneIn.2 otherIn.2⟩
  obtain ⟨found, grouped⟩ := groups
  have sound : ∀ top, Resolvable (membersOf documents (storedRoot (found.filterMap id)) top) := by
    intro top
    refine isolated.resolvable ?_
    intro one oneIn other otherIn
    rw [mem_membersOf] at oneIn otherIn
    exact ⟨oneIn.1, otherIn.1, (storedRoot_eq_iff apart grouped oneIn.1 otherIn.1).mp
      (oneIn.2.trans otherIn.2.symm)⟩
  obtain ⟨representative, represented⟩ := resolveComponents_sound
    (documents.map fun document => storedRoot (found.filterMap id) document.documentId).eraseDups
    (localRepresentatives (found.filterMap id)) fun top _ => sound top
  exact ⟨_, (ok_bind grouped).trans (ok_bind represented)⟩

end

end SparseLab.Corpus
