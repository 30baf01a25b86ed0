import SparseLab.Corpus.StreamedGroups

/-! Minimum links of release schema 2, and where their chains end. -/

namespace SparseLab.Corpus

open Library

variable {Id Key Rights : Type} {documents : List (Document Id Key)}

def TextShares (one other : Document Id Key) : Prop :=
  one.rawContentSha256 = other.rawContentSha256 ∨ one.contentSha256 = other.contentSha256

theorem textShares_refl (document : Document Id Key) : TextShares document document := Or.inl rfl

theorem TextShares.symm {one other : Document Id Key} (shares : TextShares one other) :
    TextShares other one := shares.imp Eq.symm Eq.symm

theorem textShares_iff {one other : Document Id Key} : TextShares one other ↔
    ∃ method ∈ textMethods, ∃ key ∈ one.keys method, key ∈ other.keys method := by
  simp [TextShares, textMethods, Document.keys]

section

variable [LinearOrder Key]

theorem mem_textKeys {method : Method} {key : Key} : (method, key) ∈ textKeys documents ↔
    method ∈ textMethods ∧ ∃ document ∈ documents, key ∈ document.keys method := by
  simp only [textKeys, List.mem_flatMap, List.mem_map, Prod.mk.injEq, mem_mappingKeys]
  constructor
  · rintro ⟨_, known, _, present, rfl, rfl⟩
    exact ⟨known, present⟩
  · rintro ⟨known, present⟩
    exact ⟨method, known, key, present, rfl, rfl⟩

variable [LinearOrder Id] [DecidableEq Rights] {rights : Id → Rights}
  {groups : List (DuplicateGroup Id Key)}

theorem textGroup_ok {method : Method} {key : Key} {group : DuplicateGroup Id Key}
    (grouped : (indexPrepared documents).textGroup rights method key = .ok group) :
    ∃ first rest, sortedDocuments (mappingGroup documents method key) = first :: rest ∧
      group.representative = first.documentId ∧
      group.origins = (first :: rest).map (·.documentId) := by
  unfold Index.textGroup at grouped
  rw [documents_of_rows] at grouped
  cases members : sortedDocuments (mappingGroup documents method key) with
  | nil =>
    rw [members] at grouped
    cases grouped
  | cons first rest =>
    rw [members] at grouped
    simp only [refuseIf_bind_eq_ok] at grouped
    obtain ⟨-, -, grouped⟩ := grouped
    rw [← Except.ok.inj grouped]
    exact ⟨first, rest, rfl, rfl, rfl⟩

theorem mem_textGroups (grouped : textGroups rights documents = .ok groups)
    {group : DuplicateGroup Id Key} (member : group ∈ groups) :
    ∃ method ∈ textMethods, ∃ key first rest,
      sortedDocuments (mappingGroup documents method key) = first :: rest ∧
      group.representative = first.documentId ∧
      group.origins = (first :: rest).map (·.documentId) := by
  obtain ⟨⟨method, key⟩, listed, made⟩ := (mem_mapM grouped).mp member
  obtain ⟨first, rest, members, representative, origins⟩ := textGroup_ok made
  exact ⟨method, (mem_textKeys.mp (List.mem_of_mem_filter listed)).1, key, first, rest, members,
    representative, origins⟩

theorem textGroup_of_shares (grouped : textGroups rights documents = .ok groups)
    {one other : Document Id Key} (oneIn : one ∈ documents) (otherIn : other ∈ documents)
    (differ : one ≠ other) (shares : TextShares one other) :
    ∃ group ∈ groups, one.documentId ∈ group.origins ∧ other.documentId ∈ group.origins ∧
      group.representative ≤ other.documentId := by
  obtain ⟨method, known, key, oneKey, otherKey⟩ := textShares_iff.mp shares
  have oneHere := mem_mappingGroup.mpr ⟨oneIn, oneKey⟩
  have otherHere := mem_mappingGroup.mpr ⟨otherIn, otherKey⟩
  have several : 1 < (mappingGroup documents method key).length := by
    by_contra short
    exact differ (eq_of_short (by omega) oneHere otherHere)
  have listed : (method, key) ∈ (textKeys documents).filter (repeatedKey documents) :=
    List.mem_filter.mpr ⟨mem_textKeys.mpr ⟨known, one, oneIn, oneKey⟩, decide_eq_true several⟩
  obtain ⟨group, made⟩ := mapM_exists.mp ⟨groups, grouped⟩ _ listed
  obtain ⟨first, rest, members, representative, origins⟩ := textGroup_ok made
  have listedIn : ∀ document ∈ mappingGroup documents method key,
      document ∈ first :: rest := by
    intro document member
    rw [← members]
    exact mem_sortedDocuments.mpr member
  refine ⟨group, (mem_mapM grouped).mpr ⟨_, listed, made⟩, ?_, ?_, ?_⟩
  · rw [origins]
    exact List.mem_map_of_mem (listedIn one oneHere)
  · rw [origins]
    exact List.mem_map_of_mem (listedIn other otherHere)
  · have sorted := sorted_by_id (mappingGroup documents method key)
    rw [members, List.pairwise_cons] at sorted
    rw [representative]
    rcases List.mem_cons.mp (listedIn other otherHere) with rfl | later
    · exact le_refl _
    · exact sorted.1 other later

end

section

variable [LinearOrder Id] {groups : List (DuplicateGroup Id Key)}

def linkGroup (representative : Id → Id) (group : DuplicateGroup Id Key) : Id → Id :=
  linkRows representative group.origins group.representative

def links (groups : List (DuplicateGroup Id Key)) : Id → Id := groups.foldl linkGroup id

theorem linkRows_apply (representative : Id → Id) (ids : List Id) (first id : Id) :
    linkRows representative ids first id =
      if id ∈ ids then min (representative id) first else representative id := by
  unfold linkRows
  induction ids generalizing representative with
  | nil => simp
  | cons other ids ih =>
    rw [List.foldl_cons, ih]
    by_cases later : id ∈ ids
    · by_cases same : id = other
      · subst same
        simp [later]
      · simp [later, same]
    · by_cases same : id = other
      · subst same
        simp [later]
      · simp [later, same]

theorem linkGroup_apply (representative : Id → Id) (group : DuplicateGroup Id Key) (id : Id) :
    linkGroup representative group id =
      if id ∈ group.origins then min (representative id) group.representative
      else representative id := linkRows_apply _ _ _ _

theorem linkRest_group {representative : Id → Id} (falls : Falls representative)
    {group : DuplicateGroup Id Key} {rest : List Id}
    (origins : group.origins = group.representative :: rest) :
    linkRest representative group.origins = linkGroup representative group := by
  funext id
  rw [origins, linkRest]
  change linkRows representative rest group.representative id = _
  rw [linkRows_apply, linkGroup_apply, origins]
  by_cases first : id = group.representative
  · have below : representative id ≤ group.representative := by
      rw [first]
      exact falls _
    rw [if_pos (List.mem_cons.mpr (Or.inl first)), min_eq_left below]
    split <;> rfl
  · simp [first]

theorem falls_linkGroup {representative : Id → Id} (falls : Falls representative)
    (group : DuplicateGroup Id Key) : Falls (linkGroup representative group) := by
  intro id
  rw [linkGroup_apply]
  split
  · exact le_trans (min_le_left _ _) (falls id)
  · exact falls id

theorem foldl_linkGroup (groups : List (DuplicateGroup Id Key)) {before : Id → Id}
    (falls : Falls before) :
    Falls (groups.foldl linkGroup before) ∧
      (∀ id, groups.foldl linkGroup before id ≤ before id) ∧
      (∀ group ∈ groups, ∀ id ∈ group.origins,
        groups.foldl linkGroup before id ≤ group.representative) ∧
      ∀ id, groups.foldl linkGroup before id = before id ∨
        ∃ group ∈ groups, id ∈ group.origins ∧
          groups.foldl linkGroup before id = group.representative := by
  induction groups generalizing before with
  | nil => exact ⟨falls, fun _ => le_refl _, List.forall_mem_nil _, fun _ => Or.inl rfl⟩
  | cons group groups ih =>
    obtain ⟨fallsAfter, below, reached, source⟩ := ih (falls_linkGroup falls group)
    have step : ∀ id, linkGroup before group id ≤ before id := by
      intro id
      rw [linkGroup_apply]
      split
      · exact min_le_left _ _
      · exact le_refl _
    refine ⟨fallsAfter, fun id => le_trans (below id) (step id), ?_, ?_⟩
    · rw [List.forall_mem_cons]
      refine ⟨?_, reached⟩
      intro id member
      refine le_trans (below id) ?_
      rw [linkGroup_apply, if_pos member]
      exact min_le_right _ _
    · intro id
      rcases source id with same | ⟨other, otherIn, member, same⟩
      · rw [List.foldl_cons, same, linkGroup_apply]
        by_cases member : id ∈ group.origins
        · rw [if_pos member]
          rcases min_choice (before id) group.representative with least | least
          · exact Or.inl least
          · exact Or.inr ⟨group, List.mem_cons_self, member, least⟩
        · exact Or.inl (if_neg member)
      · exact Or.inr ⟨other, List.mem_cons_of_mem _ otherIn, member, same⟩

def rankOf (documents : List (Document Id Key)) (id : Id) : Nat :=
  (documents.filter fun document => document.documentId < id).length

theorem rankOf_lt {first : Document Id Key} (member : first ∈ documents) {id : Id}
    (before : first.documentId < id) : rankOf documents first.documentId < rankOf documents id := by
  have narrower : documents.filter (fun document => document.documentId < first.documentId) =
      (documents.filter fun document => document.documentId < id).filter
        fun document => document.documentId < first.documentId := by
    rw [List.filter_filter]
    refine List.filter_congr ?_
    intro document _
    by_cases below : document.documentId < first.documentId
    · simp [below, lt_trans below before]
    · simp [below]
  rw [rankOf, rankOf, narrower, List.length_filter_lt_length_iff_exists]
  exact ⟨first, List.mem_filter.mpr ⟨member, decide_eq_true before⟩, by simp⟩

end

section

variable [LinearOrder Id] [LinearOrder Key] [DecidableEq Rights] {rights : Id → Rights}
  {groups : List (DuplicateGroup Id Key)}

def Leads (documents : List (Document Id Key)) (document leader : Document Id Key) : Prop :=
  leader ∈ documents ∧ TextShares document leader ∧
    ∀ other ∈ documents, TextShares document other → leader.documentId ≤ other.documentId

def TextConnected (documents : List (Document Id Key)) :
    Document Id Key → Document Id Key → Prop :=
  Relation.EqvGen fun one other => one ∈ documents ∧ other ∈ documents ∧ TextShares one other

theorem links_document (distinct : (documents.map (·.documentId)).Nodup)
    (grouped : textGroups rights documents = .ok groups) {document : Document Id Key}
    (member : document ∈ documents) :
    ∃ leader, Leads documents document leader ∧ links groups document.documentId = leader.documentId := by
  obtain ⟨falls, -, reached, source⟩ := foldl_linkGroup groups (falls_id (ι := Id))
  have least : ∀ other ∈ documents, TextShares document other →
      links groups document.documentId ≤ other.documentId := by
    intro other otherIn shares
    by_cases same : document = other
    · rw [same]
      exact falls _
    · obtain ⟨group, groupIn, here, -, below⟩ :=
        textGroup_of_shares grouped member otherIn same shares
      exact le_trans (reached group groupIn _ here) below
  rcases source document.documentId with same | ⟨group, groupIn, here, same⟩
  · have own : links groups document.documentId = document.documentId := same
    rw [own] at least
    exact ⟨document, ⟨member, textShares_refl document, least⟩, own⟩
  · obtain ⟨method, known, key, first, rest, members, representative, origins⟩ :=
      mem_textGroups grouped groupIn
    have inside : ∀ other ∈ first :: rest, other ∈ documents ∧ key ∈ other.keys method := by
      intro other otherIn
      rw [← members, mem_sortedDocuments, mem_mappingGroup] at otherIn
      exact otherIn
    obtain ⟨firstIn, firstKey⟩ := inside first List.mem_cons_self
    rw [origins] at here
    obtain ⟨other, otherIn, sameId⟩ := List.mem_map.mp here
    obtain ⟨otherHere, otherKey⟩ := inside other otherIn
    have sameDocument := eq_of_documentId distinct otherHere member sameId
    subst sameDocument
    have own : links groups other.documentId = first.documentId := same.trans representative
    rw [own] at least
    exact ⟨first, ⟨firstIn, textShares_iff.mpr ⟨method, known, key, otherKey, firstKey⟩, least⟩, own⟩

theorem links_moved (grouped : textGroups rights documents = .ok groups) {id : Id}
    (moved : links groups id ≠ id) :
    id ∈ documents.map (·.documentId) ∧
      ∃ first ∈ documents, links groups id = first.documentId ∧ first.documentId < id := by
  obtain ⟨falls, -, -, source⟩ := foldl_linkGroup groups (falls_id (ι := Id))
  rcases source id with same | ⟨group, groupIn, here, same⟩
  · exact absurd same moved
  · obtain ⟨_, -, _, first, rest, members, representative, origins⟩ := mem_textGroups grouped groupIn
    have inside : ∀ other ∈ first :: rest, other ∈ documents := by
      intro other otherIn
      rw [← members, mem_sortedDocuments, mem_mappingGroup] at otherIn
      exact otherIn.1
    rw [origins] at here
    obtain ⟨other, otherIn, rfl⟩ := List.mem_map.mp here
    have own : links groups other.documentId = first.documentId := same.trans representative
    refine ⟨List.mem_map_of_mem (inside other otherIn), first, inside first List.mem_cons_self, own, ?_⟩
    rw [← own]
    exact lt_of_le_of_ne (falls _) moved

theorem links_climbs (grouped : textGroups rights documents = .ok groups) :
    Settled (links groups) documents.length := by
  intro start
  have falls : ∀ id, links groups id ≠ id →
      rankOf documents (links groups id) < rankOf documents id := by
    intro id moved
    obtain ⟨-, first, firstIn, same, before⟩ := links_moved grouped moved
    rw [same]
    exact rankOf_lt firstIn before
  obtain ⟨steps, bound, top, climbs⟩ := climbs_of_rank falls start
  exact ⟨steps, le_trans bound (List.length_filter_le _ _), top, climbs⟩

theorem chain_document (distinct : (documents.map (·.documentId)).Nodup)
    (grouped : textGroups rights documents = .ok groups) {document : Document Id Key}
    (member : document ∈ documents) {steps : Nat} {top : Id}
    (climbs : Climbs (links groups) steps document.documentId top) :
    ∃ winner, top = winner.documentId ∧ TextConnected documents document winner ∧
      Leads documents winner winner := by
  have invariant : ∃ winner ∈ documents, top = winner.documentId ∧
      TextConnected documents document winner := by
    refine climbs.invariant (fun id => ∃ winner ∈ documents, id = winner.documentId ∧
      TextConnected documents document winner) ?_ ⟨document, member, rfl, Relation.EqvGen.refl _⟩
    rintro id ⟨winner, winnerIn, rfl, connected⟩
    obtain ⟨leader, leads, same⟩ := links_document distinct grouped winnerIn
    exact ⟨leader, leads.1, same, Relation.EqvGen.trans _ _ _ connected
      (Relation.EqvGen.rel _ _ ⟨winnerIn, leads.1, leads.2.1⟩)⟩
  obtain ⟨winner, winnerIn, rfl, connected⟩ := invariant
  obtain ⟨leader, leads, same⟩ := links_document distinct grouped winnerIn
  have own : leader = winner :=
    eq_of_documentId distinct leads.1 winnerIn (same.symm.trans climbs.is_root)
  subst own
  exact ⟨leader, rfl, connected, leads⟩

end

section

variable [LinearOrder Id] {representative : Id → Id}

theorem chosen_climbs {steps fuel : Nat} {start top : Id}
    (climbs : Climbs representative steps start top) (enough : steps ≤ fuel) :
    chosen representative fuel start = top := by
  induction fuel generalizing start steps with
  | zero =>
    cases climbs with
    | root fixed => rfl
    | step rest => omega
  | succ fuel ih =>
    rw [chosen]
    by_cases fixed : representative start = start
    · rw [if_pos fixed]
      exact (climbs.of_root fixed).symm
    · rw [if_neg fixed]
      cases climbs with
      | root same => exact absurd same fixed
      | step rest => exact ih rest (by omega)

theorem chooseAll_other {fuel : Nat} {ids : List Id} {id : Id} (absent : id ∉ ids) :
    chooseAll fuel representative ids id = representative id := by
  unfold chooseAll
  induction ids generalizing representative with
  | nil => rfl
  | cons other ids ih =>
    rw [List.mem_cons, not_or] at absent
    rw [List.foldl_cons, ih absent.2, Function.update_of_ne absent.1]

theorem chooseAll_climbs {fuel : Nat} (settled : Settled representative fuel) {ids : List Id}
    {id : Id} (member : id ∈ ids) {steps : Nat} {top : Id}
    (climbs : Climbs representative steps id top) :
    chooseAll fuel representative ids id = top := by
  induction ids generalizing representative steps with
  | nil => cases member
  | cons first ids ih =>
    obtain ⟨firstSteps, firstBound, firstTop, firstClimbs⟩ := settled first
    have found := chosen_climbs firstClimbs firstBound
    change chooseAll fuel (Function.update representative first
      (chosen representative fuel first)) ids id = top
    rw [found]
    obtain ⟨fewer, -, kept⟩ := firstClimbs.pointed climbs
    by_cases later : id ∈ ids
    · refine ih ?_ later kept
      intro start
      obtain ⟨few, bound, last, way⟩ := settled start
      obtain ⟨fewer, less, newWay⟩ := firstClimbs.pointed way
      exact ⟨fewer, by omega, last, newWay⟩
    · have here : id = first := (List.mem_cons.mp member).resolve_right later
      subst here
      rw [chooseAll_other later, Function.update_self]
      exact firstClimbs.unique climbs

theorem foldl_halve_other {ids : List Id} {id : Id} (absent : id ∉ ids) :
    ids.foldl halve representative id = representative id := by
  induction ids generalizing representative with
  | nil => rfl
  | cons other ids ih =>
    rw [List.mem_cons, not_or] at absent
    rw [List.foldl_cons, ih absent.2, halve, Function.update_of_ne absent.1]

theorem mem_staleRows {ids : List Id} {id : Id} : id ∈ staleRows representative ids ↔
    id ∈ ids ∧ representative id ≠ representative (representative id) := by
  simp [staleRows]

theorem compressRounds_climbs {ids : List Id} {fuel : Nat}
    (outside : ∀ id, id ∉ ids → representative id = id)
    (settled : Settled representative (fuel + 1)) {id : Id} {steps : Nat}
    {top : Id} (climbs : Climbs representative steps id top) :
    compressRounds ids fuel representative id = top := by
  induction fuel generalizing representative steps with
  | zero =>
    obtain ⟨few, bound, last, way⟩ := settled id
    rw [compressRounds, climbs.unique way]
    cases way with
    | root fixed => exact fixed
    | step rest =>
      cases rest with
      | root fixed => rfl
      | step rest => omega
  | succ fuel ih =>
    rw [compressRounds]
    have near : ∀ start, start ∉ staleRows representative ids → ∃ few ≤ 1, ∃ last,
        Climbs representative few start last := by
      intro start fresh
      rw [mem_staleRows, not_and_or, not_not] at fresh
      rcases fresh with absent | same
      · exact ⟨0, Nat.zero_le 1, start, Climbs.root (outside start absent)⟩
      · exact ⟨1, Nat.le_refl 1, _, Climbs.step (Climbs.root same.symm)⟩
    by_cases done : staleRows representative ids = []
    · rw [if_pos done]
      obtain ⟨few, bound, last, way⟩ := near id (by rw [done]; exact List.not_mem_nil)
      rw [climbs.unique way]
      cases way with
      | root fixed => exact fixed
      | step rest =>
        cases rest with
        | root fixed => rfl
        | step rest => omega
    · rw [if_neg done]
      obtain ⟨fewer, -, kept⟩ := climbs.foldl_halve (staleRows representative ids)
      refine ih ?_ ?_ kept
      · intro other absent
        rw [foldl_halve_other, outside other absent]
        exact fun stale => absent (mem_staleRows.mp stale).1
      · intro start
        by_cases stale : start ∈ staleRows representative ids
        · obtain ⟨few, bound, last, way⟩ := settled start
          obtain ⟨fewer, less, newWay⟩ := way.foldl_halve_start stale
          exact ⟨fewer, by omega, last, newWay⟩
        · obtain ⟨few, bound, last, way⟩ := near start stale
          obtain ⟨fewer, less, newWay⟩ := way.foldl_halve (staleRows representative ids)
          exact ⟨fewer, by omega, last, newWay⟩

end


end SparseLab.Corpus
