import SparseLab.Corpus.AssignmentCursor
import SparseLab.Library.Rearrangements

/-! The streaming join gives every prepared document the split that the lookup gives it. -/

namespace SparseLab.Corpus.SplitJoin

open Library Cleaning Records

section

def documentsOf (prepared : List PreparedShard) : List Document :=
  prepared.flatMap PreparedShard.documents

structure Prepared (prepared : List PreparedShard) : Prop where
  spans : ∀ shard ∈ prepared, shard.spans = shard.documents.map Document.documentId
  hex : ∀ document ∈ documentsOf prepared, sha256Hex document.documentId = true
  distinct : ((documentsOf prepared).map Document.documentId).Nodup

structure Facts where
  documentId : Text
  contentSha256 : Text
  domains : List Text
deriving DecidableEq

def Document.facts (document : Document) : Facts :=
  ⟨document.documentId, document.contentSha256, document.domains⟩

def Reference.facts (row : Reference) : Facts :=
  ⟨row.documentId, row.contentSha256, row.domains⟩

variable {signature : Text → Text → Json → Text}

theorem shardReferences_ok {shard position : Nat} {documents : List Document} {spans : List Text}
    {rows : List Reference}
    (listed : shardReferences signature shard position documents spans = .ok rows) :
    spans = documents.map Document.documentId ∧
      (∀ document ∈ documents, sha256Hex document.documentId = true) ∧
        rows.map Reference.facts = documents.map Document.facts := by
  induction documents generalizing position spans rows with
  | nil =>
    cases spans with
    | nil =>
      cases listed
      refine ⟨rfl, ?_, rfl⟩
      intro document member
      cases member
    | cons span spans => cases listed
  | cons document documents ih =>
    cases spans with
    | nil => cases listed
    | cons span spans =>
      obtain ⟨same, rest⟩ := refuseIf_bind_eq_ok.mp listed
      obtain ⟨hex, rest⟩ := refuseIf_bind_eq_ok.mp rest
      obtain ⟨later, others, rest⟩ := bind_eq_ok rest
      obtain ⟨names, each, facts⟩ := ih others
      cases rest
      refine ⟨?_, List.forall_mem_cons.mpr ⟨by simpa using hex, each⟩, ?_⟩
      · rw [List.map_cons, ← names, not_not.mp same]
      · rw [List.map_cons, List.map_cons, facts]
        rfl

variable (signature) in
theorem shardReferences_found (shard : Nat) {documents : List Document}
    (hex : ∀ document ∈ documents, sha256Hex document.documentId = true) (position : Nat) :
    ∃ rows, shardReferences signature shard position documents
      (documents.map Document.documentId) = .ok rows := by
  induction documents generalizing position with
  | nil => exact ⟨[], rfl⟩
  | cons document documents ih =>
    obtain ⟨rows, later⟩ := ih (fun other member => hex other (List.mem_cons_of_mem _ member))
      (position + document.length)
    refine ⟨reference signature shard position document :: rows, ?_⟩
    have own : ¬ sha256Hex document.documentId = false := by
      simp [hex document List.mem_cons_self]
    rw [List.map_cons, shardReferences, refuseIf_bind (not_not.mpr rfl), refuseIf_bind own, later]
    rfl

theorem documentsOf_cons (shard : PreparedShard) (prepared : List PreparedShard) :
    documentsOf (shard :: prepared) = shard.documents ++ documentsOf prepared :=
  List.flatMap_cons

theorem shards_ok {prepared : List PreparedShard} {start : Nat} {shards : List (List Reference)}
    (each : List.Forall₂ (fun item rows =>
        shardReferences signature item.2 0 item.1.documents item.1.spans = .ok rows)
      (prepared.zipIdx start) shards) :
    (∀ shard ∈ prepared, shard.spans = shard.documents.map Document.documentId) ∧
      (∀ document ∈ documentsOf prepared, sha256Hex document.documentId = true) ∧
        shards.flatten.map Reference.facts = (documentsOf prepared).map Document.facts := by
  induction prepared generalizing start shards with
  | nil =>
    rw [List.zipIdx_nil, List.forall₂_nil_left_iff] at each
    subst each
    exact ⟨by simp, by simp [documentsOf], rfl⟩
  | cons shard prepared ih =>
    rw [List.zipIdx_cons, List.forall₂_cons_left_iff] at each
    obtain ⟨first, rest, own, later, rfl⟩ := each
    obtain ⟨spans, hex, facts⟩ := shardReferences_ok own
    obtain ⟨others, hexes, whole⟩ := ih later
    rw [documentsOf_cons]
    refine ⟨List.forall_mem_cons.mpr ⟨spans, others⟩, ?_, ?_⟩
    · intro document member
      rcases List.mem_append.mp member with here | there
      · exact hex document here
      · exact hexes document there
    · rw [List.flatten_cons, List.map_append, List.map_append, facts, whole]

variable (signature) in
theorem shards_found {prepared : List PreparedShard}
    (spans : ∀ shard ∈ prepared, shard.spans = shard.documents.map Document.documentId)
    (hex : ∀ document ∈ documentsOf prepared, sha256Hex document.documentId = true)
    (start : Nat) : ∃ shards, List.Forall₂ (fun item rows =>
        shardReferences signature item.2 0 item.1.documents item.1.spans = .ok rows)
      (prepared.zipIdx start) shards := by
  induction prepared generalizing start with
  | nil => exact ⟨[], List.Forall₂.nil⟩
  | cons shard prepared ih =>
    rw [documentsOf_cons] at hex
    obtain ⟨shards, later⟩ := ih (fun other member => spans other (List.mem_cons_of_mem _ member))
      (fun document member => hex document (List.mem_append_right _ member)) (start + 1)
    obtain ⟨rows, own⟩ := shardReferences_found signature start
      (fun document member => hex document (List.mem_append_left _ member)) 0
    refine ⟨rows :: shards, ?_⟩
    rw [List.zipIdx_cons]
    refine List.Forall₂.cons ?_ later
    dsimp only
    rw [spans shard List.mem_cons_self]
    exact own

theorem references_ok {prepared : List PreparedShard} {rows : List Reference}
    (listed : references signature prepared = .ok rows) :
    (∀ shard ∈ prepared, shard.spans = shard.documents.map Document.documentId) ∧
      (∀ document ∈ documentsOf prepared, sha256Hex document.documentId = true) ∧
      (rows.map Reference.documentId).Pairwise (· ≤ ·) ∧
        (rows.map Reference.facts).Perm ((documentsOf prepared).map Document.facts) := by
  obtain ⟨shards, each, same⟩ := bind_eq_ok listed
  obtain ⟨spans, hex, facts⟩ := shards_ok (mapM_eq_ok.mp each)
  have same := Except.ok.inj same
  refine ⟨spans, hex, ?_, ?_⟩
  · rw [← same, List.pairwise_map]
    exact List.pairwise_insertionSort _ _
  · rw [← same, ← facts]
    exact (List.perm_insertionSort _ _).map _

variable (signature) in
theorem references_found {prepared : List PreparedShard} (known : Prepared prepared) :
    ∃ rows, references signature prepared = .ok rows := by
  obtain ⟨shards, each⟩ := shards_found signature known.spans known.hex 0
  rw [references, mapM_eq_ok.mpr each]
  exact ⟨_, rfl⟩

theorem identifiers_of_facts {rows : List Reference} {documents : List Document}
    (same : (rows.map Reference.facts).Perm (documents.map Document.facts)) :
    (rows.map Reference.documentId).Perm (documents.map Document.documentId) := by
  have names := same.map Facts.documentId
  rwa [List.map_map, List.map_map] at names

theorem encodable_of_hex {identifier : Text} (hex : sha256Hex identifier = true) :
    identifier ≠ [] ∧ encodable identifier = true := by
  rw [sha256Hex, Bool.and_eq_true, decide_eq_true_eq, List.all_eq_true] at hex
  obtain ⟨length, digits⟩ := hex
  constructor
  · rintro rfl
    cases length
  · rw [encodable, List.all_eq_true]
    intro code member
    have digit := digits code member
    simp only [lowerHex, Bool.or_eq_true, Bool.and_eq_true, decide_eq_true_eq] at digit
    simp only [Bool.not_eq_true', Bool.and_eq_false_iff, decide_eq_false_iff_not]
    omega

end

section

variable (signature : Text → Text → Json → Text) (atMost : Json → Json → Except JoinFailure Bool)

/-- `_references` and `_assign` -/
def streamed (prepared : List PreparedShard) (assignments : Reading) (expectedRows : Nat) :
    Except JoinFailure Assigned := do
  let rows ← references signature prepared
  assign atMost assignments expectedRows rows

def keyed (documents : List Document) (assignments : Reading) (expectedRows : Nat) :
    Except JoinFailure (List (Document × Split)) := do
  let lookup ← AssignmentLookup.create assignments expectedRows
  documents.mapM fun document => do
    let split ← splitOf lookup document.documentId
    .ok (document, split)

variable {signature : Text → Text → Json → Text}
  {atMost : Json → Json → Except JoinFailure Bool} {prepared : List PreparedShard}
  {documents : List Document} {assignments : Reading} {expectedRows : Nat} {assigned : Assigned}
  {pairs : List (Document × Split)} {entries : List (Text × Split)}

theorem splitOf_ok (ordered : (entries.map Prod.fst).Pairwise (· < ·)) {documentId : Text}
    (hex : sha256Hex documentId = true) {split : Split} :
    splitOf (indexOf entries) documentId = .ok split ↔ splitIn entries documentId = some split := by
  obtain ⟨nonempty, written⟩ := encodable_of_hex hex
  rw [splitOf_indexOf ordered nonempty written]
  cases splitIn entries documentId with
  | none =>
    constructor
    · intro raised
      cases raised
    · intro absent
      cases absent
  | some found =>
    constructor
    · intro same
      rw [Except.ok.inj same]
    · intro same
      rw [Option.some.inj same]

theorem lookups_ok (ordered : (entries.map Prod.fst).Pairwise (· < ·))
    (hex : ∀ document ∈ documents, sha256Hex document.documentId = true) :
    (documents.mapM fun document => do
      let split ← splitOf (indexOf entries) document.documentId
      .ok (document, split)) = .ok pairs ↔
      documents.map (fun document => (document, splitIn entries document.documentId)) =
        pairs.map fun pair => (pair.1, some pair.2) := by
  have own : ∀ (document : Document) pair, sha256Hex document.documentId = true →
      ((do
        let split ← splitOf (indexOf entries) document.documentId
        .ok (document, split)) = .ok pair ↔
        (document, splitIn entries document.documentId) = (pair.1, some pair.2)) := by
    rintro document ⟨named, split⟩ hex
    have found := @splitOf_ok entries ordered document.documentId hex
    constructor
    · intro returned
      obtain ⟨split, first, returned⟩ := bind_eq_ok returned
      cases returned
      rw [found.mp first]
    · intro same
      cases (Prod.mk.inj same).1
      rw [found.mpr (Prod.mk.inj same).2]
      rfl
  rw [mapM_eq_ok, ← List.forall₂_eq_eq_eq, List.forall₂_map_left_iff, List.forall₂_map_right_iff]
  constructor
  · exact fun each => ((List.forall₂_and_left _ _).mpr ⟨hex, each⟩).imp
      fun document pair both => (own document pair both.1).mp both.2
  · exact fun each => ((List.forall₂_and_left _ _).mpr ⟨hex, each⟩).imp
      fun document pair both => (own document pair both.1).mpr both.2

theorem keyed_ok (valid : ValidIds assignments.values)
    (hex : ∀ document ∈ documents, sha256Hex document.documentId = true) :
    keyed documents assignments expectedRows = .ok pairs ↔
      ∃ entries, Lists assignments.values none entries ∧ assignments.failure = none ∧
        entries.length = expectedRows ∧
        documents.map (fun document => (document, splitIn entries document.documentId)) =
          pairs.map fun pair => (pair.1, some pair.2) := by
  constructor
  · intro returned
    obtain ⟨lookup, created, looked⟩ := bind_eq_ok returned
    obtain ⟨entries, lists, complete, counted, rfl⟩ := (create_ok valid).mp created
    exact ⟨entries, lists, complete, counted, (lookups_ok lists.ordered hex).mp looked⟩
  · rintro ⟨entries, lists, complete, counted, looked⟩
    have created := (create_ok valid).mpr ⟨entries, lists, complete, counted, rfl⟩
    rw [keyed, created]
    exact (lookups_ok lists.ordered hex).mpr looked

theorem streamed_ok (joined : streamed signature atMost prepared assignments expectedRows =
      .ok assigned) :
    Prepared prepared ∧ ∃ rows, references signature prepared = .ok rows ∧
      assign atMost assignments expectedRows rows = .ok assigned := by
  obtain ⟨rows, listed, joined⟩ := bind_eq_ok joined
  obtain ⟨spans, hex, sorted, facts⟩ := references_ok listed
  obtain ⟨strict, -⟩ := assign_shape sorted joined
  refine ⟨⟨spans, hex, ?_⟩, rows, listed, joined⟩
  rw [← (identifiers_of_facts facts).nodup_iff]
  exact strict.imp fun less => ne_of_lt less

theorem pairs_of_found {found : Document → Option Split}
    (each : ∀ document ∈ documents, ∃ split, found document = some split) :
    ∃ pairs : List (Document × Split), documents.map (fun document => (document, found document)) =
      pairs.map fun pair => (pair.1, some pair.2) := by
  induction documents with
  | nil => exact ⟨[], rfl⟩
  | cons document documents ih =>
    obtain ⟨pairs, later⟩ := ih fun other member => each other (List.mem_cons_of_mem _ member)
    obtain ⟨split, own⟩ := each document List.mem_cons_self
    refine ⟨(document, split) :: pairs, ?_⟩
    rw [List.map_cons, List.map_cons, later, own]

theorem streamed_keyed (valid : ValidIds assignments.values)
    (joined : streamed signature atMost prepared assignments expectedRows = .ok assigned) :
    ∃ pairs, keyed (documentsOf prepared) assignments expectedRows = .ok pairs ∧
      (assigned.rows.map fun row => (row.facts, row.split)).Perm
        (pairs.map fun pair => (pair.1.facts, some pair.2)) := by
  obtain ⟨known, rows, listed, joined⟩ := streamed_ok joined
  obtain ⟨spans, hex, sorted, facts⟩ := references_ok listed
  obtain ⟨entries, lists⟩ := assign_lists valid joined
  obtain ⟨complete, counted, found, whole⟩ := assign_splits sorted lists joined
  have each : ∀ document ∈ documentsOf prepared,
      ∃ split, splitIn entries document.documentId = some split := by
    intro document member
    have name : document.documentId ∈ rows.map Reference.documentId :=
      (identifiers_of_facts facts).mem_iff.mpr (List.mem_map_of_mem member)
    obtain ⟨row, inside, same⟩ := List.mem_map.mp name
    rw [← same]
    exact Option.isSome_iff_exists.mp (found row inside)
  obtain ⟨pairs, looked⟩ := pairs_of_found each
  refine ⟨pairs, (keyed_ok valid hex).mpr ⟨entries, lists, complete, counted, looked⟩, ?_⟩
  have perm := facts.map fun facts => (facts, splitIn entries facts.documentId)
  have left : assigned.rows.map (fun row => (row.facts, row.split)) =
      (rows.map Reference.facts).map fun facts => (facts, splitIn entries facts.documentId) := by
    rw [whole, List.map_map, List.map_map]
    rfl
  have right : pairs.map (fun pair => (pair.1.facts, some pair.2)) =
      ((documentsOf prepared).map Document.facts).map
        fun facts => (facts, splitIn entries facts.documentId) := by
    have same := congrArg (List.map fun pair => (pair.1.facts, pair.2)) looked
    rw [List.map_map, List.map_map] at same
    rw [List.map_map]
    exact same.symm
  rw [left, right]
  exact perm

theorem streamed_found (known : Prepared prepared)
    (returned : keyed (documentsOf prepared) assignments expectedRows = .ok pairs) :
    ∃ assigned, streamed signature atMost prepared assignments expectedRows = .ok assigned := by
  obtain ⟨lookup, created, -⟩ := bind_eq_ok returned
  obtain ⟨entries, lists, complete, counted, looked⟩ :=
    (keyed_ok (create_valid created) known.hex).mp returned
  obtain ⟨rows, listed⟩ := references_found signature known
  obtain ⟨-, -, sorted, facts⟩ := references_ok listed
  have names := identifiers_of_facts facts
  have strict : (rows.map Reference.documentId).Pairwise (· < ·) :=
    (sorted.sortedLE.sortedLT_of_nodup (names.nodup_iff.mpr known.distinct)).pairwise
  have found : ∀ row ∈ rows, (splitIn entries row.documentId).isSome := by
    intro row member
    have name : row.documentId ∈ (documentsOf prepared).map Document.documentId :=
      names.mem_iff.mp (List.mem_map_of_mem member)
    obtain ⟨document, inside, same⟩ := List.mem_map.mp name
    have listed : (document, splitIn entries document.documentId) ∈
        pairs.map fun pair => (pair.1, some pair.2) := by
      rw [← looked]
      exact List.mem_map_of_mem inside
    obtain ⟨pair, -, same'⟩ := List.mem_map.mp listed
    have split : some pair.2 = splitIn entries document.documentId := congrArg Prod.snd same'
    rw [← same, ← split]
    rfl
  obtain ⟨assigned, joined⟩ := assign_found atMost strict lists complete counted found
  refine ⟨assigned, ?_⟩
  rw [streamed, listed]
  exact joined

end

section

structure Binding where
  documentId : Text
  family : Text
  split : Text
  stratum : Text
  content : Text
deriving DecidableEq

def bindingOf (candidate : Json) : Option Binding :=
  if candidate.hasKeys candidateKeys then
    match (candidate.get (text "document_id")).bind Json.str?,
        (candidate.get (text "content_sha256")).bind Json.str?,
        (candidate.get (text "split")).bind Json.str?,
        (candidate.get (text "family_id")).bind Json.str?,
        (candidate.get (text "stratum")).bind Json.str? with
    | some identifier, some content, some split, some family, some stratum =>
      some { documentId := identifier, family := family, split := split, stratum := stratum
             content := content }
    | _, _, _, _, _ => none
  else none

structure Agrees (row : Reference) (binding : Binding) : Prop where
  documentId : binding.documentId = row.documentId
  content : binding.content = row.contentSha256
  split : row.split.map Split.name = some binding.split
  stratum : binding.stratum ∈ row.domains

def Binding.Named (binding : Binding) : Prop := binding.family ≠ [] ∧ encodable binding.family = true

def Isolated (bindings : List Binding) : Prop :=
  ∀ first ∈ bindings, ∀ second ∈ bindings, first.family = second.family → first.split = second.split

theorem candidateMatches_iff {row : Reference} {candidate : Json} {family stratum : Text} :
    candidateMatches row candidate = some (family, stratum) ↔
      ∃ binding, bindingOf candidate = some binding ∧ Agrees row binding ∧ binding.family ≠ [] ∧
        binding.family = family ∧ binding.stratum = stratum := by
  unfold candidateMatches bindingOf
  by_cases exact' : candidate.hasKeys candidateKeys = true
  · rw [if_pos exact', if_pos exact']
    generalize (candidate.get (text "document_id")).bind Json.str? = identifier
    generalize (candidate.get (text "content_sha256")).bind Json.str? = content
    generalize (candidate.get (text "split")).bind Json.str? = split
    generalize (candidate.get (text "family_id")).bind Json.str? = named
    generalize (candidate.get (text "stratum")).bind Json.str? = level
    constructor
    · intro matched
      split at matched
      · rename_i identifier content split named level
        split at matched
        · rename_i holds
          obtain ⟨same, body, chosen, nonempty, known⟩ := holds
          cases matched
          exact ⟨⟨identifier, family, split, stratum, content⟩, rfl, ⟨same, body, chosen, known⟩,
            nonempty, rfl, rfl⟩
        · cases matched
      · cases matched
    · rintro ⟨binding, found, agrees, nonempty, rfl, rfl⟩
      split at found
      · cases found
        exact if_pos ⟨agrees.documentId, agrees.content, agrees.split, nonempty, agrees.stratum⟩
      · cases found
  · rw [if_neg exact', if_neg exact']
    simp

theorem bindRows_ok {failure : Option JoinFailure} {previous : Option Text}
    {rows : List Reference} {candidates : List Json} {bound : List BoundReference}
    (joined : bindRows failure previous rows candidates = .ok bound) :
    failure = none ∧ ∃ bindings, candidates.map bindingOf = bindings.map some ∧
      List.Forall₂ Agrees rows bindings ∧ (∀ binding ∈ bindings, binding.Named) ∧
        bound.map familyRow = bindings.map fun binding => [binding.family, binding.split] := by
  induction rows generalizing previous candidates bound with
  | nil =>
    cases candidates with
    | cons candidate candidates => cases joined
    | nil =>
      cases failure with
      | some failure => cases joined
      | none =>
        cases joined
        refine ⟨rfl, [], rfl, List.Forall₂.nil, ?_, rfl⟩
        intro binding member
        cases member
  | cons row rows ih =>
    cases candidates with
    | nil => cases joined
    | cons candidate candidates =>
      rw [bindRows] at joined
      cases matched : candidateMatches row candidate with
      | none =>
        rw [matched] at joined
        cases joined
      | some pair =>
        obtain ⟨family, stratum⟩ := pair
        rw [matched] at joined
        obtain ⟨-, rest⟩ := refuseIf_bind_eq_ok.mp joined
        obtain ⟨written, rest⟩ := refuseIf_bind_eq_ok.mp rest
        obtain ⟨later, others, rest⟩ := bind_eq_ok rest
        obtain ⟨complete, bindings, same, each, named, families⟩ := ih others
        obtain ⟨binding, found, agrees, nonempty, rfl, rfl⟩ := candidateMatches_iff.mp matched
        cases rest
        refine ⟨complete, binding :: bindings, ?_, List.Forall₂.cons agrees each,
          List.forall_mem_cons.mpr ⟨⟨nonempty, by simpa using written⟩, named⟩, ?_⟩
        · rw [List.map_cons, List.map_cons, found, same]
        · rw [List.map_cons, List.map_cons, families, familyRow, agrees.split]
          rfl

theorem bindRows_found {failure : Option JoinFailure} {previous : Option Text}
    {rows : List Reference} {candidates : List Json} {bindings : List Binding}
    (ordered : (previous.toList ++ rows.map Reference.documentId).Pairwise (· < ·))
    (complete : failure = none) (listed : candidates.map bindingOf = bindings.map some)
    (agree : List.Forall₂ Agrees rows bindings) (named : ∀ binding ∈ bindings, binding.Named) :
    ∃ bound, bindRows failure previous rows candidates = .ok bound := by
  induction agree generalizing previous candidates with
  | nil =>
    rw [List.map_eq_nil_iff.mp listed, complete]
    exact ⟨[], rfl⟩
  | @cons row binding rows bindings agrees each ih =>
    cases candidates with
    | nil => cases listed
    | cons candidate candidates =>
      rw [List.map_cons, List.map_cons] at listed
      injection listed with found listed
      obtain ⟨nonempty, written⟩ := named binding List.mem_cons_self
      have matched := candidateMatches_iff.mpr ⟨binding, found, agrees, nonempty, rfl, rfl⟩
      have later : (row.documentId :: rows.map Reference.documentId).Pairwise (· < ·) :=
        (List.pairwise_append.mp ordered).2.1
      have inOrder : ¬ (previous.any fun previous => row.documentId ≤ previous) = true := by
        cases previous with
        | none => exact Bool.false_ne_true
        | some previous =>
          have less := (List.pairwise_cons.mp ordered).1 _ List.mem_cons_self
          simpa using less
      have able : ¬ encodable binding.family = false := by
        rw [written]
        exact Bool.noConfusion
      obtain ⟨bound, rest⟩ := @ih (some row.documentId) candidates later listed
        fun other member => named other (List.mem_cons_of_mem _ member)
      refine ⟨{ row := row, family := binding.family, stratum := binding.stratum } :: bound, ?_⟩
      rw [bindRows, matched]
      dsimp only
      rw [refuseIf_bind inOrder, refuseIf_bind able, rest]
      rfl

theorem first_le {first second other another : Text} (ordered : [first, second] ≤ [other, another]) :
    first ≤ other := by
  by_contra later
  have less : [other, another] < [first, second] :=
    List.cons_lt_cons_iff.mpr (Or.inl (not_le.mp later))
  exact absurd ordered (not_le.mpr less)

theorem familiesApart_iff {families : List (Text × Text)}
    (sorted : (families.map fun entry => [entry.1, entry.2]).Pairwise (· ≤ ·)) :
    familiesApart (families.map fun entry => [entry.1, entry.2]) = true ↔
      families.Pairwise fun first second => first.1 = second.1 → first.2 = second.2 := by
  induction families with
  | nil => exact ⟨fun _ => List.Pairwise.nil, fun _ => rfl⟩
  | cons first families ih =>
    cases families with
    | nil => exact ⟨fun _ => List.pairwise_singleton _ _, fun _ => rfl⟩
    | cons second families =>
      rw [List.map_cons, List.pairwise_cons] at sorted
      have onward := ih sorted.2
      have step : familiesApart ((first :: second :: families).map fun entry =>
          [entry.1, entry.2]) = true ↔ (second.1 = first.1 → second.2 = first.2) ∧
            familiesApart ((second :: families).map fun entry => [entry.1, entry.2]) = true := by
        simp [familiesApart, imp_iff_not_or]
      rw [step, onward]
      constructor
      · rintro ⟨adjacent, apart⟩
        refine List.pairwise_cons.mpr ⟨?_, apart⟩
        intro later member same
        rcases List.mem_cons.mp member with rfl | inside
        · exact (adjacent same.symm).symm
        · have low := first_le (sorted.1 _ List.mem_cons_self)
          have high := first_le ((List.pairwise_cons.mp sorted.2).1 _
            (List.mem_map_of_mem inside))
          have between : second.1 = first.1 := le_antisymm (same ▸ high) low
          rw [← adjacent between]
          exact (List.pairwise_cons.mp apart).1 later inside (between.trans same)
      · intro pairs
        obtain ⟨each, apart⟩ := List.pairwise_cons.mp pairs
        exact ⟨fun same => (each second List.mem_cons_self same.symm).symm, apart⟩

theorem isolated_iff {bindings : List Binding} {families : List (Text × Text)}
    (same : families.Perm (bindings.map fun binding => (binding.family, binding.split))) :
    Isolated bindings ↔
      families.Pairwise fun first second => first.1 = second.1 → first.2 = second.2 := by
  have symmetric : Std.Symm fun first second : Text × Text =>
      first.1 = second.1 → first.2 = second.2 :=
    ⟨fun first second apart equal => (apart equal.symm).symm⟩
  constructor
  · intro isolated
    apply List.pairwise_of_forall_mem_list
    intro first here second there
    obtain ⟨one, member, rfl⟩ := List.mem_map.mp (same.mem_iff.mp here)
    obtain ⟨other, another, rfl⟩ := List.mem_map.mp (same.mem_iff.mp there)
    exact isolated one member other another
  · intro pairs first here second there
    have each := pairs.forall_of_forall fun pair _ _ => rfl
    exact each (same.mem_iff.mpr (List.mem_map_of_mem here))
      (same.mem_iff.mpr (List.mem_map_of_mem there))

theorem families_sorted (bindings : List Binding) :
    ∃ families : List (Text × Text),
      families.Perm (bindings.map fun binding => (binding.family, binding.split)) ∧
      (bindings.map fun binding => [binding.family, binding.split]).insertionSort
        (fun first second => first ≤ second) = families.map fun entry => [entry.1, entry.2] := by
  let pairs := bindings.map fun binding => (binding.family, binding.split)
  have moved := List.map_insertionSort
    (fun first second : Text × Text => [first.1, first.2] ≤ [second.1, second.2])
    (fun first second : List Text => first ≤ second) (fun entry : Text × Text => [entry.1, entry.2])
    pairs (fun first _ second _ => Iff.rfl)
  refine ⟨pairs.insertionSort fun first second => [first.1, first.2] ≤ [second.1, second.2],
    List.perm_insertionSort _ _, ?_⟩
  rw [moved, List.map_map]
  rfl

theorem bindFamilies_iff {inventory : Reading} {rows : List Reference}
    (ordered : (rows.map Reference.documentId).Pairwise (· < ·)) :
    (∃ bound, bindFamilies inventory rows = .ok bound) ↔ inventory.failure = none ∧
      ∃ bindings, inventory.values.map bindingOf = bindings.map some ∧
        List.Forall₂ Agrees rows bindings ∧ (∀ binding ∈ bindings, binding.Named) ∧
          Isolated bindings := by
  have apart : ∀ (bound : List BoundReference) (bindings : List Binding),
      bound.map familyRow = bindings.map (fun binding => [binding.family, binding.split]) →
      (familiesApart ((bound.map familyRow).insertionSort fun first second => first ≤ second) =
        true ↔ Isolated bindings) := by
    intro bound bindings families
    obtain ⟨sorted, perm, same⟩ := families_sorted bindings
    rw [families, isolated_iff perm, same]
    apply familiesApart_iff
    rw [← same]
    exact List.pairwise_insertionSort _ _
  constructor
  · rintro ⟨bound, joined⟩
    obtain ⟨rows', steps, rest⟩ := bind_eq_ok joined
    obtain ⟨isolated, -⟩ := refuseIf_bind_eq_ok.mp rest
    obtain ⟨complete, bindings, listed, agree, named, families⟩ := bindRows_ok steps
    refine ⟨Option.map_eq_none_iff.mp complete, bindings, listed, agree, named, ?_⟩
    exact (apart rows' bindings families).mp (by simpa using isolated)
  · rintro ⟨complete, bindings, listed, agree, named, isolated⟩
    have start : ((none : Option Text).toList ++ rows.map Reference.documentId).Pairwise (· < ·) :=
      ordered
    have unfailed : inventory.failure.map JoinFailure.reading = none :=
      Option.map_eq_none_iff.mpr complete
    obtain ⟨bound, steps⟩ := bindRows_found start unfailed listed agree named
    obtain ⟨-, others, again, -, -, families⟩ := bindRows_ok steps
    have same : others = bindings :=
      List.map_injective_iff.mpr (Option.some_injective _) (again.symm.trans listed)
    refine ⟨bound, ?_⟩
    rw [bindFamilies, steps]
    apply refuseIf_bind
    rw [same] at families
    simp [(apart bound bindings families).mpr isolated]

end

section

structure Matching (rows : List Reference) (bindings : List Binding) : Prop where
  bijection : (bindings.map Binding.documentId).Perm (rows.map Reference.documentId)
  agree : ∀ row ∈ rows, ∀ binding ∈ bindings, binding.documentId = row.documentId →
    Agrees row binding
  named : ∀ binding ∈ bindings, binding.Named
  isolated : Isolated bindings

theorem agree_in_order {rows : List Reference} {bindings : List Binding}
    (same : bindings.map Binding.documentId = rows.map Reference.documentId)
    (agree : ∀ row ∈ rows, ∀ binding ∈ bindings, binding.documentId = row.documentId →
      Agrees row binding) : List.Forall₂ Agrees rows bindings := by
  induction rows generalizing bindings with
  | nil =>
    rw [List.map_eq_nil_iff.mp same]
    exact List.Forall₂.nil
  | cons row rows ih =>
    cases bindings with
    | nil => cases same
    | cons binding bindings =>
      rw [List.map_cons, List.map_cons] at same
      injection same with own later
      refine List.Forall₂.cons (agree row List.mem_cons_self binding List.mem_cons_self own) ?_
      apply ih later
      intro other member another inside
      exact agree other (List.mem_cons_of_mem _ member) another (List.mem_cons_of_mem _ inside)

theorem identifiers_of_agree {rows : List Reference} {bindings : List Binding}
    (agree : List.Forall₂ Agrees rows bindings) :
    bindings.map Binding.documentId = rows.map Reference.documentId := by
  induction agree with
  | nil => rfl
  | cons own _ ih => rw [List.map_cons, List.map_cons, own.documentId, ih]

theorem matching_iff {rows : List Reference} {bindings : List Binding}
    (ordered : (rows.map Reference.documentId).Pairwise (· < ·)) :
    (List.Forall₂ Agrees rows bindings ∧ (∀ binding ∈ bindings, binding.Named) ∧
        Isolated bindings) ↔
      (bindings.map Binding.documentId).Pairwise (· < ·) ∧ Matching rows bindings := by
  constructor
  · rintro ⟨agree, named, isolated⟩
    have same := identifiers_of_agree agree
    refine ⟨by rw [same]; exact ordered, ⟨same ▸ List.Perm.refl _, ?_, named, isolated⟩⟩
    intro row member binding inside equal
    obtain ⟨other, another, agrees⟩ := forall₂_right agree inside
    have unique : other = row := by
      have distinct : (rows.map Reference.documentId).Nodup :=
        ordered.imp fun less => ne_of_lt less
      exact List.inj_on_of_nodup_map distinct another member
        (agrees.documentId.symm.trans equal)
    rw [← unique]
    exact agrees
  · rintro ⟨sorted, matching⟩
    have same : bindings.map Binding.documentId = rows.map Reference.documentId :=
      matching.bijection.eq_of_pairwise' (sorted.imp fun less => le_of_lt less)
        (ordered.imp fun less => le_of_lt less)
    exact ⟨agree_in_order same matching.agree, matching.named, matching.isolated⟩

theorem facts_of_assigned {rows bound : List Reference}
    (each : List.Forall₂ (fun row bound => ∃ split, bound = row.withSplit (some split)) rows bound) :
    bound.map Reference.facts = rows.map Reference.facts := by
  induction each with
  | nil => rfl
  | cons own _ ih =>
    obtain ⟨split, rfl⟩ := own
    rw [List.map_cons, List.map_cons, ih]
    rfl

theorem assigned_ordered {rows bound : List Reference}
    (same : bound.map Reference.facts = rows.map Reference.facts)
    (ordered : (rows.map Reference.documentId).Pairwise (· < ·)) :
    (bound.map Reference.documentId).Pairwise (· < ·) := by
  have names := congrArg (List.map Facts.documentId) same
  rw [List.map_map, List.map_map] at names
  have names : bound.map Reference.documentId = rows.map Reference.documentId := names
  rw [names]
  exact ordered

end

section

variable (routines : Routines) (signature : Text → Text → Json → Text)
  (atMost : Json → Json → Except JoinFailure Bool)

/-- The join over an assignment file and the lookup in it give the documents the same splits and
fail on the same inputs, and the family inventories that bind to the rows are known. -/
theorem streaming_split_join (prepared : List PreparedShard) (expectedSha256 : Text)
    (contents : Bytes) (expectedRows : Nat) :
    ((ValidIds (recordsFromPath routines maxRecordBytes expectedSha256 contents).values ∧
        ∃ assigned, streamed signature atMost prepared
          (recordsFromPath routines maxRecordBytes expectedSha256 contents) expectedRows = .ok assigned) ↔
      Prepared prepared ∧ ∃ pairs, keyed (documentsOf prepared)
        (recordsFromPath routines maxRecordBytes expectedSha256 contents) expectedRows = .ok pairs) ∧
    ∀ assigned, streamed signature atMost prepared
        (recordsFromPath routines maxRecordBytes expectedSha256 contents) expectedRows = .ok assigned →
      (∀ pairs, keyed (documentsOf prepared) (recordsFromPath routines maxRecordBytes expectedSha256 contents)
          expectedRows = .ok pairs →
        (assigned.rows.map fun row => (row.facts, row.split)).Perm
          (pairs.map fun pair => (pair.1.facts, some pair.2))) ∧
      (assigned.rows.map Reference.facts).Perm ((documentsOf prepared).map Document.facts) ∧
      ∀ inventorySha256 inventoryContents,
        (∃ bound, bindFamilies (recordsFromPath routines maxRecordBytes inventorySha256 inventoryContents)
          assigned.rows = .ok bound) ↔
        (recordsFromPath routines maxRecordBytes inventorySha256 inventoryContents).failure = none ∧
          ∃ bindings, (recordsFromPath routines maxRecordBytes inventorySha256 inventoryContents).values.map
              bindingOf = bindings.map some ∧
            (bindings.map Binding.documentId).Pairwise (· < ·) ∧
              Matching assigned.rows bindings := by
  refine ⟨⟨?_, ?_⟩, ?_⟩
  · rintro ⟨valid, assigned, joined⟩
    obtain ⟨pairs, returned, -⟩ := streamed_keyed valid joined
    exact ⟨(streamed_ok joined).1, pairs, returned⟩
  · rintro ⟨known, pairs, returned⟩
    obtain ⟨lookup, created, -⟩ := bind_eq_ok returned
    exact ⟨create_valid created, streamed_found known returned⟩
  · intro assigned joined
    obtain ⟨known, rows, listed, steps⟩ := streamed_ok joined
    obtain ⟨-, -, sorted, facts⟩ := references_ok listed
    obtain ⟨strict, each⟩ := assign_shape sorted steps
    have same := facts_of_assigned each
    have ordered := assigned_ordered same strict
    refine ⟨?_, ?_, ?_⟩
    · intro pairs returned
      obtain ⟨lookup, created, -⟩ := bind_eq_ok returned
      obtain ⟨others, again, perm⟩ := streamed_keyed (create_valid created) joined
      rw [returned] at again
      rw [Except.ok.inj again]
      exact perm
    · rw [same]
      exact facts
    · intro inventorySha256 inventoryContents
      rw [bindFamilies_iff ordered]
      apply and_congr_right'
      apply exists_congr
      intro bindings
      rw [matching_iff ordered]

def assignmentLine (documentId : Text) : Bytes :=
  text "\x7b\"document_id\":\"" ++ documentId ++ text "\",\"split\":\"train\"\x7d\n"

def assignmentRecord (documentId : Text) : Json :=
  .dict [(text "document_id", .str documentId), (text "split", .str (text "train"))]

def familyLine (documentId : Text) : Bytes :=
  text "\x7b\"content_sha256\":\"" ++ documentId ++ text "\",\"document_id\":\"" ++ documentId ++
    text "\",\"family_id\":\"recipes\",\"split\":\"train\",\"stratum\":\"web\"\x7d\n"

def familyRecord (documentId : Text) : Json :=
  .dict
    [(text "content_sha256", .str documentId), (text "document_id", .str documentId),
      (text "family_id", .str (text "recipes")), (text "split", .str (text "train")),
      (text "stratum", .str (text "web"))]

def firstId : Text := List.replicate 64 0x61

def secondId : Text := List.replicate 64 0x62

def emptyIdFile : Bytes := assignmentLine []

def assignmentFile : Bytes := assignmentLine firstId ++ assignmentLine secondId

def familyFile : Bytes := familyLine secondId ++ familyLine firstId

def emptyIdSha256 : String := "0054e3e44d3f3d8405c7cd67f1619f73cd098b8ad075acbdc7d7452785838382"

def assignmentSha256 : String := "a8af29b7b6b9037cd08dde206655974a597c687c050d0bd96a43950ae93a84fc"

def familySha256 : String := "3a0d71cde752491ceb61387aa39d71e5fb0efbe1326d18cbde0f5cfe414989ba"

def fileRoutines : Routines where
  unicode := ⟨id, id, fun _ => false, fun _ => false⟩
  sha256 contents :=
    if contents = emptyIdFile then emptyIdSha256
    else if contents = assignmentFile then assignmentSha256
    else familySha256
  encode := id
  decode := some
  loads line :=
    if line = assignmentLine [] then .ok (assignmentRecord [])
    else if line = assignmentLine firstId then .ok (assignmentRecord firstId)
    else if line = assignmentLine secondId then .ok (assignmentRecord secondId)
    else if line = familyLine firstId then .ok (familyRecord firstId)
    else if line = familyLine secondId then .ok (familyRecord secondId)
    else .error (.malformed "Expecting value")
  canonical _ := .ok []
  digest _ := []
  validate := .ok
  secretOrPrivate _ := false
  urlHost _ := none
  provenance _ := .error (.raised .valueError)

def exampleDocument (documentId : Text) : Document where
  documentId := documentId
  license := text "ODC-By-1.0"
  redistribution := text "allowed"
  rights := .dict []
  rawContentSha256 := documentId
  contentSha256 := documentId
  metadataOnly := false
  sourceFamily := text "web"
  domains := [text "web"]
  length := 100

def exampleShards : List PreparedShard :=
  [{ documents := [exampleDocument firstId, exampleDocument secondId]
     spans := [firstId, secondId] }]

theorem emptyIdFile_read : recordsFromPath fileRoutines maxRecordBytes (text emptyIdSha256) emptyIdFile =
      { values := [assignmentRecord []], failure := none } := by
  rfl

set_option maxRecDepth 8000 in
theorem assignmentFile_read : recordsFromPath fileRoutines maxRecordBytes (text assignmentSha256) assignmentFile =
      { values := [assignmentRecord firstId, assignmentRecord secondId], failure := none } := by
  rfl

set_option maxRecDepth 8000 in
theorem familyFile_read : recordsFromPath fileRoutines maxRecordBytes (text familySha256) familyFile =
      { values := [familyRecord secondId, familyRecord firstId], failure := none } := by
  rfl

def exampleRow (position : Nat) (documentId : Text) : Reference :=
  { reference (fun _ _ _ => []) 0 position (exampleDocument documentId) with split := some .train }

theorem exampleShards_streamed : ∃ assigned,
    streamed (fun _ _ _ => []) (fun _ _ => .error .typeError) exampleShards
      { values := [assignmentRecord firstId, assignmentRecord secondId], failure := none } 2 =
      .ok assigned ∧ assigned.rows = [exampleRow 0 firstId, exampleRow 100 secondId] := by
  refine ⟨_, rfl, rfl⟩

theorem exampleFamilies_match : Matching [exampleRow 0 firstId, exampleRow 100 secondId]
    [⟨secondId, text "recipes", text "train", text "web", secondId⟩,
      ⟨firstId, text "recipes", text "train", text "web", firstId⟩] := by
  constructor
  · decide +kernel
  · intro row member binding inside same
    simp only [List.mem_cons, List.not_mem_nil, or_false] at member inside
    rcases member with rfl | rfl <;> rcases inside with rfl | rfl
    · exact absurd same (by decide +kernel)
    · exact ⟨rfl, rfl, rfl, List.mem_cons_self⟩
    · exact ⟨rfl, rfl, rfl, List.mem_cons_self⟩
    · exact absurd same (by decide +kernel)
  · intro binding inside
    simp only [List.mem_cons, List.not_mem_nil, or_false] at inside
    rcases inside with rfl | rfl
    · exact ⟨by decide +kernel, by decide +kernel⟩
    · exact ⟨by decide +kernel, by decide +kernel⟩
  · intro first member second inside _
    simp only [List.mem_cons, List.not_mem_nil, or_false] at member inside
    rcases member with rfl | rfl <;> rcases inside with rfl | rfl <;> rfl

theorem split_join_differs :
    (¬ ∀ (routines : Routines) (signature : Text → Text → Json → Text)
        (atMost : Json → Json → Except JoinFailure Bool) (prepared : List PreparedShard)
        (expectedSha256 : Text) (contents : Bytes) (expectedRows : Nat),
      (∃ assigned, streamed signature atMost prepared
          (recordsFromPath routines maxRecordBytes expectedSha256 contents) expectedRows = .ok assigned) ↔
        Prepared prepared ∧ ∃ pairs, keyed (documentsOf prepared)
          (recordsFromPath routines maxRecordBytes expectedSha256 contents) expectedRows = .ok pairs) ∧
    ¬ ∀ (routines : Routines) (signature : Text → Text → Json → Text)
        (atMost : Json → Json → Except JoinFailure Bool) (prepared : List PreparedShard)
        (expectedSha256 : Text) (contents : Bytes) (expectedRows : Nat) (assigned : Assigned)
        (inventorySha256 : Text) (inventoryContents : Bytes),
      streamed signature atMost prepared (recordsFromPath routines maxRecordBytes expectedSha256 contents)
          expectedRows = .ok assigned →
        ((∃ bound, bindFamilies (recordsFromPath routines maxRecordBytes inventorySha256 inventoryContents)
          assigned.rows = .ok bound) ↔
        (recordsFromPath routines maxRecordBytes inventorySha256 inventoryContents).failure = none ∧
          ∃ bindings, (recordsFromPath routines maxRecordBytes inventorySha256 inventoryContents).values.map
              bindingOf = bindings.map some ∧ Matching assigned.rows bindings) := by
  constructor
  · intro alike
    have both := alike fileRoutines (fun _ _ _ => []) (fun _ _ => .error .typeError) []
      (text emptyIdSha256) emptyIdFile 1
    rw [emptyIdFile_read] at both
    obtain ⟨-, pairs, returned⟩ := both.mp ⟨_, rfl⟩
    cases returned
  · intro alike
    obtain ⟨assigned, joined, rows⟩ := exampleShards_streamed
    rw [← assignmentFile_read] at joined
    have both := alike fileRoutines _ _ exampleShards _ assignmentFile 2 assigned
      (text familySha256) familyFile joined
    rw [rows, familyFile_read] at both
    obtain ⟨bound, refused⟩ := both.mpr ⟨rfl, _, rfl, exampleFamilies_match⟩
    cases refused

end

end SparseLab.Corpus.SplitJoin
