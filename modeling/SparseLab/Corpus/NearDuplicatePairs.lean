import Mathlib.Algebra.BigOperators.Group.List.Basic
import SparseLab.Corpus.NearDuplicates

/-! Which pairs of documents the screening reports. -/

namespace SparseLab.Corpus.NearDuplicates

open Library

section

variable (tools : Tools)

def shingleSet (content : Text) : Finset Nat :=
  let words := tools.words content
  if words = [] then ∅
  else ((windows (min 3 words.length) words).map fun window => tools.blake2b window % prime).toFinset

variable {tools}

theorem shingles_ok {content : Text} {cap : Int} {found : Finset Nat}
    (returned : shingles tools content cap = .ok found) : found = shingleSet tools content := by
  simp only [shingles] at returned
  simp only [shingleSet]
  by_cases empty : tools.words content = []
  · rw [if_pos empty] at returned
    rw [if_pos empty]
    cases returned
    rfl
  · rw [if_neg empty] at returned
    rw [if_neg empty]
    obtain ⟨_, _, returned⟩ := bind_eq_ok returned
    cases returned
    rfl

variable {ι κ σ : Type}

def Proposed (tools : Tools) (left right : Document ι κ σ) : Prop :=
  left.split ≠ right.split ∧ (left.contentSha256 = right.contentSha256 ∨
    ∃ key ∈ bands tools (shingleSet tools left.text), key ∈ bands tools (shingleSet tools right.text))

theorem bands_ne_nil {found : Finset Nat} (some : found ≠ ∅) :
    (0, (signature tools found).take 4) ∈ bands tools found := by
  rw [bands, if_neg some]
  exact List.mem_map.mpr ⟨0, by simp, rfl⟩

theorem proposed_of_same {left right : Document ι κ σ} (apart : left.split ≠ right.split)
    (same : shingleSet tools left.text = shingleSet tools right.text)
    (some : shingleSet tools left.text ≠ ∅) : Proposed tools left right :=
  ⟨apart, .inr ⟨_, bands_ne_nil some, same ▸ bands_ne_nil some⟩⟩

end

section

variable {ι κ σ : Type} {tools : Tools} {caps : Caps}
  {rows done rest : List (Document ι κ σ)} {row : Document ι κ σ} {screen next : Screen κ}

structure Screened (tools : Tools) (done : List (Document ι κ σ)) (screen : Screen κ) : Prop where
  buckets : Indexes screen.buckets (fun row => bands tools (shingleSet tools row.text)) done
  identical : Indexes screen.identical (fun row => [row.contentSha256]) done
  sets : screen.shingleSets = done.map fun row => shingleSet tools row.text
  pairs : ∀ first second, (first, second) ∈ screen.pairs ↔ first < second ∧ ∃ left right,
    done[first]? = some left ∧ done[second]? = some right ∧ Proposed tools left right
  once : screen.pairs.Nodup

theorem screened_empty : Screened tools ([] : List (Document ι κ σ)) emptyScreen where
  buckets := indexes_empty _
  identical := indexes_empty _
  sets := rfl
  pairs := by simp [emptyScreen]
  once := List.nodup_nil

theorem foldlM_propose {index : Nat} {matching : List Nat} {pairs later : List (Nat × Nat)}
    (once : pairs.Nodup)
    (returned : matching.foldlM (propose caps rows row index) pairs = .ok later) :
    later.Nodup ∧ ∀ pair, pair ∈ later ↔ pair ∈ pairs ∨ ∃ previous ∈ matching,
      pair = (previous, index) ∧ ∃ other, rows[previous]? = some other ∧ other.split ≠ row.split := by
  induction matching generalizing pairs with
  | nil =>
    cases returned
    simp [once]
  | cons previous matching ih =>
    rw [List.foldlM_cons] at returned
    obtain ⟨middle, step, returned⟩ := bind_eq_ok returned
    unfold propose at step
    cases found : rows[previous]? with
    | none =>
      rw [found] at step
      cases step
    | some other =>
      rw [found] at step
      simp only at step
      by_cases apart : other.split ≠ row.split
      · simp only [apart, ne_eq, not_false_eq_true, if_true] at step
        obtain ⟨_, _, step⟩ := bind_eq_ok step
        cases step
        obtain ⟨onceLater, whole⟩ := ih once.insert returned
        refine ⟨onceLater, fun pair => ?_⟩
        rw [whole, List.mem_insert_iff]
        constructor
        · rintro ((rfl | member) | ⟨another, member, rest⟩)
          · exact .inr ⟨previous, List.mem_cons_self, rfl, other, found, apart⟩
          · exact .inl member
          · exact .inr ⟨another, List.mem_cons_of_mem _ member, rest⟩
        · rintro (member | ⟨another, member, same, rest⟩)
          · exact .inl (.inr member)
          · rcases List.mem_cons.mp member with rfl | member
            · exact .inl (.inl same)
            · exact .inr ⟨another, member, same, rest⟩
      · rw [if_neg apart] at step
        cases step
        obtain ⟨onceLater, whole⟩ := ih once returned
        refine ⟨onceLater, fun pair => ?_⟩
        rw [whole]
        constructor
        · rintro (member | ⟨another, member, rest⟩)
          · exact .inl member
          · exact .inr ⟨another, List.mem_cons_of_mem _ member, rest⟩
        · rintro (member | ⟨another, member, same, others, found', apart'⟩)
          · exact .inl member
          · rcases List.mem_cons.mp member with rfl | member
            · rw [found] at found'
              cases found'
              exact absurd apart' apart
            · exact .inr ⟨another, member, same, others, found', apart'⟩

theorem Screened.matching (screened : Screened tools done screen) (row : Document ι κ σ)
    (previous : Nat) :
    previous ∈ screen.identical row.contentSha256 ++
        (bands tools (shingleSet tools row.text)).flatMap screen.buckets ↔
      ∃ other, done[previous]? = some other ∧ (other.contentSha256 = row.contentSha256 ∨
        ∃ key ∈ bands tools (shingleSet tools other.text),
          key ∈ bands tools (shingleSet tools row.text)) := by
  rw [List.mem_append, screened.identical, List.mem_flatMap]
  simp only [screened.buckets _ previous, List.mem_singleton]
  constructor
  · rintro (⟨other, found, same⟩ | ⟨key, member, other, found, inside⟩)
    · exact ⟨other, found, .inl same.symm⟩
    · exact ⟨other, found, .inr ⟨key, inside, member⟩⟩
  · rintro ⟨other, found, same | ⟨key, inside, member⟩⟩
    · exact .inl ⟨other, found, same.symm⟩
    · exact .inr ⟨key, member, other, found, inside⟩

variable [DecidableEq κ]

theorem Screened.screenRow (screened : Screened tools done screen) (whole : rows = done ++ row :: rest)
    (admitted : screenRow tools caps rows screen (row, done.length) = .ok next) :
    Screened tools (done ++ [row]) next := by
  obtain ⟨_, _, admitted⟩ := bind_eq_ok admitted
  obtain ⟨found, shingled, admitted⟩ := bind_eq_ok admitted
  obtain ⟨_, _, admitted⟩ := bind_eq_ok admitted
  obtain ⟨pairs, proposed, admitted⟩ := bind_eq_ok admitted
  obtain ⟨identical, posted, admitted⟩ := bind_eq_ok admitted
  obtain ⟨buckets, posted', admitted⟩ := bind_eq_ok admitted
  cases admitted
  rw [shingles_ok shingled] at proposed posted' ⊢
  obtain ⟨once, proposes⟩ := foldlM_propose screened.once proposed
  refine ⟨screened.buckets.post posted', screened.identical.post posted, ?_, ?_, once⟩
  · simp [screened.sets]
  · intro first second
    simp only [proposes, List.mem_insertionSort, List.mem_dedup, screened.matching,
      screened.pairs first second, Prod.mk.injEq]
    constructor
    · rintro (⟨below, left, right, atFirst, atSecond, pair⟩ |
        ⟨previous, ⟨other, earlier, share⟩, ⟨rfl, rfl⟩, other', inRows, apart⟩)
      · have bound := (List.getElem?_eq_some_iff.mp atSecond).1
        refine ⟨below, left, right, ?_, ?_, pair⟩
        · rw [List.getElem?_append_left (by omega), atFirst]
        · rw [List.getElem?_append_left bound, atSecond]
      · have bound := (List.getElem?_eq_some_iff.mp earlier).1
        rw [whole, List.getElem?_append_left bound, earlier, Option.some.injEq] at inRows
        subst inRows
        refine ⟨bound, other, row, ?_, by simp, apart, share⟩
        rw [List.getElem?_append_left bound, earlier]
    · rintro ⟨below, left, right, atFirst, atSecond, pair⟩
      have bound := (List.getElem?_eq_some_iff.mp atSecond).1
      rw [List.length_append, List.length_singleton] at bound
      rw [List.getElem?_append_left (by omega)] at atFirst
      by_cases last : second = done.length
      · subst last
        rw [List.getElem?_concat_length, Option.some.injEq] at atSecond
        subst atSecond
        refine .inr ⟨first, ⟨left, atFirst, pair.2⟩, ⟨rfl, rfl⟩, left, ?_, pair.1⟩
        rw [whole, List.getElem?_append_left (by omega), atFirst]
      · rw [List.getElem?_append_left (by omega)] at atSecond
        exact .inl ⟨below, left, right, atFirst, atSecond, pair⟩

theorem Screened.foldlM (screened : Screened tools done screen) (whole : rows = done ++ rest)
    (returned : (rest.zipIdx done.length).foldlM (NearDuplicates.screenRow tools caps rows) screen =
      .ok next) : Screened tools rows next := by
  induction rest generalizing done screen with
  | nil =>
    cases returned
    rw [whole, List.append_nil]
    exact screened
  | cons row rest ih =>
    rw [List.zipIdx_cons, List.foldlM_cons] at returned
    obtain ⟨middle, admitted, returned⟩ := bind_eq_ok returned
    refine ih (screened.screenRow whole admitted) (by simp [whole]) ?_
    rw [List.length_append, List.length_singleton]
    exact returned

end

section

variable {ι κ σ : Type} [DecidableEq κ] (tools : Tools) (caps : Caps)

def Close (left right : Document ι κ σ) : Prop :=
  left.contentSha256 = right.contentSha256 ∨
    caps.minJaccard ≤ similarity tools (left.contentSha256 = right.contentSha256)
      (shingleSet tools left.text) (shingleSet tools right.text)

instance (left right : Document ι κ σ) : Decidable (Close tools caps left right) :=
  inferInstanceAs (Decidable (_ ∨ _))

def candidateFor (left right : Document ι κ σ) : Candidate ι κ σ :=
  candidateOf tools left right (shingleSet tools left.text) (shingleSet tools right.text)

def scored (rows : List (Document ι κ σ)) (pair : Nat × Nat) : Option (Candidate ι κ σ) :=
  match rows[pair.1]?, rows[pair.2]? with
  | some left, some right =>
    if Close tools caps left right then some (candidateFor tools left right) else none
  | _, _ => none

variable {tools caps} {rows : List (Document ι κ σ)}

theorem foldlM_score {pairs : List (Nat × Nat)} {found later : List (Candidate ι κ σ)}
    (returned : pairs.foldlM
      (score tools caps rows (rows.map fun row => shingleSet tools row.text)) found = .ok later) :
    later = found ++ pairs.filterMap (scored tools caps rows) := by
  induction pairs generalizing found with
  | nil =>
    cases returned
    simp
  | cons pair pairs ih =>
    rw [List.foldlM_cons] at returned
    obtain ⟨middle, step, returned⟩ := bind_eq_ok returned
    rw [ih returned, List.filterMap_cons]
    unfold score at step
    rw [List.getElem?_map, List.getElem?_map] at step
    cases first : rows[pair.1]? with
    | none =>
      rw [first] at step
      cases step
    | some left =>
      cases second : rows[pair.2]? with
      | none =>
        rw [first, second] at step
        cases step
      | some right =>
        rw [first, second] at step
        simp only [Option.map_some] at step
        by_cases close : Close tools caps left right
        · rw [if_pos (by simpa [Close, candidateOf] using close)] at step
          obtain ⟨_, _, step⟩ := bind_eq_ok step
          cases step
          simp [scored, first, second, close, candidateFor]
        · rw [if_neg (by simpa [Close, candidateOf] using close)] at step
          cases step
          simp [scored, first, second, close]

theorem similarity_same {found : Finset Nat} (some : found ≠ ∅) (exact : Bool) :
    similarity tools exact found found = 1 := by
  have positive : found.card ≠ 0 := Finset.card_ne_zero.mpr (Finset.nonempty_iff_ne_empty.mpr some)
  rw [similarity, Finset.union_self, Finset.inter_self, if_pos positive, div_self, tools.nearest_one]
  exact_mod_cast positive

theorem close_of_same (valid : ¬ caps.Invalid) {left right : Document ι κ σ}
    (same : shingleSet tools left.text = shingleSet tools right.text)
    (some : shingleSet tools left.text ≠ ∅) : Close tools caps left right := by
  right
  rw [← same, similarity_same some]
  simp only [Caps.Invalid, not_or, not_not] at valid
  exact valid.2.2.2.2.2.2.2.2

end

section

variable {ι κ σ : Type} {caps : Caps}

structure Readable (caps : Caps) (documents : List (Document ι κ σ)) : Prop where
  encodable : ∀ row ∈ documents, utf8Length row.text ≠ none
  few : (documents.length : Int) ≤ caps.maxDocuments
  short : (((documents.map fun row => (utf8Length row.text).getD 0).sum : Nat) : Int) ≤
    caps.maxInputTextBytes

theorem Readable.perm {documents others : List (Document ι κ σ)}
    (readable : Readable caps documents) (perm : documents.Perm others) : Readable caps others where
  encodable row member := readable.encodable row (perm.mem_iff.mpr member)
  few := perm.length_eq ▸ readable.few
  short := (perm.map fun row => (utf8Length row.text).getD 0).sum_eq ▸ readable.short

theorem foldlM_collect {documents : List (Document ι κ σ)} {read : List (Document ι κ σ) × Nat}
    (few : (read.1.length : Int) ≤ caps.maxDocuments)
    (short : (read.2 : Int) ≤ caps.maxInputTextBytes) (rows : List (Document ι κ σ)) :
    (∃ length, documents.foldlM (collect caps) read = .ok (rows, length)) ↔
      rows = read.1 ++ documents ∧ (∀ row ∈ documents, utf8Length row.text ≠ none) ∧
        (read.1.length + documents.length : Int) ≤ caps.maxDocuments ∧
        (read.2 + ((documents.map fun row => (utf8Length row.text).getD 0).sum : Nat) : Int) ≤
          caps.maxInputTextBytes := by
  induction documents generalizing read with
  | nil =>
    simp only [List.foldlM_nil, List.append_nil, List.length_nil, List.map_nil, List.sum_nil]
    constructor
    · rintro ⟨length, returned⟩
      cases returned
      simpa using ⟨few, short⟩
    · rintro ⟨rfl, _⟩
      exact ⟨read.2, rfl⟩
  | cons row documents ih =>
    rw [List.foldlM_cons]
    by_cases full : (read.1.length : Int) ≥ caps.maxDocuments
    · rw [collect, refuseIf_raises full]
      constructor
      · rintro ⟨length, returned⟩
        cases returned
      · rintro ⟨_, _, bound, _⟩
        rw [List.length_cons] at bound
        push_cast at bound
        omega
    · rw [collect, refuseIf_bind full]
      cases width : utf8Length row.text with
      | none =>
        constructor
        · rintro ⟨length, returned⟩
          cases returned
        · rintro ⟨_, encodable, _⟩
          exact absurd width (encodable row List.mem_cons_self)
      | some bytes =>
        simp only
        by_cases large : ((read.2 + bytes : Nat) : Int) > caps.maxInputTextBytes
        · rw [refuseIf_raises large]
          constructor
          · rintro ⟨length, returned⟩
            cases returned
          · rintro ⟨_, _, _, bound⟩
            simp only [List.map_cons, List.sum_cons, width, Option.getD_some] at bound
            omega
        · rw [refuseIf_bind large]
          change (∃ length, documents.foldlM (collect caps) (read.1 ++ [row], read.2 + bytes) =
            .ok (rows, length)) ↔ _
          rw [ih (by simp only [List.length_append, List.length_singleton]; push_cast; omega)
            (by simp only; omega)]
          simp only [List.append_assoc, List.singleton_append, List.forall_mem_cons, width,
            List.length_append, List.length_nil, List.length_cons, List.map_cons,
            List.sum_cons, Option.getD_some]
          constructor
          · rintro ⟨same, encodable, bound, bound'⟩
            exact ⟨same, ⟨by simp, encodable⟩, by omega, by omega⟩
          · rintro ⟨same, ⟨_, encodable⟩, bound, bound'⟩
            exact ⟨same, encodable, by omega, by omega⟩

theorem readable_iff {documents : List (Document ι κ σ)} (valid : ¬ caps.Invalid)
    {rows : List (Document ι κ σ)} :
    (∃ length, documents.foldlM (collect caps) ([], 0) = .ok (rows, length)) ↔
      rows = documents ∧ Readable caps documents := by
  simp only [Caps.Invalid, not_or] at valid
  rw [foldlM_collect (by simp; omega) (by simp; omega)]
  simp only [List.nil_append, List.length_nil, Nat.cast_zero, zero_add]
  constructor
  · rintro ⟨same, encodable, few, short⟩
    exact ⟨same, encodable, few, short⟩
  · rintro ⟨same, readable⟩
    exact ⟨same, readable.encodable, readable.few, readable.short⟩

end

section

variable {ι κ σ : Type} [LinearOrder ι] {documents others : List (Document ι κ σ)}

theorem perm_sortedRows (documents : List (Document ι κ σ)) : (sortedRows documents).Perm documents :=
  List.perm_insertionSort _ _

theorem sortedRows_lt (unique : (documents.map Document.documentId).Nodup) :
    (sortedRows documents).Pairwise fun first second => first.documentId < second.documentId := by
  have total : Std.Total fun first second : Document ι κ σ =>
      first.documentId ≤ second.documentId := ⟨fun _ _ => le_total _ _⟩
  have trans : IsTrans (Document ι κ σ) fun first second =>
      first.documentId ≤ second.documentId := ⟨fun _ _ _ => le_trans⟩
  have sorted : (sortedRows documents).Pairwise fun first second =>
      first.documentId ≤ second.documentId :=
    List.pairwise_insertionSort _ documents
  have distinct : (sortedRows documents).Pairwise fun first second =>
      first.documentId ≠ second.documentId := by
    rw [← List.pairwise_map]
    exact ((perm_sortedRows documents).map _).nodup_iff.mpr unique
  exact (sorted.and distinct).imp fun both => lt_of_le_of_ne both.1 both.2

theorem sortedRows_perm (perm : documents.Perm others)
    (unique : (documents.map Document.documentId).Nodup) :
    sortedRows others = sortedRows documents := by
  have unique' : (others.map Document.documentId).Nodup := (perm.map _).nodup_iff.mp unique
  refine List.Perm.eq_of_pairwise (fun first second _ _ below above => absurd above below.asymm)
    (sortedRows_lt unique') (sortedRows_lt unique) ?_
  exact (perm_sortedRows others).trans (perm.symm.trans (perm_sortedRows documents).symm)

theorem position_lt {rows : List (Document ι κ σ)}
    (rising : rows.Pairwise fun first second => first.documentId < second.documentId)
    {first second : Nat} {left right : Document ι κ σ} (atFirst : rows[first]? = some left)
    (atSecond : rows[second]? = some right) :
    left.documentId < right.documentId ↔ first < second := by
  obtain ⟨bound, rfl⟩ := List.getElem?_eq_some_iff.mp atFirst
  obtain ⟨bound', rfl⟩ := List.getElem?_eq_some_iff.mp atSecond
  have order := List.pairwise_iff_getElem.mp rising
  rcases Nat.lt_trichotomy first second with below | same | above
  · exact ⟨fun _ => below, fun _ => order first second bound bound' below⟩
  · subst same
    simp
  · have reversed := order second first bound' bound above
    exact ⟨fun less => absurd less reversed.asymm, fun less => by omega⟩

end

section

variable {ι κ σ : Type} [LinearOrder ι] [DecidableEq κ] {tools : Tools} {caps : Caps}
  {documents others : List (Document ι κ σ)} {report : Report ι κ σ}

structure Exact (tools : Tools) (caps : Caps) (documents : List (Document ι κ σ))
    (report : Report ι κ σ) : Prop where
  reported : ∀ candidate, candidate ∈ report.candidates ↔ ∃ left ∈ documents, ∃ right ∈ documents,
    left.documentId < right.documentId ∧ Proposed tools left right ∧ Close tools caps left right ∧
      candidate = candidateFor tools left right
  once : (report.candidates.map fun candidate =>
    (candidate.leftDocumentId, candidate.rightDocumentId)).Nodup
  identical : ∀ left ∈ documents, ∀ right ∈ documents, left.documentId < right.documentId →
    left.split ≠ right.split → (left.contentSha256 = right.contentSha256 ∨
      (shingleSet tools left.text = shingleSet tools right.text ∧ shingleSet tools left.text ≠ ∅)) →
    candidateFor tools left right ∈ report.candidates
  counted : report.documentCount = documents.length

theorem candidates_ok (returned : candidates tools caps documents = .ok report) :
    ¬ caps.Invalid ∧ Readable caps documents ∧ (documents.map Document.documentId).Nodup ∧ ∃ screen,
      Screened tools (sortedRows documents) screen ∧
        report.candidates =
          (screen.pairs.insertionSort PairLe).filterMap (scored tools caps (sortedRows documents)) ∧
        report.documentCount = documents.length := by
  obtain ⟨_, valid, returned⟩ := bind_eq_ok returned
  rw [refuseIf_ok] at valid
  obtain ⟨⟨read, length⟩, collected, returned⟩ := bind_eq_ok returned
  have same := (readable_iff valid).mp ⟨length, collected⟩
  rw [same.1] at returned
  obtain ⟨_, unique, returned⟩ := bind_eq_ok returned
  rw [refuseIf_ok, not_not] at unique
  obtain ⟨screen, run, returned⟩ := bind_eq_ok returned
  obtain ⟨found, scores, returned⟩ := bind_eq_ok returned
  cases returned
  have screened : Screened tools (sortedRows documents) screen := screened_empty.foldlM rfl run
  rw [screened.sets] at scores
  refine ⟨valid, same.2, ((perm_sortedRows documents).map _).nodup_iff.mp unique, screen, screened,
    ?_, (perm_sortedRows documents).length_eq⟩
  simpa using foldlM_score scores

theorem exact_of_ok (returned : candidates tools caps documents = .ok report) :
    Exact tools caps documents report := by
  obtain ⟨valid, _, unique, screen, screened, listed, counted⟩ := candidates_ok returned
  have rising := sortedRows_lt unique
  have reported : ∀ candidate, candidate ∈ report.candidates ↔
      ∃ left ∈ documents, ∃ right ∈ documents, left.documentId < right.documentId ∧
        Proposed tools left right ∧ Close tools caps left right ∧
          candidate = candidateFor tools left right := by
    intro candidate
    simp only [listed, List.mem_filterMap, List.mem_insertionSort, Prod.exists,
      screened.pairs]
    constructor
    · rintro ⟨first, second, ⟨below, left, right, atFirst, atSecond, proposed⟩, result⟩
      simp only [scored, atFirst, atSecond, Option.ite_none_right_eq_some,
        Option.some.injEq] at result
      exact ⟨left, (perm_sortedRows documents).mem_iff.mp (List.mem_of_getElem? atFirst), right,
        (perm_sortedRows documents).mem_iff.mp (List.mem_of_getElem? atSecond),
        (position_lt rising atFirst atSecond).mpr below, proposed, result.1, result.2.symm⟩
    · rintro ⟨left, leftMember, right, rightMember, below, proposed, close, rfl⟩
      obtain ⟨first, atFirst⟩ :=
        List.mem_iff_getElem?.mp ((perm_sortedRows documents).mem_iff.mpr leftMember)
      obtain ⟨second, atSecond⟩ :=
        List.mem_iff_getElem?.mp ((perm_sortedRows documents).mem_iff.mpr rightMember)
      refine ⟨first, second, ⟨(position_lt rising atFirst atSecond).mp below, left, right, atFirst,
        atSecond, proposed⟩, ?_⟩
      simp [scored, atFirst, atSecond, close]
  refine ⟨reported, ?_, ?_, counted⟩
  · rw [listed, List.map_filterMap]
    refine List.Nodup.filterMap ?_ ((List.perm_insertionSort _ _).nodup_iff.mpr screened.once)
    rintro ⟨first, second⟩ ⟨first', second'⟩ ids here here'
    simp only [Option.mem_def, Option.map_eq_some_iff] at here here'
    obtain ⟨candidate, result, rfl⟩ := here
    obtain ⟨candidate', result', same⟩ := here'
    unfold scored at result result'
    split at result
    · rename_i left right atFirst atSecond
      split at result'
      · rename_i left' right' atFirst' atSecond'
        simp only [Option.ite_none_right_eq_some, Option.some.injEq] at result result'
        obtain ⟨_, rfl⟩ := result
        obtain ⟨_, rfl⟩ := result'
        simp only [candidateFor, candidateOf, Prod.mk.injEq] at same
        have firsts : first = first' := by
          have order := position_lt rising atFirst atFirst'
          have order' := position_lt rising atFirst' atFirst
          rw [same.1, lt_self_iff_false, false_iff] at order order'
          omega
        have seconds : second = second' := by
          have order := position_lt rising atSecond atSecond'
          have order' := position_lt rising atSecond' atSecond
          rw [same.2, lt_self_iff_false, false_iff] at order order'
          omega
        rw [firsts, seconds]
      · cases result'
    · cases result
  · intro left leftMember right rightMember below apart same
    refine (reported _).mpr ⟨left, leftMember, right, rightMember, below, ?_⟩
    rcases same with content | ⟨sets, some⟩
    · exact ⟨⟨apart, .inl content⟩, .inl content, rfl⟩
    · exact ⟨proposed_of_same apart sets some, close_of_same valid sets some, rfl⟩

theorem candidates_perm (perm : documents.Perm others)
    (returned : candidates tools caps documents = .ok report) :
    candidates tools caps others = .ok report := by
  obtain ⟨valid, readable, unique, _⟩ := candidates_ok returned
  obtain ⟨length, collected⟩ := (readable_iff valid).mpr ⟨rfl, readable⟩
  obtain ⟨length', collected'⟩ := (readable_iff valid).mpr ⟨rfl, readable.perm perm⟩
  rw [candidates, refuseIf_bind valid, collected] at returned
  rw [candidates, refuseIf_bind valid, collected']
  simp only [bind, Except.bind] at returned ⊢
  rw [sortedRows_perm perm unique]
  exact returned

/-- A report is exact, and the same in any order of the documents. -/
theorem near_duplicates (tools : Tools) (caps : Caps) (documents : List (Document ι κ σ)) :
    (∀ report, candidates tools caps documents = .ok report →
      Exact tools caps documents report) ∧
    ∀ others, documents.Perm others → ∀ report,
      candidates tools caps others = .ok report ↔ candidates tools caps documents = .ok report :=
  ⟨fun _ => exact_of_ok, fun _ perm _ => ⟨candidates_perm perm.symm, candidates_perm perm⟩⟩

def oneWord : Tools where
  words content := [content]
  sha256 content := content.sum
  blake2b content := content.sum
  nearest := id
  nearest_one := rfl

def twoDocuments : List (Document Nat Nat Nat) :=
  [⟨7, text "train", text "same", 1, none, some 4⟩, ⟨5, text "test", text "same", 2, some 3, none⟩]

def twoDocumentsReport : Report Nat Nat Nat where
  algorithm := "word_shingle_minhash_lsh_v1"
  limitations := "Lexical candidates only; LSH is not exhaustive and does not establish " ++
    "semantic independence."
  parameters := { minJaccard := 13 / 20 }
  documentCount := 2
  crossSplitComparisons := 1
  candidates := [⟨5, text "test", some 3, none, 2, 7, text "train", none, some 4, 1, 1, 1, 1, false⟩]

theorem near_duplicates_of_two :
    Exact oneWord { minJaccard := 13 / 20 } twoDocuments twoDocumentsReport ∧
      candidates oneWord { minJaccard := 13 / 20 } twoDocuments.reverse = .ok twoDocumentsReport := by
  have returned : candidates oneWord { minJaccard := 13 / 20 } twoDocuments =
      .ok twoDocumentsReport := by
    decide +kernel
  have screened := near_duplicates oneWord { minJaccard := 13 / 20 } twoDocuments
  exact ⟨screened.1 _ returned,
    (screened.2 _ (List.reverse_perm twoDocuments).symm _).mpr returned⟩

end

end SparseLab.Corpus.NearDuplicates
