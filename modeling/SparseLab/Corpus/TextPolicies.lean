import SparseLab.Corpus.TextAgreement

/-! The condition under which the three policies of release schema 2 are one. -/

namespace SparseLab.Corpus

open Library

variable {Id Key Rights Digest : Type} {documents : List (Document Id Key)}

def RefusedText (rights : Id → Rights) (documents : List (Document Id Key)) : Prop :=
  ∃ one ∈ documents, ∃ other ∈ documents,
    (TextShares one other ∧ one.split ≠ other.split) ∨
      (one.contentSha256 = other.contentSha256 ∧
        rights one.documentId ≠ rights other.documentId)

def KeepsApart (documents : List (Document Id Key)) (resolution : Resolution Id Key) : Prop :=
  ∀ one ∈ documents, ∀ other ∈ documents, Retained resolution one → Retained resolution other →
    TextShares one other → one = other

section

variable [LinearOrder Id] [LinearOrder Key] [DecidableEq Rights] {rights : Id → Rights}

theorem textGroup_exists {method : Method} {key : Key}
    (several : 1 < (mappingGroup documents method key).length) :
    (∃ group, (indexPrepared documents).textGroup rights method key = .ok group) ↔
      (¬ ∃ one ∈ mappingGroup documents method key, ∃ other ∈ mappingGroup documents method key,
        one.split ≠ other.split) ∧
      ¬ (method = .normalized ∧ ∃ one ∈ mappingGroup documents method key,
        ∃ other ∈ mappingGroup documents method key,
          rights one.documentId ≠ rights other.documentId) := by
  have length : (sortedDocuments (mappingGroup documents method key)).length =
      (mappingGroup documents method key).length := (List.perm_insertionSort _ _).length_eq
  have same : ∀ document, document ∈ mappingGroup documents method key ↔
      document ∈ sortedDocuments (mappingGroup documents method key) :=
    fun _ => mem_sortedDocuments.symm
  simp only [same]
  rw [← length] at several
  rw [Index.textGroup, documents_of_rows]
  generalize sortedDocuments (mappingGroup documents method key) = members at several
  cases members with
  | nil => simp at several
  | cons first rest =>
    have crosses : (∃ one ∈ first :: rest, ∃ other ∈ first :: rest, one.split ≠ other.split) ↔
        1 < (splitSet ((first :: rest).map (·.split))).length := by
      rw [splitSet_length]
      simp only [List.mem_map, exists_exists_and_eq_and]
    have clashes : (∃ one ∈ first :: rest, ∃ other ∈ first :: rest,
        rights one.documentId ≠ rights other.documentId) ↔
        signatureChanges ((first :: rest).map fun document =>
          rights document.documentId) = true := by
      rw [signatureChanges_iff]
      simp only [List.mem_map, exists_exists_and_eq_and]
    rw [crosses, clashes]
    constructor
    · rintro ⟨group, made⟩
      simp only [refuseIf_bind_eq_ok] at made
      exact ⟨made.1, made.2.1⟩
    · rintro ⟨apart, compatible⟩
      exact ⟨_, (refuseIf_bind apart).trans (refuseIf_bind compatible)⟩

theorem textGroups_exists :
    (∃ groups, textGroups rights documents = .ok groups) ↔ ¬ RefusedText rights documents := by
  have repeated : ∀ {method : Method} {key : Key} {one other : Document Id Key},
      method ∈ textMethods → one ∈ documents → other ∈ documents → one ≠ other →
      key ∈ one.keys method → key ∈ other.keys method →
        (method, key) ∈ (textKeys documents).filter (repeatedKey documents) := by
    intro method key one other known oneIn otherIn differ oneKey otherKey
    refine List.mem_filter.mpr ⟨mem_textKeys.mpr ⟨known, one, oneIn, oneKey⟩, decide_eq_true ?_⟩
    by_contra short
    have few : (mappingGroup documents method key).length < 2 :=
      Nat.lt_succ_of_le (Nat.le_of_not_lt short)
    exact differ (eq_of_short few (mem_mappingGroup.mpr ⟨oneIn, oneKey⟩)
      (mem_mappingGroup.mpr ⟨otherIn, otherKey⟩))
  rw [textGroups, mapM_exists]
  constructor
  · rintro each ⟨one, oneIn, other, otherIn, reason⟩
    rcases reason with ⟨shares, splits⟩ | ⟨content, differ⟩
    · obtain ⟨method, known, key, oneKey, otherKey⟩ := textShares_iff.mp shares
      have apart : one ≠ other := fun same => splits (by rw [same])
      have listed := repeated known oneIn otherIn apart oneKey otherKey
      have several := of_decide_eq_true (List.mem_filter.mp listed).2
      exact ((textGroup_exists several).mp (each _ listed)).1
        ⟨one, mem_mappingGroup.mpr ⟨oneIn, oneKey⟩, other,
          mem_mappingGroup.mpr ⟨otherIn, otherKey⟩, splits⟩
    · have apart : one ≠ other := fun same => differ (by rw [same])
      have oneKey : one.contentSha256 ∈ one.keys .normalized := List.mem_singleton_self _
      have otherKey : one.contentSha256 ∈ other.keys .normalized := List.mem_singleton.mpr content
      have listed := repeated (by decide) oneIn otherIn apart oneKey otherKey
      have several := of_decide_eq_true (List.mem_filter.mp listed).2
      exact ((textGroup_exists several).mp (each _ listed)).2
        ⟨rfl, one, mem_mappingGroup.mpr ⟨oneIn, oneKey⟩, other,
          mem_mappingGroup.mpr ⟨otherIn, otherKey⟩, differ⟩
  · rintro accepted ⟨method, key⟩ listed
    have several := of_decide_eq_true (List.mem_filter.mp listed).2
    have known := (mem_textKeys.mp (List.mem_of_mem_filter listed)).1
    rw [textGroup_exists several]
    constructor
    · rintro ⟨one, oneHere, other, otherHere, splits⟩
      rw [mem_mappingGroup] at oneHere otherHere
      exact accepted ⟨one, oneHere.1, other, otherHere.1, Or.inl
        ⟨textShares_iff.mpr ⟨method, known, key, oneHere.2, otherHere.2⟩, splits⟩⟩
    · rintro ⟨rfl, one, oneHere, other, otherHere, differ⟩
      rw [mem_mappingGroup] at oneHere otherHere
      have content : one.contentSha256 = other.contentSha256 :=
        (List.mem_singleton.mp oneHere.2).symm.trans (List.mem_singleton.mp otherHere.2)
      exact accepted ⟨one, oneHere.1, other, otherHere.1, Or.inr ⟨content, differ⟩⟩

end

section

theorem textReason_none {document : Document Id Key} {duplicate : Bool}
    (kept : textReason document duplicate = none) : duplicate = false := by
  unfold textReason at kept
  split at kept
  · cases kept
  · split at kept
    · cases kept
    · exact Bool.not_eq_true _ ▸ ‹¬ duplicate = true›

variable [LinearOrder Id] {resolution : Resolution Id Key}
  {wins : Document Id Key → Document Id Key → Prop} {order : List (Document Id Key)}

theorem retained_wins (distinct : (documents.map (·.documentId)).Nodup)
    (reordered : order.Perm documents)
    (inside : ∀ document winner, wins document winner → winner ∈ documents)
    (verdicts : List.Forall₂ (fun document verdict => ∃ winner, wins document winner ∧
      verdict = leastVerdict document winner) order resolution.verdicts)
    {document : Document Id Key} (member : document ∈ documents)
    (retained : Retained resolution document) : wins document document := by
  obtain ⟨verdict, listed, sameId, kept⟩ := retained
  obtain ⟨other, otherIn, winner, won, rfl⟩ := forall₂_right verdicts listed
  have same : other = document :=
    eq_of_documentId distinct (reordered.mem_iff.mp otherIn) member sameId
  subst same
  have own := textReason_none kept
  rw [decide_eq_false_iff_not, not_not] at own
  rwa [eq_of_documentId distinct (inside _ _ won) member own] at won

theorem keepsApart (distinct : (documents.map (·.documentId)).Nodup)
    (reordered : order.Perm documents)
    (inside : ∀ document winner, wins document winner → winner ∈ documents)
    (leads : ∀ document, wins document document → Leads documents document document)
    (verdicts : List.Forall₂ (fun document verdict => ∃ winner, wins document winner ∧
      verdict = leastVerdict document winner) order resolution.verdicts) :
    KeepsApart documents resolution := by
  intro one oneIn other otherIn oneKept otherKept shares
  have oneLeads := leads one (retained_wins distinct reordered inside verdicts oneIn oneKept)
  have otherLeads := leads other (retained_wins distinct reordered inside verdicts otherIn otherKept)
  exact eq_of_documentId distinct oneIn otherIn (le_antisymm
    (oneLeads.2.2 other otherIn shares) (otherLeads.2.2 one oneIn shares.symm))

end

section

variable [LinearOrder Id]

theorem textLeast_leads {document winner : Document Id Key}
    (least : TextLeast documents document winner) :
    Leads documents winner winner := by
  refine ⟨least.1, textShares_refl winner, ?_⟩
  intro other otherIn shares
  exact least.2.2 other otherIn (Relation.EqvGen.trans _ _ _ least.2.1
    (Relation.EqvGen.rel _ _ ⟨least.1, otherIn, shares⟩))

variable [LinearOrder Key] [DecidableEq Rights] [DecidableEq Digest]
  {signature : Id → Digest} {rights : Id → Rights} {groups : List (DuplicateGroup Id Key)}

def PoliciesAgree (signature : Id → Digest) (rights : Id → Rights)
    (documents : List (Document Id Key)) : Prop :=
  (∃ failure, resolveTextStored rights documents = .error failure ∧
      deduplicateText rights (indexPrepared documents) = .error failure ∧
      resolveTextStreamed signature documents = .error failure) ∨
    ∃ stored indexed streamed, resolveTextStored rights documents = .ok stored ∧
      deduplicateText rights (indexPrepared documents) = .ok indexed ∧
      resolveTextStreamed signature documents = .ok streamed ∧
      indexed.groups = stored.groups ∧ streamed.groups = stored.groups ∧
      indexed.verdicts.Perm stored.verdicts ∧ streamed.verdicts.Perm stored.verdicts ∧
      KeepsApart documents stored ∧ KeepsApart documents indexed ∧ KeepsApart documents streamed

def LeastLeads (documents : List (Document Id Key)) : Prop :=
  ∀ document ∈ documents, Leads documents document document →
    ∀ other ∈ documents, TextConnected documents document other →
      document.documentId ≤ other.documentId

def Ends (documents : List (Document Id Key)) (groups : List (DuplicateGroup Id Key))
    (document winner : Document Id Key) : Prop :=
  endOf documents groups document.documentId = winner.documentId ∧
    TextConnected documents document winner ∧ Leads documents winner winner

section

variable (distinct : (documents.map (·.documentId)).Nodup)

include distinct

theorem ends_exists
    (grouped : textGroups rights documents = .ok groups) {document : Document Id Key}
    (member : document ∈ documents) : ∃ winner, Ends documents groups document winner := by
  obtain ⟨steps, -, top, climbs⟩ := links_climbs grouped document.documentId
  obtain ⟨winner, rfl, connected, leads⟩ := chain_document distinct grouped member climbs
  exact ⟨winner, endOf_climbs grouped climbs, connected, leads⟩

theorem chain_verdicts
    (grouped : textGroups rights documents = .ok groups) {order : List (Document Id Key)}
    (reordered : order.Perm documents) :
    List.Forall₂ (fun document verdict => ∃ winner, Ends documents groups document winner ∧
      verdict = leastVerdict document winner) order
        (order.map (textVerdict (endOf documents groups))) := by
  rw [List.forall₂_map_right_iff, List.forall₂_same]
  intro document member
  obtain ⟨winner, ends⟩ := ends_exists distinct grouped (reordered.mem_iff.mp member)
  refine ⟨winner, ends, ?_⟩
  rw [textVerdict, leastVerdict, ends.1]

theorem endOf_leads
    (grouped : textGroups rights documents = .ok groups) {document : Document Id Key}
    (leads : Leads documents document document) :
    endOf documents groups document.documentId = document.documentId := by
  obtain ⟨leader, leaderLeads, same⟩ := links_document distinct grouped leads.1
  have own : leader.documentId = document.documentId :=
    le_antisymm (leaderLeads.2.2 document leads.1 (textShares_refl document))
      (leads.2.2 leader leaderLeads.1 leaderLeads.2.1)
  exact endOf_climbs grouped (Climbs.root (same.trans own))

theorem streamed_agrees_iff
    (grouped : textGroups rights documents = .ok groups) {verdicts : List (Verdict Id)}
    (streamed : List.Forall₂ (fun document verdict => ∃ winner,
      TextLeast documents document winner ∧ verdict = leastVerdict document winner)
        (sortedDocuments documents) verdicts) :
    verdicts.Perm ((sortedDocuments documents).map (textVerdict (endOf documents groups))) ↔
      LeastLeads documents := by
  have reordered : (sortedDocuments documents).Perm documents := List.perm_insertionSort _ _
  have stored := chain_verdicts distinct grouped reordered
  constructor
  · intro same document member leads other otherIn connected
    have sorted := reordered.mem_iff.mpr member
    obtain ⟨verdict, listed, winner, ends, rfl⟩ := forall₂_left stored sorted
    obtain ⟨again, againIn, least, leastWins, sameVerdict⟩ :=
      forall₂_right streamed (same.mem_iff.mpr listed)
    obtain ⟨sameId, sameWinner, -⟩ := Verdict.mk.inj sameVerdict
    have sameDocument : document = again :=
      eq_of_documentId distinct member (reordered.mem_iff.mp againIn) sameId
    subst sameDocument
    rw [← ends.1, endOf_leads distinct grouped leads] at sameWinner
    rw [sameWinner]
    exact leastWins.2.2 other otherIn connected
  · intro nested
    have each : List.Forall₂ (fun document verdict =>
        textVerdict (endOf documents groups) document = verdict) (sortedDocuments documents)
          verdicts := by
      refine List.Forall₂.imp ?_ ((List.forall₂_and_left _ _).mpr
        ⟨fun document member => reordered.mem_iff.mp member, streamed⟩)
      rintro document _ ⟨member, winner, least, rfl⟩
      obtain ⟨last, ends, connected, leads⟩ := ends_exists distinct grouped member
      have back := Relation.EqvGen.trans _ _ _ (Relation.EqvGen.symm _ _ connected) least.2.1
      have sameId : last.documentId = winner.documentId :=
        le_antisymm (nested last leads.1 leads winner least.1 back)
          (least.2.2 last leads.1 connected)
      rw [textVerdict, leastVerdict, ends, sameId]
    rw [← List.forall₂_map_left_iff, List.forall₂_eq_eq_eq] at each
    rw [each]

end

/-- The three policies are one exactly when they refuse, or when every document that is the
least of those it shares text with is the least of its component. -/
theorem text_policies_agree_iff (set : DocumentSet Id Key)
    (collisionFree : CollisionFree signature rights set.documents) :
    PoliciesAgree signature rights set.documents ↔
      RefusedText rights set.documents ∨ LeastLeads set.documents := by
  have distinct := set.distinct
  have reordered : (sortedDocuments set.documents).Perm set.documents :=
    List.perm_insertionSort _ _
  have accepted : (∃ groups, textGroups rights set.documents = .ok groups) ↔
      ¬ RefusedText rights set.documents := textGroups_exists
  have inMemory : resolveTextStored rights set.documents = _ := resolveTextStored_eq distinct
  have onDisk : deduplicateText rights (indexPrepared set.documents) = _ := deduplicateText_eq
  cases grouped : textGroups rights set.documents with
  | error failure =>
    have refused : RefusedText rights set.documents := by
      by_contra fine
      obtain ⟨groups, made⟩ := accepted.mpr fine
      rw [made] at grouped
      cases grouped
    rw [grouped] at inMemory onDisk
    exact iff_of_true (Or.inl ⟨failure, inMemory, onDisk,
      resolveTextStreamed_error distinct collisionFree grouped⟩) (Or.inl refused)
  | ok groups =>
    have fine : ¬ RefusedText rights set.documents := accepted.mp ⟨groups, grouped⟩
    obtain ⟨verdicts, streamed, leasts⟩ := resolveTextStreamed_ok distinct collisionFree grouped
    rw [grouped] at inMemory onDisk
    rw [or_iff_right fine, ← streamed_agrees_iff distinct grouped leasts]
    constructor
    · rintro (⟨failure, raised, -, -⟩ | ⟨stored, indexed, again, storedOk, -, streamedOk, -, -, -,
        same, -⟩)
      · rw [inMemory] at raised
        cases raised
      · rw [inMemory] at storedOk
        rw [streamed] at streamedOk
        cases storedOk
        cases streamedOk
        exact same
    · intro same
      refine Or.inr ⟨_, _, _, inMemory, onDisk, streamed, rfl, rfl, reordered.symm.map _, same,
        ?_, ?_, ?_⟩
      · exact keepsApart distinct reordered (fun _ _ ends => ends.2.2.1)
          (fun _ ends => ends.2.2) (chain_verdicts distinct grouped reordered)
      · exact keepsApart distinct (List.Perm.refl _) (fun _ _ ends => ends.2.2.1)
          (fun _ ends => ends.2.2) (chain_verdicts distinct grouped (List.Perm.refl _))
      · exact keepsApart distinct reordered (fun _ _ least => least.1)
          (fun _ least => textLeast_leads least) leasts

end

def rendered (documentId raw normalized : Nat) : Document Nat Nat where
  documentId := documentId
  rawContentSha256 := raw
  contentSha256 := normalized
  originKeys := []
  distinctOrigins := List.nodup_nil
  split := .train
  sourceRank := 2
  documentKind := "prose"
  decision := none

def copied : DocumentSet Nat Nat where
  documents := [rendered 2 10 20, rendered 1 10 20]
  distinct := by decide

theorem copied_agree :
    PoliciesAgree (fun _ => 0) (fun _ => "CC-BY-4.0") copied.documents := by
  refine (text_policies_agree_iff copied ?_).mpr (Or.inr ?_)
  · exact fun _ _ _ _ => iff_of_true rfl rfl
  · intro document member leads other otherIn _
    have below := leads.2.2 (rendered 1 10 20) (by decide)
    have cases : document = rendered 2 10 20 ∨ document = rendered 1 10 20 := by
      simpa [copied] using member
    have others : other = rendered 2 10 20 ∨ other = rendered 1 10 20 := by
      simpa [copied] using otherIn
    rcases cases with rfl | rfl
    · exact absurd (below (Or.inl rfl)) (by decide)
    · rcases others with rfl | rfl <;> decide

def chained : DocumentSet Nat Nat where
  documents := [rendered 1 10 20, rendered 3 10 21, rendered 2 11 21]
  distinct := by decide

theorem chained_disagree :
    ¬ PoliciesAgree (fun _ => 0) (fun _ => "CC-BY-4.0") chained.documents := by
  have stored : resolveTextStored (fun _ => "CC-BY-4.0") chained.documents = .ok
      ⟨[⟨.raw, 10, [1, 3], [.train], 1⟩, ⟨.normalized, 21, [2, 3], [.train], 2⟩],
        [⟨1, 1, none⟩, ⟨2, 2, none⟩, ⟨3, 1, some .duplicate⟩]⟩ := by decide +kernel
  have streamed : resolveTextStreamed (fun _ => 0) chained.documents = .ok
      ⟨[⟨.raw, 10, [1, 3], [.train], 1⟩, ⟨.normalized, 21, [2, 3], [.train], 2⟩],
        [⟨1, 1, none⟩, ⟨2, 1, some .duplicate⟩, ⟨3, 1, some .duplicate⟩]⟩ := by decide +kernel
  rintro (⟨failure, raised, -, -⟩ | ⟨one, two, three, oneOk, -, threeOk, -, -, -, same, -⟩)
  · rw [stored] at raised
    cases raised
  · rw [stored] at oneOk
    rw [streamed] at threeOk
    cases oneOk
    cases threeOk
    revert same
    decide

end SparseLab.Corpus
