import Mathlib.Data.Finset.Card
import SparseLab.Corpus.Duplicates

/-! Connected components of documents that share keys, and the document each component keeps. -/

namespace SparseLab.Corpus

open Library

variable {Id Key : Type}

def Shares (one other : Document Id Key) : Prop :=
  ∃ method, ∃ key ∈ one.keys method, key ∈ other.keys method

def Connected (documents : List (Document Id Key)) : Document Id Key → Document Id Key → Prop :=
  Relation.EqvGen fun one other => one ∈ documents ∧ other ∈ documents ∧ Shares one other

def Isolated (documents : List (Document Id Key)) : Prop :=
  ∀ one ∈ documents, ∀ other ∈ documents, Connected documents one other →
    ¬ (one.split = .validation ∧ other.split = .test) ∧
      one.metadataOnly = other.metadataOnly

theorem connected_congr {documents others : List (Document Id Key)}
    (same : ∀ document, document ∈ documents ↔ document ∈ others) :
    Connected documents = Connected others := by
  unfold Connected
  simp only [same]

theorem connected_of_key {documents : List (Document Id Key)} {one other : Document Id Key}
    {method : Method} {key : Key} (oneIn : one ∈ documents) (otherIn : other ∈ documents)
    (oneKey : key ∈ one.keys method) (otherKey : key ∈ other.keys method) :
    Connected documents one other :=
  Relation.EqvGen.rel _ _ ⟨oneIn, otherIn, method, key, oneKey, otherKey⟩

theorem mem_methods (method : Method) : method ∈ methods := by
  cases method <;> decide

section

variable {documents : List (Document Id Key)}

def hasSplit (split : Split) (documents : List (Document Id Key)) : Bool :=
  documents.any fun document => document.split = split

theorem hasSplit_iff {split : Split} :
    hasSplit split documents = true ↔ ∃ document ∈ documents, document.split = split := by
  simp [hasSplit]

theorem mem_heldout {split : Split} :
    split ∈ heldout documents ↔ split ≠ .train ∧ hasSplit split documents = true := by
  rw [hasSplit_iff, heldout, List.mem_dedup, List.mem_filter, List.mem_map]
  simp only [decide_eq_true_eq]
  exact and_comm

theorem nodup_heldout : (heldout documents).Nodup := List.nodup_dedup _

theorem nodup_constant {α : Type} {values : List α} {value : α} (distinct : values.Nodup)
    (constant : ∀ other ∈ values, other = value) (present : value ∈ values) :
    values = [value] := by
  apply List.perm_singleton.mp
  rw [List.perm_ext_iff_of_nodup distinct (List.nodup_singleton value)]
  intro other
  rw [List.mem_singleton]
  exact ⟨constant other, fun same => same ▸ present⟩

theorem one_lt_dedup {α : Type} [DecidableEq α] {values : List α} :
    1 < values.dedup.length ↔ ∃ one ∈ values, ∃ other ∈ values, one ≠ other := by
  rw [← List.card_toFinset, Finset.one_lt_card]
  simp only [List.mem_toFinset]

theorem heldout_length : 1 < (heldout documents).length ↔
    hasSplit .validation documents = true ∧ hasSplit .test documents = true := by
  have inside : ∀ {split}, split ∈ (documents.map (·.split)).filter (· ≠ .train) ↔
      split ≠ .train ∧ hasSplit split documents = true := by
    intro split
    rw [← mem_heldout, heldout, List.mem_dedup]
  rw [heldout, one_lt_dedup]
  constructor
  · rintro ⟨one, oneIn, other, otherIn, differ⟩
    rw [inside] at oneIn otherIn
    cases one with
    | train => exact absurd rfl oneIn.1
    | validation =>
      cases other with
      | train => exact absurd rfl otherIn.1
      | validation => exact absurd rfl differ
      | test => exact ⟨oneIn.2, otherIn.2⟩
    | test =>
      cases other with
      | train => exact absurd rfl otherIn.1
      | validation => exact ⟨otherIn.2, oneIn.2⟩
      | test => exact absurd rfl differ
  · rintro ⟨validation, test⟩
    exact ⟨.validation, inside.mpr ⟨by decide, validation⟩, .test,
      inside.mpr ⟨by decide, test⟩, by decide⟩

theorem heldout_head (apart : ¬ (hasSplit .validation documents = true ∧
      hasSplit .test documents = true)) :
    (heldout documents).head? = if hasSplit .validation documents then some .validation
      else if hasSplit .test documents then some .test else none := by
  by_cases validation : hasSplit .validation documents = true
  · have only : heldout documents = [.validation] := by
      refine nodup_constant nodup_heldout ?_ (mem_heldout.mpr ⟨by decide, validation⟩)
      intro other member
      rw [mem_heldout] at member
      cases other with
      | train => exact absurd rfl member.1
      | validation => rfl
      | test => exact absurd ⟨validation, member.2⟩ apart
    rw [only, if_pos validation]
    rfl
  · rw [if_neg validation]
    by_cases test : hasSplit .test documents = true
    · have only : heldout documents = [.test] := by
        refine nodup_constant nodup_heldout ?_ (mem_heldout.mpr ⟨by decide, test⟩)
        intro other member
        rw [mem_heldout] at member
        cases other with
        | train => exact absurd rfl member.1
        | validation => exact absurd member.2 validation
        | test => rfl
      rw [only, if_pos test]
      rfl
    · rw [if_neg test, List.head?_eq_none_iff, List.eq_nil_iff_forall_not_mem]
      intro other member
      rw [mem_heldout] at member
      cases other with
      | train => exact member.1 rfl
      | validation => exact validation member.2
      | test => exact test member.2

def maskOf (first second : Bool) : Nat := (if first then 1 else 0) + (if second then 2 else 0)

theorem maskOf_three (first second : Bool) :
    maskOf first second = 3 ↔ first = true ∧ second = true := by
  cases first <;> cases second <;> decide

theorem foldl_maskOf {α : Type} (bit : α → Nat) (low high : α → Bool)
    (each : ∀ value, bit value = maskOf (low value) (high value)) (values : List α)
    (first second : Bool) :
    values.foldl (fun mask value => mask ||| bit value) (maskOf first second) =
      maskOf (first || values.any low) (second || values.any high) := by
  induction values generalizing first second with
  | nil => simp
  | cons value values ih =>
    have step : maskOf first second ||| bit value =
        maskOf (first || low value) (second || high value) := by
      rw [each value]
      cases first <;> cases second <;> cases low value <;> cases high value <;> decide
    rw [List.foldl_cons, step, ih, List.any_cons, List.any_cons, Bool.or_assoc, Bool.or_assoc]

theorem heldoutMask_eq (documents : List (Document Id Key)) :
    heldoutMask documents =
      maskOf (hasSplit .validation documents) (hasSplit .test documents) := by
  have each : ∀ document : Document Id Key, heldoutBit document.split =
      maskOf (decide (document.split = .validation)) (decide (document.split = .test)) := by
    intro document
    cases document.split <;> rfl
  exact foldl_maskOf _ _ _ each documents false false

theorem cleaningMask_eq (documents : List (Document Id Key)) :
    cleaningMask documents = maskOf (documents.any fun document => !document.metadataOnly)
      (documents.any fun document => document.metadataOnly) := by
  have each : ∀ document : Document Id Key, cleaningBit document =
      maskOf (!document.metadataOnly) document.metadataOnly := by
    intro document
    cases found : document.metadataOnly <;> simp [cleaningBit, maskOf, found]
  exact foldl_maskOf _ _ _ each documents false false

def Resolvable (members : List (Document Id Key)) : Prop :=
  ¬ (hasSplit .validation members = true ∧ hasSplit .test members = true) ∧
    ∀ one ∈ members, ∀ other ∈ members, one.metadataOnly = other.metadataOnly

theorem isolated_of_components (each : ∀ document ∈ documents, ∃ members, Resolvable members ∧
      ∀ other, other ∈ members ↔ other ∈ documents ∧ Connected documents document other) :
    Isolated documents := by
  intro one oneIn other otherIn connected
  obtain ⟨members, ⟨splits, cleaning⟩, component⟩ := each one oneIn
  have oneHere := (component one).mpr ⟨oneIn, Relation.EqvGen.refl _⟩
  have otherHere := (component other).mpr ⟨otherIn, connected⟩
  refine ⟨?_, cleaning one oneHere other otherHere⟩
  rintro ⟨validation, test⟩
  exact splits ⟨hasSplit_iff.mpr ⟨one, oneHere, validation⟩,
    hasSplit_iff.mpr ⟨other, otherHere, test⟩⟩

theorem Isolated.resolvable (isolated : Isolated documents) {members : List (Document Id Key)}
    (together : ∀ one ∈ members, ∀ other ∈ members,
      one ∈ documents ∧ other ∈ documents ∧ Connected documents one other) :
    Resolvable members := by
  constructor
  · rintro ⟨validation, test⟩
    obtain ⟨one, oneHere, oneSplit⟩ := hasSplit_iff.mp validation
    obtain ⟨other, otherHere, otherSplit⟩ := hasSplit_iff.mp test
    obtain ⟨oneIn, otherIn, connected⟩ := together one oneHere other otherHere
    exact (isolated one oneIn other otherIn connected).1 ⟨oneSplit, otherSplit⟩
  · intro one oneHere other otherHere
    obtain ⟨oneIn, otherIn, connected⟩ := together one oneHere other otherHere
    exact (isolated one oneIn other otherIn connected).2

end

section

def Document.preference (document : Document Id Key) : Bool ×ₗ Nat ×ₗ Bool ×ₗ Id :=
  toLex (decide (document.split = .train),
    toLex (document.sourceRank, toLex (decide (document.documentKind ≠ "paper"),
      document.documentId)))

theorem preference_injective {one other : Document Id Key}
    (same : one.preference = other.preference) : one.documentId = other.documentId := by
  simp only [Document.preference, EmbeddingLike.apply_eq_iff_eq, Prod.mk.injEq] at same
  exact same.2.2.2

variable [LinearOrder Id]

theorem choice_le_iff {documents : List (Document Id Key)}
    (apart : ¬ (hasSplit .validation documents = true ∧ hasSplit .test documents = true))
    {one other : Document Id Key} (oneIn : one ∈ documents) (otherIn : other ∈ documents) :
    one.choice (heldout documents).head? ≤ other.choice (heldout documents).head? ↔
      one.preference ≤ other.preference := by
  have splits : ∀ document ∈ documents, ∀ split, document.split = split →
      hasSplit split documents = true := by
    intro document member split same
    exact hasSplit_iff.mpr ⟨document, member, same⟩
  rw [heldout_head apart]
  by_cases validation : hasSplit .validation documents = true
  · have flags : ∀ document ∈ documents,
        decide (document.split ≠ .validation) = decide (document.split = .train) := by
      intro document member
      cases found : document.split with
      | train => decide
      | validation => decide
      | test => exact absurd ⟨validation, splits document member _ found⟩ apart
    rw [if_pos validation]
    simp only [Document.choice, Document.preference, Option.any_some, flags one oneIn,
      flags other otherIn]
  · rw [if_neg validation]
    by_cases test : hasSplit .test documents = true
    · have flags : ∀ document ∈ documents,
          decide (document.split ≠ .test) = decide (document.split = .train) := by
        intro document member
        cases found : document.split with
        | train => decide
        | validation => exact absurd (splits document member _ found) validation
        | test => decide
      rw [if_pos test]
      simp only [Document.choice, Document.preference, Option.any_some, flags one oneIn,
        flags other otherIn]
    · have train : ∀ document ∈ documents, document.split = .train := by
        intro document member
        cases found : document.split with
        | train => rfl
        | validation => exact absurd (splits document member _ found) validation
        | test => exact absurd (splits document member _ found) test
      rw [if_neg test]
      simp only [Document.choice, Document.preference, Option.any_none, train one oneIn,
        train other otherIn, Prod.Lex.toLex_le_toLex, lt_irrefl, false_or, true_and]

def Best (members : List (Document Id Key)) (winner : Document Id Key) : Prop :=
  winner ∈ members ∧ ∀ other ∈ members, winner.preference ≤ other.preference

theorem selected_best {members : List (Document Id Key)} {winner : Document Id Key}
    (apart : ¬ (hasSplit .validation members = true ∧ hasSplit .test members = true))
    (chosen : selected members = some winner) : Best members winner := by
  have member := List.argmin_mem chosen
  refine ⟨member, ?_⟩
  intro other otherIn
  exact (choice_le_iff apart member otherIn).mp (List.le_of_mem_argmin otherIn chosen)

theorem selected_isSome {members : List (Document Id Key)} (nonempty : members ≠ []) :
    ∃ winner, selected members = some winner := by
  cases found : selected members with
  | some winner => exact ⟨winner, rfl⟩
  | none => exact absurd (List.argmin_eq_none.mp found) nonempty

def Wins (documents : List (Document Id Key)) (document winner : Document Id Key) : Prop :=
  winner ∈ documents ∧ Connected documents document winner ∧
    ∀ other ∈ documents, Connected documents document other →
      winner.preference ≤ other.preference

theorem wins_of_best {documents members : List (Document Id Key)}
    {document winner : Document Id Key}
    (component : ∀ other, other ∈ members ↔
      other ∈ documents ∧ Connected documents document other)
    (best : Best members winner) : Wins documents document winner := by
  obtain ⟨member, least⟩ := best
  obtain ⟨inside, connected⟩ := (component winner).mp member
  exact ⟨inside, connected, fun other otherIn way => least other ((component other).mpr ⟨otherIn, way⟩)⟩

end

theorem eq_of_documentId {documents : List (Document Id Key)}
    (distinct : (documents.map (·.documentId)).Nodup) {one other : Document Id Key}
    (oneIn : one ∈ documents) (otherIn : other ∈ documents)
    (same : one.documentId = other.documentId) : one = other :=
  List.inj_on_of_nodup_map distinct oneIn otherIn same

section

variable [LinearOrder Id] {documents : List (Document Id Key)}
  {document other winner another : Document Id Key}

theorem Wins.unique (distinct : (documents.map (·.documentId)).Nodup)
    (wins : Wins documents document winner) (again : Wins documents document another) :
    winner = another := by
  refine eq_of_documentId distinct wins.1 again.1 (preference_injective ?_)
  exact le_antisymm (wins.2.2 another again.1 again.2.1) (again.2.2 winner wins.1 wins.2.1)

theorem Wins.congr (connected : Connected documents document other)
    (wins : Wins documents document winner) : Wins documents other winner := by
  have back := Relation.EqvGen.symm _ _ connected
  refine ⟨wins.1, Relation.EqvGen.trans _ _ _ back wins.2.1, ?_⟩
  intro third thirdIn way
  exact wins.2.2 third thirdIn (Relation.EqvGen.trans _ _ _ connected way)

theorem Wins.heldout (wins : Wins documents document winner) (otherIn : other ∈ documents)
    (connected : Connected documents document other) (heldout : other.split ≠ .train) :
    winner.split ≠ .train := by
  intro train
  have least := wins.2.2 other otherIn connected
  simp only [Document.preference, train, heldout, Prod.Lex.toLex_le_toLex] at least
  simp only [decide_true, decide_false, Bool.true_eq_false, false_and, or_false] at least
  exact absurd least (by decide)

/-- The verdict on a document whose component `winner` wins. -/
def verdictOf (document winner : Document Id Key) : Verdict Id :=
  ⟨document.documentId, winner.documentId, dropReason document winner⟩

def Decided (documents : List (Document Id Key)) (document : Document Id Key)
    (verdict : Verdict Id) : Prop :=
  ∃ winner, Wins documents document winner ∧ verdict = verdictOf document winner

end

end SparseLab.Corpus
