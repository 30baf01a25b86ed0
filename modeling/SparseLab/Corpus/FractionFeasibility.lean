import SparseLab.Corpus.FractionSelection
import SparseLab.Library.Selections

/-! Which subsets of the candidates meet a token budget exactly, and the least of them. -/

namespace SparseLab.Corpus.Selection

open Library

section

variable {ι φ : Type}

def ofKind (candidates : List (Candidate ι φ)) (primary : Bool) : List (Candidate ι φ) :=
  candidates.filter fun candidate => primaryOrigin candidate.origin = primary

def tokenSum (listed : List (Candidate ι φ)) : Int := (listed.map Candidate.tokens).sum

theorem weight_map [LinearOrder φ] {listed : List (Candidate ι φ)} (all : List φ)
    (positive : ∀ candidate ∈ listed, 0 < candidate.tokens) :
    (weight (listed.map (entryOf all)) : Int) = tokenSum listed := by
  induction listed with
  | nil => rfl
  | cons candidate listed ih =>
    have rest := ih fun later member => positive later (List.mem_cons_of_mem _ member)
    have here := positive candidate List.mem_cons_self
    rw [List.map_cons, weight_cons, tokenSum, List.map_cons, List.sum_cons]
    rw [tokenSum] at rest
    simp only [entryOf]
    omega

theorem mem_jointChoices {primary generated : List (Nat × List ι)} {required : Nat}
    {choice : List ι} : choice ∈ jointChoices required primary generated ↔
      ∃ leftMask left rightMask right, (leftMask, left) ∈ primary ∧
        (rightMask, right) ∈ generated ∧ leftMask ||| rightMask = required ∧
          left ++ right = choice := by
  simp only [jointChoices, List.mem_flatMap, List.mem_map, List.mem_filter, decide_eq_true_eq]
  constructor
  · rintro ⟨⟨leftMask, left⟩, inside, ⟨rightMask, right⟩, ⟨otherInside, all⟩, same⟩
    exact ⟨leftMask, left, rightMask, right, inside, otherInside, all, same⟩
  · rintro ⟨leftMask, left, rightMask, right, inside, otherInside, all, same⟩
    exact ⟨⟨leftMask, left⟩, inside, ⟨rightMask, right⟩, ⟨otherInside, all⟩, same⟩

end

section

variable {ι φ : Type} [LinearOrder ι] (candidates : List (Candidate ι φ)) (generatedShare : Rat)
  (trainTokens : Int)

def chosenOf (primary : Bool) (chosen : Finset ι) : List (Candidate ι φ) :=
  (ofKind candidates primary).filter fun candidate => candidate.recordId ∈ chosen

def sortedIds (primary : Bool) (chosen : Finset ι) : List ι :=
  ((chosenOf candidates primary chosen).map Candidate.recordId).insertionSort (· ≤ ·)

def signature (chosen : Finset ι) : List ι :=
  sortedIds candidates true chosen ++ sortedIds candidates false chosen

structure Feasible (chosen : Finset ι) : Prop where
  known : ∀ identifier ∈ chosen, identifier ∈ candidates.map Candidate.recordId
  primary : (tokenSum (chosenOf candidates true chosen) : Rat) =
    trainTokens - generatedShare * trainTokens
  generated : (tokenSum (chosenOf candidates false chosen) : Rat) = generatedShare * trainTokens
  covers : ∀ candidate ∈ candidates, ∀ family ∈ candidate.sourceFamilyIds,
    ∃ other ∈ candidates, other.recordId ∈ chosen ∧ family ∈ other.sourceFamilyIds

variable {candidates} {chosen : Finset ι}

theorem signature_toFinset
    (known : ∀ identifier ∈ chosen, identifier ∈ candidates.map Candidate.recordId) :
    (signature candidates chosen).toFinset = chosen := by
  ext identifier
  simp only [signature, sortedIds, chosenOf, ofKind, List.mem_toFinset, List.mem_append,
    List.mem_insertionSort, List.mem_map, List.mem_filter, decide_eq_true_eq]
  constructor
  · rintro (⟨candidate, ⟨_, member⟩, rfl⟩ | ⟨candidate, ⟨_, member⟩, rfl⟩)
    · exact member
    · exact member
  · intro member
    obtain ⟨candidate, inside, rfl⟩ := List.mem_map.mp (known identifier member)
    cases kind : primaryOrigin candidate.origin with
    | true => exact .inl ⟨candidate, ⟨⟨inside, kind⟩, member⟩, rfl⟩
    | false => exact .inr ⟨candidate, ⟨⟨inside, kind⟩, member⟩, rfl⟩

end

section

variable {ι φ : Type} [LinearOrder φ] (candidates : List (Candidate ι φ)) (generatedShare : Rat)
  (trainTokens : Int)

/-- The budget is positive, the share is an exact number of tokens, identifiers are unique, counts
are positive and there are at most twenty families. -/
structure Admissible : Prop where
  budget : 0 < trainTokens
  share : 0 ≤ generatedShare ∧ generatedShare ≤ 1
  exact : (generatedShare * trainTokens).den = 1
  unique : (candidates.map Candidate.recordId).Nodup
  few : (families candidates).length ≤ 20
  positive : ∀ candidate ∈ candidates, 0 < candidate.tokens

variable {candidates} {share : Rat} {tokens : Int}

def target (share : Rat) (tokens : Int) (primary : Bool) : Nat :=
  if primary then (tokens - (share * tokens).num).toNat else (share * tokens).num.toNat

theorem Admissible.num (admissible : Admissible candidates share tokens) :
    ((share * tokens).num : Rat) = share * tokens := by
  conv_rhs => rw [← Rat.num_div_den (share * tokens), admissible.exact]
  simp

theorem Admissible.target_generated (admissible : Admissible candidates share tokens) :
    (target share tokens false : Int) = (share * tokens).num := by
  have budget : (0 : Rat) ≤ tokens := by exact_mod_cast admissible.budget.le
  have positive := Rat.num_nonneg.mpr (mul_nonneg admissible.share.1 budget)
  simp only [target, Bool.false_eq_true, if_false]
  omega

theorem Admissible.target_primary (admissible : Admissible candidates share tokens) :
    (target share tokens true : Int) = tokens - (share * tokens).num := by
  have budget : (0 : Rat) ≤ tokens := by exact_mod_cast admissible.budget.le
  have bounded : ((share * tokens).num : Rat) ≤ tokens := by
    rw [admissible.num]
    exact mul_le_of_le_one_left budget admissible.share.2
  have small : (share * tokens).num ≤ tokens := by exact_mod_cast bounded
  simp only [target, if_true]
  omega

end

variable {ι φ : Type} [LinearOrder ι] [LinearOrder φ]

section

variable (candidates : List (Candidate ι φ)) (generatedShare : Rat) (trainTokens : Int)

def Selects : Except SelectionError (Finset ι) → Prop
  | .ok chosen => Feasible candidates generatedShare trainTokens chosen ∧
      ∀ other, Feasible candidates generatedShare trainTokens other →
        other = chosen ∨ signature candidates chosen < signature candidates other
  | .error .infeasible => ∀ chosen, ¬ Feasible candidates generatedShare trainTokens chosen
  | .error .stateLimit => True
  | .error _ => False

end

section

variable (candidates : List (Candidate ι φ)) (primary : Bool) (chosen : Finset ι)

def partition : List (Entry ι) :=
  ((ofKind candidates primary).map (entryOf (families candidates))).insertionSort Entry.NotAfter

def partOf : List (Entry ι) :=
  (partition candidates primary).filter fun entry => entry.identifier ∈ chosen

theorem perm_partition : (partition candidates primary).Perm
    ((ofKind candidates primary).map (entryOf (families candidates))) :=
  List.perm_insertionSort _ _

theorem perm_partOf : (partOf candidates primary chosen).Perm
    ((chosenOf candidates primary chosen).map (entryOf (families candidates))) := by
  have filtered := (perm_partition candidates primary).filter
    fun entry => entry.identifier ∈ chosen
  rwa [List.filter_map] at filtered

theorem identifiers_partition :
    ((partition candidates primary).map Entry.identifier).Perm
      ((ofKind candidates primary).map Candidate.recordId) := by
  have mapped := (perm_partition candidates primary).map Entry.identifier
  rwa [List.map_map] at mapped

theorem nodup_partition (unique : (candidates.map Candidate.recordId).Nodup) :
    ((partition candidates primary).map Entry.identifier).Nodup :=
  (identifiers_partition candidates primary).nodup_iff.mpr (unique.sublist (List.filter_sublist.map _))

theorem sorted_partition :
    ((partition candidates primary).map Entry.identifier).Pairwise (· ≤ ·) := by
  rw [List.pairwise_map]
  refine (List.pairwise_insertionSort Entry.NotAfter _).imp fun {first second} before => ?_
  rcases before with below | ⟨same, _⟩
  · exact below.le
  · exact same.le

theorem identifiers_partOf :
    (partOf candidates primary chosen).map Entry.identifier = sortedIds candidates primary chosen := by
  have perm : ((partOf candidates primary chosen).map Entry.identifier).Perm
      ((chosenOf candidates primary chosen).map Candidate.recordId) := by
    have mapped := (perm_partOf candidates primary chosen).map Entry.identifier
    rwa [List.map_map] at mapped
  refine List.Perm.eq_of_pairwise' (r := (· ≤ ·)) ?_ (List.pairwise_insertionSort _ _)
    (perm.trans (List.perm_insertionSort _ _).symm)
  exact (sorted_partition candidates primary).sublist (List.filter_sublist.map _)

theorem weight_partOf (positive : ∀ candidate ∈ candidates, 0 < candidate.tokens) :
    (weight (partOf candidates primary chosen) : Int) =
      tokenSum (chosenOf candidates primary chosen) := by
  rw [← weight_map (families candidates)]
  · have counts := (perm_partOf candidates primary chosen).map Entry.count
    rw [weight, weight, counts.sum_eq]
  · intro candidate member
    exact positive candidate (List.mem_of_mem_filter (List.mem_of_mem_filter member))

theorem positive_partition (positive : ∀ candidate ∈ candidates, 0 < candidate.tokens) :
    ∀ entry ∈ partition candidates primary, 0 < entry.count := by
  intro entry member
  obtain ⟨candidate, inside, rfl⟩ := List.mem_map.mp ((perm_partition candidates primary).mem_iff.mp member)
  have some := positive candidate (List.mem_of_mem_filter inside)
  simp only [entryOf]
  omega

theorem mem_parts {entry : Entry ι} :
    entry ∈ partOf candidates true chosen ++ partOf candidates false chosen ↔
      ∃ candidate ∈ candidates.filter fun candidate => candidate.recordId ∈ chosen,
        entryOf (families candidates) candidate = entry := by
  simp only [List.mem_append, (perm_partOf candidates _ chosen).mem_iff, List.mem_map, chosenOf, ofKind, List.mem_filter,
    decide_eq_true_eq]
  constructor
  · rintro (⟨candidate, ⟨⟨inside, _⟩, member⟩, same⟩ | ⟨candidate, ⟨⟨inside, _⟩, member⟩, same⟩)
    · exact ⟨candidate, ⟨inside, member⟩, same⟩
    · exact ⟨candidate, ⟨inside, member⟩, same⟩
  · rintro ⟨candidate, ⟨inside, member⟩, same⟩
    cases kind : primaryOrigin candidate.origin with
    | true => exact .inl ⟨candidate, ⟨⟨inside, kind⟩, member⟩, same⟩
    | false => exact .inr ⟨candidate, ⟨⟨inside, kind⟩, member⟩, same⟩

theorem covers_parts :
    cover (partOf candidates true chosen) ||| cover (partOf candidates false chosen) =
        1 <<< (families candidates).length - 1 ↔
      ∀ candidate ∈ candidates, ∀ family ∈ candidate.sourceFamilyIds,
        ∃ other ∈ candidates, other.recordId ∈ chosen ∧ family ∈ other.sourceFamilyIds := by
  rw [covers_iff (List.filter_subset_self _) fun _ => mem_parts candidates chosen]
  simp only [mem_families, List.mem_filter, decide_eq_true_eq, and_assoc]
  constructor
  · intro every candidate inside family listed
    exact every family ⟨candidate, inside, listed⟩
  · rintro every family ⟨candidate, inside, listed⟩
    exact every candidate inside family listed

end

section

variable {candidates : List (Candidate ι φ)} {share : Rat} {tokens : Int} {chosen : Finset ι}

theorem Admissible.feasible_iff (admissible : Admissible candidates share tokens) :
    Feasible candidates share tokens chosen ↔
      (∀ identifier ∈ chosen, identifier ∈ candidates.map Candidate.recordId) ∧
      (∀ primary, weight (partOf candidates primary chosen) = target share tokens primary) ∧
      cover (partOf candidates true chosen) ||| cover (partOf candidates false chosen) =
        1 <<< (families candidates).length - 1 := by
  have whole : ∀ primary, (weight (partOf candidates primary chosen) : Int) =
      tokenSum (chosenOf candidates primary chosen) := fun primary =>
    weight_partOf candidates primary chosen admissible.positive
  have first : (tokenSum (chosenOf candidates true chosen) : Rat) = tokens - share * tokens ↔
      weight (partOf candidates true chosen) = target share tokens true := by
    rw [← admissible.num]
    have same := admissible.target_primary
    have sum := whole true
    constructor
    · intro equal
      have exact : tokenSum (chosenOf candidates true chosen) = tokens - (share * tokens).num := by
        exact_mod_cast equal
      omega
    · intro equal
      have exact : tokenSum (chosenOf candidates true chosen) = tokens - (share * tokens).num := by
        omega
      exact_mod_cast exact
  have second : (tokenSum (chosenOf candidates false chosen) : Rat) = share * tokens ↔
      weight (partOf candidates false chosen) = target share tokens false := by
    rw [← admissible.num]
    have same := admissible.target_generated
    have sum := whole false
    constructor
    · intro equal
      have exact : tokenSum (chosenOf candidates false chosen) = (share * tokens).num := by
        exact_mod_cast equal
      omega
    · intro equal
      have exact : tokenSum (chosenOf candidates false chosen) = (share * tokens).num := by
        omega
      exact_mod_cast exact
  constructor
  · intro feasible
    refine ⟨feasible.known, ?_, (covers_parts candidates chosen).mpr feasible.covers⟩
    intro primary
    cases primary with
    | true => exact first.mp feasible.primary
    | false => exact second.mp feasible.generated
  · rintro ⟨known, weights, covers⟩
    exact ⟨known, first.mpr (weights true), second.mpr (weights false),
      (covers_parts candidates chosen).mp covers⟩

theorem reaching_partOf {primary : Bool}
    (exact : weight (partOf candidates primary chosen) = target share tokens primary) :
    sortedIds candidates primary chosen ∈ Reaching (partition candidates primary)
      (target share tokens primary, cover (partOf candidates primary chosen)) :=
  ⟨_, List.filter_sublist, exact, rfl, identifiers_partOf candidates primary chosen⟩

theorem kinds_disjoint (unique : (candidates.map Candidate.recordId).Nodup) {first second : Entry ι}
    (firstMember : first ∈ partition candidates true)
    (secondMember : second ∈ partition candidates false) : first.identifier ≠ second.identifier := by
  intro same
  obtain ⟨candidate, inside, rfl⟩ :=
    List.mem_map.mp ((perm_partition candidates true).mem_iff.mp firstMember)
  obtain ⟨other, otherInside, rfl⟩ :=
    List.mem_map.mp ((perm_partition candidates false).mem_iff.mp secondMember)
  rw [ofKind, List.mem_filter, decide_eq_true_eq] at inside otherInside
  have equal := List.inj_on_of_nodup_map unique inside.1 otherInside.1 same
  rw [equal, otherInside.2] at inside
  cases inside.2

theorem partOf_eq {primary : Bool} (unique : (candidates.map Candidate.recordId).Nodup)
    {part : List (Entry ι)} (within : part.Sublist (partition candidates primary))
    (exact : ∀ entry ∈ partition candidates primary, entry.identifier ∈ chosen ↔
      entry.identifier ∈ part.map Entry.identifier) :
    partOf candidates primary chosen = part := by
  have distinct := nodup_partition candidates primary unique
  have inPart : ∀ entry ∈ part, entry.identifier ∈ chosen := fun entry member =>
    (exact entry (within.subset member)).mpr (List.mem_map_of_mem member)
  have all : (part.filter fun entry => entry.identifier ∈ chosen) = part := by
    rw [List.filter_eq_self]
    intro entry member
    exact decide_eq_true (inPart entry member)
  rw [partOf, ← filter_sublist_eq within distinct.of_map, all]
  intro entry member
  rw [List.mem_filter, decide_eq_true_eq] at member
  obtain ⟨other, otherMember, same⟩ := List.mem_map.mp ((exact entry member.1).mp member.2)
  rwa [← List.inj_on_of_nodup_map distinct (within.subset otherMember) member.1 same]

theorem Admissible.feasible_of_reaching (admissible : Admissible candidates share tokens)
    {left right : List ι} {leftMask rightMask : Nat}
    (leftReached : left ∈ Reaching (partition candidates true) (target share tokens true, leftMask))
    (rightReached : right ∈ Reaching (partition candidates false)
      (target share tokens false, rightMask))
    (covers : leftMask ||| rightMask = 1 <<< (families candidates).length - 1) :
    Feasible candidates share tokens (left ++ right).toFinset ∧
      signature candidates (left ++ right).toFinset = left ++ right := by
  obtain ⟨leftPart, leftWithin, leftWeight, leftCover, rfl⟩ := leftReached
  obtain ⟨rightPart, rightWithin, rightWeight, rightCover, rfl⟩ := rightReached
  generalize set : (leftPart.map Entry.identifier ++ rightPart.map Entry.identifier).toFinset =
    chosen
  have member : ∀ identifier, identifier ∈ chosen ↔
      identifier ∈ leftPart.map Entry.identifier ∨ identifier ∈ rightPart.map Entry.identifier := by
    intro identifier
    rw [← set, List.mem_toFinset, List.mem_append]
  have leftSame : partOf candidates true chosen = leftPart := by
    refine partOf_eq admissible.unique leftWithin fun entry inside => ?_
    rw [member, or_iff_left]
    intro other
    obtain ⟨second, secondMember, same⟩ := List.mem_map.mp other
    exact kinds_disjoint admissible.unique inside (rightWithin.subset secondMember) same.symm
  have rightSame : partOf candidates false chosen = rightPart := by
    refine partOf_eq admissible.unique rightWithin fun entry inside => ?_
    rw [member, or_iff_right]
    intro other
    obtain ⟨first, firstMember, same⟩ := List.mem_map.mp other
    exact kinds_disjoint admissible.unique (leftWithin.subset firstMember) inside same
  constructor
  · refine admissible.feasible_iff.mpr ⟨?_, ?_, ?_⟩
    · intro identifier inside
      have known : ∀ primary (part : List (Entry ι)), part.Sublist (partition candidates primary) →
          identifier ∈ part.map Entry.identifier →
          identifier ∈ candidates.map Candidate.recordId := by
        intro primary part within listed
        have all := (identifiers_partition candidates primary).mem_iff.mp
          ((within.map _).subset listed)
        exact (List.filter_sublist.map _).subset all
      rcases (member identifier).mp inside with listed | listed
      · exact known true leftPart leftWithin listed
      · exact known false rightPart rightWithin listed
    · intro primary
      cases primary with
      | true => rwa [leftSame]
      | false => rwa [rightSame]
    · rw [leftSame, rightSame, leftCover, rightCover, covers]
  · rw [signature, ← identifiers_partOf, ← identifiers_partOf, leftSame, rightSame]

theorem Admissible.selects (admissible : Admissible candidates share tokens)
    {primary generated : List (Nat × List ι)}
    (primaryRun : possibilities
      ((ofKind candidates true).map (entryOf (families candidates))) (target share tokens true) =
        .ok primary)
    (generatedRun : possibilities
      ((ofKind candidates false).map (entryOf (families candidates))) (target share tokens false) =
        .ok generated) :
    Selects candidates share tokens
      (chooseLeast (jointChoices (1 <<< (families candidates).length - 1) primary generated)) := by
  have positive : ∀ kind, ∀ entry ∈ (ofKind candidates kind).map (entryOf (families candidates)),
      0 < entry.count := by
    intro kind entry member
    exact positive_partition candidates kind admissible.positive entry
      ((perm_partition candidates kind).mem_iff.mpr member)
  have unique : ∀ kind, (((ofKind candidates kind).map (entryOf (families candidates))).map
      Entry.identifier).Nodup := by
    intro kind
    rw [List.map_map]
    exact admissible.unique.sublist (List.filter_sublist.map _)
  have inOrder : ∀ kind, ∀ entry ∈ partition candidates kind, ∀ other ∈ partition candidates kind,
      entry.identifier = other.identifier → entry = other := fun kind entry member other inside =>
    List.inj_on_of_nodup_map (nodup_partition candidates kind admissible.unique) member inside
  -- Every feasible set has a joint choice that is not after its signature.
  have below : ∀ chosen, Feasible candidates share tokens chosen →
      ∃ choice ∈ jointChoices (1 <<< (families candidates).length - 1) primary generated,
        choice ≤ signature candidates chosen := by
    intro chosen feasible
    obtain ⟨_, weights, covers⟩ := admissible.feasible_iff.mp feasible
    obtain ⟨sound, complete⟩ := possibilities_ok (positive true) (unique true) primaryRun
      (cover (partOf candidates true chosen))
    obtain ⟨sound', complete'⟩ := possibilities_ok (positive false) (unique false) generatedRun
      (cover (partOf candidates false chosen))
    have reached := reaching_partOf (weights true)
    have reached' := reaching_partOf (weights false)
    obtain ⟨left, leftMember, leftBelow⟩ := complete _ reached
    obtain ⟨right, rightMember, rightBelow⟩ := complete' _ reached'
    refine ⟨left ++ right, mem_jointChoices.mpr
      ⟨_, left, _, right, leftMember, rightMember, covers, rfl⟩, ?_⟩
    exact concat_le (positive_partition candidates true admissible.positive) (inOrder true)
      (sound left leftMember) reached leftBelow fun _ => rightBelow
  -- Every joint choice is the signature of a feasible set.
  have feasible : ∀ choice ∈ jointChoices (1 <<< (families candidates).length - 1) primary generated,
      Feasible candidates share tokens choice.toFinset ∧
        signature candidates choice.toFinset = choice := by
    intro choice member
    obtain ⟨leftMask, left, rightMask, right, inside, otherInside, all, rfl⟩ :=
      mem_jointChoices.mp member
    exact admissible.feasible_of_reaching
      ((possibilities_ok (positive true) (unique true) primaryRun leftMask).1 left inside)
      ((possibilities_ok (positive false) (unique false) generatedRun rightMask).1 right otherInside) all
  unfold chooseLeast
  cases least : (jointChoices (1 <<< (families candidates).length - 1) primary generated).argmin
      id with
  | none =>
    intro chosen possible
    obtain ⟨choice, member, _⟩ := below chosen possible
    rw [List.argmin_eq_none.mp least] at member
    cases member
  | some choice =>
    obtain ⟨possible, same⟩ := feasible choice (List.argmin_mem least)
    refine ⟨possible, fun other otherPossible => ?_⟩
    obtain ⟨smaller, member, notAfter⟩ := below other otherPossible
    have first : choice ≤ smaller :=
      not_lt.mp (List.not_lt_of_mem_argmin member (Option.mem_def.mpr least))
    rw [same]
    rcases le_iff_lt_or_eq.mp (first.trans notAfter) with earlier | equal
    · exact .inr earlier
    · left
      rw [equal, signature_toFinset otherPossible.known]

end

theorem selectFraction_perm {candidates others : List (Candidate ι φ)} (share : Rat) (tokens : Int)
    (perm : candidates.Perm others) :
    selectFraction others share tokens = selectFraction candidates share tokens := by
  have sameFamilies : families others = families candidates := by
    refine List.Perm.eq_of_pairwise' (r := (· ≤ ·)) (List.pairwise_insertionSort _ _)
      (List.pairwise_insertionSort _ _) ?_
    refine (List.perm_insertionSort _ _).trans (List.Perm.trans ?_
      (List.perm_insertionSort _ _).symm)
    exact (perm.symm.flatMap_right _).dedup
  have sameUnique : (others.map Candidate.recordId).Nodup ↔
      (candidates.map Candidate.recordId).Nodup := (perm.map _).nodup_iff.symm
  have sameCounts : (others.any fun candidate => candidate.tokens ≤ 0) =
      candidates.any fun candidate => candidate.tokens ≤ 0 := perm.symm.any_eq
  have samePrimary : ∀ bound, possibilities ((others.filter fun candidate =>
        primaryOrigin candidate.origin).map (entryOf (families candidates))) bound =
      possibilities ((candidates.filter fun candidate =>
        primaryOrigin candidate.origin).map (entryOf (families candidates))) bound := fun bound =>
    possibilities_perm ((perm.symm.filter _).map _)
  have sameGenerated : ∀ bound, possibilities ((others.filter fun candidate =>
        !primaryOrigin candidate.origin).map (entryOf (families candidates))) bound =
      possibilities ((candidates.filter fun candidate =>
        !primaryOrigin candidate.origin).map (entryOf (families candidates))) bound := fun bound =>
    possibilities_perm ((perm.symm.filter _).map _)
  simp only [selectFraction, sameFamilies, sameUnique, sameCounts, samePrimary, sameGenerated]

/-- Either the bound on the states stops the run, or the result is the feasible set with the least
signature, or there is none; in any order of the candidates. -/
theorem select_fraction (candidates : List (Candidate ι φ)) (share : Rat) (tokens : Int)
    (admissible : Admissible candidates share tokens) :
    Selects candidates share tokens (selectFraction candidates share tokens) ∧
      ∀ others, candidates.Perm others →
        selectFraction others share tokens = selectFraction candidates share tokens := by
  refine ⟨?_, fun others perm => selectFraction_perm share tokens perm⟩
  have budget := admissible.budget
  have counts : ¬ (candidates.any fun candidate => candidate.tokens ≤ 0) = true := by
    rw [List.any_eq_true]
    rintro ⟨candidate, member, small⟩
    have some := admissible.positive candidate member
    have none := of_decide_eq_true small
    omega
  have primaryKind : (candidates.filter fun candidate => primaryOrigin candidate.origin) =
      ofKind candidates true := by
    simp [ofKind]
  have generatedKind : (candidates.filter fun candidate => !primaryOrigin candidate.origin) =
      ofKind candidates false := by
    simp [ofKind]
  have few := admissible.few
  rw [selectFraction, refuseIf_bind (by rw [not_or, not_not]; exact ⟨by omega, admissible.share⟩)]
  simp only
  rw [refuseIf_bind (not_not_intro admissible.exact),
    refuseIf_bind (not_not_intro admissible.unique), refuseIf_bind (by omega), refuseIf_bind counts,
    primaryKind, generatedKind]
  cases primaryRun : possibilities ((ofKind candidates true).map (entryOf (families candidates)))
      (target share tokens true) with
  | error failure =>
    have bound := possibilities_error primaryRun
    rw [target, if_pos rfl] at primaryRun
    rw [primaryRun, bound]
    trivial
  | ok primary =>
    cases generatedRun : possibilities
        ((ofKind candidates false).map (entryOf (families candidates)))
        (target share tokens false) with
    | error failure =>
      have bound := possibilities_error generatedRun
      rw [target, if_pos rfl] at primaryRun
      rw [target, if_neg Bool.false_ne_true] at generatedRun
      rw [primaryRun, generatedRun, bound]
      trivial
    | ok generated =>
      have selects := admissible.selects primaryRun generatedRun
      rw [target, if_pos rfl] at primaryRun
      rw [target, if_neg Bool.false_ne_true] at generatedRun
      rw [primaryRun, generatedRun]
      exact selects

theorem select_fraction_of_four :
    Selects
        [Candidate.mk 3 2 [1] "x", Candidate.mk 1 4 [1, 2] "primary_source",
          Candidate.mk 2 2 [2] "human_authored", Candidate.mk 5 2 [2] "primary_source"] (1 / 3) 6
        (.ok {1, 3}) ∧
      selectFraction
        [Candidate.mk 5 2 [2] "primary_source", Candidate.mk 2 2 [2] "human_authored",
          Candidate.mk 1 4 [1, 2] "primary_source", Candidate.mk 3 2 [1] "x"] (1 / 3) 6 =
        .ok {1, 3} := by
  have evaluated : selectFraction
      [Candidate.mk 3 2 [1] "x", Candidate.mk 1 4 [1, 2] "primary_source",
        Candidate.mk 2 2 [2] "human_authored", Candidate.mk 5 2 [2] "primary_source"] (1 / 3) 6 =
      .ok {1, 3} := by
    decide +kernel
  have selected := select_fraction
    [Candidate.mk 3 2 [1] "x", Candidate.mk 1 4 [1, 2] "primary_source",
      Candidate.mk 2 2 [2] "human_authored", Candidate.mk 5 2 [2] "primary_source"] (1 / 3) 6
    { budget := by decide
      share := by decide +kernel
      exact := by decide +kernel
      unique := by decide
      few := by decide +kernel
      positive := by decide }
  rw [evaluated] at selected
  exact ⟨selected.1, selected.2 _ (by decide)⟩

end SparseLab.Corpus.Selection
