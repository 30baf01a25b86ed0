import Mathlib.Algebra.BigOperators.Group.List.Basic
import Mathlib.Algebra.Order.Field.Rat
import Mathlib.Data.Finset.Basic
import Mathlib.Data.List.Sort
import Mathlib.Data.Nat.Bitwise
import SparseLab.Library.LeastValues
import SparseLab.Library.Outcomes

/-! Selection of complete examples with exact token counts, from `corpus/selection.py`. -/

namespace SparseLab.Corpus.Selection

open Library

def maxStates : Nat := 100000

structure Candidate (ι φ : Type) where
  recordId : ι
  tokens : Int
  sourceFamilyIds : List φ
  origin : String
deriving DecidableEq

inductive SelectionError
  | invalidBudget | fractionalTarget | duplicateIdentity | tooManyFamilies | nonpositiveCount
  | stateLimit | infeasible
deriving DecidableEq

def SelectionError.text : SelectionError → String
  | invalidBudget => "invalid generated-token selection budget"
  | fractionalTarget => "generated share is not an integer number of tokens"
  | duplicateIdentity => "duplicate candidate record identity"
  | tooManyFamilies => "too many families for exact token selection"
  | nonpositiveCount => "candidate token count must be positive"
  | stateLimit => "exact fraction selection exceeds bounded state limit"
  | infeasible => "exact token fraction with source-family coverage is infeasible"

/-- `origin in _PRIMARY` -/
def primaryOrigin (origin : String) : Bool :=
  origin = "primary_source" || origin = "human_authored"

structure Entry (ι : Type) where
  identifier : ι
  count : Nat
  bits : Nat
deriving DecidableEq

abbrev States (ι : Type) := AList fun _ : Nat × Nat => List ι

section

variable {ι : Type} {entries seen : List (Entry ι)} {entry : Entry ι} {states : States ι} {index : Nat}

def weight (entries : List (Entry ι)) : Nat := (entries.map Entry.count).sum

def cover (entries : List (Entry ι)) : Nat := entries.foldl (fun bits entry => bits ||| entry.bits) 0

def Reaching (seen : List (Entry ι)) (key : Nat × Nat) : Set (List ι) :=
  { chosen | ∃ part, part.Sublist seen ∧ weight part = key.1 ∧ cover part = key.2 ∧
    part.map Entry.identifier = chosen }

@[simp] theorem weight_nil : weight ([] : List (Entry ι)) = 0 := rfl

@[simp] theorem weight_cons (entry : Entry ι) (entries : List (Entry ι)) :
    weight (entry :: entries) = entry.count + weight entries := by
  simp [weight]

@[simp] theorem weight_append (first second : List (Entry ι)) :
    weight (first ++ second) = weight first + weight second := by
  simp [weight]

theorem cover_concat (entries : List (Entry ι)) (entry : Entry ι) :
    cover (entries ++ [entry]) = cover entries ||| entry.bits := by
  simp [cover]

theorem weight_eq_zero {entries : List (Entry ι)} (positive : ∀ entry ∈ entries, 0 < entry.count)
    (nothing : weight entries = 0) : entries = [] := by
  cases entries with
  | nil => rfl
  | cons entry entries =>
    have some := positive entry List.mem_cons_self
    rw [weight_cons] at nothing
    omega

theorem mem_snapshot {key : Nat × Nat} {chosen : List ι} :
    (key, chosen) ∈ (states.entries.map fun item => (item.1, item.2)) ↔
      states.lookup key = some chosen := by
  rw [← Option.mem_def, AList.mem_lookup_iff, List.mem_map]
  constructor
  · rintro ⟨item, member, same⟩
    rw [Prod.mk.injEq] at same
    obtain ⟨rfl, rfl⟩ := same
    exact member
  · intro member
    exact ⟨⟨key, chosen⟩, member, rfl⟩

theorem reaching_mono {key : Nat × Nat} {chosen : List ι} (reached : chosen ∈ Reaching seen key) :
    chosen ∈ Reaching (seen ++ [entry]) key := by
  obtain ⟨part, within, total, mask, same⟩ := reached
  exact ⟨part, within.trans (List.sublist_append_left _ _), total, mask, same⟩

theorem reaching_concat {key : Nat × Nat} {chosen : List ι} (reached : chosen ∈ Reaching seen key) :
    chosen ++ [entry.identifier] ∈
      Reaching (seen ++ [entry]) (key.1 + entry.count, key.2 ||| entry.bits) := by
  obtain ⟨part, within, total, mask, same⟩ := reached
  refine ⟨part ++ [entry], within.append (List.Sublist.refl _), ?_, ?_, ?_⟩
  · rw [weight_append, total]
    simp
  · rw [cover_concat, mask]
  · rw [List.map_append, same]
    rfl

theorem eq_of_starts {first second : List (Entry ι)}
    (positive : ∀ entry ∈ second, 0 < entry.count)
    (unique : ∀ entry ∈ first, ∀ other ∈ second, entry.identifier = other.identifier →
      entry = other)
    (same : weight first = weight second)
    (starts : first.map Entry.identifier <+: second.map Entry.identifier) : first = second := by
  induction first generalizing second with
  | nil => exact (weight_eq_zero positive same.symm).symm
  | cons entry first ih =>
    cases second with
    | nil => simp at starts
    | cons other second =>
      rw [List.map_cons, List.map_cons, List.cons_prefix_cons] at starts
      have here := unique entry List.mem_cons_self other List.mem_cons_self starts.1
      subst here
      rw [weight_cons, weight_cons] at same
      have rest := ih (fun later member => positive later (List.mem_cons_of_mem _ member))
        (fun later member other inside => unique later (List.mem_cons_of_mem _ member) other
          (List.mem_cons_of_mem _ inside)) (by omega) starts.2
      rw [rest]

theorem testBit_cover : (cover entries).testBit index = true ↔
    ∃ entry ∈ entries, entry.bits.testBit index = true := by
  induction entries using List.reverseRecOn with
  | nil => simp [cover]
  | append_singleton entries entry ih =>
    rw [cover_concat, Nat.testBit_or, Bool.or_eq_true, ih]
    simp only [List.mem_append, List.mem_singleton]
    constructor
    · rintro (⟨other, member, bit⟩ | bit)
      · exact ⟨other, .inl member, bit⟩
      · exact ⟨entry, .inr rfl, bit⟩
    · rintro ⟨other, member | rfl, bit⟩
      · exact .inl ⟨other, member, bit⟩
      · exact .inr bit

/-- `matches` -/
def jointChoices (required : Nat) (primary generated : List (Nat × List ι)) : List (List ι) :=
  primary.flatMap fun left =>
    (generated.filter fun right => left.1 ||| right.1 = required).map fun right =>
      left.2 ++ right.2

end

section

variable {ι φ : Type} [LinearOrder φ]

def families (candidates : List (Candidate ι φ)) : List φ :=
  (candidates.flatMap Candidate.sourceFamilyIds).dedup.insertionSort (· ≤ ·)

def familyBits (families : List φ) (listed : List φ) : Nat :=
  listed.foldl (fun bits family => bits ||| 1 <<< families.idxOf family) 0

def entryOf (families : List φ) (candidate : Candidate ι φ) : Entry ι :=
  { identifier := candidate.recordId, count := candidate.tokens.toNat,
    bits := familyBits families candidate.sourceFamilyIds }

variable {candidates chosen : List (Candidate ι φ)} {index : Nat}

theorem testBit_familyBits {all listed : List φ} :
    (familyBits all listed).testBit index = true ↔ ∃ family ∈ listed, all.idxOf family = index := by
  unfold familyBits
  induction listed using List.reverseRecOn with
  | nil => simp
  | append_singleton listed family ih =>
    rw [List.foldl_append, List.foldl_cons, List.foldl_nil, Nat.testBit_or, Bool.or_eq_true, ih,
      Nat.one_shiftLeft, Nat.testBit_two_pow]
    simp only [List.mem_append, List.mem_singleton]
    constructor
    · rintro (⟨other, member, same⟩ | same)
      · exact ⟨other, .inl member, same⟩
      · exact ⟨family, .inr rfl, of_decide_eq_true same⟩
    · rintro ⟨other, member | rfl, same⟩
      · exact .inl ⟨other, member, same⟩
      · exact .inr (decide_eq_true same)

theorem mem_families {family : φ} :
    family ∈ families candidates ↔ ∃ candidate ∈ candidates, family ∈ candidate.sourceFamilyIds := by
  rw [families, List.mem_insertionSort, List.mem_dedup, List.mem_flatMap]

theorem nodup_families : (families candidates).Nodup :=
  (List.perm_insertionSort _ _).nodup_iff.mpr (List.nodup_dedup _)

theorem covers_iff {first second : List (Entry ι)} (within : chosen ⊆ candidates)
    (entries : ∀ entry, entry ∈ first ++ second ↔
      ∃ candidate ∈ chosen, entryOf (families candidates) candidate = entry) :
    cover first ||| cover second = 1 <<< (families candidates).length - 1 ↔
      ∀ family ∈ families candidates, ∃ candidate ∈ chosen, family ∈ candidate.sourceFamilyIds := by
  have bit : ∀ index, (cover first ||| cover second).testBit index = true ↔
      ∃ candidate ∈ chosen, ∃ family ∈ candidate.sourceFamilyIds,
        (families candidates).idxOf family = index := by
    intro index
    rw [Nat.testBit_or, Bool.or_eq_true, testBit_cover, testBit_cover]
    constructor
    · rintro (⟨entry, member, set⟩ | ⟨entry, member, set⟩)
      · obtain ⟨candidate, inside, rfl⟩ := (entries entry).mp (List.mem_append_left _ member)
        exact ⟨candidate, inside, testBit_familyBits.mp set⟩
      · obtain ⟨candidate, inside, rfl⟩ := (entries entry).mp (List.mem_append_right _ member)
        exact ⟨candidate, inside, testBit_familyBits.mp set⟩
    · rintro ⟨candidate, inside, listed⟩
      have set := testBit_familyBits.mpr listed
      rcases List.mem_append.mp ((entries _).mpr ⟨candidate, inside, rfl⟩) with member | member
      · exact .inl ⟨_, member, set⟩
      · exact .inr ⟨_, member, set⟩
  constructor
  · intro all family member
    have below := List.idxOf_lt_length_of_mem member
    have set := bit ((families candidates).idxOf family)
    rw [all, Nat.one_shiftLeft, Nat.testBit_two_pow_sub_one, decide_eq_true_eq] at set
    obtain ⟨candidate, inside, other, listed, same⟩ := set.mp below
    have known : other ∈ families candidates := mem_families.mpr ⟨candidate, within inside, listed⟩
    rw [(List.idxOf_inj known).mp same] at listed
    exact ⟨candidate, inside, listed⟩
  · intro every
    refine Nat.eq_of_testBit_eq fun index => ?_
    rw [Nat.one_shiftLeft, Nat.testBit_two_pow_sub_one, Bool.eq_iff_iff, decide_eq_true_eq, bit]
    constructor
    · rintro ⟨candidate, inside, family, listed, rfl⟩
      exact List.idxOf_lt_length_of_mem (mem_families.mpr ⟨candidate, within inside, listed⟩)
    · intro below
      obtain ⟨candidate, inside, listed⟩ := every _ (List.getElem_mem below)
      exact ⟨candidate, inside, _, listed, nodup_families.idxOf_getElem _ below⟩

end

variable {ι φ : Type} [LinearOrder ι] [LinearOrder φ]

def Entry.NotAfter (first second : Entry ι) : Prop :=
  first.identifier < second.identifier ∨
    (first.identifier = second.identifier ∧ (first.count < second.count ∨
      (first.count = second.count ∧ first.bits ≤ second.bits)))

instance : DecidableRel (@Entry.NotAfter ι _) := fun _ _ =>
  inferInstanceAs (Decidable (_ ∨ _))

def extend (target : Nat) (entry : Entry ι) (states : States ι)
    (source : (Nat × Nat) × List ι) : States ι :=
  if source.1.1 + entry.count > target then states
  else offer states (source.1.1 + entry.count, source.1.2 ||| entry.bits)
    (source.2 ++ [entry.identifier])

def absorb (target : Nat) (states : States ι) (entry : Entry ι) :
    Except SelectionError (States ι) :=
  let next := (states.entries.map fun item => (item.1, item.2)).foldl (extend target entry) states
  if next.keys.length > maxStates then .error .stateLimit else .ok next

def possibilities (entries : List (Entry ι)) (target : Nat) :
    Except SelectionError (List (Nat × List ι)) := do
  let states ← (entries.insertionSort Entry.NotAfter).foldlM (absorb target)
    ((∅ : States ι).insert (0, 0) [])
  .ok ((states.entries.filter fun item => item.1.1 = target).map fun item => (item.1.2, item.2))

def chooseLeast (found : List (List ι)) : Except SelectionError (Finset ι) :=
  match found.argmin id with
  | none => .error .infeasible
  | some least => .ok least.toFinset

def selectFraction (candidates : List (Candidate ι φ)) (generatedShare : Rat) (trainTokens : Int) :
    Except SelectionError (Finset ι) := do
  refuseIf (trainTokens ≤ 0 ∨ ¬ (0 ≤ generatedShare ∧ generatedShare ≤ 1)) .invalidBudget
  let generatedTarget := generatedShare * trainTokens
  refuseIf (generatedTarget.den ≠ 1) .fractionalTarget
  let generatedTokens := generatedTarget.num
  let primaryTokens := trainTokens - generatedTokens
  refuseIf (¬ (candidates.map Candidate.recordId).Nodup) .duplicateIdentity
  let families := families candidates
  refuseIf (families.length > 20) .tooManyFamilies
  refuseIf ((candidates.any fun candidate => candidate.tokens ≤ 0) = true) .nonpositiveCount
  let primary ← possibilities
    ((candidates.filter fun candidate => primaryOrigin candidate.origin).map (entryOf families))
    primaryTokens.toNat
  let generated ← possibilities
    ((candidates.filter fun candidate => !primaryOrigin candidate.origin).map (entryOf families))
    generatedTokens.toNat
  chooseLeast (jointChoices (1 <<< families.length - 1) primary generated)

def Tracks (target : Nat) (seen : List (Entry ι)) (states : States ι) : Prop :=
  ∀ key, LeastOf { chosen | key.1 ≤ target ∧ chosen ∈ Reaching seen key } (states.lookup key)

section

variable {target : Nat} {seen : List (Entry ι)} {entry : Entry ι} {states next : States ι}

theorem foldl_extend (sources : List ((Nat × Nat) × List ι)) :
    sources.foldl (extend target entry) states = offerAll states
      ((sources.filter fun source => source.1.1 + entry.count ≤ target).map fun source =>
        ((source.1.1 + entry.count, source.1.2 ||| entry.bits),
          source.2 ++ [entry.identifier])) := by
  induction sources generalizing states with
  | nil => rfl
  | cons source sources ih =>
    rw [List.foldl_cons, ih]
    by_cases within : source.1.1 + entry.count ≤ target
    · rw [List.filter_cons_of_pos (by simpa using within), List.map_cons, extend,
        if_neg (by omega)]
      rfl
    · rw [List.filter_cons_of_neg (by simpa using within), extend, if_pos (by omega)]

theorem absorb_ok (admitted : absorb target states entry = .ok next) :
    next = (states.entries.map fun item => (item.1, item.2)).foldl (extend target entry) states := by
  simp only [absorb] at admitted
  by_cases large : ((states.entries.map fun item => (item.1, item.2)).foldl
      (extend target entry) states).keys.length > maxStates
  · rw [if_pos large] at admitted
    cases admitted
  · rw [if_neg large, Except.ok.injEq] at admitted
    exact admitted.symm

theorem absorb_error {failure : SelectionError}
    (raised : absorb target states entry = .error failure) : failure = .stateLimit := by
  simp only [absorb] at raised
  by_cases large : ((states.entries.map fun item => (item.1, item.2)).foldl
      (extend target entry) states).keys.length > maxStates
  · rw [if_pos large] at raised
    cases raised
    rfl
  · rw [if_neg large] at raised
    cases raised

theorem concat_le {key : Nat × Nat} {first second : List ι}
    (positive : ∀ entry ∈ seen, 0 < entry.count)
    (unique : ∀ entry ∈ seen, ∀ other ∈ seen, entry.identifier = other.identifier → entry = other)
    (firstReached : first ∈ Reaching seen key) (secondReached : second ∈ Reaching seen key)
    (smaller : first ≤ second) {after later : List ι} (following : first = second → after ≤ later) :
    first ++ after ≤ second ++ later := by
  obtain ⟨part, within, total, _, rfl⟩ := firstReached
  obtain ⟨other, otherWithin, otherTotal, _, rfl⟩ := secondReached
  refine append_le_append_of_le smaller (fun starts => ?_) following
  have same := eq_of_starts (fun entry member => positive entry (otherWithin.subset member))
    (fun entry member other inside => unique entry (within.subset member) other
      (otherWithin.subset inside)) (total.trans otherTotal.symm) starts
  rw [same]

theorem Tracks.absorb (tracks : Tracks target seen states)
    (positive : ∀ entry ∈ seen, 0 < entry.count)
    (unique : ∀ entry ∈ seen, ∀ other ∈ seen, entry.identifier = other.identifier → entry = other)
    (admitted : absorb target states entry = .ok next) : Tracks target (seen ++ [entry]) next := by
  have whole := absorb_ok admitted
  rw [foldl_extend] at whole
  intro key
  rw [whole]
  refine (leastOf_offerAll tracks _ key).more ?_ ?_
  · rintro chosen (⟨bounded, reached⟩ | offered)
    · exact ⟨bounded, reaching_mono reached⟩
    · obtain ⟨source, member, same⟩ := List.mem_map.mp offered
      rw [List.mem_filter, decide_eq_true_eq] at member
      obtain ⟨key', previous⟩ := source
      obtain ⟨inside, bounded⟩ := member
      have kept := tracks key'
      rw [mem_snapshot.mp inside] at kept
      rw [Prod.mk.injEq] at same
      obtain ⟨rfl, rfl⟩ := same
      exact ⟨bounded, reaching_concat kept.1.2⟩
  · rintro chosen ⟨bounded, part, within, total, mask, rfl⟩
    obtain ⟨before, last, rfl, beforeWithin, lastWithin⟩ := List.sublist_append_iff.mp within
    rcases List.sublist_singleton.mp lastWithin with rfl | rfl
    · refine ⟨_, .inl ⟨bounded, before, beforeWithin, ?_, ?_, ?_⟩, le_refl _⟩ <;>
        simp_all
    · rw [weight_append, weight_cons, weight_nil, Nat.add_zero] at total
      rw [cover_concat] at mask
      have reached : before.map Entry.identifier ∈ Reaching seen (weight before, cover before) :=
        ⟨before, beforeWithin, rfl, rfl, rfl⟩
      obtain ⟨kept, found, ⟨_, keptReached⟩, smaller⟩ :=
        (tracks (weight before, cover before)).of_mem (before.map Entry.identifier)
          ⟨by simp only; omega, reached⟩
      refine ⟨kept ++ [entry.identifier], .inr (List.mem_map.mpr
        ⟨((weight before, cover before), kept), ?_, ?_⟩), ?_⟩
      · rw [List.mem_filter, decide_eq_true_eq]
        exact ⟨mem_snapshot.mpr found, by simp only; omega⟩
      · rw [Prod.mk.injEq]
        exact ⟨Prod.ext total mask, rfl⟩
      · rw [List.map_append]
        exact concat_le positive unique keptReached reached smaller fun _ => le_refl _

theorem tracks_empty : Tracks target [] ((∅ : States ι).insert (0, 0) []) := by
  intro key
  by_cases start : key = (0, 0)
  · subst start
    rw [AList.lookup_insert]
    refine ⟨⟨Nat.zero_le _, [], List.Sublist.refl _, rfl, rfl, rfl⟩, ?_⟩
    rintro chosen ⟨_, part, within, _, _, rfl⟩
    rw [List.sublist_nil.mp within]
    exact le_refl _
  · rw [AList.lookup_insert_ne start, AList.lookup_empty]
    refine Set.eq_empty_of_forall_notMem ?_
    rintro chosen ⟨_, part, within, total, mask, rfl⟩
    rw [List.sublist_nil.mp within] at total mask
    exact start (Prod.ext total.symm mask.symm)

theorem Tracks.foldlM {rest : List (Entry ι)} (tracks : Tracks target seen states)
    (positive : ∀ entry ∈ seen ++ rest, 0 < entry.count)
    (unique : ∀ entry ∈ seen ++ rest, ∀ other ∈ seen ++ rest,
      entry.identifier = other.identifier → entry = other)
    (returned : rest.foldlM (Selection.absorb target) states = .ok next) :
    Tracks target (seen ++ rest) next := by
  induction rest generalizing seen states with
  | nil =>
    cases returned
    rwa [List.append_nil]
  | cons entry rest ih =>
    rw [List.foldlM_cons] at returned
    obtain ⟨middle, admitted, returned⟩ := bind_eq_ok returned
    have inside : ∀ earlier ∈ seen, earlier ∈ seen ++ entry :: rest := fun _ member =>
      List.mem_append_left _ member
    have step := tracks.absorb (fun earlier member => positive earlier (inside earlier member))
      (fun earlier member other present => unique earlier (inside earlier member) other
        (inside other present)) admitted
    have later := ih step (by simpa using positive) (by simpa using unique) returned
    simpa using later

theorem foldlM_error {rest : List (Entry ι)} {failure : SelectionError}
    (raised : rest.foldlM (Selection.absorb target) states = .error failure) :
    failure = .stateLimit := by
  induction rest generalizing states with
  | nil => cases raised
  | cons entry rest ih =>
    rw [List.foldlM_cons] at raised
    cases admitted : Selection.absorb target states entry with
    | ok next =>
      rw [admitted] at raised
      exact ih raised
    | error other =>
      rw [admitted] at raised
      cases raised
      exact absorb_error admitted

end

section

variable {entries : List (Entry ι)} {target : Nat} {options : List (Nat × List ι)}

instance : Std.Total (@Entry.NotAfter ι _) where
  total first second := by
    unfold Entry.NotAfter
    rcases lt_trichotomy first.identifier second.identifier with below | same | above
    · exact .inl (.inl below)
    · simp only [same, lt_self_iff_false, true_and, false_or]
      omega
    · exact .inr (.inl above)

instance : IsTrans (Entry ι) Entry.NotAfter where
  trans first second third := by
    unfold Entry.NotAfter
    rintro (below | ⟨same, rest⟩) (below' | ⟨same', rest'⟩)
    · exact .inl (below.trans below')
    · exact .inl (same' ▸ below)
    · exact .inl (same ▸ below')
    · refine .inr ⟨same.trans same', ?_⟩
      omega

instance : Std.Antisymm (@Entry.NotAfter ι _) where
  antisymm first second := by
    unfold Entry.NotAfter
    rintro (below | ⟨same, rest⟩) (below' | ⟨same', rest'⟩)
    · exact absurd below' below.asymm
    · exact absurd same' below.ne'
    · exact absurd same below'.ne'
    · have counts : first.count = second.count ∧ first.bits = second.bits := by omega
      cases first
      cases second
      simp_all

theorem possibilities_ok (positive : ∀ entry ∈ entries, 0 < entry.count)
    (unique : (entries.map Entry.identifier).Nodup)
    (returned : possibilities entries target = .ok options) (mask : Nat) :
    (∀ chosen, (mask, chosen) ∈ options →
      chosen ∈ Reaching (entries.insertionSort Entry.NotAfter) (target, mask)) ∧
    ∀ chosen ∈ Reaching (entries.insertionSort Entry.NotAfter) (target, mask),
      ∃ kept, (mask, kept) ∈ options ∧ kept ≤ chosen := by
  obtain ⟨states, run, returned⟩ := bind_eq_ok returned
  cases returned
  have same : ∀ entry, entry ∈ [] ++ entries.insertionSort Entry.NotAfter ↔ entry ∈ entries := by
    intro entry
    rw [List.nil_append, List.mem_insertionSort]
  have tracks : Tracks target (entries.insertionSort Entry.NotAfter) states := by
    refine tracks_empty.foldlM ?_ ?_ run
    · intro entry member
      exact positive entry ((same entry).mp member)
    · intro entry member other inside equal
      exact List.inj_on_of_nodup_map unique ((same entry).mp member) ((same other).mp inside) equal
  have listed : ∀ chosen, (mask, chosen) ∈ ((states.entries.filter fun item =>
      item.1.1 = target).map fun item => (item.1.2, item.2)) ↔
        states.lookup (target, mask) = some chosen := by
    intro chosen
    rw [← mem_snapshot, List.mem_map, List.mem_map]
    constructor
    · rintro ⟨⟨key, value⟩, member, equal⟩
      rw [List.mem_filter, decide_eq_true_eq] at member
      rw [Prod.mk.injEq] at equal
      obtain ⟨rfl, rfl⟩ := equal
      exact ⟨⟨key, value⟩, member.1, by rw [← member.2]⟩
    · rintro ⟨⟨key, value⟩, member, equal⟩
      rw [Prod.mk.injEq] at equal
      obtain ⟨rfl, rfl⟩ := equal
      exact ⟨_, List.mem_filter.mpr ⟨member, by simp⟩, rfl⟩
  constructor
  · intro chosen member
    have kept := tracks (target, mask)
    rw [(listed chosen).mp member] at kept
    exact kept.1.2
  · intro chosen reached
    obtain ⟨kept, found, _, smaller⟩ := (tracks (target, mask)).of_mem chosen
      ⟨le_refl _, reached⟩
    exact ⟨kept, (listed kept).mpr found, smaller⟩

theorem possibilities_error {failure : SelectionError}
    (raised : possibilities entries target = .error failure) : failure = .stateLimit := by
  unfold possibilities at raised
  cases run : (entries.insertionSort Entry.NotAfter).foldlM (absorb target)
      ((∅ : States ι).insert (0, 0) []) with
  | ok states =>
    rw [run] at raised
    cases raised
  | error other =>
    rw [run] at raised
    cases raised
    exact foldlM_error run

theorem possibilities_perm {others : List (Entry ι)} (perm : entries.Perm others) :
    possibilities entries target = possibilities others target := by
  have sorted : entries.insertionSort Entry.NotAfter = others.insertionSort Entry.NotAfter := by
    refine List.Perm.eq_of_pairwise' (List.pairwise_insertionSort _ entries)
      (List.pairwise_insertionSort _ others) ?_
    exact (List.perm_insertionSort _ entries).trans
      (perm.trans (List.perm_insertionSort _ others).symm)
  rw [possibilities, sorted]
  rfl

end

end SparseLab.Corpus.Selection
