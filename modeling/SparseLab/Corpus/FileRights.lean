import SparseLab.Corpus.SourceRecords
import SparseLab.Corpus.SpdxExpressions

/-! Rights of one file under a policy, from `corpus/rights.py`. -/

namespace SparseLab.Corpus.Rights

open Library Records

inductive TrainingEligibility
  | eligible | eligibleWithObligations | reviewRequired | ineligible
deriving DecidableEq

inductive RedistributionMode
  | redistributableUnderSourceTerms | metadataReconstructionOnly | derivedOnly
  | notRedistributable | reviewRequired
deriving DecidableEq

inductive RestrictionKind
  | prohibited | conditional
deriving DecidableEq

def RestrictionKind.text : RestrictionKind → Text
  | prohibited => Library.text "prohibited"
  | conditional => Library.text "conditional"

/-- `{"eligible", "eligible_with_obligations"}` -/
def TrainingEligibility.trains : TrainingEligibility → Bool
  | eligible | eligibleWithObligations => true
  | reviewRequired | ineligible => false

structure TrainingRestriction where
  kind : RestrictionKind
  basis : Text
  nonblank : blank basis = false

section

/-- The checks of `_safe_path`; `as_posix` changes no path that passes them. -/
def safePath (path : Text) : Bool :=
  path ≠ [] && path.head? ≠ some 0x2f && !path.contains 0x5c &&
    (path.splitOn 0x2f).all fun part => part ≠ [] && part ≠ text "." && part ≠ text ".."

def boundaries : List Text :=
  ["vendor", "third_party", "third-party", "external", "generated", "bundled", "fixtures"].map text

/-- `part.lower()`, as far as a boundary's name can come of it. -/
def lowered (part : Text) : Text :=
  part.map fun code => if 0x41 ≤ code ∧ code ≤ 0x5a then code + 0x20 else code

/-- `value.rstrip("/")` -/
def withoutSlashes (value : Text) : Text := value.rdropWhile fun code => code = 0x2f

def boundaryFlags (path : Text) : List Text :=
  ((path.splitOn 0x2f).filter fun part => boundaries.contains (lowered part)).dedup.insertionSort
    fun first second => first ≤ second

end

/-- `RightsPolicy`, with what its validators checked. -/
structure RightsPolicy where
  trainingEligibility : TrainingEligibility
  redistributionMode : RedistributionMode
  spdxExpression : Option Text
  licenseReferences : List Text
  notices : List Text
  trainingRestriction : Option TrainingRestriction
  allowedBoundaryPaths : List Text
  nonblank_spdx : ∀ expression ∈ spdxExpression, blank expression = false
  nonblank_entries : ∀ value ∈ licenseReferences ++ notices, blank value = false
  safe_allowlist : ∀ value ∈ allowedBoundaryPaths, safePath (withoutSlashes value) = true
  consistent_restriction : ∀ restriction ∈ trainingRestriction,
    (restriction.kind = .prohibited → trainingEligibility = .ineligible) ∧
      (restriction.kind = .conditional → trainingEligibility.trains = false)

structure FileRights where
  path : Text
  detectedSpdxExpression : Option Text
  trainingEligibility : TrainingEligibility
  redistributionMode : RedistributionMode
  licenseReferences : List Text
  notices : List Text
  trainingRestriction : Option TrainingRestriction
  boundaryFlags : List Text
  reason : Text

/-- What `re` and the codec find in a line: `_SPDX_LINE` without the end of a comment, and
`_COPYRIGHT_LINE`. -/
structure LinePatterns where
  decode : Bytes → Text
  identifier : Text → Option Text
  copyright : Text → Bool

section

variable (patterns : LinePatterns) (policy : RightsPolicy)

def headerLines (path : Text) (raw : Bytes) : List Text :=
  if [".jsonl", ".json", ".parquet"].any fun ending => (text ending).isSuffixOf path then []
  else ((raw.splitOn 0x0a).take 30).map fun line => strip whiteSpace (patterns.decode line)

def expressions (lines : List Text) : List Text := (lines.filterMap patterns.identifier).dedup

def allowedBoundary (path : Text) : Bool :=
  policy.allowedBoundaryPaths.any fun item =>
    path = withoutSlashes item || (item.getLast? = some 0x2f && item.isPrefixOf path)

def detected (found : List Text) : Option Text :=
  match found with
  | [expression] => some expression
  | _ => none

def classification (expression : Option Text) : Spdx.LicenseClass :=
  match expression.filter (fun written => written ≠ []) with
  | some written => Spdx.licenseClass written
  | none =>
    match policy.spdxExpression with
    | some written => Spdx.licenseClass written
    | none => .unknown

def concerns (path : Text) (found : List Text) (prospective : Bool) : List Text :=
  (if boundaryFlags path ≠ [] ∧ allowedBoundary policy path = false then
      [text "external or generated path boundary: " ++ joined (text ", ") (boundaryFlags path)]
    else []) ++
  (if 1 < found.length then [text "conflicting file license evidence"] else []) ++
  (match classification policy (detected found), prospective with
    | .unknown, false => [text "unknown or unrecognized SPDX expression"]
    | .restricted, false => [text "restrictive SPDX license requires review"]
    | _, _ => []) ++
  (match policy.trainingRestriction with
    | some restriction => [restriction.kind.text ++ text " ML training: " ++ restriction.basis]
    | none => [])

def training (reasons : List Text) (licenseClass : Spdx.LicenseClass) (prospective : Bool) :
    TrainingEligibility :=
  if policy.trainingEligibility = .ineligible ∨
      policy.trainingRestriction.any fun restriction => restriction.kind = .prohibited then
    .ineligible
  else if policy.trainingEligibility = .reviewRequired ∨ reasons ≠ [] then .reviewRequired
  else if policy.trainingEligibility = .eligibleWithObligations ∨ licenseClass = .obligations ∨
      (prospective ∧ (licenseClass = .unknown ∨ licenseClass = .restricted)) ∨
      (licenseClass = .permissive ∧ policy.notices = []) then
    .eligibleWithObligations
  else .eligible

/-- `resolve_file_rights` without nested license metadata. -/
def resolveFileRights (path : Text) (raw : Bytes) (prospective : Bool) : Option FileRights :=
  if safePath path then
    let lines := headerLines patterns path raw
    let found := expressions patterns lines
    let reasons := concerns policy path found prospective
    some
      { path := path
        detectedSpdxExpression := detected found
        trainingEligibility :=
          training policy reasons (classification policy (detected found)) prospective
        redistributionMode :=
          if reasons ≠ [] ∧ policy.redistributionMode = .redistributableUnderSourceTerms then
            .reviewRequired
          else policy.redistributionMode
        licenseReferences := policy.licenseReferences
        notices := policy.notices ++ lines.filter patterns.copyright
        trainingRestriction := policy.trainingRestriction
        boundaryFlags := boundaryFlags path
        reason :=
          if reasons ≠ [] then joined (text "; ") reasons
          else if prospective then
            text "private research candidate; license obligations and explicit source terms retained"
          else text "recognized SPDX under declared source terms" }
  else none

variable {patterns policy}

theorem training_trains {reasons : List Text} {licenseClass : Spdx.LicenseClass}
    {prospective : Bool} : (training policy reasons licenseClass prospective).trains = true ↔
      policy.trainingEligibility.trains = true ∧ reasons = [] := by
  have consistent := policy.consistent_restriction
  unfold training
  by_cases barred : policy.trainingEligibility = .ineligible ∨
      policy.trainingRestriction.any (fun restriction => restriction.kind = .prohibited)
  · have declared : policy.trainingEligibility = .ineligible := by
      refine barred.elim id fun prohibited => ?_
      obtain ⟨restriction, found, kind⟩ := (Option.any_eq_true _ _).mp prohibited
      exact (consistent restriction found).1 (of_decide_eq_true kind)
    rw [if_pos barred, declared]
    simp [TrainingEligibility.trains]
  · rw [if_neg barred]
    rw [not_or] at barred
    by_cases review : policy.trainingEligibility = .reviewRequired ∨ reasons ≠ []
    · rw [if_pos review]
      rcases review with review | some
      · simp [review, TrainingEligibility.trains]
      · simp [some, TrainingEligibility.trains]
    · rw [if_neg review]
      rw [not_or, not_not] at review
      have declared : policy.trainingEligibility.trains = true := by
        cases eligibility : policy.trainingEligibility with
        | eligible => rfl
        | eligibleWithObligations => rfl
        | reviewRequired => exact absurd eligibility review.1
        | ineligible => exact absurd eligibility barred.1
      refine iff_of_true ?_ ⟨declared, review.2⟩
      split <;> rfl

/-- `detected or policy.spdx_expression` -/
def effective (policy : RightsPolicy) (expression : Option Text) : Option Text :=
  (expression.filter fun written => written ≠ []).or policy.spdxExpression

def Licensed (leaf : Spdx.Leaf) : Prop :=
  leaf.licenseClass = .permissive ∨ leaf.licenseClass = .obligations

theorem licenseClass_licensed {expression : Text} :
    (Spdx.licenseClass expression = .permissive ∨ Spdx.licenseClass expression = .obligations) ↔
      ∃ leaves, Spdx.Sentence (fun _ => True) expression leaves ∧ ∀ leaf ∈ leaves, Licensed leaf := by
  constructor
  · intro known
    obtain ⟨leaves, sentence⟩ : ∃ leaves, Spdx.Sentence (fun _ => True) expression leaves :=
      Spdx.exists_sentence (by rcases known with same | same <;> simp [same])
    refine ⟨leaves, sentence, fun leaf member => ?_⟩
    have below := (Spdx.licenseClass_sentence sentence).2 leaf member
    unfold Licensed
    rcases known with same | same <;> rw [same] at below <;> revert below <;>
      cases leaf.licenseClass <;> decide
  · rintro ⟨leaves, sentence, licensed⟩
    obtain ⟨⟨leaf, member, same⟩, -⟩ := Spdx.licenseClass_sentence sentence
    exact same ▸ licensed leaf member

theorem classification_licensed {expression : Option Text} :
    (classification policy expression ≠ .unknown ∧ classification policy expression ≠ .restricted) ↔
      ∃ written ∈ effective policy expression, ∃ leaves,
        Spdx.Sentence (fun _ => True) written leaves ∧ ∀ leaf ∈ leaves, Licensed leaf := by
  simp only [← licenseClass_licensed]
  unfold classification effective
  cases expression.filter fun written => written ≠ [] with
  | some written => cases same : Spdx.licenseClass written <;> simp [same]
  | none =>
    cases policy.spdxExpression with
    | some written => cases same : Spdx.licenseClass written <;> simp [same]
    | none => simp

structure Clear (policy : RightsPolicy) (path : Text) (found : List Text) (prospective : Bool) :
    Prop where
  inside : boundaryFlags path = [] ∨ allowedBoundary policy path = true
  agreed : found.length ≤ 1
  licensed : prospective = false → ∃ written ∈ effective policy (detected found), ∃ leaves,
    Spdx.Sentence (fun _ => True) written leaves ∧ ∀ leaf ∈ leaves, Licensed leaf
  unrestricted : policy.trainingRestriction = none

theorem concerns_nil {path : Text} {found : List Text} {prospective : Bool} :
    concerns policy path found prospective = [] ↔ Clear policy path found prospective := by
  have known := @classification_licensed policy (detected found)
  have owned : (¬ (boundaryFlags path ≠ [] ∧ allowedBoundary policy path = false)) ↔
      (boundaryFlags path = [] ∨ allowedBoundary policy path = true) := by
    rw [not_and_or, not_not, Bool.not_eq_false]
  simp only [concerns, List.append_eq_nil_iff, ite_eq_right_iff, List.cons_ne_nil, imp_false, owned,
    Nat.not_lt]
  constructor
  · rintro ⟨⟨⟨inside, agreed⟩, license⟩, free⟩
    refine ⟨inside, agreed, fun ordinary => known.mp ?_, ?_⟩
    · cases same : classification policy (detected found) <;> simp [same, ordinary] at license ⊢
    · cases same : policy.trainingRestriction <;> simp [same] at free ⊢
  · rintro ⟨inside, agreed, licensed, free⟩
    refine ⟨⟨⟨inside, agreed⟩, ?_⟩, by rw [free]⟩
    cases prospective with
    | true => cases classification policy (detected found) <;> rfl
    | false =>
      have clear := known.mpr (licensed rfl)
      cases same : classification policy (detected found) <;> simp [same] at clear ⊢

end

end SparseLab.Corpus.Rights
