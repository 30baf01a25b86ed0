import Mathlib.Algebra.GroupWithZero.Nat
import Mathlib.Data.List.Dedup
import Mathlib.Data.List.Lex
import Mathlib.Data.List.Sort
import SparseLab.Library.Mappings
import SparseLab.Library.Outcomes
import SparseLab.Library.Texts

/-! `flatten_config` and `compare_configs` of `experiments/compiler.py`. -/

namespace SparseLab.Experiments

open Library

/-- `repr` of a name without quotes and escapes. -/
def quotedName (name : Text) : Text := text "'" ++ name ++ text "'"

/-- `path.split(".")` -/
def components (path : Text) : List Text := path.splitOn 0x2e

def isDottedPath (path : Text) : Prop := path ≠ [] ∧ ∀ component ∈ components path, component ≠ []

instance (path : Text) : Decidable (isDottedPath path) := inferInstanceAs (Decidable (_ ∧ _))

/-- `path.startswith(other + ".")` -/
def startsBelow (path other : Text) : Prop := (other ++ [0x2e]) <+: path

instance (path other : Text) : Decidable (startsBelow path other) :=
  inferInstanceAs (Decidable (_ <+: _))

def pathsOverlap (left right : Text) : Prop :=
  left = right ∨ startsBelow left right ∨ startsBelow right left

instance (left right : Text) : Decidable (pathsOverlap left right) :=
  inferInstanceAs (Decidable (_ ∨ _ ∨ _))

theorem joined_components (path : Text) : [0x2e].intercalate (components path) = path :=
  List.intercalate_splitOn _

theorem components_injective {left right : Text} (same : components left = components right) :
    left = right := by
  rw [← joined_components left, same, joined_components]

theorem intercalate_append {first later : List Text} (some : first ≠ []) (more : later ≠ []) :
    [0x2e].intercalate (first ++ later) =
      [0x2e].intercalate first ++ 0x2e :: [0x2e].intercalate later := by
  induction first with
  | nil => exact absurd rfl some
  | cons part first ih =>
    by_cases last : first = []
    · subst last
      rw [List.singleton_append, List.intercalate_cons_of_ne_nil more, List.intercalate_singleton]
      simp
    · rw [List.cons_append, List.intercalate_cons_of_ne_nil (by simp [last]),
        List.intercalate_cons_of_ne_nil last, ih last]
      simp

theorem startsBelow_iff (path other : Text) :
    startsBelow path other ↔ ∃ later, later ≠ [] ∧ components path = components other ++ later := by
  constructor
  · rintro ⟨rest, rfl⟩
    refine ⟨components rest, List.splitOn_ne_nil _ _, ?_⟩
    rw [List.append_assoc]
    exact List.splitOn_append_cons_self other rest
  · rintro ⟨later, more, split⟩
    refine ⟨[0x2e].intercalate later, ?_⟩
    have whole := joined_components path
    have some : components other ≠ [] := List.splitOn_ne_nil _ _
    rw [split, intercalate_append some more, joined_components] at whole
    rw [← whole, List.append_assoc]
    rfl

theorem pathsOverlap_iff (left right : Text) : pathsOverlap left right ↔
    components left <+: components right ∨ components right <+: components left := by
  rw [pathsOverlap, startsBelow_iff, startsBelow_iff]
  constructor
  · rintro (rfl | ⟨later, -, split⟩ | ⟨later, -, split⟩)
    · exact Or.inl (List.prefix_refl _)
    · exact Or.inr ⟨later, split.symm⟩
    · exact Or.inl ⟨later, split.symm⟩
  · rintro (⟨later, split⟩ | ⟨later, split⟩)
    · by_cases more : later = []
      · rw [more, List.append_nil] at split
        exact Or.inl (components_injective split)
      · exact Or.inr (Or.inr ⟨later, more, split.symm⟩)
    · by_cases more : later = []
      · rw [more, List.append_nil] at split
        exact Or.inl (components_injective split.symm)
      · exact Or.inr (Or.inl ⟨later, more, split.symm⟩)

inductive CompareFailure
  | notMapping (side : Text)
  | unknown (kind : String) (field : Text)
  | conflict (intervention invariant : Text)
  | invariantChanged (fields : List Text)
  | undeclared (fields : List Text)
  | unchanged (fields : List Text)
deriving DecidableEq

def CompareFailure.text : CompareFailure → Text
  | notMapping side => side ++ Library.text " artifacts must be a mapping"
  | unknown kind field => Library.text s!"unknown {kind} field: " ++ quotedName field
  | conflict intervention invariant => Library.text "intervention " ++ intervention ++
      Library.text " conflicts with invariant " ++ invariant
  | invariantChanged fields => Library.text "invariant changed: " ++
      joined (Library.text ", ") fields
  | undeclared fields => Library.text "undeclared changed fields: " ++
      joined (Library.text ", ") fields
  | unchanged fields => Library.text "declared interventions unchanged: " ++
      joined (Library.text ", ") fields

/-- `f"{prefix}.{key}" if prefix else key` -/
def fieldUnder (above key : Text) : Text := if above = [] then key else above ++ 0x2e :: key

section

variable {α : Type}

/-- `visit`: the fields are assigned in this order, and an empty mapping assigns none. -/
def visit : Mapping Text α → Text → List (Text × α)
  | .empty, _ => []
  | .leaf key value rest, above => (fieldUnder above key, value) :: visit rest above
  | .nested key inner rest, above => visit inner (fieldUnder above key) ++ visit rest above

def flattenConfig (config : Mapping Text α) : List (Text × α) := visit config []

/-- `flattened.get(path)`: the last assignment counts. -/
def fieldValue (null : α) (flattened : List (Text × α)) (path : Text) : α :=
  (flattened.reverse.lookup path).getD null

/-- `artifacts.get(side, \x7b\x7d)` -/
def inventory (artifacts : Option (Mapping Text α)) (side : Text) :
    Except CompareFailure (Mapping Text α) :=
  match artifacts.bind fun artifacts => artifacts.find side with
  | none => .ok .empty
  | some (.mapping fields) => .ok fields
  | some (.value _) => .error (.notMapping side)

def sideFields (config artifacts : Mapping Text α) : List (Text × α) :=
  flattenConfig config ++ flattenConfig (.nested (text "artifacts") artifacts .empty)

def sortedFields (fields : List Text) : List Text :=
  fields.dedup.insertionSort fun first second => first ≤ second

def checkKnown (paths : List Text) (kind : String) (field : Text) : Except CompareFailure PUnit :=
  refuseIf (field = [] ∨ field ∉ paths) (.unknown kind field)

def checkApart (invariants : List Text) (field : Text) : Except CompareFailure PUnit :=
  invariants.forM fun invariant =>
    refuseIf (pathsOverlap field invariant) (.conflict field invariant)

variable [DecidableEq α] (null : α)

def changedFields (left right : List (Text × α)) : List Text :=
  (sortedFields (left.map Prod.fst ++ right.map Prod.fst)).filter fun path =>
    fieldValue null left path ≠ fieldValue null right path

def compareConfigs (base variant : Mapping Text α) (expected invariants : List Text)
    (artifacts : Option (Mapping Text α)) (requireAll : Bool) :
    Except CompareFailure (List (Text × α × α)) := do
  let baseArtifacts ← inventory artifacts (text "base")
  let variantArtifacts ← inventory artifacts (text "variant")
  let left := sideFields base baseArtifacts
  let right := sideFields variant variantArtifacts
  let paths := left.map Prod.fst ++ right.map Prod.fst
  expected.forM (checkKnown paths "intervention")
  invariants.forM (checkKnown paths "invariant")
  expected.forM (checkApart invariants)
  let differences := changedFields null left right
  let violations := (sortedFields invariants).filter fun path => path ∈ differences
  refuseIf (violations ≠ []) (.invariantChanged violations)
  let hidden := differences.filter fun path => path ∉ expected
  refuseIf (hidden ≠ []) (.undeclared hidden)
  let missing := (sortedFields expected).filter fun path => path ∉ differences
  refuseIf (requireAll ∧ missing ≠ []) (.unchanged missing)
  .ok (differences.map fun path => (path, fieldValue null left path, fieldValue null right path))

end

end SparseLab.Experiments
