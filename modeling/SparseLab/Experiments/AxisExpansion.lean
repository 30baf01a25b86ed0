import SparseLab.Experiments.ConfigComparison
import SparseLab.Library.Products

/-! The cells of declared axes, as `expand_axes` of `experiments/compiler.py` finds them. -/

namespace SparseLab.Experiments

open Library

inductive ExpandFailure
  | maxRuns
  | axisName (source name : Text)
  | emptyAxis (axis : Text)
  | tooManyRuns (source : Text) (maxRuns : Int)
  | choiceLabel (axis label : Text)
  | unknownPath (source dotted : Text)
  | overlapping (source other dotted : Text)
  | acrossAxes (source axis dotted otherAxis other : Text)
  | noMapping (dotted : Text)
  | invalidCell (coordinate : List (Text × Text)) (message : Text)
deriving DecidableEq

def ExpandFailure.text : ExpandFailure → Text
  | maxRuns => Library.text "max_runs must be a positive integer"
  | axisName source name => source ++
      Library.text " axis names must be unique nonempty strings: " ++ quotedName name
  | emptyAxis axis => Library.text "axis " ++ axis ++ Library.text " must be nonempty"
  | tooManyRuns source most => source ++
      Library.text s!" expansion exceeds max_runs ({most})"
  | choiceLabel axis label => Library.text "axis " ++ axis ++
      Library.text " has invalid or duplicate label: " ++ quotedName label
  | unknownPath source dotted => Library.text "unknown " ++ source ++ Library.text " path: " ++ dotted
  | overlapping source other dotted => Library.text "overlapping " ++ source ++
      Library.text " patches: " ++ other ++ Library.text " and " ++ dotted
  | acrossAxes source axis dotted otherAxis other => Library.text "overlapping " ++ source ++
      Library.text " patches: " ++ axis ++ Library.text "." ++ dotted ++
      Library.text " conflicts with " ++ otherAxis ++ Library.text "." ++ other
  | noMapping dotted => dotted
  | invalidCell coordinate message => Library.text "invalid config at coordinate \x7b" ++
      joined (Library.text ", ") (coordinate.map fun entry =>
        quotedName entry.1 ++ Library.text ": " ++ quotedName entry.2) ++
      Library.text "\x7d: " ++ message

abbrev Patch (α : Type) := List (Text × Mapping.Node Text α)

structure Choice (α : Type) where
  label : Text
  set : Patch α

structure Axis (α : Type) where
  name : Text
  choices : List (Choice α)

/-- What makes a path of a value: `Path(value)`, taken from `base_dir` unless it is absolute. -/
structure PathValues (α : Type) where
  isText : α → Bool
  resolve : α → α

def pathKeys : List Text :=
  ["path", "cache_dir", "root_dir", "output_dir", "memory_package_path", "train_path",
    "portability_manifest_path", "validation_path", "prepared_path", "allocation_manifest_path",
    "source_manifest_path", "corpus_release_path", "corpus_export_path",
    "mixture_declaration_path", "mixture_output_path"].map text

section

variable {α : Type} (config : Mapping Text α) (source : Text)

def validatePath (dotted : Text) : Except ExpandFailure PUnit := do
  refuseIf (¬ isDottedPath dotted) (.unknownPath source dotted)
  refuseIf ((config.fetch (components dotted)).isNone = true) (.unknownPath source dotted)

/-- The loop over the patch, with its `previous`. -/
def validatePaths (previous : List Text) : List Text → Except ExpandFailure PUnit
  | [] => .ok ⟨⟩
  | dotted :: later => do
      validatePath config source dotted
      previous.forM fun other =>
        refuseIf (pathsOverlap dotted other) (.overlapping source other dotted)
      validatePaths (previous ++ [dotted]) later

def validatePatch (patch : Patch α) : Except ExpandFailure PUnit :=
  validatePaths config source [] (patch.map Prod.fst)

def assign (result : Mapping Text α) (change : Text × Mapping.Node Text α) :
    Except ExpandFailure (Mapping Text α) :=
  match result.fetch (components change.1).dropLast with
  | some (.mapping _) => .ok (result.put (components change.1) change.2)
  | _ => .error (.noMapping change.1)

def applyPatch (patch : Patch α) : Except ExpandFailure (Mapping Text α) := do
  validatePatch config source patch
  patch.foldlM assign config

end

section

variable {α : Type} (config : Mapping Text α) (source : Text)

/-- What `axis_options` has of the axes so far. -/
structure Declared (α : Type) where
  names : List Text
  options : List (List (Choice α))
  pathsByAxis : List (Text × List Text)
  count : Nat

def Axis.paths (axis : Axis α) : List Text :=
  (axis.choices.flatMap fun choice => choice.set.map Prod.fst).dedup.insertionSort
    fun first second => first ≤ second

def checkChoices (axis : Text) (labels : List Text) : List (Choice α) → Except ExpandFailure PUnit
  | [] => .ok ⟨⟩
  | choice :: later => do
      refuseIf (blank choice.label = true ∨ choice.label ∈ labels) (.choiceLabel axis choice.label)
      validatePatch config source choice.set
      checkChoices axis (labels ++ [choice.label]) later

def checkAcross (axis : Text) (paths : List Text) (pathsByAxis : List (Text × List Text)) :
    Except ExpandFailure PUnit :=
  pathsByAxis.forM fun other =>
    paths.forM fun dotted =>
      (other.2).forM fun path =>
        refuseIf (pathsOverlap dotted path) (.acrossAxes source axis dotted other.1 path)

def axisOption (maxRuns : Int) (declared : Declared α) (axis : Axis α) :
    Except ExpandFailure (Declared α) := do
  refuseIf (blank axis.name = true ∨ axis.name ∈ declared.names) (.axisName source axis.name)
  refuseIf (axis.choices = []) (.emptyAxis axis.name)
  refuseIf (maxRuns < (declared.count * axis.choices.length : Nat)) (.tooManyRuns source maxRuns)
  checkChoices config source axis.name [] axis.choices
  checkAcross source axis.name axis.paths declared.pathsByAxis
  .ok
    { names := declared.names ++ [axis.name]
      options := declared.options ++ [axis.choices]
      pathsByAxis := declared.pathsByAxis ++ [(axis.name, axis.paths)]
      count := declared.count * axis.choices.length }

def axisOptions (axes : List (Axis α)) (maxRuns : Int) :
    Except ExpandFailure (List Text × List (List (Choice α))) := do
  refuseIf (maxRuns ≤ 0) .maxRuns
  let declared ← axes.foldlM (axisOption config source maxRuns) ⟨[], [], [], 1⟩
  .ok (declared.names, declared.options)

end

section

variable {α γ : Type} (rules : PathValues α)

/-- `patch[dotted] = value` -/
def setEntry (patch : Patch α) (entry : Text × Mapping.Node Text α) : Patch α :=
  if entry.1 ∈ patch.map Prod.fst then
    patch.map fun other => if other.1 = entry.1 then entry else other
  else patch ++ [entry]

def cellValue (entry : Text × Mapping.Node Text α) : Text × Mapping.Node Text α :=
  match entry.2 with
  | .value value =>
    if rules.isText value = true ∧ (components entry.1).getLast?.getD [] ∈ pathKeys then
      (entry.1, .value (rules.resolve value))
    else entry
  | .mapping _ => entry

def cellPatch (selected : List (Choice α)) : Patch α :=
  ((selected.flatMap Choice.set).map (cellValue rules)).foldl setEntry []

/-- `dict(zip(names, labels))` -/
def coordinate (names : List Text) (selected : List (Choice α)) : List (Text × Text) :=
  names.zip (selected.map Choice.label)

/-- A refusal inside the `try` of a cell, where only a missing key is no `ValueError`. -/
def inCell {β : Type} (coordinate : List (Text × Text)) :
    Except ExpandFailure β → Except ExpandFailure β
  | .ok value => .ok value
  | .error (.noMapping dotted) => .error (.noMapping dotted)
  | .error failure => .error (.invalidCell coordinate failure.text)

def cellConfig (modelValidate : Mapping Text α → Except String γ)
    (coordinate : List (Text × Text)) (tree : Mapping Text α) : Except ExpandFailure γ :=
  match modelValidate tree with
  | .ok concrete => .ok concrete
  | .error message => .error (.invalidCell coordinate (text message))

def expandCell (projected : Mapping Text α) (modelValidate : Mapping Text α → Except String γ)
    (names : List Text) (selected : List (Choice α)) :
    Except ExpandFailure (γ × List (Text × Text)) := do
  let tree ← inCell (coordinate names selected)
    (applyPatch projected (text "config") (cellPatch rules selected))
  let concrete ← cellConfig modelValidate (coordinate names selected) tree
  .ok (concrete, coordinate names selected)

def expandAxes (project : γ → Mapping Text α) (modelValidate : Mapping Text α → Except String γ)
    (base : γ) (axes : List (Axis α)) (maxRuns : Int) :
    Except ExpandFailure (List (γ × List (Text × Text))) := do
  let (names, options) ← axisOptions (project base) (text "plan") axes maxRuns
  if options = [] then .ok [(base, [])]
  else (product options).mapM (expandCell rules (project base) modelValidate names)

end

end SparseLab.Experiments
