import Mathlib.Data.List.Sort
import Mathlib.Data.String.Basic
import SparseLab.Library.Outcomes

/-! The store of a campaign, from `campaign/state.py`: a signed index and one receipt a stage. -/

namespace SparseLab.Campaign

open Library

abbrev Json := String

/-- `_STATES` -/
inductive StageState
  | notStarted | ready | running | complete | blocked | awaitingApproval | interrupted | failed
  | inconclusive
deriving DecidableEq

def StageState.Committed (state : StageState) : Prop :=
  state ∈ [complete, blocked, failed, inconclusive, interrupted]

instance (state : StageState) : Decidable state.Committed := inferInstanceAs (Decidable (_ ∈ _))

/-- `_OUTCOMES` -/
inductive Outcome
  | expandMore | descriptiveEvidence | readyForTokenizer | readyForNextStage | doNotAdvance
  | inconclusive
deriving DecidableEq

inductive StageKind
  | approval | experimentRun | datasetSnapshot
  | other (name : String)
deriving DecidableEq

structure Entry where
  id : String
  kind : StageKind
  scope : String
  requires : List String
deriving DecidableEq

structure Stage extends Entry where
  bind : List String := []
  declared : Json := ""
deriving DecidableEq

def isSha (text : String) : Bool :=
  text.toList.length = 64 &&
    text.toList.all fun digit => digit.isDigit || "abcdef".toList.contains digit

structure Sha where
  text : String
  valid : isSha text = true

structure Output where
  kind : String
  identifier : String
  sha256 : String
deriving DecidableEq

abbrev Data := List (String × Json)

namespace Data

def Same (first second : Data) : Prop :=
  ∀ key ∈ (first ++ second).map (·.1), first.lookup key = second.lookup key

instance (first second : Data) : Decidable (first.Same second) :=
  inferInstanceAs (Decidable (∀ _ ∈ _, _))

end Data

structure AttemptRecord where
  state : StageState
  reason : String
deriving DecidableEq

structure Row where
  entry : Entry
  state : StageState := .notStarted
  attempts : List AttemptRecord := []
  observations : List Json := []
  outputs : List Output := []
  availability : Data := []
  outcome : Option Outcome := none
  reason : Option String := none
  deficits : Option (List Json) := none
  stageInput : Option String := none
  verifiedAt : Option String := none
  verification : Bool := false
  receipt : Option String := none
  data : Data := []
deriving DecidableEq

structure Receipt where
  entry : Entry
  stageInput : String
  state : StageState
  outcome : Outcome
  reason : String
  deficits : List Json
  outputs : List Output
  availability : Data
  observations : List Json
  verifiedAt : String
  data : Data
deriving DecidableEq

/-- A file under `receipts/<stage>/`: a receipt with its name, or what a killed `mkstemp` left. -/
inductive Content
  | receipt (input : String) (receipt : Receipt)
  | scratch (name : String)
deriving DecidableEq

structure File where
  stage : String
  content : Content
deriving DecidableEq

abbrev Rows := String → Row

structure Disk where
  index : Option Rows := none
  receipts : Option (List File) := none

structure Formats where
  machineLocal : String → Bool
  utc : String → Bool

structure Requirement where
  id : String
  stageInput : String
  outputs : List Output
deriving DecidableEq

/-- A plan whose stages are in the order of `ordered_stages`. -/
structure Plan where
  stages : List Stage
  unique : (stages.map (·.id)).Nodup
  ordered : ∀ earlier stage later, stages = earlier ++ stage :: later →
    ∀ name ∈ stage.requires, name ∈ earlier.map (·.id)
  digest : Stage → List Requirement → Sha

section

variable (formats : Formats) (plan : Plan)

def Plan.stage (id : String) : Option Stage := plan.stages.find? (·.id = id)

def initial : Rows := fun id =>
  { entry := (plan.stage id).elim ⟨id, .other "", "", []⟩ (·.toEntry) }

def receiptPath (id input : String) : String := "receipts/" ++ id ++ "/" ++ input ++ ".json"

def sha (value : Option String) (field : String) : Except String String :=
  match value with
  | some text => if isSha text then .ok text else .error ("invalid " ++ field ++ " SHA-256")
  | none => .error ("invalid " ++ field ++ " SHA-256")

def validateOutput (id : String) (output : Output) : Except String Unit := do
  refuseIf (output.kind = "" ∨ output.identifier = "") ("invalid output identity: " ++ id)
  refuseIf (formats.machineLocal output.identifier)
    ("machine-local path in output identity: " ++ id)
  refuseIf (isSha output.sha256 = false) "invalid output SHA-256"

def validateRow (row : Row) (entry : Entry) : Except String Unit := do
  refuseIf (row.entry ≠ entry) ("campaign stage inventory mismatch: " ++ entry.id)
  row.outputs.forM (validateOutput formats entry.id)
  refuseIf (∃ input ∈ row.stageInput, isSha input = false) "invalid stage input SHA-256"
  refuseIf (row.receipt.isSome ∧ row.receipt ≠ some (receiptPath entry.id (row.stageInput.getD "None")))
    ("invalid campaign receipt reference: " ++ entry.id)
  refuseIf (∃ verifiedAt ∈ row.verifiedAt, formats.utc verifiedAt = false)
    "invalid stage verification UTC timestamp"
  refuseIf (row.verifiedAt.isSome ∧ row.verification = false)
    ("invalid stage verification marker: " ++ entry.id)
  refuseIf (row.verification ∧ row.verifiedAt = none)
    ("stage verification lacks timestamp: " ++ entry.id)

/-- `_validate_index`, as far as the rows go. -/
def validateIndex (rows : Rows) : Except String Unit :=
  plan.stages.forM fun stage => validateRow formats (rows stage.id) stage.toEntry

def save (disk : Disk) (rows : Rows) : Except String Disk := do
  validateIndex formats plan rows
  pure { disk with index := some rows }

def requirement (rows : Rows) (name : String) : Except String Requirement := do
  let dependency := rows name
  let stageInput ← sha dependency.stageInput "dependency stage input"
  validateRow formats dependency ((plan.stage name).elim dependency.entry (·.toEntry))
  refuseIf (dependency.state ≠ .complete) ("dependency is not complete: " ++ name)
  pure { id := name, stageInput, outputs := dependency.outputs }

def inputSha (stage : Stage) (rows : Rows) : Except String String := do
  let requirements ← (stage.requires.insertionSort (· ≤ ·)).mapM (requirement formats plan rows)
  pure (plan.digest stage requirements).text

/-- `reserved`, which no extra field of a receipt may be named like. -/
def reserved : List String :=
  ["id", "kind", "scope", "requires", "state", "attempts", "observations", "outputs",
    "availability", "outcome", "reason", "deficits", "stage_input_sha256", "verified_at",
    "verification", "receipt"]

def receiptRow (stage : Stage) (input : String) (receipt : Receipt) : Row where
  entry := stage.toEntry
  state := receipt.state
  observations := receipt.observations
  outputs := receipt.outputs
  availability := receipt.availability
  outcome := some receipt.outcome
  reason := some receipt.reason
  deficits := some receipt.deficits
  stageInput := some input
  verifiedAt := some receipt.verifiedAt
  verification := true
  receipt := some (receiptPath stage.id input)
  data := receipt.data

def readReceipt (stage : Stage) (input : String) (receipt : Receipt) : Except String Row := do
  refuseIf (receipt.entry ≠ stage.toEntry ∨ receipt.stageInput ≠ input)
    ("campaign receipt identity mismatch: " ++ receiptPath stage.id input)
  refuseIf (¬ receipt.state.Committed) ("invalid committed state: " ++ receiptPath stage.id input)
  refuseIf (formats.utc receipt.verifiedAt = false) "invalid receipt verification UTC timestamp"
  refuseIf (∃ key ∈ receipt.data.map (·.1), key ∈ reserved)
    ("campaign receipt data overrides identity: " ++ receiptPath stage.id input)
  validateRow formats (receiptRow stage input receipt) stage.toEntry
  pure (receiptRow stage input receipt)

def compareCommitted (row previous : Row) : Except String Unit := do
  refuseIf (row.state ≠ previous.state) "conflicting committed campaign state"
  refuseIf (row.outcome ≠ previous.outcome) "conflicting committed campaign outcome"
  refuseIf (row.reason.getD "" ≠ previous.reason.getD "") "conflicting committed campaign reason"
  refuseIf (row.deficits.getD [] ≠ previous.deficits.getD [])
    "conflicting committed campaign deficits"
  refuseIf (row.outputs ≠ previous.outputs) "conflicting committed campaign outputs"
  refuseIf (¬ row.availability.Same previous.availability)
    "conflicting committed campaign availability"
  refuseIf (row.observations ≠ previous.observations)
    "conflicting committed campaign observations"
  refuseIf (¬ row.data.Same previous.data) "conflicting committed campaign result data"

def Disk.published (disk : Disk) (id input : String) : Option Receipt :=
  (disk.receipts.getD []).findSome? fun file =>
    match file.content with
    | .receipt name receipt => if file.stage = id ∧ name = input then some receipt else none
    | .scratch _ => none

def Disk.add (disk : Disk) (id : String) (content : Content) : Disk :=
  { disk with receipts := some (disk.receipts.getD [] ++ [⟨id, content⟩]) }

/-- The checks of `commit` before it looks at the receipts: the input it commits for. -/
def commitInput (stage : Stage) (row : Row) : Except String String := do
  validateRow formats row stage.toEntry
  refuseIf (¬ row.state.Committed) "only terminal stage results can be committed"
  sha row.stageInput "stage input"

def payload (stage : Stage) (input : String) (row : Row) (now : String) : Except String Receipt :=
  match row.outcome with
  | none => .error "terminal result requires a typed outcome"
  | some outcome => .ok {
      entry := stage.toEntry, stageInput := input, state := row.state, outcome
      reason := row.reason.getD "", deficits := row.deficits.getD [], outputs := row.outputs
      availability := row.availability, observations := row.observations, verifiedAt := now
      data := row.data.filter fun field => field.1 ∉ reserved }

/-- The row that `commit` returns. -/
def committedRow (row previous : Row) : Row :=
  { row with verifiedAt := previous.verifiedAt, verification := true, receipt := previous.receipt }

/-- `commit`: the files it leaves, and the row it returns or its error. -/
def commit (disk : Disk) (stage : Stage) (row : Row) (now : String) : Disk × Except String Row :=
  match commitInput formats stage row with
  | .error failure => (disk, .error failure)
  | .ok input =>
    match disk.published stage.id input with
    | some receipt => (disk, do
        let previous ← readReceipt formats stage input receipt
        compareCommitted row previous
        pure (committedRow row previous))
    | none =>
      match payload stage input row now with
      | .error failure => (disk, .error failure)
      | .ok receipt => (disk.add stage.id (.receipt input receipt), do
          let previous ← readReceipt formats stage input receipt
          compareCommitted row previous
          pure (committedRow row previous))

inductive Window
  | written | linked
deriving DecidableEq

/-- `commit` of a process that is killed before it has removed its temporary file. -/
def commitKilled (disk : Disk) (stage : Stage) (row : Row) (now : String) (window : Window) : Disk :=
  let name := "." ++ row.stageInput.getD "" ++ ".json."
  let (after, _) := commit formats disk stage row now
  if after.receipts = disk.receipts then disk
  else
    match window with
    | .written => disk.add stage.id (.scratch name)
    | .linked => after.add stage.id (.scratch name)

/-- The receipts that `reconcile` finds, each under the id of its stage. -/
def discover : List File → List (String × Row) → Except String (List (String × Row))
  | [], found => .ok found
  | file :: rest, found =>
    match file.content with
    | .scratch name => .error ("unexpected campaign receipt: " ++ name)
    | .receipt input receipt =>
      match plan.stage file.stage with
      | none => .error ("unexpected campaign receipt: " ++ receiptPath file.stage input)
      | some stage => do
          let record ← readReceipt formats stage input receipt
          refuseIf (stage.id ∈ found.map (·.1))
            ("multiple committed receipts for stage: " ++ stage.id)
          discover rest (found ++ [(stage.id, record)])

def claimsReceipt (row : Row) : Prop :=
  row.receipt.isSome ∨ row.state = .complete ∨
    row.state ∈ [StageState.failed, .inconclusive] ∧ row.stageInput.isSome

instance (row : Row) : Decidable (claimsReceipt row) := inferInstanceAs (Decidable (_ ∨ _ ∨ _))

/-- `{**existing, **receipt, "attempts": existing["attempts"]}` -/
def mergeRow (existing receipt : Row) : Row :=
  { receipt with attempts := existing.attempts, data := receipt.data ++ existing.data }

/-- The body of the last loop of `reconcile`. -/
def reconcileStage (discovered : List (String × Row)) (rows : Rows) (stage : Stage) :
    Except String Rows := do
  let existing := rows stage.id
  match discovered.lookup stage.id with
  | none => do
      refuseIf (claimsReceipt existing) ("committed stage receipt missing: " ++ stage.id)
      pure rows
  | some receipt => do
      let expected ← inputSha formats plan stage rows
      refuseIf (receipt.stageInput ≠ some expected)
        ("campaign receipt input mismatch: " ++ stage.id)
      refuseIf (existing.stageInput.isSome ∧ existing.stageInput ≠ receipt.stageInput)
        ("campaign index/receipt input mismatch: " ++ stage.id)
      if existing.receipt.isSome then do
        compareCommitted existing receipt
        refuseIf (existing.receipt ≠ receipt.receipt ∨ existing.verifiedAt ≠ receipt.verifiedAt)
          ("campaign index/receipt mismatch: " ++ stage.id)
      else if existing.state ∈ [StageState.complete, .blocked, .failed, .inconclusive] then
        compareCommitted existing receipt
      else pure ()
      pure (Function.update rows stage.id (mergeRow existing receipt))

/-- `reconcile` of a valid index. -/
def reconcileReceipts (disk : Disk) (rows : Rows) : Except String Rows :=
  match disk.receipts with
  | none => do
      plan.stages.forM fun stage =>
        refuseIf ((rows stage.id).receipt.isSome ∨
            (rows stage.id).state ∈ [StageState.complete, .failed, .inconclusive] ∧
              (rows stage.id).stageInput.isSome)
          ("committed stage receipt missing: " ++ stage.id)
      pure rows
  | some files => do
      let discovered ← discover formats plan files []
      plan.stages.foldlM (reconcileStage formats plan discovered) rows

def reconcile (disk : Disk) (rows : Rows) : Except String Rows := do
  validateIndex formats plan rows
  reconcileReceipts formats plan disk rows

end

end SparseLab.Campaign
