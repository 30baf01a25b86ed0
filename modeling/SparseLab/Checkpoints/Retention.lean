import Mathlib.Algebra.GroupWithZero.Nat
import Mathlib.Data.Prod.Lex
import Mathlib.Algebra.Order.Ring.Rat
import SparseLab.Library.Selections

/-! The keep-set of `training/retention.py`. -/

namespace SparseLab.Checkpoints

structure Milestone where
  name : String
  step : Nat
  committedTargets : Nat
deriving DecidableEq

def Milestone.Reached (milestone : Milestone) (step tokens : Nat) : Prop :=
  milestone.step ≤ step ∧ milestone.committedTargets ≤ tokens

instance (milestone : Milestone) (step tokens : Nat) : Decidable (milestone.Reached step tokens) :=
  inferInstanceAs (Decidable (_ ∧ _))

/-- A declaration that `finite_plan` accepts. -/
structure CheckpointRetention where
  milestones : List Milestone
  terminalStep : Nat
  terminalTargets : Nat
  maxGenerations : Nat
  maxGenerationBytes : Nat
  maxRetainedBytes : Nat
  maxPeakBytes : Nat
  reserveFreeBytes : Nat
  names : (milestones.map (·.name)).Nodup
  within : ∀ milestone ∈ milestones,
    milestone.step ≤ terminalStep ∧ milestone.committedTargets ≤ terminalTargets
  generations : milestones.length + 4 ≤ maxGenerations
  retained : (milestones.length + 4) * maxGenerationBytes ≤ maxRetainedBytes
  peak : (milestones.length + 4 + 1) * maxGenerationBytes ≤ maxPeakBytes
deriving DecidableEq

def CheckpointRetention.retainedUpper (policy : CheckpointRetention) : Nat :=
  policy.milestones.length + 4

structure LineageBest where
  parentRunId : String
  checkpointDigest : String
  step : Nat
  loss : ℚ
deriving DecidableEq

/-- `relative_path` of a generation: `step_<step>_gen_<generation>`. -/
abbrev RelativePath := Nat × Nat

instance : LawfulBEq RelativePath := inferInstance

structure CheckpointRecord where
  generationId : Nat
  manifestSha256 : String
  step : Nat
  tokensSeen : Nat
  validationLoss : Option ℚ
deriving DecidableEq

namespace CheckpointRecord

def relativePath (record : CheckpointRecord) : RelativePath :=
  (record.step, record.generationId)

/-- The order of `(step, generation_id)`. -/
def place (record : CheckpointRecord) : ℕ ×ₗ ℕ :=
  toLex (record.step, record.generationId)

/-- The order of `(validation_loss, generation_id)`. -/
def rank (record : CheckpointRecord) : ℚ ×ₗ ℕ :=
  toLex (record.validationLoss.getD 0, record.generationId)

end CheckpointRecord

inductive Role
  | latest | previous | best | milestone (name : String) | terminal
deriving DecidableEq

structure Location where
  run : String
  path : RelativePath
deriving DecidableEq

/-- A row of `retention.json`, or of `retention-inherited.json` for one of a parent run. -/
structure Row where
  relativePath : RelativePath
  manifestSha256 : String
  step : Nat
  tokensSeen : Nat
  isLocal : Bool
  roles : List Role
  verifiedLocation : Location
  fullDirectoryBytes : Nat
deriving DecidableEq

/-- `retention.json` -/
structure Report where
  policy : CheckpointRetention
  retained : List Row
deriving DecidableEq

/-- `records.sort(key=lambda item: (item.step, item.generation_id))` -/
def order (records : List CheckpointRecord) : List CheckpointRecord :=
  records.insertionSort fun first second => first.place ≤ second.place

def best (records : List CheckpointRecord) : Option CheckpointRecord :=
  (records.filter (·.validationLoss.isSome)).argmin CheckpointRecord.rank

section

variable (inherited : List Row) (policy : CheckpointRetention)

def inheritedRoles : List Role :=
  inherited.flatMap (·.roles)

def firstReached (milestone : Milestone) (records : List CheckpointRecord) :
    Option CheckpointRecord :=
  records.find? fun record => milestone.Reached record.step record.tokensSeen

def terminal (records : List CheckpointRecord) : Option CheckpointRecord :=
  records.find? fun record =>
    policy.terminalStep ≤ record.step || policy.terminalTargets ≤ record.tokensSeen

def ownMilestones : List Milestone :=
  policy.milestones.filter fun milestone =>
    .milestone milestone.name ∉ inheritedRoles inherited

/-- What `plan` keeps of ordered records, and why. -/
def chosen (records : List CheckpointRecord) : List (Role × CheckpointRecord) :=
  (records.getLast?.map (Role.latest, ·)).toList ++
    (records.dropLast.getLast?.map (Role.previous, ·)).toList ++
    ((best records).map (Role.best, ·)).toList ++
    (ownMilestones inherited policy).filterMap (fun milestone =>
      (firstReached milestone records).map (Role.milestone milestone.name, ·)) ++
    ((terminal policy records).map (Role.terminal, ·)).toList

def rolesOf (records : List CheckpointRecord) (path : RelativePath) : List Role :=
  ((chosen inherited policy records).filter (·.2.relativePath = path)).map (·.1)

def keepSet (records : List CheckpointRecord) : List CheckpointRecord :=
  records.filter fun record => rolesOf inherited policy records record.relativePath ≠ []

def observed (records : List CheckpointRecord) (row : Row) : Option String :=
  if row.isLocal then
    (records.find? (·.relativePath = row.relativePath)).map (·.manifestSha256)
  else
    (inherited.find? (·.verifiedLocation = row.verifiedLocation)).map (·.manifestSha256)

def localRow (run : String) (records : List CheckpointRecord) (bytes : CheckpointRecord → Nat)
    (record : CheckpointRecord) : Row where
  relativePath := record.relativePath
  manifestSha256 := record.manifestSha256
  step := record.step
  tokensSeen := record.tokensSeen
  isLocal := true
  roles := rolesOf inherited policy records record.relativePath
  verifiedLocation := ⟨run, record.relativePath⟩
  fullDirectoryBytes := bytes record

def retainedRows (run : String) (records : List CheckpointRecord)
    (bytes : CheckpointRecord → Nat) : List Row :=
  inherited ++
    (keepSet inherited policy records).map (localRow inherited policy run records bytes)

/-- `plan` of ordered records, where `bytes` is the size of a generation's directory and `peak`
the size of the checkpoint root with the inherited generations. -/
def plan (run : String) (report : Option Report) (bytes : CheckpointRecord → Nat) (peak : Nat)
    (records : List CheckpointRecord) : Except String Report :=
  let retained := retainedRows inherited policy run records bytes
  if ∃ row ∈ (report.map Report.retained).getD [],
      observed inherited records row ≠ some row.manifestSha256 then
    .error "previously retained checkpoint is missing or unverified"
  else if ∃ row ∈ inherited, policy.maxGenerationBytes < row.fullDirectoryBytes then
    .error "inherited checkpoint exceeds declared per-generation bytes"
  else if ∃ record ∈ keepSet inherited policy records,
      policy.maxGenerationBytes < bytes record then
    .error "checkpoint exceeds declared per-generation bytes"
  else if policy.maxGenerations < retained.length ∨
      policy.maxRetainedBytes < (retained.map (·.fullDirectoryBytes)).sum then
    .error "required checkpoint keep-set exceeds retention limits"
  else if policy.maxPeakBytes < peak then
    .error "observed checkpoint bytes exceed peak plan; refusing pruning"
  else .ok { policy, retained }

end

/-- `setdefault` of the row's location, and one more role of it. -/
def selectRow (selected : List Row) (row : Row) (role : Role) : List Row :=
  if selected.any (·.verifiedLocation = row.verifiedLocation) then
    selected.map fun target =>
      if target.verifiedLocation = row.verifiedLocation then
        { target with roles := target.roles ++ [role] }
      else target
  else selected ++ [{ row with roles := [role], isLocal := false }]

def inheritOne (evidence : Report) (step tokens : Nat) (selected : List Row)
    (milestone : Milestone) : Except String (List Row) :=
  if milestone ∉ evidence.policy.milestones then
    .error "resumed milestone differs from parent declaration"
  else
    match evidence.retained.filter fun row =>
      .milestone milestone.name ∈ row.roles ∧ row.step ≤ step ∧ row.tokensSeen ≤ tokens with
    | [row] => .ok (selectRow selected row (.milestone milestone.name))
    | _ => .error "resume lacks a milestone at or before selected checkpoint"

/-- `inherited_milestones`, with the parent's `retention.json`. -/
def inheritedMilestones (report : Option Report) (policy : CheckpointRetention)
    (step tokens : Nat) : Except String (List Row) :=
  let reached := policy.milestones.filter (·.Reached step tokens)
  if reached = [] then .ok []
  else
    match report with
    | none => .error "resume lacks verified parent milestone selections"
    | some evidence => reached.foldlM (inheritOne evidence step tokens) []

end SparseLab.Checkpoints
