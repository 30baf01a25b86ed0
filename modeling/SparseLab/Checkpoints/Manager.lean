import SparseLab.Checkpoints.Retention
import SparseLab.Library.Journals

/-! `CheckpointManager` of `training/checkpoints.py` on the root of one run. -/

namespace SparseLab.Checkpoints

open Library

structure Member where
  name : String
  bytes : Nat
deriving DecidableEq

/-- A `step_*_gen_*` directory: what its manifest says, and the members that are still there.
`members` are the manifest itself and the files it lists. -/
structure Directory where
  record : CheckpointRecord
  lineageBest : Option LineageBest
  members : List Member
  present : List Member
deriving DecidableEq

namespace Directory

/-- `verify` -/
def verified (directory : Directory) : Bool :=
  directory.members.all (directory.present.contains ·)

def bytes (directory : Directory) : Nat :=
  (directory.present.map (·.bytes)).sum

end Directory

/-- The checkpoint root. `scraps` are the bytes of files whose write was interrupted. -/
structure CheckpointRoot where
  directories : List Directory
  staging : List (List Member)
  latest : Option CheckpointRecord
  best : Option CheckpointRecord
  retention : Option Report
  failure : Option String
  scraps : Nat
  finalized : List CheckpointRecord
deriving DecidableEq

def CheckpointRoot.empty : CheckpointRoot where
  directories := []
  staging := []
  latest := none
  best := none
  retention := none
  failure := none
  scraps := 0
  finalized := []

/-- The durable steps of `save` and `_project_records`. -/
inductive Write
  | stage
  | member (member : Member)
  | discard
  | finalize (record : CheckpointRecord) (lineageBest : Option LineageBest)
  | latest (record : Option CheckpointRecord)
  | best (record : Option CheckpointRecord)
  | retention (report : Report)
  | failure (reason : String)
  | unlink (path : RelativePath) (member : Member)
  | rmdir (path : RelativePath)

def CheckpointRoot.perform (root : CheckpointRoot) : Write → CheckpointRoot
  | .stage => { root with staging := [] :: root.staging }
  | .member member =>
    { root with
      staging := root.staging.modifyHead (· ++ [member]) }
  | .discard => { root with staging := root.staging.tail }
  | .finalize record lineageBest =>
    let members := root.staging.head?.getD []
    { root with
      staging := root.staging.tail
      directories := root.directories ++ [{ record, lineageBest, members, present := members }]
      finalized := root.finalized ++ [record] }
  | .latest latest => { root with latest }
  | .best best => { root with best }
  | .retention report => { root with retention := some report }
  | .failure reason => { root with failure := some reason }
  | .unlink path member =>
    { root with
      directories := root.directories.map fun directory =>
        if directory.record.relativePath = path then
          { directory with present := directory.present.filter (· ≠ member) }
        else directory }
  | .rmdir path =>
    { root with
      directories := root.directories.filter (·.record.relativePath ≠ path) }

instance : Writes CheckpointRoot Write where
  perform := CheckpointRoot.perform

abbrev Managed (α : Type) : Type :=
  Journal CheckpointRoot Write String α

structure Encoding where
  pointer : CheckpointRecord → Nat
  report : Report → Nat
  failure : String → Nat
  bound : Nat

structure Settings where
  run : String
  encoding : Encoding
  retention : Option CheckpointRetention
  inherited : List Row
  admitted : inherited = [] ∨ ∃ policy report step tokens, retention = some policy ∧
    inheritedMilestones report policy step tokens = .ok inherited

section

variable (settings : Settings)

/-- `footprint`, with the inherited generations. -/
def footprint (root : CheckpointRoot) : Nat :=
  (root.directories.map (·.bytes)).sum +
    (root.staging.map fun members => (members.map (·.bytes)).sum).sum +
    (root.latest.map settings.encoding.pointer).getD 0 +
    (root.best.map settings.encoding.pointer).getD 0 +
    (root.retention.map settings.encoding.report).getD 0 +
    (root.failure.map settings.encoding.failure).getD 0 +
    root.scraps + settings.encoding.bound +
    (settings.inherited.map (·.fullDirectoryBytes)).sum

/-- `_verified_records`, newest first. -/
def CheckpointRoot.verifiedDirectories (root : CheckpointRoot) : List Directory :=
  (root.directories.insertionSort fun first second => second.record.place ≤ first.record.place).filter
    (·.verified)

def CheckpointRoot.verifiedRecords (root : CheckpointRoot) : List CheckpointRecord :=
  root.verifiedDirectories.map (·.record)

def CheckpointRoot.rejected (root : CheckpointRoot) : Bool :=
  root.directories.any fun directory => !directory.verified

def CheckpointRoot.nextGeneration (root : CheckpointRoot) : Nat :=
  (root.directories.map (·.record.generationId)).foldl max 0 + 1

def CheckpointRoot.bytesOf (root : CheckpointRoot) (record : CheckpointRecord) : Nat :=
  ((root.directories.find? (·.record.relativePath = record.relativePath)).map (·.bytes)).getD 0

def retentionCheck {α : Type} (outcome : Except String α) : Managed α :=
  match outcome with
  | .ok value => pure value
  | .error reason => do
      Journal.emit (.failure reason)
      Journal.raise reason

def CheckpointRoot.removal (root : CheckpointRoot) (record : CheckpointRecord) : List Write :=
  ((root.directories.filter (·.record.relativePath = record.relativePath)).flatMap fun directory =>
    directory.present.map (.unlink record.relativePath ·)) ++ [.rmdir record.relativePath]

def planned (root : CheckpointRoot) (records : List CheckpointRecord) :
    Except String (Option Report) :=
  match settings.retention with
  | none => .ok none
  | some policy =>
    (plan settings.inherited policy settings.run root.retention root.bytesOf
      (footprint settings root) records).map some

def protectedPaths (report : Option Report) (records : List CheckpointRecord) :
    List RelativePath :=
  match report with
  | some report => (report.retained.filter (·.isLocal)).map (·.relativePath)
  | none =>
    (records.drop (records.length - 2)).map (·.relativePath) ++
      ((best records).map (·.relativePath)).toList

/-- `_project_records`: the latest generation, and the records that are left. -/
def project (keepPeriodic : Bool) (unordered : List CheckpointRecord) :
    Managed (Option CheckpointRecord × List CheckpointRecord) := do
  let records := order unordered
  let root ← Journal.look
  let report ← retentionCheck (planned settings root records)
  match records.getLast? with
  | none => do
      Journal.emitAll [.latest none, .best none]
      pure (none, [])
  | some latest => do
      Journal.emitAll [.latest (some latest), .best (best records)]
      if keepPeriodic then pure (some latest, records)
      else do
        Journal.emitAll (report.map Write.retention).toList
        let (kept, pruned) :=
          records.partition (·.relativePath ∈ protectedPaths report records)
        Journal.emitAll (pruned.flatMap root.removal)
        pure (some latest, kept)

def reconcile (keepPeriodic : Bool) :
    Managed (Option CheckpointRecord × List CheckpointRecord) := do
  let root ← Journal.look
  if settings.retention.isSome ∧ root.rejected then do
    Journal.emit (.failure "retention refuses unverified checkpoint generations")
    Journal.raise "retention refuses unverified checkpoint generations"
  else project settings keepPeriodic root.verifiedRecords

/-- What `save` is given: a snapshot, the bytes it stages, and the free bytes of the disk. -/
structure Snapshot where
  step : Nat
  tokensSeen : Nat
  validationLoss : Option ℚ
  lineageBest : Option LineageBest
  digest : String
  files : List Member
  manifestBytes : Nat
  available : Nat
  names : (files.map (·.name) ++ ["manifest.json"]).Nodup

def Snapshot.record (snapshot : Snapshot) (generationId : Nat) : CheckpointRecord where
  generationId := generationId
  manifestSha256 := snapshot.digest
  step := snapshot.step
  tokensSeen := snapshot.tokensSeen
  validationLoss := snapshot.validationLoss

def Snapshot.members (snapshot : Snapshot) : List Member :=
  snapshot.files ++ [⟨"manifest.json", snapshot.manifestBytes⟩]

def Snapshot.bytes (snapshot : Snapshot) : Nat :=
  (snapshot.members.map (·.bytes)).sum

def admitWrite (policy : CheckpointRetention) (existing available : Nat) : Except String Unit :=
  let required := max policy.maxGenerationBytes (policy.maxPeakBytes - existing) +
    policy.reserveFreeBytes
  if policy.maxPeakBytes < existing + policy.maxGenerationBytes then
    .error "checkpoint peak-byte plan cannot fit another staged generation"
  else if available < required then
    .error "insufficient free bytes for checkpoint staging and reserve"
  else .ok ()

def checkWritten (policy : CheckpointRetention) (staged peak : Nat) : Except String Unit :=
  if policy.maxGenerationBytes < staged then
    .error "checkpoint exceeds declared per-generation bytes"
  else if policy.maxPeakBytes < peak then
    .error "staged checkpoint exceeds peak-byte plan"
  else .ok ()

/-- What `save` checks before it stages anything. -/
def admission (keepPeriodic : Bool) (root : CheckpointRoot) (snapshot : Snapshot) :
    Managed Unit :=
  match settings.retention with
  | none => pure ()
  | some policy =>
    if keepPeriodic then Journal.raise "milestone saves require keep_periodic=false"
    else retentionCheck (admitWrite policy (footprint settings root) snapshot.available)

/-- What `save` checks of the staged bytes; a refusal also removes the staging directory. -/
def stagedCheck (staged : CheckpointRoot) (snapshot : Snapshot) : Managed Unit :=
  match settings.retention with
  | none => pure ()
  | some policy =>
    match checkWritten policy snapshot.bytes (footprint settings staged) with
    | .ok value => pure value
    | .error reason => do
        Journal.emitAll [.failure reason, .discard]
        Journal.raise reason

/-- The records that an earlier call under the same lease left, or those `reconcile` finds. -/
def knownRecords (keepPeriodic : Bool) :
    Option (List CheckpointRecord) → Managed (List CheckpointRecord)
  | some records => pure records
  | none => do
      let (_, records) ← reconcile settings keepPeriodic
      pure records

/-- `save` from where the manager knows its records. -/
def saveKnown (keepPeriodic : Bool) (snapshot : Snapshot) (records : List CheckpointRecord) :
    Managed (CheckpointRecord × List CheckpointRecord) := do
  let root ← Journal.look
  let record := snapshot.record root.nextGeneration
  if record.relativePath ∈ root.directories.map (·.record.relativePath) then
    Journal.raise "checkpoint generation already exists"
  else do
    admission settings keepPeriodic root snapshot
    Journal.emitAll (.stage :: snapshot.members.map .member)
    let staged ← Journal.look
    stagedCheck settings staged snapshot
    Journal.emit (.finalize record snapshot.lineageBest)
    let (_, kept) ← project settings keepPeriodic (records ++ [record])
    pure (record, kept)

def save (keepPeriodic : Bool) (memory : Option (List CheckpointRecord)) (snapshot : Snapshot) :
    Managed (CheckpointRecord × List CheckpointRecord) := do
  let records ← knownRecords settings keepPeriodic memory
  saveKnown settings keepPeriodic snapshot records

end

end SparseLab.Checkpoints
