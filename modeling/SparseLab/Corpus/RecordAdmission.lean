import SparseLab.Corpus.FileRights
import SparseLab.Corpus.JsonlRecords

/-! `verify_record_admission` of `corpus/rights.py`. -/

namespace SparseLab.Corpus.Admission

open Library Cleaning Rights
open Records (Bytes Routines Reading ReadFailure recordsFromPath maxRecordBytes sha256Hex)

inductive AdmissionFailure
  | manifest | inventory | kind | raised
  | sourceEntry | boundedSource | override | scope | undeclaredRows | provenance
  | gutenbergBasis | wikimediaBasis | oneShard | shardProvenance | policyScope | shardPolicy
  | decisionList | decision | rowIndex | decisionValue | manualReview | coverage | bytesDiffer
  | reading (failure : ReadFailure) | rowCount | unlabelledRow | rowProvenance | rowEvidence
  | unboundEvidence | materialException (conflict : Text) | unreviewedFlags | unquarantined
  | restriction
  | gitEntry | gitProvenance | gitPolicy | gitCoverage | gitDecision | gitDigest | gitBytes
  | gitReview | gitException | gitFlags | gitEligible
deriving DecidableEq

def AdmissionFailure.text (source : String) : AdmissionFailure → Option String
  | manifest => "invalid versioned record admission manifest"
  | inventory => "record admission source inventory mismatch"
  | kind => "record admission source kind is unsupported"
  | sourceEntry => "invalid record admission source entry"
  | boundedSource => "record admission requires v2 bounded HF source"
  | override => "legacy HF row policies do not accept qualification overrides"
  | scope => "record admission source is outside supported policy scope"
  | undeclaredRows => "row use policy requires declared row qualification"
  | provenance => "record admission source provenance mismatch"
  | gutenbergBasis => "Gutenberg admission lacks public-domain basis"
  | wikimediaBasis => "Wikimedia admission lacks license basis"
  | oneShard => "record admission requires one complete selected shard"
  | shardProvenance => "record admission shard provenance mismatch"
  | policyScope => "record admission policy is outside local research scope"
  | shardPolicy => "record admission policy does not qualify its shard"
  | decisionList => "record admission decisions must be a list"
  | decision => "invalid record admission decision"
  | rowIndex => "duplicate or invalid record admission row index"
  | decisionValue => "invalid record admission decision value"
  | manualReview => "invalid record admission manual review"
  | coverage => "record admission decisions do not cover selected rows"
  | bytesDiffer => "record admission sample bytes differ from snapshot"
  | reading failure => failure.text source
  | rowCount => "record admission sample row count mismatch"
  | unlabelledRow => "record admission row lacks acquired provenance"
  | rowProvenance => "record admission row provenance mismatch"
  | rowEvidence => "record attribution evidence differs from original row"
  | unboundEvidence => "row evidence requires a bound row use policy"
  | materialException conflict =>
    some ("qualified record has material exception: " ++ String.ofList (conflict.map Char.ofNat))
  | unreviewedFlags => "qualified flagged record lacks manual review"
  | unquarantined => "material rights exception must be quarantined"
  | restriction => "row restriction is outside acquired row inventory"
  | gitEntry => "invalid Git file admission source entry"
  | gitProvenance => "Git file admission source provenance mismatch"
  | gitPolicy => "Git file admission policy is outside local research scope"
  | gitCoverage => "Git file admission decisions do not cover pinned files"
  | gitDecision => "invalid Git file admission decision"
  | gitDigest => "Git file admission SHA-256 mismatch"
  | gitBytes => "Git file admission bytes differ from snapshot"
  | gitReview => "invalid Git file admission manual review"
  | gitException => "qualified Git file has material rights exception"
  | gitFlags => "qualified flagged Git file lacks manual review"
  | gitEligible => "excluded Git file unexpectedly eligible"
  | raised => none

structure Table (α : Type) where
  entries : List (Text × α)
  distinct : (entries.map Prod.fst).Nodup

namespace Table

variable {α : Type} (table : Table α)

def keys : List Text := table.entries.map Prod.fst

def get (key : Text) : Option α :=
  (table.entries.find? fun entry => entry.1 = key).map Prod.snd

/-- `{key: table[key] for key in names}` -/
def only (names : List Text) : Table α where
  entries := table.entries.filter fun entry => names.contains entry.1
  distinct := table.distinct.sublist (List.filter_sublist.map Prod.fst)

end Table

inductive SourceKind
  | huggingfaceDataset | git | other
deriving DecidableEq

structure Source where
  kind : SourceKind
  schemaVersion : Nat
  revision : Text
  canonicalUri : Text
  licenseUrl : Text
  rights : Json
  qualification : Option Json
  textField : Text

structure Receipt where
  sourceRowIndex : Int
  sourceRowSha256 : Text

structure SelectedShard where
  outputPath : Text
  sourceShardPath : Text
  sourceShardSha256 : Text
  selectedRows : List Receipt

structure PinnedFile where
  path : Text
  sha256 : Text

structure Snapshot where
  snapshotSha256 : Text
  declarationId : Text
  declarationRevision : Text
  shards : List SelectedShard
  files : List PinnedFile

inductive Node
  | symlink | file (contents : Bytes)

structure RowUsePolicy where
  restrictedRows : List Text
  hex : ∀ digest ∈ restrictedRows, sha256Hex digest = true

inductive Profile
  | gutenberg | wikimedia | declaredRows
deriving DecidableEq

/-- The models of `pydantic`, the digests and the screens of the rows and the files. -/
structure Screens where
  routines : Routines
  patterns : LinePatterns
  rightsPolicy : Json → Option RightsPolicy
  rowUsePolicy : Json → Option RowUsePolicy
  canonicalDigest : List (Text × Json) → Option Text
  same : Json → Json → Bool
  useEvidence : List (Text × Json) → Source → RowUsePolicy → Option Json
  rowExceptions : List (Text × Json) → Profile → Source → Option RowUsePolicy →
    Option (Option Text × List Text)
  fileExceptions : Bytes → Text → Bool × Bool

structure Store where
  sources : Table Source
  snapshots : Table Snapshot
  node : (sourceId snapshotSha256 path : Text) → Option Node
  maxRecordBytes : Option Nat

section

def orRaise {α : Type} (value : Option α) (failure : AdmissionFailure) : Except AdmissionFailure α :=
  match value with
  | some value => .ok value
  | none => .error failure

def textField (value : Json) (key : String) : Option Text :=
  (value.get (text key)).bind Json.str?

/-- `isinstance(value, str) and value.strip()` -/
def written (value : Option Json) : Bool :=
  (value.bind Json.str?).any fun content => !blank content

/-- `value == number` -/
def numbered (value : Option Json) (number : Nat) : Bool :=
  match value with
  | some (.int found) => found = number
  | some (.bool true) => number = 1
  | some (.float found) => found = text (toString number ++ ".0")
  | _ => false

def keysAre (value : Json) (keys : List String) : Bool := value.hasKeys (keys.map text)

/-- `optional` may be missing and nothing else may be there. -/
def keysBetween (value : Json) (required optional : List String) : Bool :=
  value.keysWithin ((required ++ optional).map text) &&
    required.all fun key => (value.get (text key)).isSome

end

section

inductive Verdict
  | qualify | exclude | quarantine
deriving DecidableEq

def Verdict.text : Verdict → Text
  | qualify => Library.text "qualify"
  | exclude => Library.text "exclude"
  | quarantine => Library.text "quarantine"

def verdictOf (value : Json) : Option Verdict :=
  (textField value "decision").bind fun name =>
    [.qualify, .exclude, .quarantine].find? fun verdict => verdict.text = name

def issueKeys : List String := ["field", "owner", "remedy", "decision_impact"]

def issueOk (issue : Json) : Bool :=
  keysAre issue issueKeys && issueKeys.all fun key => written (issue.get (text key))

def issuesOk (value : Json) : Bool :=
  (((value.get (text "issues")).bind Json.list?).map fun issues => issues.all issueOk).getD false

def reviewKeys : List String := ["reviewer", "reviewed_on", "evidence_url", "finding"]

/-- All four fields with text, and the evidence behind an `https` link. -/
def completeReview (review : Json) : Bool :=
  keysAre review reviewKeys && (reviewKeys.all fun key => written (review.get (text key))) &&
    (textField review "evidence_url").any fun url => (text "https://").isPrefixOf url

/-- `manual = decision.get("manual_review")` is `None` or passes its check. -/
def reviewOk (manual : Option Json) : Bool :=
  match manual with
  | none | some .null => true
  | some review => completeReview review

/-- `manual is None` -/
def unreviewed (manual : Option Json) : Bool :=
  match manual with
  | none | some .null => true
  | some _ => false

structure RowDecision where
  index : Int
  sha256 : Text
  verdict : Verdict
  manualReview : Option Json
  rowEvidence : Option Json
  record : Json

def rowDecisionKeys : List String :=
  ["source_row_index", "source_row_sha256", "decision", "reason", "issues"]

def readRowDecision (indexed : List RowDecision) (value : Json) :
    Except AdmissionFailure RowDecision := do
  refuseIf (keysBetween value rowDecisionKeys ["manual_review", "row_evidence"] = false) .decision
  match value.get (text "source_row_index") with
  | some (.int index) => do
      refuseIf (index < 0 ∨ index ∈ indexed.map RowDecision.index) .rowIndex
      match (textField value "source_row_sha256").filter sha256Hex, verdictOf value with
      | some sha256, some decided => do
          refuseIf (written (value.get (text "reason")) = false ∨ issuesOk value = false)
            .decisionValue
          let manual := value.get (text "manual_review")
          refuseIf (reviewOk manual = false) .manualReview
          .ok
            { index := index
              sha256 := sha256
              verdict := decided
              manualReview := manual
              rowEvidence := value.get (text "row_evidence")
              record := value }
      | _, _ => .error .decisionValue
  | _ => .error .rowIndex

def readRowDecisions (values : List Json) : Except AdmissionFailure (List RowDecision) :=
  values.foldlM (fun indexed value => do
    let decision ← readRowDecision indexed value
    .ok (indexed ++ [decision])) []

def coversRows (indexed : List RowDecision) (selected : List Receipt) : Bool :=
  indexed.length = selected.length &&
    (selected.all fun receipt => (indexed.map RowDecision.index).contains receipt.sourceRowIndex) &&
      decide (selected.map Receipt.sourceRowIndex).Nodup

end

section

inductive Decided
  | rows (decisions : List RowDecision) | file (verdict : Verdict)

structure Resolved where
  rights : FileRights
  licenseLabel : Text
  policySpdxExpression : Option Text
  decided : Decided
  policyId : Text
  policySha256 : Text

abbrev Results := List ((Text × Text) × Resolved)

/-- `resolved[key] = value` -/
def put (results : Results) (entry : (Text × Text) × Resolved) : Results :=
  if results.any fun other => other.1 = entry.1 then
    results.map fun other => if other.1 = entry.1 then entry else other
  else results ++ [entry]

end

section

variable (screens : Screens) (store : Store)

def gutenbergUri : Text :=
  text "https://huggingface.co/datasets/common-pile/project_gutenberg_filtered"

def wikimediaUri : Text := text "https://huggingface.co/datasets/common-pile/wikimedia_filtered"

def admissionProfile (source : Source) : Except AdmissionFailure Profile :=
  if (source.canonicalUri = gutenbergUri ∨ source.canonicalUri = wikimediaUri) ∧
      source.qualification.isSome then .error .override
  else if source.canonicalUri = gutenbergUri then .ok .gutenberg
  else if source.canonicalUri = wikimediaUri then .ok .wikimedia
  else if source.qualification.isSome then .ok .declaredRows
  else .error .scope

def hubKeys : List String :=
  ["source_id", "snapshot_sha256", "source_revision", "sample_path", "sample_sha256",
    "source_shard_path", "source_shard_sha256", "license_label", "rights", "records"]

structure HubSource where
  sourceId : Text
  source : Source
  snapshot : Snapshot
  profile : Profile
  rowUse : Option RowUsePolicy
  licenseLabel : Text

def rowUseOf (item : Json) : Except AdmissionFailure (Option RowUsePolicy) :=
  match item.get (text "row_use_policy") with
  | none => .ok none
  | some value => do
      let policy ← orRaise (screens.rowUsePolicy value) .raised
      .ok (some policy)

def hubSource (item : Json) : Except AdmissionFailure HubSource := do
  refuseIf (keysBetween item hubKeys ["row_use_policy"] = false) .sourceEntry
  let sourceId ← orRaise (textField item "source_id") .raised
  let source ← orRaise (store.sources.get sourceId) .raised
  let snapshot ← orRaise (store.snapshots.get sourceId) .raised
  refuseIf (source.kind ≠ .huggingfaceDataset ∨ source.schemaVersion ≠ 2) .boundedSource
  let profile ← admissionProfile source
  let rowUse ← rowUseOf screens item
  refuseIf (rowUse.isSome ∧ profile ≠ .declaredRows) .undeclaredRows
  refuseIf (textField item "snapshot_sha256" ≠ some snapshot.snapshotSha256 ∨
    textField item "source_revision" ≠ some source.revision ∨
    snapshot.declarationId ≠ sourceId ∨ snapshot.declarationRevision ≠ source.revision ∨
    written (item.get (text "license_label")) = false) .provenance
  let licenseLabel := (textField item "license_label").getD []
  let folded := screens.routines.unicode.casefold licenseLabel
  refuseIf (profile = .gutenberg ∧ ¬ text "public domain" <:+:
    folded.map fun code => if code = 0x2d then 0x20 else code) .gutenbergBasis
  refuseIf (profile = .wikimedia ∧ ¬ text "cc-by-sa-4.0" <:+: folded) .wikimediaBasis
  .ok
    { sourceId := sourceId, source := source, snapshot := snapshot, profile := profile
      rowUse := rowUse, licenseLabel := licenseLabel }

structure HubShard where
  shard : SelectedShard
  file : PinnedFile
  policy : RightsPolicy
  rights : FileRights

def hubShard (item : Json) (hub : HubSource) : Except AdmissionFailure HubShard :=
  match hub.snapshot.shards, hub.snapshot.files with
  | [shard], [file] => do
      refuseIf (textField item "sample_path" ≠ some file.path ∨
        textField item "sample_path" ≠ some shard.outputPath ∨
        textField item "sample_sha256" ≠ some file.sha256 ∨
        textField item "source_shard_path" ≠ some shard.sourceShardPath ∨
        textField item "source_shard_sha256" ≠ some shard.sourceShardSha256) .shardProvenance
      let policy ← orRaise (screens.rightsPolicy ((item.get (text "rights")).getD .null)) .raised
      refuseIf (policy.trainingEligibility.trains = false ∨
        policy.redistributionMode ≠ .metadataReconstructionOnly ∨ policy.licenseReferences = [] ∨
        (hub.profile = .gutenberg ∧ policy.spdxExpression ≠ none) ∨
        (hub.profile = .wikimedia ∧ policy.spdxExpression ≠ some (text "CC-BY-SA-4.0")))
        .policyScope
      let rights ← orRaise (resolveFileRights screens.patterns policy file.path [] true) .raised
      refuseIf (rights.trainingEligibility.trains = false) .shardPolicy
      .ok { shard := shard, file := file, policy := policy, rights := rights }
  | _, _ => .error .oneShard

def hubDecisions (item : Json) (shard : SelectedShard) :
    Except AdmissionFailure (List RowDecision) := do
  let values ← orRaise ((item.get (text "records")).bind Json.list?) .decisionList
  let decisions ← readRowDecisions values
  refuseIf (coversRows decisions shard.selectedRows = false) .coverage
  .ok decisions

def originalRow (row : List (Text × Json)) : List (Text × Json) :=
  row.filter fun member => member.1 ≠ text "_sparselab_source"

/-- `re.fullmatch(re.escape(path) + r":\d+", provenance)` -/
def linePointer (path provenance : Text) : Bool :=
  (path ++ text ":").isPrefixOf provenance &&
    let number := provenance.drop (path.length + 1)
    number ≠ [] && number.all screens.routines.unicode.decimal

def legacyRow (item : Json) (original : List (Text × Json)) (envelope : Json) : Bool :=
  let identifier := (Json.lookup original (text "id")).bind Json.str?
  let provenance := ((Json.lookup original (text "metadata")).bind fun metadata =>
    metadata.get (text "provenance")).bind Json.str?
  identifier.isSome && textField envelope "id" = identifier &&
    provenance.any (linePointer screens ((textField item "source_shard_path").getD []))

def checkEvidence (hub : HubSource) (original : List (Text × Json)) (decision : RowDecision) :
    Except AdmissionFailure PUnit :=
  match hub.rowUse with
  | some use => do
      let expected ← orRaise (screens.useEvidence original hub.source use) .raised
      refuseIf ((decision.rowEvidence.any fun found => screens.same found expected) = false)
        .rowEvidence
  | none => refuseIf (decision.rowEvidence.isSome = true) .unboundEvidence

def excludable : List Text :=
  [text "Wikimedia record outside content namespace",
    text "explicit training-use restriction on source row"]

def judge (decision : RowDecision) (conflict : Option Text) (flags : List Text) :
    Except AdmissionFailure PUnit :=
  match conflict.filter (fun reason => reason ≠ []), decision.verdict with
  | some reason, .qualify => .error (.materialException reason)
  | none, .qualify =>
    -- the key is looked for here, not its value
    refuseIf (flags ≠ [] ∧ decision.manualReview = none) .unreviewedFlags
  | some reason, .exclude => refuseIf (reason ∉ excludable) .unquarantined
  | _, _ => .ok ⟨⟩

def checkRow (item : Json) (hub : HubSource) (decisions : List RowDecision) (value : Json)
    (receipt : Receipt) : Except AdmissionFailure PUnit :=
  match value with
  | .dict row =>
    match Json.lookup row (text "_sparselab_source") with
    | some (.dict members) => do
        let envelope := Json.dict members
        let digest ← orRaise (screens.canonicalDigest (originalRow row)) .raised
        match envelope.get (text "source_row_index") with
        | some (.int index) =>
          match decisions.find? fun decision => decision.index = index with
          | some decision => do
              refuseIf (index ≠ receipt.sourceRowIndex ∨ digest ≠ receipt.sourceRowSha256 ∨
                textField envelope "source_row_sha256" ≠ some digest ∨
                digest ≠ decision.sha256 ∨
                textField envelope "dataset_revision" ≠ some hub.source.revision ∨
                textField envelope "source_shard_path" ≠ textField item "source_shard_path" ∨
                textField envelope "source_shard_sha256" ≠
                  textField item "source_shard_sha256" ∨
                (hub.profile ≠ .declaredRows ∧
                  legacyRow screens item (originalRow row) envelope = false)) .rowProvenance
              let (conflict, flags) ← orRaise
                (screens.rowExceptions (originalRow row) hub.profile hub.source hub.rowUse)
                .raised
              checkEvidence screens hub (originalRow row) decision
              judge decision conflict flags
          | none => .error .rowProvenance
        | _ => .error .rowProvenance
    | _ => .error .unlabelledRow
  | _ => .error .unlabelledRow

def checkRows (item : Json) (hub : HubSource) (decisions : List RowDecision)
    (failure : Option ReadFailure) : List Json → List Receipt → Except AdmissionFailure PUnit
  | [], [] =>
    match failure with
    | some failure => .error (.reading failure)
    | none => .ok ⟨⟩
  | [], _ :: _ =>
    match failure with
    | some failure => .error (.reading failure)
    | none => .error .rowCount
  | _ :: _, [] => .error .rowCount
  | value :: values, receipt :: receipts => do
      checkRow screens item hub decisions value receipt
      checkRows item hub decisions failure values receipts

def cap : Nat := (store.maxRecordBytes.map (min maxRecordBytes)).getD maxRecordBytes

def snapshotFile (sourceId snapshotSha256 path : Text) (failure : AdmissionFailure) :
    Except AdmissionFailure Bytes :=
  match store.node sourceId snapshotSha256 path with
  | some (.file contents) => .ok contents
  | some .symlink => .error failure
  | none => .error .raised

def admitShard (policyId policySha256 : Text) (item : Json) :
    Except AdmissionFailure ((Text × Text) × Resolved) := do
  let hub ← hubSource screens store item
  let opened ← hubShard screens item hub
  let decisions ← hubDecisions item opened.shard
  let contents ← snapshotFile store hub.sourceId hub.snapshot.snapshotSha256 opened.file.path
    .bytesDiffer
  let sample := recordsFromPath screens.routines (cap store) opened.file.sha256 contents
  checkRows screens item hub decisions sample.failure sample.values opened.shard.selectedRows
  refuseIf (hub.rowUse.any fun use => use.restrictedRows.any fun digest =>
    !(opened.shard.selectedRows.map Receipt.sourceRowSha256).contains digest) .restriction
  .ok
    ((hub.sourceId, opened.file.path),
      { rights := opened.rights
        licenseLabel := hub.licenseLabel
        policySpdxExpression := opened.policy.spdxExpression
        decided := .rows decisions
        policyId := policyId
        policySha256 := policySha256 })

end

section

variable (screens : Screens) (store : Store)

def repositoryKeys : List String :=
  ["source_id", "snapshot_sha256", "source_revision", "license_label", "rights", "files"]

/-- `{item.get(key) for item in items if isinstance(item, dict)} == set(names)` -/
def namesAre (key : String) (items : List Json) (names : List Text) : Bool :=
  ((items.filter Json.isDict).all fun item =>
    (textField item key).any fun name => names.contains name) &&
      names.all fun name => items.any fun item => textField item key = some name

structure Repository where
  sourceId : Text
  source : Source
  snapshot : Snapshot
  policy : RightsPolicy
  spdx : Text
  licenseLabel : Text
  decisions : List Json

def repositoryOf (item : Json) : Except AdmissionFailure Repository := do
  refuseIf (keysAre item repositoryKeys = false) .gitEntry
  let sourceId ← orRaise (textField item "source_id") .raised
  let source ← orRaise (store.sources.get sourceId) .raised
  let snapshot ← orRaise (store.snapshots.get sourceId) .raised
  refuseIf (source.schemaVersion ≠ 2 ∨
    textField item "snapshot_sha256" ≠ some snapshot.snapshotSha256 ∨
    textField item "source_revision" ≠ some source.revision ∨
    snapshot.declarationId ≠ sourceId ∨ snapshot.declarationRevision ≠ source.revision ∨
    written (item.get (text "license_label")) = false) .gitProvenance
  let decisions ← orRaise ((item.get (text "files")).bind Json.list?) .gitProvenance
  let licenseLabel := (textField item "license_label").getD []
  let policy ← orRaise (screens.rightsPolicy ((item.get (text "rights")).getD .null)) .raised
  let spdx := policy.spdxExpression.getD []
  refuseIf (policy.trainingEligibility.trains = false ∨
    policy.redistributionMode ≠ .metadataReconstructionOnly ∨ spdx = [] ∨
    policy.licenseReferences = [] ∨ policy.trainingRestriction.isSome ∨
    source.licenseUrl ∉ policy.licenseReferences ∨ ¬ spdx <:+: licenseLabel) .gitPolicy
  refuseIf (¬ (snapshot.files.map PinnedFile.path).Nodup ∨
    decisions.length ≠ snapshot.files.length ∨ (decisions.all Json.isDict) = false ∨
    namesAre "path" decisions (snapshot.files.map PinnedFile.path) = false) .gitCoverage
  .ok
    { sourceId := sourceId, source := source, snapshot := snapshot, policy := policy
      spdx := spdx, licenseLabel := licenseLabel, decisions := decisions }

/-- `bytes.splitlines()`, behind the bytes of an open line. -/
def splitLines : (line : Bytes) → Bytes → List Bytes
  | [], [] => []
  | line, [] => [line]
  | line, 0x0d :: 0x0a :: rest => line :: splitLines [] rest
  | line, byte :: rest =>
    if byte = 0x0a ∨ byte = 0x0d then line :: splitLines [] rest
    else splitLines (line ++ [byte]) rest

/-- `b"\n".join(raw.splitlines()[:30]) + b"\n"` -/
def fileHeader (contents : Bytes) : Bytes :=
  joined [0x0a] ((splitLines [] contents).take 30) ++ [0x0a]

def fileDecisionKeys : List String := ["path", "sha256", "decision", "reason", "issues"]

def excludedRights (source : Source) (path : Text) (header : Bytes) :
    Except AdmissionFailure FileRights := do
  let policy ← orRaise (screens.rightsPolicy source.rights) .raised
  let rights ← orRaise (resolveFileRights screens.patterns policy path header true) .raised
  refuseIf (rights.trainingEligibility.trains = true) .gitEligible
  .ok rights

def qualifiedRights (repository : Repository) (checked : FileRights) (material flagged : Bool)
    (manual : Option Json) : Except AdmissionFailure FileRights := do
  refuseIf (checked.trainingEligibility.trains = false ∨ checked.boundaryFlags ≠ [] ∨
    (checked.detectedSpdxExpression ≠ none ∧
      checked.detectedSpdxExpression ≠ some repository.spdx) ∨ material = true) .gitException
  refuseIf (flagged = true ∧ unreviewed manual = true) .gitFlags
  .ok checked

def decidedRights (repository : Repository) (path : Text) (contents : Bytes)
    (checked : FileRights) (manual : Option Json) : Verdict → Except AdmissionFailure FileRights
  | .qualify =>
    let (material, flagged) := screens.fileExceptions contents repository.spdx
    qualifiedRights repository checked material flagged manual
  | .exclude | .quarantine => excludedRights screens repository.source path (fileHeader contents)

def admitFile (policyId policySha256 : Text) (repository : Repository) (decision : Json) :
    Except AdmissionFailure ((Text × Text) × Resolved) := do
  refuseIf (keysBetween decision fileDecisionKeys ["manual_review"] = false) .gitDecision
  let decided ← orRaise (verdictOf decision) .gitDecision
  refuseIf (written (decision.get (text "reason")) = false ∨ issuesOk decision = false) .gitDecision
  let path ← orRaise (textField decision "path") .raised
  let file ← orRaise (repository.snapshot.files.find? fun file => file.path = path) .raised
  refuseIf (textField decision "sha256" ≠ some file.sha256) .gitDigest
  let contents ← snapshotFile store repository.sourceId repository.snapshot.snapshotSha256 path
    .gitBytes
  refuseIf (text (screens.routines.sha256 contents) ≠ file.sha256) .gitBytes
  let checked ← orRaise
    (resolveFileRights screens.patterns repository.policy path (fileHeader contents) true) .raised
  let manual := decision.get (text "manual_review")
  refuseIf (reviewOk manual = false) .gitReview
  let rights ← decidedRights screens repository path contents checked manual decided
  .ok
    ((repository.sourceId, path),
      { rights := rights
        licenseLabel := repository.licenseLabel
        policySpdxExpression := repository.policy.spdxExpression
        decided := .file decided
        policyId := policyId
        policySha256 := policySha256 })

def admitRepository (policyId policySha256 : Text) (item : Json) :
    Except AdmissionFailure Results := do
  let repository ← repositoryOf screens store item
  repository.decisions.mapM (admitFile screens store policyId policySha256 repository)

end

section

def manifestKeys : List String := ["schema_version", "policy_id", "policy_sha256", "sources"]

def manifestOk (manifest : Json) (version : Nat) : Bool :=
  keysAre manifest manifestKeys && numbered (manifest.get (text "schema_version")) version &&
    written (manifest.get (text "policy_id")) &&
      (textField manifest "policy_sha256").any sha256Hex &&
        ((manifest.get (text "sources")).bind Json.list?).isSome

def entriesOf (manifest : Json) : List Json :=
  ((manifest.get (text "sources")).bind Json.list?).getD []

variable (screens : Screens) (store : Store)

/-- `_verify_record_admission_v1` -/
def verifyV1 (manifest : Json) : Except AdmissionFailure Results := do
  refuseIf (manifestOk manifest 1 = false) .manifest
  let items := entriesOf manifest
  refuseIf (namesAre "source_id" items store.sources.keys = false ∨
    items.length ≠ store.sources.keys.length) .inventory
  let entries ← items.mapM (admitShard screens store ((textField manifest "policy_id").getD [])
    ((textField manifest "policy_sha256").getD []))
  .ok (entries.foldl put [])

def kindOf (item : Json) : Option SourceKind :=
  ((textField item "source_id").bind store.sources.get).map Source.kind

def Store.only (store : Store) (names : List Text) : Store :=
  { store with sources := store.sources.only names, snapshots := store.snapshots.only names }

def hubManifest (manifest : Json) (items : List Json) : Json :=
  .dict
    [(text "schema_version", .int 1),
      (text "policy_id", (manifest.get (text "policy_id")).getD .null),
      (text "policy_sha256", (manifest.get (text "policy_sha256")).getD .null),
      (text "sources", .list items)]

/-- The second schema of `verify_record_admission`. -/
def verifyV2 (manifest : Json) : Except AdmissionFailure Results := do
  refuseIf (manifestOk manifest 2 = false ∨
    ¬ (store.sources.keys ⊆ store.snapshots.keys ∧ store.snapshots.keys ⊆ store.sources.keys))
    .manifest
  let items := entriesOf manifest
  refuseIf (items.length ≠ store.sources.keys.length ∨ (items.all Json.isDict) = false ∨
    namesAre "source_id" items store.sources.keys = false) .inventory
  let hub := items.filter fun item => kindOf store item = some .huggingfaceDataset
  let git := items.filter fun item => kindOf store item = some .git
  refuseIf (hub.length + git.length ≠ items.length) .kind
  let names := hub.filterMap fun item => textField item "source_id"
  let resolved ← verifyV1 screens (store.only names) (hubManifest manifest hub)
  let files ← git.mapM (admitRepository screens store ((textField manifest "policy_id").getD [])
    ((textField manifest "policy_sha256").getD []))
  .ok (files.flatten.foldl put resolved)

def verifyRecordAdmission (manifest : Json) : Except AdmissionFailure Results :=
  if numbered (manifest.get (text "schema_version")) 1 then verifyV1 screens store manifest
  else verifyV2 screens store manifest

end

end SparseLab.Corpus.Admission
