import SparseLab.Corpus.StructureCleaning
import SparseLab.Library.Json
import SparseLab.Library.Sifting

/-!
Documents from a JSONL shard: `_records_for_file` of `corpus/pipeline.py` and `_prepare_file` of
`corpus/large_build.py`.
-/

namespace SparseLab.Corpus.Records

open Library Cleaning

abbrev Bytes := List Nat

inductive Exception
  | valueError | unicodeError | keyError | typeError | attributeError | recursionError
deriving DecidableEq

inductive Failure
  | binary | empty | invalidUtf8 (physicalLine : Nat)
  | malformed (physicalLine : Nat) (message : String)
  | unlisted | nontext | capExceeded | bytesDiffer | sizeDiffers
  | cleaning (failure : CleaningFailure) | raised (exception : Exception)
  | sourceParse (cause : Failure)
deriving DecidableEq

def Failure.text (source : String) : Failure → Option String
  | binary => "binary input"
  | empty => "empty input"
  | invalidUtf8 line => s!"invalid UTF-8 in {source} physical line {line}"
  | malformed line message => s!"malformed JSON in {source} physical line {line}: {message}"
  | unlisted => "record admission lacks selected source row"
  | nontext => "empty/nontext document"
  | capExceeded => "JSONL record-byte cap exceeded"
  | bytesDiffer => "admitted source shard bytes differ from acquisition"
  | sizeDiffers => "prepared source shard input size differs from acquisition"
  | cleaning failure => failure.text
  | raised _ => none
  | sourceParse cause => cause.text source

/-- `except (ValueError, UnicodeError, KeyError, TypeError)` -/
def Failure.caught : Failure → Bool
  | raised .attributeError | raised .recursionError => false
  | _ => true

structure Evidence where
  profile : Text
  familyHint : Json
  syntheticProvenanceSha256 : Option Text
  attribution : List (Text × Json)

inductive LoadFailure
  | malformed (message : String) | raised (exception : Exception)
deriving DecidableEq

structure Routines where
  unicode : Unicode
  sha256 : Bytes → String
  encode : Text → Bytes
  decode : Bytes → Option Text
  loads : Text → Except LoadFailure Json
  canonical : Json → Except Failure Text
  digest : List Text → Text
  validate : Json → Except Failure Json
  secretOrPrivate : Text → Bool
  urlHost : Text → Option Text
  provenance : Json → Except Failure Evidence

structure FileRights where
  detectedSpdxExpression : Option Text
  redistributionMode : Text
  payload : Json

inductive NormalizerVersion
  | v1 | v2 | v3
deriving DecidableEq

def NormalizerVersion.text : NormalizerVersion → Text
  | v1 => Library.text "normalizer-nfc-markdown-v1"
  | v2 => normalizerV2
  | v3 => normalizerV3

structure RowDecision where
  decision : Text
  reason : Text
  rowEvidence : Option Json

structure RecordAdmission where
  decisions : Json → Except Failure (Option RowDecision)
  licenseLabel : Text

structure Shard where
  sourceId : Text
  schemaVersion : Nat
  modality : Text
  revision : Text
  license : Text
  sourceSpdxExpression : Option Text
  domains : List Text
  documentKind : Text
  sourceFamily : Text
  textField : Text
  maxRows : Nat
  qualification : Option Text
  name : Text
  snapshotId : Text
  fileRights : FileRights
  recordAdmission : Option RecordAdmission
  normalizerVersion : NormalizerVersion

section

/-- `bytes.strip` takes off these. -/
def byteSpace (byte : Nat) : Bool := byte = 0x20 || (0x09 ≤ byte && byte ≤ 0x0d)

/-- `not raw.strip()` -/
def blankBytes (raw : Bytes) : Bool := raw.all byteSpace

structure Row where
  raw : Bytes
  physicalLine : Nat
  ordinal : Nat

def numbered : Nat → Nat → List Bytes → List Row
  | _, _, [] => []
  | physicalLine, ordinal, raw :: lines =>
    if blankBytes raw then numbered (physicalLine + 1) ordinal lines
    else
      { raw := raw, physicalLine := physicalLine, ordinal := ordinal } ::
        numbered (physicalLine + 1) (ordinal + 1) lines

/-- `islice(records_from_bytes(raw), max_rows)`, before a record is decoded. -/
def records (raw : Bytes) (firstRowIndex maxRows : Nat) : List Row :=
  (numbered 1 firstRowIndex (physicalLines raw)).take maxRows

end

section

inductive Exclusion
  | emptyOrNontext | secretOrPrivateIdentifier | unknownPageProvenance
  | excludedPlatformTermsOrPrivatePaste | unreviewedAcademicOrigin | insufficientContent
deriving DecidableEq

def Exclusion.text : Exclusion → Text
  | emptyOrNontext => Library.text "empty_or_nontext"
  | secretOrPrivateIdentifier => Library.text "secret_or_private_identifier"
  | unknownPageProvenance => Library.text "unknown_page_provenance"
  | excludedPlatformTermsOrPrivatePaste =>
    Library.text "excluded_platform_terms_or_private_paste"
  | unreviewedAcademicOrigin => Library.text "unreviewed_academic_origin"
  | insufficientContent => Library.text "insufficient_content"

def excludedWebHosts : List Text :=
  ["stackoverflow.com", "stackexchange.com", "reddit.com", "pastebin.com"].map text

def startsWith (value : Text) (prefixes : List String) : Bool :=
  prefixes.any fun start => (text start).isPrefixOf value

def removePrefix (start value : Text) : Text :=
  if start.isPrefixOf value then value.drop start.length else value

/-- `_excluded_research_record` behind its first check and the one of the URL. -/
def excludedByOrigin (content : Text) (metadata : List (Text × Json)) (sourceId : Text) :
    Option Exclusion :=
  if startsWith sourceId ["pes2o"] ∧
      ¬ ((Json.lookup metadata (text "source")).bind Json.str?).any fun origin =>
        [text "s2orc", text "s2orc/train", text "s2ag/train"].contains origin then
    some .unreviewedAcademicOrigin
  else if (strip whiteSpace content).length < 100 ∧
      startsWith sourceId ["fineweb", "pes2o", "openwebmath"] then
    some .insufficientContent
  else none

def excludedResearchRecord (routines : Routines) (content : Text) (metadata : List (Text × Json))
    (sourceId : Text) : Option Exclusion :=
  if routines.secretOrPrivate content then some .secretOrPrivateIdentifier
  else
    match (Json.lookup metadata (text "url")).bind Json.str? with
    | some url =>
      match (routines.urlHost url).map (removePrefix (text "www.")) with
      | none => some .unknownPageProvenance
      | some host =>
        if excludedWebHosts.any fun banned =>
            host = banned || (text "." ++ banned).isSuffixOf host then
          some .excludedPlatformTermsOrPrivatePaste
        else if host = [] then some .unknownPageProvenance
        else excludedByOrigin content metadata sourceId
    | none =>
      if startsWith sourceId ["fineweb", "openwebmath"] then some .unknownPageProvenance
      else excludedByOrigin content metadata sourceId

end

section

def metadataKeys : List Text :=
  ["url", "id", "dump", "date", "file_path", "language", "score", "int_score", "token_count",
    "language_score", "title", "license", "license_type", "path", "repo_name", "blob_id",
    "source_row_index", "source_shard_path", "source_row_sha256", "source_shard_sha256", "source",
    "corpusid", "doi", "year", "page_uri", "page_title", "page_id", "revision_id",
    "revision_timestamp", "source_uri", "dump_revision"].map text

/-- `isinstance(value, (str, int, float, bool))` -/
def scalar : Json → Bool
  | .bool _ | .int _ | .float _ | .nonfinite | .str _ => true
  | _ => false

/-- `{**first, **second}` -/
def merged (first second : List (Text × Json)) : List (Text × Json) :=
  (first.map fun member => (member.1, (Json.lookup second member.1).getD member.2)) ++
    second.filter fun member => (Json.lookup first member.1).isNone

/-- `members[key] = value` -/
def assign (members : List (Text × Json)) (key : Text) (value : Json) : List (Text × Json) :=
  merged members [(key, value)]

/-- `bool(value)` -/
def truthy : Json → Bool
  | .null => false
  | .bool value => value
  | .int value => value ≠ 0
  | .float written => written ≠ text "0.0" && written ≠ text "-0.0"
  | .nonfinite => true
  | .str value => !value.isEmpty
  | .list values => !values.isEmpty
  | .dict members => !members.isEmpty

/-- `{**item, **upstream}` as far as a document keeps it. -/
def rowMetadata (item : List (Text × Json)) (upstream : Json) :
    Except Failure (List (Text × Json)) :=
  match upstream with
  | .dict members =>
    .ok ((merged item members).filter fun member =>
      metadataKeys.contains member.1 && scalar member.2)
  | _ => .error (.raised .typeError)

/-- What `provenance` and the row's decision add to the metadata. -/
def evidenceMetadata (routines : Routines) (item : Json) (decision : Option RowDecision)
    (metadata : List (Text × Json)) : Except Failure (List (Text × Json)) := do
  let evidence ← routines.provenance item
  let metadata ← match decision.bind RowDecision.rowEvidence with
    | none => .ok metadata
    | some value => do
        let written ← routines.canonical value
        .ok (assign metadata (text "row_attribution_json") (.str written))
  let metadata := assign metadata (text "qualification_profile") (.str evidence.profile)
  let metadata := assign metadata (text "qualification_family_hint") evidence.familyHint
  let metadata := match evidence.syntheticProvenanceSha256 with
    | none => metadata
    | some sha => assign metadata (text "synthetic_provenance_sha256") (.str sha)
  .ok (evidence.attribution.foldl (fun metadata member =>
    match member.2 with
    | .str value => assign metadata (text "qualification_" ++ member.1) (.str value)
    | _ => metadata) metadata)

def qualifiedMetadata (routines : Routines) (qualification : Option Text) (item : Json)
    (decision : Option RowDecision) (metadata : List (Text × Json)) :
    Except Failure (List (Text × Json)) :=
  match qualification with
  | none => .ok metadata
  | some profile =>
    match evidenceMetadata routines item decision metadata with
    | .ok metadata => .ok metadata
    | .error failure =>
      if failure = .raised .typeError ∨ failure = .raised .valueError ∨
          failure = .raised .unicodeError then
        .ok (assign (assign metadata (text "qualification_profile") (.str profile))
          (text "qualification_status") (.str (text "unresolved")))
      else .error failure

end

section

variable (routines : Routines) (shard : Shard)

structure Passage where
  content : Json
  ordinal : Nat
  metadata : List (Text × Json)

def rejection (row : Json) (reason : Text) : Json :=
  .dict [(text "source_id", .str shard.sourceId), (text "path", .str shard.name),
    (text "row", row), (text "reason", .str reason)]

/-- One record of `iter_jsonl_records`. -/
def parseRow (row : Row) : Except Failure Json :=
  match routines.decode row.raw with
  | none => .error (.invalidUtf8 row.physicalLine)
  | some decoded =>
    match routines.loads decoded with
    | .error (.malformed message) => .error (.malformed row.physicalLine message)
    | .error (.raised exception) => .error (.raised exception)
    | .ok value => .ok value

def rowDecision (upstream : Json) : Except Failure (Option RowDecision) :=
  match shard.recordAdmission with
  | none => .ok none
  | some admission =>
    match upstream with
    | .dict members => do
        let found ← admission.decisions ((Json.lookup members (text "source_row_index")).getD .null)
        match found with
        | none => .error .unlisted
        | some decision => .ok (some decision)
    | _ => .error (.raised .attributeError)

/-- `item[field]`, normalized where it is a text. -/
def rowContent (item : List (Text × Json)) : Except Failure Json :=
  match Json.lookup item shard.textField with
  | none => .error (.raised .keyError)
  | some (.str content) => .ok (.str (routines.unicode.nfc (newlines content)))
  | some content => .ok content

/-- The first loop of `_records_for_file` on one row: a passage or a rejection. -/
def selectRow (row : Row) : Except Failure (Json ⊕ Passage) := do
  let value ← parseRow routines row
  match value with
  | .dict item =>
    let upstream := (Json.lookup item (text "_sparselab_source")).getD (.dict [])
    let decision ← rowDecision shard upstream
    match decision.filter fun decision => decision.decision ≠ text "qualify" with
    | some decision =>
      match upstream.get (text "source_row_index") with
      | none => .error (.raised .keyError)
      | some index =>
        .ok (.inl (rejection shard index
          (text "record admission " ++ decision.decision ++ text ": " ++ decision.reason)))
    | none => do
        let metadata ← rowMetadata item upstream
        let metadata ← qualifiedMetadata routines shard.qualification value decision metadata
        let content ← rowContent routines shard item
        .ok (.inr { content := content, ordinal := row.ordinal, metadata := metadata })
  | _ => .error (.raised .attributeError)

def passageExclusion (passage : Passage) : Except Failure (Option Exclusion) :=
  match passage.content with
  | .str content =>
    if blank content then
      if shard.schemaVersion ≠ 3 then .error .nontext else .ok (some .emptyOrNontext)
    else if shard.schemaVersion = 3 then
      .ok (excludedResearchRecord routines content passage.metadata shard.sourceId)
    else .ok none
  | _ => if shard.schemaVersion ≠ 3 then .error .nontext else .ok (some .emptyOrNontext)

def textJson (value : String) : Json := .str (text value)

def natJson (value : Nat) : Json := .int value

def structureJson (structure' : Structure) : Json :=
  .dict [
    (text "normalizer", .str structure'.normalizer),
    (text "retained_spans", .list (structure'.retainedSpans.map fun span =>
      .dict [(text "raw_line_start", natJson span.rawLineStart),
        (text "raw_line_end", natJson span.rawLineEnd),
        (text "output_start", natJson span.outputStart),
        (text "output_end", natJson span.outputEnd)])),
    (text "removed_spans", .list (structure'.removedSpans.map fun span =>
      .dict [(text "raw_line_start", natJson span.rawLineStart),
        (text "raw_line_end", natJson span.rawLineEnd), (text "reason", textJson span.reason),
        (text "sha256", textJson span.sha256)])),
    (text "blocks", .list (structure'.blocks.map fun block =>
      .dict [(text "kind", textJson block.kind.text), (text "raw_line", natJson block.rawLine),
        (text "output_start", natJson block.outputStart),
        (text "output_end", natJson block.outputEnd)])),
    (text "flags", .list (structure'.flags.map textJson)),
    (text "decision", textJson structure'.decision.text)]

def cleanedContent (content : Text) : Except Failure (Text × Option Structure) :=
  if shard.normalizerVersion = .v1 then .ok (content, none)
  else
    match cleanStructure routines.unicode (fun lines => routines.sha256 (routines.encode lines))
        content shard.sourceId shard.normalizerVersion.text with
    | .ok cleaned => .ok (cleaned.text, some cleaned.provenance)
    | .error failure => .error (.cleaning failure)

/-- `text.encode()` and its digest. -/
def encodedSha256 (content : Text) : Except Failure Text := do
  refuseIf (encodable content = false) (.raised .unicodeError)
  .ok (text (routines.sha256 (routines.encode content)))

/-- `Path(name).name` -/
def fileName (name : Text) : Text := (name.splitOn 0x2f).getLast?.getD []

/-- `first or second` of texts that may be missing. -/
def orElse (first : Option Text) (second : Text) : Text :=
  match first with
  | some (letter :: letters) => letter :: letters
  | _ => second

def fileLicense : Text :=
  match shard.recordAdmission with
  | some admission => admission.licenseLabel
  | none =>
    orElse shard.fileRights.detectedSpdxExpression (orElse shard.sourceSpdxExpression shard.license)

def documentMetadata (metadata : List (Text × Json)) (structured : Bool) : List (Text × Json) :=
  let normalizer := [(text "normalizer", Json.str shard.normalizerVersion.text)]
  if metadata ≠ [] then
    [(text "metadata", .dict (if structured then merged metadata normalizer else metadata))]
  else if structured then [(text "metadata", .dict normalizer)]
  else []

/-- The second loop of `_records_for_file` on one passage: a document with its span, or a
rejection. -/
def makeRecord (rawSha : Text) (passage : Passage) : Except Failure (Json ⊕ (Json × Json)) := do
  let exclusion ← passageExclusion routines shard passage
  match exclusion, passage.content.str? with
  | some reason, _ => .ok (.inl (rejection shard (natJson passage.ordinal) reason.text))
  | none, none => .error .nontext
  | none, some rawContent => do
      let (content, structure') ← cleanedContent routines shard rawContent
      let location := shard.name ++ text "#row=" ++ text (toString passage.ordinal)
      let identity := routines.digest
        [shard.snapshotId, location, rawSha, shard.normalizerVersion.text]
      let rawContentSha ← encodedSha256 routines rawContent
      let contentSha ← encodedSha256 routines content
      let title := (Json.lookup passage.metadata (text "page_title")).filter truthy
      let document ← routines.validate (.dict ([
        (text "schema_version", natJson shard.schemaVersion),
        (text "document_id", .str identity),
        (text "source_id", .str shard.sourceId),
        (text "modality", .str shard.modality),
        (text "source_revision", .str shard.revision),
        (text "source_location", .str location),
        (text "license", .str (fileLicense shard)),
        (text "redistribution", .str shard.fileRights.redistributionMode),
        (text "domains", .list (shard.domains.map .str)),
        (text "document_kind", .str shard.documentKind),
        (text "title", title.getD (.str (fileName shard.name))),
        (text "section_path", .list []),
        (text "language", textJson "en"),
        (text "text", .str content),
        (text "content_sha256", .str contentSha),
        (text "raw_content_sha256", .str rawContentSha),
        (text "source_family", .str shard.sourceFamily)] ++
        (structure'.toList.map fun value => (text "structure", structureJson value)) ++
        (if structure'.any fun value => value.decision = .excludeMetadataOnly then
          [(text "drop_reason", textJson "metadata_only_front_matter")]
        else []) ++
        documentMetadata shard passage.metadata structure'.isSome ++
        [(text "file_sha256", .str rawSha), (text "rights", shard.fileRights.payload)]))
      .ok (.inr (document, .dict [
        (text "record_id", .str identity),
        (text "snapshot_sha256", .str shard.snapshotId),
        (text "source_id", .str shard.sourceId),
        (text "raw_path", .str shard.name),
        (text "raw_sha256", .str rawSha),
        (text "raw_content_sha256", .str rawContentSha),
        (text "line_start", natJson passage.ordinal),
        (text "line_end", natJson passage.ordinal),
        (text "byte_start", .null),
        (text "byte_end", .null),
        (text "normalizer", .str shard.normalizerVersion.text),
        (text "section_path", .list [])]))

/-- `_records_for_file`: the rejections it leaves and the documents with their spans it returns. -/
def recordsForFile (raw : Bytes) (fullFileSha256 : Option Text) (firstRowIndex : Nat) :
    List Json × Except Failure (List (Json × Json)) :=
  if 0 ∈ raw then ([], .error .binary)
  else if blankBytes raw then ([], .error .empty)
  else
    siftTwice (selectRow routines shard)
      (makeRecord routines shard (orElse fullFileSha256 (text (routines.sha256 raw))))
      (records raw firstRowIndex shard.maxRows)

structure VerifiedFile (routines : Routines) where
  contents : Bytes
  sha256 : Text
  size : Nat
  sha256_eq : sha256 = text (routines.sha256 contents)
  size_eq : size = contents.length
  full : sha256 ≠ []

structure Prepared where
  documents : List Json
  spans : List Json
  rejected : List Json

structure Preparation extends Prepared where
  index : Nat
  inputBytes : Nat
  digested : Bytes

def startPreparation : Preparation :=
  { documents := [], spans := [], rejected := [], index := 0, inputBytes := 0, digested := [] }

def admittedRecordMaxBytes : Nat := 8 * 1024 ^ 2

def output (value : Json) : Except Failure Json := do
  let _ ← routines.canonical value
  .ok value

def outputRow (row : Json × Json) : Except Failure (Json × Json) := do
  let document ← output routines row.1
  let span ← output routines row.2
  .ok (document, span)

/-- `_SourceParseError` of what the parser raises. -/
def sourceParseError (failure : Failure) : Failure :=
  if failure.caught then .sourceParse failure else failure

/-- One physical line of the loop of `_prepare_file`. -/
def prepareLine (fileSha256 : Text) (state : Preparation) (raw : Bytes) :
    Except Failure Preparation := do
  refuseIf (shard.recordAdmission.isSome ∧ admittedRecordMaxBytes < raw.length) .capExceeded
  let state :=
    { state with digested := state.digested ++ raw, inputBytes := state.inputBytes + raw.length }
  if blankBytes raw then .ok state
  else
    let state := { state with index := state.index + 1 }
    if shard.maxRows < state.index then .ok state
    else
      match recordsForFile routines shard raw (some fileSha256) state.index with
      | (_, .error failure) => .error (sourceParseError failure)
      | (dropped, .ok rows) => do
          let rows ← rows.mapM (outputRow routines)
          let dropped ← dropped.mapM (output routines)
          .ok
            { state with
              documents := state.documents ++ rows.map Prod.fst
              spans := state.spans ++ rows.map Prod.snd
              rejected := state.rejected ++ dropped }

/-- `_prepare_file` on a JSONL shard. -/
def prepareFile (file : VerifiedFile routines) : Except Failure Prepared := do
  let state ← (physicalLines file.contents).foldlM (prepareLine routines shard file.sha256)
    startPreparation
  refuseIf (shard.recordAdmission.isSome ∧ text (routines.sha256 state.digested) ≠ file.sha256)
    .bytesDiffer
  refuseIf (state.inputBytes ≠ file.size) .sizeDiffers
  .ok state.toPrepared

end

end SparseLab.Corpus.Records
