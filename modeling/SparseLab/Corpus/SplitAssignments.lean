import SparseLab.Corpus.JsonlRecords
import SparseLab.Library.Bisection
import SparseLab.Library.Utf8

/-! The lookup of `corpus/split_lookup.py` and the join of `corpus/streaming_build_rows.py`. -/

namespace SparseLab.Corpus.SplitJoin

open Library Cleaning Records

inductive JoinFailure
  | reading (failure : ReadFailure) | invalidAssignment | countMismatch
  | sourceIdentity | notSha256 | duplicateDocument | missingAssignment | absent
  | familyCoverage | familyBinding | familyLeak | unencodable | typeError
deriving DecidableEq

def JoinFailure.text (source : String) : JoinFailure → Option String
  | reading failure => failure.text source
  | invalidAssignment => "invalid or unordered split assignment"
  | countMismatch => "split assignment count mismatch"
  | sourceIdentity => "prepared document/span identity mismatch"
  | notSha256 => "streamed v2 document ID must be SHA-256"
  | duplicateDocument => "duplicate prepared document ID"
  | missingAssignment => "missing/conflicting split assignment"
  | familyCoverage => "frozen family inventory coverage differs from rendered documents"
  | familyBinding => "frozen family binding differs from rendered document"
  | familyLeak => "document family leaks across splits"
  | absent | unencodable | typeError => none

inductive Split | train | validation | test
deriving DecidableEq

namespace Split

/-- `_SPLITS` -/
def all : List Split := [train, validation, test]

def name : Split → Text
  | train => Library.text "train"
  | validation => Library.text "validation"
  | test => Library.text "test"

def ofJson (value : Json) : Option Split :=
  value.str?.bind fun written => all.find? fun split => split.name = written

end Split

section

def assignmentKeys : List Text := [text "document_id", text "split"]

/-- The mapped files of an `AssignmentLookup`. -/
structure AssignmentLookup where
  keys : Bytes
  offsets : List Nat
  splits : List Nat
  count : Nat

structure LookupBuilder extends AssignmentLookup where
  previous : Option Text
  position : Nat

def startLookup : LookupBuilder :=
  { keys := [], offsets := [], splits := [], count := 0, previous := none, position := 0 }

/-- One record of the loop of `AssignmentLookup.__init__`. -/
def addAssignment (state : LookupBuilder) (value : Json) : Except JoinFailure LookupBuilder :=
  if value.hasKeys assignmentKeys then
    match (value.get (text "document_id")).bind Json.str?,
        (value.get (text "split")).bind Split.ofJson with
    | some identifier, some split => do
        refuseIf (identifier = [] ∨ (state.previous.any fun previous => identifier ≤ previous))
          .invalidAssignment
        refuseIf (encodable identifier = false) .unencodable
        .ok
          { keys := state.keys ++ utf8 identifier
            offsets := state.offsets ++ [state.position]
            splits := state.splits ++ [Split.all.idxOf split]
            count := state.count + 1
            previous := some identifier
            position := state.position + (utf8 identifier).length }
    | _, _ => .error .invalidAssignment
  else .error .invalidAssignment

/-- `AssignmentLookup.__init__` -/
def AssignmentLookup.create (assignments : Reading) (rows : Nat) :
    Except JoinFailure AssignmentLookup := do
  let state ← assignments.values.foldlM addAssignment startLookup
  match assignments.failure with
  | some failure => .error (.reading failure)
  | none => do
      refuseIf (state.count ≠ rows) .countMismatch
      .ok { state.toAssignmentLookup with offsets := state.offsets ++ [state.position] }

def AssignmentLookup.key (lookup : AssignmentLookup) (index : Nat) : Bytes :=
  slice lookup.keys (lookup.offsets.getD index 0) (lookup.offsets.getD (index + 1) 0)

def AssignmentLookup.getItem (lookup : AssignmentLookup) (key : Text) : Except JoinFailure Split := do
  refuseIf (encodable key = false) .unencodable
  let left := bisect (fun index => lookup.key index < utf8 key) 0 lookup.count
  if left = lookup.count ∨ lookup.key left ≠ utf8 key then .error .absent
  else
    match Split.all[lookup.splits.getD left 0]? with
    | some split => .ok split
    | none => .error .absent

/-- `key in assignments`, with the value -/
def AssignmentLookup.find (lookup : AssignmentLookup) (key : Text) :
    Except JoinFailure (Option Split) :=
  match lookup.getItem key with
  | .ok split => .ok (some split)
  | .error .absent => .ok none
  | .error failure => .error failure

/-- `_split` by documents, whose only key is their identifier. -/
def splitOf (lookup : AssignmentLookup) (documentId : Text) : Except JoinFailure Split := do
  let found ← ([documentId].filter fun key => key ≠ []).mapM lookup.find
  match (found.filterMap id).dedup with
  | [split] => if none ∈ found then .error .missingAssignment else .ok split
  | _ => .error .missingAssignment

end

section

structure Document where
  documentId : Text
  license : Text
  redistribution : Text
  rights : Json
  rawContentSha256 : Text
  contentSha256 : Text
  metadataOnly : Bool
  sourceFamily : Text
  domains : List Text
  length : Nat

structure PreparedShard where
  documents : List Document
  spans : List Text

structure Reference where
  documentId : Text
  shard : Nat
  position : Nat
  length : Nat
  split : Option Split
  rawContentSha256 : Text
  contentSha256 : Text
  signature : Text
  metadataOnly : Bool
  sourceFamily : Text
  domains : List Text
deriving DecidableEq

variable (signature : Text → Text → Json → Text)

def reference (shard position : Nat) (document : Document) : Reference where
  documentId := document.documentId
  shard := shard
  position := position
  length := document.length
  split := none
  rawContentSha256 := document.rawContentSha256
  contentSha256 := document.contentSha256
  signature := signature document.license document.redistribution document.rights
  metadataOnly := document.metadataOnly
  sourceFamily := document.sourceFamily
  domains := document.domains

def shardReferences (shard : Nat) : Nat → List Document → List Text →
    Except JoinFailure (List Reference)
  | _, [], [] => .ok []
  | position, document :: documents, span :: spans => do
      refuseIf (document.documentId ≠ span) .sourceIdentity
      refuseIf (sha256Hex document.documentId = false) .notSha256
      let later ← shardReferences shard (position + document.length) documents spans
      .ok (reference signature shard position document :: later)
  | _, _, _ => .error .sourceIdentity

/-- `_references` under an assignment file. -/
def references (prepared : List PreparedShard) : Except JoinFailure (List Reference) := do
  let rows ← prepared.zipIdx.mapM fun item =>
    shardReferences signature item.2 0 item.1.documents item.1.spans
  .ok (rows.flatten.insertionSort fun first second => first.documentId ≤ second.documentId)

end

section

-- `first <= second` of values that are not both texts
variable (atMost : Json → Json → Except JoinFailure Bool)

structure Assignment where
  documentId : Json
  split : Split

def notAfter (first second : Json) : Except JoinFailure Bool :=
  match first, second with
  | .str first, .str second => .ok (first ≤ second)
  | first, second => atMost first second

/-- The checks of `next_assignment`. -/
def acceptAssignment (last : Option Json) (value : Json) : Except JoinFailure Assignment :=
  if value.hasKeys assignmentKeys then
    match value.get (text "document_id"), (value.get (text "split")).bind Split.ofJson with
    | some identifier, some split =>
      match last with
      | none => .ok { documentId := identifier, split := split }
      | some last => do
          let unordered ← notAfter atMost identifier last
          if unordered then .error .invalidAssignment
          else .ok { documentId := identifier, split := split }
    | _, _ => .error .invalidAssignment
  else .error .invalidAssignment

structure Cursor where
  values : List Json
  seen : Nat
  last : Option Json

/-- `current is None or current["document_id"] < document_id` -/
def behind (current : Option Assignment) (documentId : Text) : Except JoinFailure Bool :=
  match current with
  | none => .ok true
  | some assignment =>
    match assignment.documentId with
    | .str identifier => .ok (identifier < documentId)
    | _ => .error .typeError

variable (failure : Option JoinFailure)

def advance (documentId : Text) : Option Assignment → (seen : Nat) → (last : Option Json) →
    List Json → Except JoinFailure (Option Assignment × Cursor)
  | current, seen, last, [] => do
      if ← behind current documentId then .error (failure.getD .missingAssignment)
      else .ok (current, { values := [], seen := seen, last := last })
  | current, seen, last, value :: values => do
      if ← behind current documentId then
        let next ← acceptAssignment atMost last value
        advance documentId (some next) (seen + 1) (some next.documentId) values
      else .ok (current, { values := value :: values, seen := seen, last := last })

/-- `while next_assignment() is not None: pass` -/
def drain : (seen : Nat) → (last : Option Json) → List Json → Except JoinFailure Nat
  | seen, _, [] =>
    match failure with
    | some failure => .error failure
    | none => .ok seen
  | seen, last, value :: values => do
      let next ← acceptAssignment atMost last value
      drain (seen + 1) (some next.documentId) values

/-- `families.setdefault(family, set()).add(split)` -/
def addFamily (families : List (Text × List Split)) (family : Text) (split : Split) :
    List (Text × List Split) :=
  if families.any fun entry => entry.1 = family then
    families.map fun entry =>
      if entry.1 = family then (entry.1, if split ∈ entry.2 then entry.2 else entry.2 ++ [split])
      else entry
  else families ++ [(family, [split])]

structure JoinState where
  rows : List Reference
  previous : Option Text
  current : Option Assignment
  cursor : Cursor
  families : List (Text × List Split)
  ids : Bytes

def joinRow (state : JoinState) (row : Reference) : Except JoinFailure JoinState := do
  refuseIf (state.previous = some row.documentId) .duplicateDocument
  let (current, cursor) ← advance atMost failure row.documentId state.current state.cursor.seen
    state.cursor.last state.cursor.values
  match current with
  | none => .error .missingAssignment
  | some assignment =>
    match assignment.documentId with
    | .str identifier =>
      if identifier = row.documentId then
        .ok
          { rows := state.rows ++ [{ row with split := some assignment.split }]
            previous := some row.documentId
            current := current
            cursor := cursor
            families := addFamily state.families row.sourceFamily assignment.split
            ids := state.ids ++ row.documentId }
      else .error .missingAssignment
    | _ => .error .missingAssignment

structure Assigned where
  rows : List Reference
  ids : Bytes
  documents : Nat
  familySplits : List (Text × List Split)

/-- `[[key, sorted(value)] for key, value in sorted(families.items()) if len(value) > 1]` -/
def familySplits (families : List (Text × List Split)) : List (Text × List Split) :=
  ((families.filter fun entry => 1 < entry.2.length).insertionSort fun first second =>
    first.1 ≤ second.1).map fun entry => (entry.1, [.test, .train, .validation].filter entry.2.contains)

def assign (assignments : Reading) (expectedRows : Nat) (rows : List Reference) :
    Except JoinFailure Assigned := do
  let failure := assignments.failure.map JoinFailure.reading
  let state ← rows.foldlM (joinRow atMost failure)
    { rows := [], previous := none, current := none
      cursor := { values := assignments.values, seen := 0, last := none }, families := [], ids := [] }
  let seen ← drain atMost failure state.cursor.seen state.cursor.last state.cursor.values
  refuseIf (seen ≠ expectedRows) .countMismatch
  .ok
    { rows := state.rows
      ids := state.ids
      documents := state.rows.length
      familySplits := familySplits state.families }

end

section

def candidateKeys : List Text :=
  ["document_id", "family_id", "split", "stratum", "content_sha256"].map text

structure BoundReference where
  row : Reference
  family : Text
  stratum : Text
deriving DecidableEq

def candidateMatches (row : Reference) (candidate : Json) : Option (Text × Text) :=
  if candidate.hasKeys candidateKeys then
    match (candidate.get (text "document_id")).bind Json.str?,
        (candidate.get (text "content_sha256")).bind Json.str?,
        (candidate.get (text "split")).bind Json.str?,
        (candidate.get (text "family_id")).bind Json.str?,
        (candidate.get (text "stratum")).bind Json.str? with
    | some identifier, some content, some split, some family, some stratum =>
      if identifier = row.documentId ∧ content = row.contentSha256 ∧
          row.split.map Split.name = some split ∧ family ≠ [] ∧ stratum ∈ row.domains then
        some (family, stratum)
      else none
    | _, _, _, _, _ => none
  else none

/-- The rows of the inner loop of `_bind_families`, with their families. -/
def bindRows (failure : Option JoinFailure) : (previous : Option Text) → List Reference →
    List Json → Except JoinFailure (List BoundReference)
  | _, [], [] =>
    match failure with
    | some failure => .error failure
    | none => .ok []
  | _, [], _ :: _ => .error .familyCoverage
  | _, _ :: _, [] => .error (failure.getD .familyCoverage)
  | previous, row :: rows, candidate :: candidates =>
    match candidateMatches row candidate with
    | none => .error .familyBinding
    | some (family, stratum) => do
        refuseIf (previous.any fun previous => row.documentId ≤ previous) .familyBinding
        refuseIf (encodable family = false) .unencodable
        let later ← bindRows failure (some row.documentId) rows candidates
        .ok ({ row := row, family := family, stratum := stratum } :: later)

/-- A row of `family-splits.jsonl`. -/
def familyRow (bound : BoundReference) : List Text :=
  [bound.family, (bound.row.split.map Split.name).getD []]

def familiesApart : List (List Text) → Bool
  | first :: second :: rows =>
    !(second[0]? = first[0]? && second[1]? ≠ first[1]?) && familiesApart (second :: rows)
  | _ => true

def bindFamilies (inventory : Reading) (rows : List Reference) :
    Except JoinFailure (List BoundReference) := do
  let bound ← bindRows (inventory.failure.map JoinFailure.reading) none rows inventory.values
  let families := (bound.map familyRow).insertionSort fun first second => first ≤ second
  refuseIf (familiesApart families = false) .familyLeak
  .ok bound

end

end SparseLab.Corpus.SplitJoin
