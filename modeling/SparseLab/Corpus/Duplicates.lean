import Mathlib.Data.List.Dedup
import Mathlib.Data.List.MinMax
import Mathlib.Data.List.Sort
import Mathlib.Data.Prod.Lex
import SparseLab.Library.Forests
import SparseLab.Library.Outcomes

/-! Duplicate resolution of release schema 3, over SQLite and in memory. -/

namespace SparseLab.Corpus

open Library

inductive Split | train | validation | test
deriving DecidableEq

/-- What the resolution reads of a prepared document. `originKeys` is `_origin_keys(doc)`, a
tuple made from a set, and `split` is `_split(doc, policy)`. -/
structure Document (Id Key : Type) where
  documentId : Id
  rawContentSha256 : Key
  contentSha256 : Key
  originKeys : List Key
  distinctOrigins : originKeys.Nodup
  split : Split
  sourceRank : Nat
  documentKind : String
  decision : Option String
deriving DecidableEq

structure DocumentSet (Id Key : Type) where
  documents : List (Document Id Key)
  distinct : (documents.map (·.documentId)).Nodup

inductive Method | raw | normalized | canonicalOrigin
deriving DecidableEq

def methods : List Method := [.raw, .normalized, .canonicalOrigin]

/-- A duplicate group of the report. Its `sha256` is the key, or the digest of an origin key. -/
structure DuplicateGroup (Id Key : Type) where
  method : Method
  key : Key
  origins : List Id
  splits : List Split
  representative : Id
deriving DecidableEq

inductive DropReason | metadataOnlyFrontMatter | contaminatedHeldout | duplicate
deriving DecidableEq

structure Verdict (Id : Type) where
  documentId : Id
  representativeId : Id
  dropReason : Option DropReason
deriving DecidableEq

structure Resolution (Id Key : Type) where
  groups : List (DuplicateGroup Id Key)
  verdicts : List (Verdict Id)
deriving DecidableEq

inductive DuplicateFailure
  | crossSplit
  | heldoutOverlap
  | discordantCleaning
deriving DecidableEq

variable {Id Key : Type}

namespace Document

def metadataOnly (document : Document Id Key) : Bool :=
  document.decision = some "exclude_lm_metadata_only"

def keys (document : Document Id Key) : Method → List Key
  | .raw => [document.rawContentSha256]
  | .normalized => [document.contentSha256]
  | .canonicalOrigin => document.originKeys

/-- The key of the `min` calls: `(split != priority if priority else False, source_rank,
document_kind != "paper", document_id)`. -/
def choice (priority : Option Split) (document : Document Id Key) :
    Bool ×ₗ Nat ×ₗ Bool ×ₗ Id :=
  toLex (priority.any fun split => document.split ≠ split,
    toLex (document.sourceRank, toLex (decide (document.documentKind ≠ "paper"),
      document.documentId)))

end Document

/-- `{split of each document} - {"train"}` -/
def heldout (documents : List (Document Id Key)) : List Split :=
  ((documents.map (·.split)).filter (· ≠ .train)).dedup

def sortedSplits (documents : List (Document Id Key)) : List Split :=
  [.test, .train, .validation].filter (documents.map (·.split)).contains

variable [LinearOrder Id] [LinearOrder Key]

/-- `min(documents, key=...)` -/
def selected (documents : List (Document Id Key)) : Option (Document Id Key) :=
  documents.argmin (Document.choice (heldout documents).head?)

def dropReason (document winner : Document Id Key) : Option DropReason :=
  if document.metadataOnly then some .metadataOnlyFrontMatter
  else if winner.documentId ≠ document.documentId then
    if document.split = .train ∧ winner.split ≠ .train then some .contaminatedHeldout
    else some .duplicate
  else none

section

/-- A row of the table `documents`, under its row number. -/
structure Row (Id Key : Type) where
  number : Nat
  document : Document Id Key

/-- A row of the table `origins`. -/
structure Origin (Key : Type) where
  method : Method
  origin : Key
  documentNumber : Nat

structure Index (Id Key : Type) where
  documents : List (Row Id Key)
  origins : List (Origin Key)

/-- The tables `_index_prepared` fills, in the order of the shards. -/
def indexPrepared (documents : List (Document Id Key)) : Index Id Key :=
  let rows := (documents.zipIdx 1).map fun (document, number) => Row.mk number document
  { documents := rows
    origins := rows.flatMap fun row => methods.flatMap fun method =>
      (row.document.keys method).map fun key => ⟨method, key, row.number⟩ }

/-- `SELECT origin FROM origins WHERE method=? GROUP BY origin HAVING COUNT(*)>1 ORDER BY origin` -/
def Index.repeatedKeys (index : Index Id Key) (method : Method) : List Key :=
  let keys := (index.origins.filter (·.method = method)).map (·.origin)
  (keys.dedup.filter fun key => 1 < keys.count key).insertionSort (· ≤ ·)

/-- The documents of one key, `ORDER BY d.document_id`. -/
def Index.rowsOf (index : Index Id Key) (method : Method) (key : Key) : List (Row Id Key) :=
  ((index.origins.filter fun entry => entry.method = method ∧ entry.origin = key).filterMap
    fun entry => index.documents.find? (·.number = entry.documentNumber)).insertionSort
      fun left right => left.document.documentId ≤ right.document.documentId

def Index.group (index : Index Id Key) (method : Method) (key : Key) :
    Except DuplicateFailure (DuplicateGroup Id Key × List Nat) := do
  let rows := index.rowsOf method key
  let documents := rows.map (·.document)
  refuseIf (1 < (heldout documents).length) .crossSplit
  match selected documents with
  | some winner =>
    .ok (⟨method, key, documents.map (·.documentId), sortedSplits documents, winner.documentId⟩,
      rows.map (·.number))
  | none => .error .crossSplit

def heldoutBit : Split → Nat
  | .train => 0
  | .validation => 1
  | .test => 2

/-- `heldout_mask[component]` after the loop over all rows. -/
def heldoutMask (documents : List (Document Id Key)) : Nat :=
  documents.foldl (fun mask document => mask ||| heldoutBit document.split) 0

def cleaningBit (document : Document Id Key) : Nat := if document.metadataOnly then 2 else 1

/-- `cleaning_mask[component]` after the loop over all rows. -/
def cleaningMask (documents : List (Document Id Key)) : Nat :=
  documents.foldl (fun mask document => mask ||| cleaningBit document) 0

def preferredSplit : (mask : Nat) → Option Split
  | 1 => some .validation
  | 2 => some .test
  | _ => none

/-- `_deduplicate(connection, ..., schema_version=3)`. The lookups after the joins halve paths
too, which moves no root. -/
def deduplicate (index : Index Id Key) : Except DuplicateFailure (Resolution Id Key) := do
  let groups ← methods.flatMap (fun method =>
    (index.repeatedKeys method).map fun key => (method, key)) |>.mapM fun (method, key) =>
      index.group method key
  let root := rootAfter (groups.map Prod.snd)
  let component := fun (row : Row Id Key) =>
    (index.documents.filter fun other => root other.number = root row.number).map (·.document)
  refuseIf (∃ row ∈ index.documents, heldoutMask (component row) = 3) .heldoutOverlap
  refuseIf (∃ row ∈ index.documents, cleaningMask (component row) = 3) .discordantCleaning
  let verdicts := index.documents.filterMap fun row =>
    let members := component row
    (members.argmin (Document.choice (preferredSplit (heldoutMask members)))).map fun winner =>
      ⟨row.document.documentId, winner.documentId, dropReason row.document winner⟩
  .ok ⟨groups.map Prod.fst, verdicts⟩

end

section

/-- `documents.sort(key=lambda d: d["document_id"])` -/
def sortedDocuments (documents : List (Document Id Key)) : List (Document Id Key) :=
  documents.insertionSort fun left right => left.documentId ≤ right.documentId

/-- The keys of `sorted(mapping.items())`. -/
def mappingKeys (documents : List (Document Id Key)) (method : Method) : List Key :=
  (documents.flatMap fun document => document.keys method).dedup.insertionSort (· ≤ ·)

/-- `mapping[key]` -/
def mappingGroup (documents : List (Document Id Key)) (method : Method) (key : Key) :
    List (Document Id Key) :=
  documents.filter fun document => key ∈ document.keys method

def storedGroup (documents : List (Document Id Key)) (method : Method) (key : Key) :
    Except DuplicateFailure (Option (DuplicateGroup Id Key)) := do
  let members := mappingGroup documents method key
  if members.length < 2 then .ok none
  else
    match selected members with
    | some winner =>
      refuseIf (1 < (sortedSplits members).length ∧ (heldout members).length ≠ 1) .crossSplit
      .ok (some ⟨method, key, members.map (·.documentId), sortedSplits members,
        winner.documentId⟩)
    | none => .error .crossSplit

/-- `representative[i] = selected` for every `i` of `ids`. -/
def assign (representative : Id → Id) (ids : List Id) (winner : Id) : Id → Id :=
  ids.foldl (fun representative id => Function.update representative id winner) representative

def localRepresentatives (groups : List (DuplicateGroup Id Key)) : Id → Id :=
  groups.foldl (fun representative group =>
    if group.method = .normalized then assign representative group.origins group.representative
    else representative) id

/-- One turn of the loop over `components.values()`. -/
def resolveComponent (representative : Id → Id) (members : List (Document Id Key)) :
    Except DuplicateFailure (Id → Id) := do
  refuseIf (1 < (heldout members).length) .heldoutOverlap
  refuseIf (1 < (members.map (·.metadataOnly)).dedup.length) .discordantCleaning
  match selected members with
  | some winner => .ok (assign representative (members.map (·.documentId)) winner.documentId)
  | none => .ok representative

/-- `chosen(identifier)`, within `fuel` turns of its loop. -/
def chosen (representative : Id → Id) : (fuel : Nat) → Id → Id
  | 0, identifier => identifier
  | fuel + 1, identifier =>
    if representative identifier = identifier then identifier
    else chosen representative fuel (representative identifier)

/-- The resolution of `_build_stored` under schema version 3. -/
def resolveStored (unsorted : List (Document Id Key)) :
    Except DuplicateFailure (Resolution Id Key) := do
  let documents := sortedDocuments unsorted
  let found ← methods.flatMap (fun method =>
    (mappingKeys documents method).map fun key => (method, key)) |>.mapM fun (method, key) =>
      storedGroup documents method key
  let groups := found.filterMap id
  let root := rootAfter (groups.map (·.origins))
  let roots := (documents.map fun document => root document.documentId).eraseDups
  let representative ← (roots.map fun top =>
    documents.filter fun document => root document.documentId = top).foldlM
      resolveComponent (localRepresentatives groups)
  let verdicts := documents.filterMap fun document =>
    let winnerId := chosen representative (documents.length + 1) document.documentId
    (documents.find? fun other => other.documentId = winnerId).map fun winner =>
      ⟨document.documentId, winner.documentId, dropReason document winner⟩
  .ok ⟨groups, verdicts⟩

end

end SparseLab.Corpus
