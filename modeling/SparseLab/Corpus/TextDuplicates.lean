import Mathlib.Data.List.SplitBy
import SparseLab.Corpus.Duplicates
import SparseLab.Library.Pointers

/-! Duplicate resolution of release schema 2, in memory, over SQLite and over sorted files. -/

namespace SparseLab.Corpus

open Library

inductive TextFailure
  | crossSplit
  | incompatibleRights
deriving DecidableEq

def textMethods : List Method := [.raw, .normalized]

variable {Id Key Rights Digest : Type}

/-- The reason of `metadata_only_front_matter` comes before that of `duplicate`. -/
def textReason (document : Document Id Key) (duplicate : Bool) : Option DropReason :=
  if document.metadataOnly then some .metadataOnlyFrontMatter
  else if duplicate then some .duplicate
  else none

/-- `sorted(set(splits))` -/
def splitSet (splits : List Split) : List Split :=
  [.test, .train, .validation].filter splits.contains

variable [LinearOrder Id] [LinearOrder Key]

def textVerdict (representative : Id → Id) (document : Document Id Key) : Verdict Id :=
  ⟨document.documentId, representative document.documentId,
    textReason document (representative document.documentId ≠ document.documentId)⟩

section

variable [DecidableEq Rights] (rights : Id → Rights)

/-- One turn of the loop over `sorted(mapping.items())`. The documents are sorted already. -/
def storedTextGroup (documents : List (Document Id Key)) (method : Method) (key : Key) :
    Except TextFailure (Option (DuplicateGroup Id Key)) :=
  match mappingGroup documents method key with
  | first :: second :: rest => do
      let members := first :: second :: rest
      refuseIf (1 < (splitSet (members.map (·.split))).length) .crossSplit
      refuseIf (method = .normalized ∧
        1 < (members.map fun document => rights document.documentId).dedup.length)
        .incompatibleRights
      .ok (some ⟨method, key, members.map (·.documentId), splitSet (members.map (·.split)),
        first.documentId⟩)
  | _ => .ok none

/-- `for i in ids[1:]: representative[i] = min(representative[i], ids[0])` -/
def linkRest (representative : Id → Id) : List Id → (Id → Id)
  | [] => representative
  | first :: rest => rest.foldl (fun representative id =>
    Function.update representative id (min (representative id) first)) representative

/-- `for identifier in representative: chosen(identifier)` -/
def chooseAll (fuel : Nat) (representative : Id → Id) (ids : List Id) : Id → Id :=
  ids.foldl (fun representative id =>
    Function.update representative id (chosen representative fuel id)) representative

/-- The resolution of `_build_stored` under schema version 2. -/
def resolveTextStored (unsorted : List (Document Id Key)) :
    Except TextFailure (Resolution Id Key) := do
  let documents := sortedDocuments unsorted
  let found ← textMethods.flatMap (fun method =>
    (mappingKeys documents method).map fun key => (method, key)) |>.mapM fun (method, key) =>
      storedTextGroup rights documents method key
  let groups := found.filterMap id
  let linked := groups.foldl (fun representative group =>
    linkRest representative group.origins) id
  let representative := chooseAll documents.length linked (documents.map (·.documentId))
  .ok ⟨groups, documents.map (textVerdict representative)⟩

end

section

variable [DecidableEq Rights] (rights : Id → Rights)

/-- `incompatible` after the rows of a key: some signature differs from the one before it. -/
def signatureChanges : List Rights → Bool
  | one :: other :: rest => one ≠ other || signatureChanges (other :: rest)
  | _ => false

def Index.textGroup (index : Index Id Key) (method : Method) (key : Key) :
    Except TextFailure (DuplicateGroup Id Key) :=
  match (index.rowsOf method key).map (·.document) with
  | first :: rest => do
      let documents := first :: rest
      refuseIf (1 < (splitSet (documents.map (·.split))).length) .crossSplit
      refuseIf (method = .normalized ∧
        signatureChanges (documents.map fun document => rights document.documentId))
        .incompatibleRights
      .ok ⟨method, key, documents.map (·.documentId), splitSet (documents.map (·.split)),
        first.documentId⟩
  | [] => .error .crossSplit

/-- `SET representative_id=MIN(representative_id,?)` for the rows of a group. -/
def linkRows (representative : Id → Id) (ids : List Id) (first : Id) : Id → Id :=
  ids.foldl (fun representative id =>
    Function.update representative id (min (representative id) first)) representative

/-- The rows the compressing `UPDATE` selects. -/
def staleRows (representative : Id → Id) (ids : List Id) : List Id :=
  ids.filter fun id => representative id ≠ representative (representative id)

def compressRounds (ids : List Id) : (fuel : Nat) → (Id → Id) → (Id → Id)
  | 0, representative => representative
  | fuel + 1, representative =>
    if staleRows representative ids = [] then representative
    else compressRounds ids fuel ((staleRows representative ids).foldl halve representative)

/-- `_deduplicate_v2(connection, ...)` -/
def deduplicateText (index : Index Id Key) : Except TextFailure (Resolution Id Key) := do
  let groups ← textMethods.flatMap (fun method =>
    (index.repeatedKeys method).map fun key => (method, key)) |>.mapM fun (method, key) =>
      index.textGroup rights method key
  let linked := groups.foldl (fun representative group =>
    linkRows representative group.origins group.representative) id
  let representative := compressRounds (index.documents.map fun row => row.document.documentId)
    index.documents.length linked
  .ok ⟨groups, index.documents.map fun row => textVerdict representative row.document⟩

end

section

/-- A row `[method, key, ordinal, document_id, split, signature]` of `_origins`. -/
structure TextEntry (Id Key Digest : Type) where
  method : Nat
  key : Key
  ordinal : Nat
  documentId : Id
  split : Split
  signature : Digest
deriving DecidableEq

/-- The rows are told apart by their first three columns, which `external_sort` compares. -/
def TextEntry.order (entry : TextEntry Id Key Digest) : Nat ×ₗ Key ×ₗ Nat :=
  toLex (entry.method, toLex (entry.key, entry.ordinal))

def TextEntry.sameKey (one other : TextEntry Id Key Digest) : Bool :=
  one.method = other.method ∧ one.key = other.key

/-- The rows of one document, `enumerate(row[5:7])`. -/
def textEntries (signature : Id → Digest) (ordinal : Nat) (document : Document Id Key) :
    List (TextEntry Id Key Digest) :=
  [⟨0, document.rawContentSha256, ordinal, document.documentId, document.split,
      signature document.documentId⟩,
    ⟨1, document.contentSha256, ordinal, document.documentId, document.split,
      signature document.documentId⟩]

/-- The sorted file of `_origins`. -/
def sortedEntries (signature : Id → Digest) (references : List (Document Id Key)) :
    List (TextEntry Id Key Digest) :=
  (references.zipIdx.flatMap fun (document, ordinal) =>
    textEntries signature ordinal document).insertionSort fun left right =>
      left.order ≤ right.order

/-- `("raw", "normalized")[method]` -/
def methodOf : Nat → Method
  | 0 => .raw
  | _ => .normalized

variable [DecidableEq Digest]

/-- One turn of the loop over `itertools.groupby`: the group it writes, and the ordinals it
joins with the first one. -/
def streamedGroup (members : List (TextEntry Id Key Digest)) :
    Except TextFailure (Option (DuplicateGroup Id Key × List Nat)) :=
  match members with
  | first :: second :: rest => do
      let members := first :: second :: rest
      refuseIf (1 < (splitSet (members.map (·.split))).length) .crossSplit
      refuseIf (∃ row ∈ members, first.method ≠ 0 ∧ row.signature ≠ first.signature)
        .incompatibleRights
      .ok (some (⟨methodOf first.method, first.key, members.map (·.documentId),
        splitSet (members.map (·.split)), first.documentId⟩, members.map (·.ordinal)))
  | _ => .ok none

/-- `_deduplicate(directory, assigned, origins)` and the verdicts of `StreamBuildRows.documents`. -/
def resolveTextStreamed (signature : Id → Digest) (unsorted : List (Document Id Key)) :
    Except TextFailure (Resolution Id Key) := do
  let references := sortedDocuments unsorted
  let found ← ((sortedEntries signature references).splitBy TextEntry.sameKey).mapM streamedGroup
  let groups := found.filterMap id
  let ordinals := groups.map Prod.snd
  let fuel := (ordinals.map List.length).sum
  let parents := ordinals.foldl (joinGroup fuel) id
  let verdicts := references.zipIdx.filterMap fun (document, ordinal) =>
    let root := chosen parents fuel ordinal
    references[root]?.map fun winner =>
      ⟨document.documentId, winner.documentId, textReason document (root ≠ ordinal)⟩
  .ok ⟨groups.map Prod.fst, verdicts⟩

end

end SparseLab.Corpus
