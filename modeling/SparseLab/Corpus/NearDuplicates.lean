import Mathlib.Algebra.Order.Field.Rat
import Mathlib.Data.Finset.Max
import Mathlib.Data.List.Sort
import SparseLab.Library.PostingLists
import SparseLab.Library.Texts

/-! Lexical screening of overlap between splits, from `corpus/near_duplicates.py`. -/

namespace SparseLab.Corpus.NearDuplicates

open Library

def splits : List Text := [text "train", text "validation", text "test"]

def prime : Nat := 2 ^ 61 - 1

/-- What the standard library computes: the words of the case-folded text, the first eight bytes of
`sha256`, the eight bytes of `blake2b`, and the nearest number in floating point. -/
structure Tools where
  words : Text → List Text
  sha256 : Text → Nat
  blake2b : Text → Nat
  nearest : Rat → Rat
  nearest_one : nearest 1 = 1

structure Document (ι κ σ : Type) where
  documentId : ι
  split : Text
  text : Text
  contentSha256 : κ
  sourceId : Option σ
  sourceLocation : Option σ
deriving DecidableEq

structure Caps where
  maxDocuments : Int := 100000
  maxInputTextBytes : Int := 128 * 1024 * 1024
  maxTotalShingles : Int := 1000000
  maxShinglesPerDocument : Int := 50000
  maxBucketDocuments : Int := 1000
  maxComparisons : Int := 200000
  maxCandidates : Int := 20000
  minJaccard : Rat
deriving DecidableEq

inductive Failure
  | invalidCaps | documentCap | unencodable | textByteCap | duplicateId | invalidSplit | shingleCap
  | totalShingleCap | comparisonCap | identicalBucketCap | bucketCap | candidateCap | missingRow
deriving DecidableEq

def Failure.text (caps : Caps) : Failure → String
  | invalidCaps => "near-duplicate caps must be positive and threshold in (0, 1]"
  | documentCap => s!"near-duplicate document cap exceeded ({caps.maxDocuments})"
  | unencodable => "surrogates not allowed"
  | textByteCap => s!"near-duplicate input text byte cap exceeded ({caps.maxInputTextBytes})"
  | duplicateId => "near-duplicate duplicate document ID"
  | invalidSplit => "near-duplicate invalid document split"
  | shingleCap => s!"near-duplicate shingle cap exceeded ({caps.maxShinglesPerDocument})"
  | totalShingleCap => s!"near-duplicate total shingle cap exceeded ({caps.maxTotalShingles})"
  | comparisonCap => s!"near-duplicate comparison cap exceeded ({caps.maxComparisons})"
  | identicalBucketCap =>
    s!"near-duplicate identical-content bucket cap exceeded ({caps.maxBucketDocuments})"
  | bucketCap => s!"near-duplicate bucket cap exceeded ({caps.maxBucketDocuments})"
  | candidateCap => s!"near-duplicate candidate cap exceeded ({caps.maxCandidates})"
  | missingRow => "list index out of range"

def utf8Width (code : Nat) : Option Nat :=
  if code < 0x80 then some 1
  else if code < 0x800 then some 2
  else if 0xd800 ≤ code ∧ code < 0xe000 then none
  else if code < 0x10000 then some 3
  else some 4

/-- `len(text.encode("utf-8"))` -/
def utf8Length (text : Text) : Option Nat := (text.mapM utf8Width).map List.sum

section

variable (tools : Tools)

/-- `_COEFFICIENTS` -/
def coefficient (index : Nat) (part : String) : Nat :=
  tools.sha256 (text s!"near-duplicate-v1:{index}:{part}") % (prime - 1) + 1

/-- `"\x1f".join(words[index : index + width])` for each index -/
def windows (width : Nat) (words : List Text) : List Text :=
  (List.range (words.length - width + 1)).map fun index =>
    joined [0x1f] ((words.drop index).take width)

def shingles (content : Text) (cap : Int) : Except Failure (Finset Nat) := do
  let words := tools.words content
  if words = [] then .ok ∅
  else do
    let width := min 3 words.length
    refuseIf ((words.length - width + 1 : Nat) > cap) .shingleCap
    .ok ((windows width words).map fun window => tools.blake2b window % prime).toFinset

def minHash (found : Finset Nat) (index : Nat) : Nat :=
  WithTop.untopD 0 (found.image fun item =>
    (coefficient tools index "a" * item + coefficient tools index "b") % prime).min

def signature (found : Finset Nat) : List Nat := (List.range 64).map (minHash tools found)

def bands (found : Finset Nat) : List (Nat × List Nat) :=
  if found = ∅ then []
  else (List.range 16).map fun band => (band, ((signature tools found).drop (band * 4)).take 4)

end

structure Screen (κ : Type) where
  buckets : Postings (Nat × List Nat)
  identical : Postings κ
  shingleSets : List (Finset Nat)
  pairs : List (Nat × Nat)
  totalShingles : Nat

structure Candidate (ι κ σ : Type) where
  leftDocumentId : ι
  leftSplit : Text
  leftSourceId : Option σ
  leftSourceLocation : Option σ
  leftContentSha256 : κ
  rightDocumentId : ι
  rightSplit : Text
  rightSourceId : Option σ
  rightSourceLocation : Option σ
  rightContentSha256 : κ
  jaccard : Rat
  sharedShingles : Nat
  unionShingles : Nat
  identicalContentSha256 : Bool
deriving DecidableEq

structure Report (ι κ σ : Type) where
  algorithm : String
  limitations : String
  parameters : Caps
  documentCount : Nat
  crossSplitComparisons : Nat
  candidates : List (Candidate ι κ σ)
deriving DecidableEq

section

variable {ι κ σ : Type} (tools : Tools) (caps : Caps)

def collect (read : List (Document ι κ σ) × Nat) (row : Document ι κ σ) :
    Except Failure (List (Document ι κ σ) × Nat) := do
  refuseIf ((read.1.length : Int) ≥ caps.maxDocuments) .documentCap
  match utf8Length row.text with
  | none => .error .unencodable
  | some length => do
      refuseIf (((read.2 + length : Nat) : Int) > caps.maxInputTextBytes) .textByteCap
      .ok (read.1 ++ [row], read.2 + length)

def propose (rows : List (Document ι κ σ)) (row : Document ι κ σ) (index : Nat)
    (pairs : List (Nat × Nat)) (previous : Nat) : Except Failure (List (Nat × Nat)) :=
  match rows[previous]? with
  | none => .error .missingRow
  | some other =>
    if other.split ≠ row.split then do
      let next := pairs.insert (previous, index)
      refuseIf ((next.length : Int) > caps.maxComparisons) .comparisonCap
      .ok next
    else .ok pairs

def similarity (exact : Bool) (first second : Finset Nat) : Rat :=
  if (first ∪ second).card ≠ 0 then
    tools.nearest ((first ∩ second).card / (first ∪ second).card)
  else if exact then 1 else 0

def PairLe (first second : Nat × Nat) : Prop :=
  first.1 < second.1 ∨ (first.1 = second.1 ∧ first.2 ≤ second.2)

instance : DecidableRel PairLe := fun _ _ => inferInstanceAs (Decidable (_ ∨ _))

def Caps.Invalid : Prop :=
  caps.maxDocuments < 1 ∨ caps.maxShinglesPerDocument < 1 ∨ caps.maxInputTextBytes < 1 ∨
    caps.maxTotalShingles < 1 ∨ caps.maxBucketDocuments < 1 ∨ caps.maxComparisons < 1 ∨
    caps.maxCandidates < 1 ∨ ¬ (0 < caps.minJaccard ∧ caps.minJaccard ≤ 1)

instance : Decidable caps.Invalid := inferInstanceAs (Decidable (_ ∨ _))

def emptyScreen : Screen κ :=
  { buckets := fun _ => [], identical := fun _ => [], shingleSets := [], pairs := [],
    totalShingles := 0 }

variable [DecidableEq κ]

def screenRow (rows : List (Document ι κ σ)) (screen : Screen κ) (item : Document ι κ σ × Nat) :
    Except Failure (Screen κ) := do
  let row := item.1
  let index := item.2
  refuseIf (row.split ∉ splits) .invalidSplit
  let found ← shingles tools row.text caps.maxShinglesPerDocument
  let total := screen.totalShingles + found.card
  refuseIf ((total : Int) > caps.maxTotalShingles) .totalShingleCap
  let keys := bands tools found
  let matching := screen.identical row.contentSha256 ++ keys.flatMap screen.buckets
  let pairs ← (matching.dedup.insertionSort (· ≤ ·)).foldlM (propose caps rows row index) screen.pairs
  let identical ← post caps.maxBucketDocuments .identicalBucketCap index [row.contentSha256]
    screen.identical
  let buckets ← post caps.maxBucketDocuments .bucketCap index keys screen.buckets
  .ok
    { buckets := buckets, identical := identical, shingleSets := screen.shingleSets ++ [found],
      pairs := pairs, totalShingles := total }

def candidateOf (left right : Document ι κ σ) (first second : Finset Nat) : Candidate ι κ σ :=
  let exact : Bool := left.contentSha256 = right.contentSha256
  { leftDocumentId := left.documentId, leftSplit := left.split, leftSourceId := left.sourceId,
    leftSourceLocation := left.sourceLocation, leftContentSha256 := left.contentSha256,
    rightDocumentId := right.documentId, rightSplit := right.split,
    rightSourceId := right.sourceId, rightSourceLocation := right.sourceLocation,
    rightContentSha256 := right.contentSha256, jaccard := similarity tools exact first second,
    sharedShingles := (first ∩ second).card, unionShingles := (first ∪ second).card,
    identicalContentSha256 := exact }

def score (rows : List (Document ι κ σ)) (sets : List (Finset Nat)) (found : List (Candidate ι κ σ))
    (pair : Nat × Nat) : Except Failure (List (Candidate ι κ σ)) :=
  match rows[pair.1]?, rows[pair.2]?, sets[pair.1]?, sets[pair.2]? with
  | some left, some right, some first, some second =>
    let candidate := candidateOf tools left right first second
    if candidate.identicalContentSha256 ∨ candidate.jaccard ≥ caps.minJaccard then do
      let next := found ++ [candidate]
      refuseIf ((next.length : Int) > caps.maxCandidates) .candidateCap
      .ok next
    else .ok found
  | _, _, _, _ => .error .missingRow

variable [LinearOrder ι]

/-- `rows.sort(key=lambda row: row["document_id"])` -/
def sortedRows (rows : List (Document ι κ σ)) : List (Document ι κ σ) :=
  rows.insertionSort fun first second => first.documentId ≤ second.documentId

def candidates (documents : List (Document ι κ σ)) : Except Failure (Report ι κ σ) := do
  refuseIf caps.Invalid .invalidCaps
  let (read, _) ← documents.foldlM (collect caps) ([], 0)
  let rows := sortedRows read
  refuseIf (¬ (rows.map Document.documentId).Nodup) .duplicateId
  let screen ← rows.zipIdx.foldlM (screenRow tools caps rows) emptyScreen
  let found ← (screen.pairs.insertionSort PairLe).foldlM (score tools caps rows screen.shingleSets) []
  .ok
    { algorithm := "word_shingle_minhash_lsh_v1"
      limitations := "Lexical candidates only; LSH is not exhaustive and does not establish " ++
        "semantic independence."
      parameters := caps
      documentCount := rows.length
      crossSplitComparisons := screen.pairs.length
      candidates := found }

end

end SparseLab.Corpus.NearDuplicates
