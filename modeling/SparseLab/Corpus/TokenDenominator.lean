import SparseLab.Corpus.NearDuplicates
import SparseLab.Corpus.SourceRecords

/-! `_measure_source_domains` of `corpus/token_denominator.py`. -/

namespace SparseLab.Corpus.Denominator

open Library Cleaning Records NearDuplicates

inductive MeasureFailure
  | documentLimit | byteLimit | unreadable | unencodable | tooLong | overBatch | unpaired | inventory
deriving DecidableEq

def MeasureFailure.text : MeasureFailure → Option String
  | documentLimit => "tokenizer_batch_documents must be an integer from 1 to 256"
  | byteLimit => "tokenizer_batch_source_bytes must be an integer from 1 to 8388608"
  | tooLong => "eligible source document exceeds 1 MiB"
  | overBatch => "source document exceeds tokenizer batch byte limit"
  | inventory => "streamed documents differ from release inventory"
  | unreadable | unencodable | unpaired => none

/-- A row of `documents.jsonl`. -/
structure DocumentRow where
  split : Text
  dropReason : Option Text
  domains : List Text
  text : Text
  contentSha256 : Text
deriving DecidableEq

/-- `encode` and `encode_batch`, without special tokens. -/
structure Tokenizer where
  encode : Text → List Nat
  encodeBatch : List Text → List (List Nat)

structure Counts where
  eligibleDocuments : Nat
  distinctDocuments : Nat
  sourceBytes : Nat
  sourceTokens : Option Nat
deriving DecidableEq

structure Options where
  tokenizer : Option Tokenizer
  requested : List Text
  batchDocuments : Nat
  batchSourceBytes : Nat
  allDomains : Bool
  maxDocumentSourceBytes : Option Nat
  loads : Bytes → Option DocumentRow
  sha256 : Bytes → String

/-- `pending` are the texts of the batch with their labels. -/
structure Progress where
  domains : Text → Option Counts
  seen : List (Text × Text)
  pending : List (Text × List Text)
  batchBytes : Nat
  batchCount : Nat
  rowsScanned : Nat

structure Measured where
  domains : Text → Option Counts
  rowsScanned : Nat
  documentsSha256 : String
  documentsSize : Nat
  batchCount : Nat

namespace Counts

def zero (tokenizer : Option Tokenizer) : Counts where
  eligibleDocuments := 0
  distinctDocuments := 0
  sourceBytes := 0
  sourceTokens := tokenizer.map fun _ => 0

def addTokens (counts : Counts) (count : Nat) : Counts :=
  { counts with sourceTokens := counts.sourceTokens.map (· + count) }

def addBytes (counts : Counts) (length : Nat) : Counts :=
  { counts with sourceBytes := counts.sourceBytes + length }

def addDocument (counts : Counts) (fresh : Bool) : Counts :=
  { counts with
    eligibleDocuments := counts.eligibleDocuments + 1
    distinctDocuments := counts.distinctDocuments + if fresh then 1 else 0 }

end Counts

section

variable (options : Options)

/-- `domains[label] = change(domains[label])` -/
def alter (change : Counts → Counts) (domains : Text → Option Counts) (label : Text) :
    Text → Option Counts :=
  Function.update domains label ((domains label).map change)

def encodeTexts (tokenizer : Tokenizer) : List Text → List (List Nat)
  | [text] => [tokenizer.encode text]
  | texts => tokenizer.encodeBatch texts

def flush (tokenizer : Tokenizer) (progress : Progress) : Except MeasureFailure Progress :=
  match progress.pending with
  | [] => .ok progress
  | pending =>
    let encodings := encodeTexts tokenizer (pending.map Prod.fst)
    if encodings.length ≠ pending.length then .error .unpaired
    else
      .ok
        { progress with
          domains := (encodings.zip (pending.map Prod.snd)).foldl
            (fun domains entry => entry.2.foldl
              (alter fun counts => counts.addTokens entry.1.length) domains) progress.domains
          pending := []
          batchBytes := 0
          batchCount := progress.batchCount + 1 }

/-- A domain in the loop over the row's domains; `INSERT OR IGNORE` tells whether it is new. -/
def countDomain (digest : Text)
    (state : (Text → Option Counts) × List (Text × Text) × List Text) (domain : Text) :
    (Text → Option Counts) × List (Text × Text) × List Text :=
  let fresh := (domain, digest) ∉ state.2.1
  (alter (fun counts => counts.addDocument fresh) state.1 domain,
    if fresh then (state.2.1 ++ [(domain, digest)], state.2.2 ++ [domain]) else state.2)

def makeRoom (tokenizer : Tokenizer) (progress : Progress) (length : Nat) :
    Except MeasureFailure Progress :=
  if progress.pending ≠ [] ∧ (options.batchDocuments ≤ progress.pending.length ∨
      options.batchSourceBytes < progress.batchBytes + length) then flush tokenizer progress
  else .ok progress

def encodeRow (tokenizer : Tokenizer) (progress : Progress) (text : Text) (labels : List Text)
    (length : Nat) : Except MeasureFailure Progress := do
  let flushed ← makeRoom options tokenizer progress length
  if options.batchSourceBytes < length then do
    refuseIf (options.maxDocumentSourceBytes.isSome = true) .overBatch
    .ok
      { flushed with
        domains := labels.foldl
          (alter fun counts => counts.addTokens (tokenizer.encode text).length) flushed.domains
        batchCount := flushed.batchCount + 1 }
  else
    let added :=
      { flushed with
        pending := flushed.pending ++ [(text, labels)]
        batchBytes := flushed.batchBytes + length }
    if options.batchDocuments ≤ added.pending.length ∨
        options.batchSourceBytes ≤ added.batchBytes then flush tokenizer added
    else .ok added

/-- `set(row["domains"])`, of the requested ones or of all, in order. -/
def applicable (progress : Progress) (row : DocumentRow) : List Text :=
  (row.domains.dedup.filter fun domain =>
    options.allDomains || (progress.domains domain).isSome).insertionSort
      fun first second => first ≤ second

def DocumentRow.Kept (row : DocumentRow) : Prop :=
  row.split = Library.text "train" ∧ row.dropReason = none

instance (row : DocumentRow) : Decidable row.Kept := inferInstanceAs (Decidable (_ ∧ _))

/-- `len(text.encode("utf-8"))`, which raises for a lone surrogate. -/
def encodedLength (content : Text) : Except MeasureFailure Nat :=
  match utf8Length content with
  | some length => .ok length
  | none => .error .unencodable

def measureRow (progress : Progress) (row : DocumentRow) : Except MeasureFailure Progress :=
  if ¬ row.Kept then .ok progress
  else
    let labels := applicable options progress row
    if labels = [] then .ok progress
    else do
      let length ← encodedLength row.text
      refuseIf (options.tokenizer.isSome ∧
        options.maxDocumentSourceBytes.any fun most => most < length) .tooLong
      let opened := labels.foldl (fun domains domain => Function.update domains domain
        (some ((domains domain).getD (Counts.zero options.tokenizer)))) progress.domains
      let counted := labels.foldl (countDomain row.contentSha256) (opened, progress.seen, [])
      let fresh := counted.2.2
      let progress := { progress with domains := counted.1, seen := counted.2.1 }
      if fresh = [] then .ok progress
      else
        let credited := { progress with
          domains := fresh.foldl (alter fun counts => counts.addBytes length) progress.domains }
        match options.tokenizer with
        | none => .ok credited
        | some tokenizer => encodeRow options tokenizer credited row.text fresh length

def measureLine (progress : Progress) (line : Bytes) : Except MeasureFailure Progress :=
  if blankBytes line then .ok progress
  else
    match options.loads line with
    | none => .error .unreadable
    | some row => measureRow options { progress with rowsScanned := progress.rowsScanned + 1 } row

def start : Progress where
  domains domain := if domain ∈ options.requested then some (Counts.zero options.tokenizer) else none
  seen := []
  pending := []
  batchBytes := 0
  batchCount := 0
  rowsScanned := 0

/-- The last `flush()`. -/
def finish (read : Progress) : Except MeasureFailure Progress :=
  match options.tokenizer with
  | none => .ok read
  | some tokenizer => flush tokenizer read

/-- `_measure_source_domains` of these bytes, which the inventory declares. -/
def measureSourceDomains (inventorySha256 : String) (inventorySize : Nat) (documents : Bytes) :
    Except MeasureFailure Measured := do
  refuseIf (¬ (1 ≤ options.batchDocuments ∧ options.batchDocuments ≤ 256)) .documentLimit
  refuseIf (¬ (1 ≤ options.batchSourceBytes ∧ options.batchSourceBytes ≤ 8388608)) .byteLimit
  let read ← (physicalLines documents).foldlM (measureLine options) (start options)
  let last ← finish options read
  refuseIf (inventorySha256 ≠ options.sha256 documents ∨ inventorySize ≠ documents.length) .inventory
  .ok
    { domains := last.domains
      rowsScanned := last.rowsScanned
      documentsSha256 := options.sha256 documents
      documentsSize := documents.length
      batchCount := last.batchCount }

end

end SparseLab.Corpus.Denominator
