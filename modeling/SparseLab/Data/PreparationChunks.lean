import SparseLab.Data.Staging

/-!
The chunk ledger of `data/preparation_chunks.py`. An operation returns its file actions in order; a
crash leaves a prefix of them.
-/

namespace SparseLab.Data

open Library

abbrev Actions := List (Action Path File)

def storeFile (path : Path) (file : File) : Actions :=
  [.write path .torn, .write path file]

/-- `_store_document`: the document under a temporary name, then an atomic replace. -/
def storeDocument (place : Place) (temporary target : Name) (file : File) : Actions :=
  storeFile (.entry place temporary) file ++
    [.rename (.entry place temporary) (.entry place target)]

structure SplitChunks where
  place : Place
  split : Split
  sealedReceipts : List Receipt := []
  state : Counters := {}
  pending : Counters := {}
  streams : Option (ArrayName → List Int) := none

namespace SplitChunks

def chunkPath (chunks : SplitChunks) (index : Nat) (part : Part) : Path :=
  .entry chunks.place (.chunk chunks.split index part)

end SplitChunks

variable (settings : Settings)

/-- `_validate_receipt`; negative counts and short digests are excluded by the types. -/
def validateReceipt (split : Split) (index : Nat) (payload : Receipt) : Except String Unit :=
  if payload.split ≠ split ∨ payload.index ≠ index then
    .error "invalid staging chunk receipt"
  else if payload.counters.acquiredDocuments < 1 ∨
      payload.counters.acquiredDocuments > settings.recordLimit ∨
      payload.counters.retainedDocuments + payload.counters.skippedDocuments ≠
        payload.counters.acquiredDocuments ∨
      payload.counters.truncatedDocuments ≠ 0 then
    .error "invalid staging chunk counts"
  else if payload.counters.outputTokens < payload.counters.retainedDocuments then
    .error "invalid staging chunk token count"
  else if payload.arrays.map Prod.fst ≠ settings.arrays then
    .error "invalid staging chunk arrays"
  else if payload.arrays.any fun (array, metadata) =>
      metadata.length ≠ payload.counters.outputTokens * settings.itemsize array then
    .error "staging raw length mismatch"
  else if (payload.arrays.map fun entry => entry.2.length).sum > settings.rawByteLimit then
    .error "staging chunk exceeds raw-byte limit"
  else
    .ok ()

/-- `_document` of an owner's marker. -/
def readOwner (disk : Disk) (place : Place) : Except String (Owner × Option Cleanup) :=
  match disk.read (.entry place .staging) with
  | some (.owner owner cleanup) => .ok (owner, cleanup)
  | some _ => .error "noncanonical staging receipt"
  | none => .error "No such file or directory: staging.json"

/-- `_document` of a chunk's receipt. -/
def readReceipt (disk : Disk) (place : Place) (split : Split) (index : Nat) :
    Except String Receipt :=
  match disk.read (.entry place (.chunk split index .receipt)) with
  | some (.receipt payload) => .ok payload
  | some _ => .error "noncanonical staging receipt"
  | none => .error "No such file or directory: receipt.json"

def discardable : Name → Bool
  | .staging | .stagingTmp => true
  | .chunk _ _ .receipt | .chunk _ _ .receiptTmp => true
  | .chunk _ _ (.raw array) | .chunk _ _ (.rawTmp array) => array ∈ settings.arrays
  | _ => false

def discardWork (disk : Disk) (place : Place) : Except String Actions :=
  match (names disk place).find? fun name => !discardable settings name with
  | some name => .error s!"unexpected preparation work entry: {name.text}"
  | none => .ok ((names disk place).map (fun name => .unlink (.entry place name)) ++
      [.unlink (.directory place)])

def isReceipt (split : Split) : Name → Bool
  | .chunk owner _ .receipt => owner = split
  | _ => false

def sortedReceipts (disk : Disk) (split : Split) : List Name :=
  ((names disk .root).filter (isReceipt split)).mergeSort fun first second =>
    first.chars ≤ second.chars

def expectedReceipts (split : Split) (count : Nat) : List Name :=
  (List.range count).map fun index => .chunk split index .receipt

def receiptCount (disk : Disk) (split : Split) : Nat :=
  ((names disk .root).filter (isReceipt split)).length

def allowedEntry (counts : Split → Nat) : Name → Bool
  | .staging | .manifest | .manifestTmp => true
  | .chunk split index .receipt => index < counts split
  | .chunk split index .receiptTmp => index = counts split
  | .chunk split index (.raw array) => index ≤ counts split ∧ array ∈ settings.arrays
  | .chunk split index (.rawTmp array) => index = counts split ∧ array ∈ settings.arrays
  | .final _ array | .finalTmp _ array => array ∈ settings.arrays
  | _ => false

def unsealedEntry (counts : Split → Nat) : Name → Bool
  | .chunk split index _ => index = counts split
  | _ => false

def inspectSplit (disk : Disk) (split : Split) : Except String Unit :=
  match ((sortedReceipts disk split).zip
      (expectedReceipts split (receiptCount disk split))).find? fun entry => entry.1 ≠ entry.2 with
  | some (receipt, _) => .error s!"noncontiguous sealed staging chunk: {receipt.text}"
  | none => (List.range (receiptCount disk split)).forM fun index => do
      let payload ← readReceipt disk .root split index
      validateReceipt settings split index payload

def inspectInventory (disk : Disk) : Except String Actions := do
  let discarded ← (works disk).mapM (discardWork settings disk)
  inspectSplit settings disk .train
  inspectSplit settings disk .validation
  let counts := receiptCount disk
  match (names disk .root).find? fun name => !allowedEntry settings counts name with
  | some name => .error s!"unexpected staging entry: {name.text}"
  | none => pure (discarded.flatten ++
      ((names disk .root).filter (unsealedEntry counts)).map (fun name =>
        .unlink (.entry .root name)) ++
      [.unlink (.entry .root .manifest), .unlink (.entry .root .manifestTmp)])

def createDirectory (place : Place) (owner : Owner) : Actions :=
  .write (.directory place) .directory ::
    storeDocument place .stagingTmp .staging (.owner owner none)

/-- `PreparationChunks.__init__` on a staging root. -/
def construct (disk : Disk) : Except String Actions :=
  match disk.read (.directory .root) with
  | some .directory => do
      let marker ← readOwner disk .root
      if marker ≠ (settings.owner, none) then
        .error "staging identity or binding mismatch"
      else
        inspectInventory settings disk
  | some _ => .error "staging root is not a directory"
  | none => do
      let created := createDirectory .root settings.owner
      let inspected ← inspectInventory settings (disk.performAll created)
      pure (created ++ inspected)

def checkRaw (disk : Disk) (place : Place) (split : Split) (index : Nat) :
    List (ArrayName × RawMetadata) → Except String Unit
  | [] => .ok ()
  | (array, metadata) :: rest =>
    match disk.read (.entry place (.chunk split index (.raw array))) with
    | some (.raw owner values) =>
      if values.length * settings.itemsize array ≠ metadata.length then
        .error "staging raw length mismatch"
      else if settings.sha256 (.raw owner values) ≠ metadata.sha256 then
        .error "sealed staging chunk changed"
      else
        checkRaw disk place split index rest
    | _ => .error "staging entry is not a regular file"

/-- The loop of `SplitChunks.__init__` over the receipts that exist. -/
def readSealed (disk : Disk) (place : Place) (split : Split) :
    Nat → List Receipt → Counters → Except String (List Receipt × Counters)
  | 0, receipts, state => .ok (receipts, state)
  | fuel + 1, receipts, state =>
    match disk.read (.entry place (.chunk split receipts.length .receipt)) with
    | none => .ok (receipts, state)
    | some _ => do
        let payload ← readReceipt disk place split receipts.length
        validateReceipt settings split receipts.length payload
        if payload.firstAcquiredIndex ≠ state.acquiredDocuments + 1 then
          .error "noncontiguous acquired records in staging"
        else
          checkRaw settings disk place split receipts.length payload.arrays
          readSealed disk place split fuel (receipts ++ [payload]) (state.add payload.counters)

def openSplit (disk : Disk) (place : Place) (split : Split) : Except String SplitChunks := do
  let (sealedReceipts, state) ← readSealed settings disk place split 1000000000 [] {}
  pure { place, split, sealedReceipts, state }

namespace SplitChunks

def pendingBytes (chunks : SplitChunks) : Nat :=
  match chunks.streams with
  | none => 0
  | some written =>
    (settings.arrays.map fun array => (written array).length * settings.itemsize array).sum

def recordBytes (split : Split) : Record → Except String Nat
  | none => .ok 0
  | some values =>
    if (values .ids).length = 0 ∨
        settings.arrays.any fun array => (values array).length ≠ (values .ids).length then
      .error "chunk record sidecar lengths must match nonempty ids"
    else
      let additional :=
        (settings.arrays.map fun array => (values array).length * settings.itemsize array).sum
      if additional > settings.rawByteLimit then
        .error s!"{String.ofList split.chars} encoded document exceeds chunk raw-byte cap"
      else
        .ok additional

/-- What `seal` writes in the receipt of the pending records. -/
def receipt (chunks : SplitChunks) (written : ArrayName → List Int) : Receipt where
  split := chunks.split
  index := chunks.sealedReceipts.length
  firstAcquiredIndex := chunks.state.acquiredDocuments + 1
  counters := chunks.pending
  arrays := settings.arrays.map fun array => (array, {
    length := (written array).length * settings.itemsize array
    sha256 := settings.sha256 (.raw array (written array)) })

def sealRaw (chunks : SplitChunks) (written : ArrayName → List Int) : Actions :=
  settings.arrays.flatMap fun array => [
    .write (chunks.chunkPath chunks.sealedReceipts.length (.rawTmp array))
      (.raw array (written array)),
    .rename (chunks.chunkPath chunks.sealedReceipts.length (.rawTmp array))
      (chunks.chunkPath chunks.sealedReceipts.length (.raw array))]

def storeReceipt (chunks : SplitChunks) (payload : Receipt) : Actions :=
  storeDocument chunks.place (.chunk chunks.split chunks.sealedReceipts.length .receiptTmp)
    (.chunk chunks.split chunks.sealedReceipts.length .receipt) (.receipt payload)

def sealedWith (chunks : SplitChunks) (payload : Receipt) : SplitChunks :=
  { place := chunks.place
    split := chunks.split
    sealedReceipts := chunks.sealedReceipts ++ [payload]
    state := chunks.state.add payload.counters }

/-- `seal`: flush and rename the raw files, then commit the chunk by its receipt. -/
def sealChunk (chunks : SplitChunks) : Except String (Actions × SplitChunks) :=
  if chunks.pending.acquiredDocuments = 0 then
    .ok ([], chunks)
  else do
    let written := chunks.streams.getD fun _ => []
    let payload := chunks.receipt settings written
    validateReceipt settings chunks.split chunks.sealedReceipts.length payload
    pure (chunks.sealRaw settings written ++ chunks.storeReceipt payload,
      chunks.sealedWith payload)

def countRecord (pending : Counters) : Record → Counters
  | none => { pending with
      acquiredDocuments := pending.acquiredDocuments + 1
      skippedDocuments := pending.skippedDocuments + 1 }
  | some values => { pending with
      acquiredDocuments := pending.acquiredDocuments + 1
      retainedDocuments := pending.retainedDocuments + 1
      outputTokens := pending.outputTokens + (values .ids).length }

def writeRecord (streams : Option (ArrayName → List Int)) (record : Record) :
    ArrayName → List Int :=
  fun array => (streams.getD fun _ => []) array ++ (record.elim [] fun values => values array)

def openStreams (chunks : SplitChunks) : Actions :=
  match chunks.streams with
  | some _ => []
  | none => settings.arrays.map fun array =>
    .write (chunks.chunkPath chunks.sealedReceipts.length (.rawTmp array)) .torn

def full (chunks : SplitChunks) (additional : Nat) : Prop :=
  chunks.pending.acquiredDocuments ≠ 0 ∧
    (chunks.pending.acquiredDocuments = settings.recordLimit ∨
      chunks.pendingBytes settings + additional > settings.rawByteLimit)

instance (chunks : SplitChunks) (additional : Nat) : Decidable (chunks.full settings additional) :=
  inferInstanceAs (Decidable (_ ∧ _))

def appendRecord (chunks : SplitChunks) (acquiredIndex : Nat) (record : Record) :
    Except String (Actions × SplitChunks) :=
  if acquiredIndex ≠ chunks.state.acquiredDocuments + chunks.pending.acquiredDocuments + 1 then
    .error "noncontiguous acquired record"
  else do
    let additional ← recordBytes settings chunks.split record
    let (sealActions, chunks) ←
      if chunks.full settings additional then chunks.sealChunk settings else .ok ([], chunks)
    pure (sealActions ++ chunks.openStreams settings, { chunks with
      pending := countRecord chunks.pending record
      streams := some (writeRecord chunks.streams record) })

def appendAll (chunks : SplitChunks) : List Record → Except String (Actions × SplitChunks)
  | [] => .ok ([], chunks)
  | record :: records => do
      let (first, chunks) ← chunks.appendRecord settings
        (chunks.state.acquiredDocuments + chunks.pending.acquiredDocuments + 1) record
      let (rest, chunks) ← chunks.appendAll records
      pure (first ++ rest, chunks)

def writeWork (disk : Disk) (split : Split) (sequence : Nat) (batch : List Record) :
    Except String (Actions × SplitChunks) :=
  if occupied disk (.work split sequence) then
    .error "preparation work already exists"
  else do
    let created := createDirectory (.work split sequence) (.work settings.owner split sequence)
    let work : SplitChunks := { place := .work split sequence, split }
    let (appended, work) ← work.appendAll settings batch
    let (sealActions, work) ← work.sealChunk settings
    pure (created ++ appended ++ sealActions, work)

def adoptRaw (chunks work : SplitChunks) (disk : Disk) (sourceIndex : Nat) :
    Except String Actions :=
  if settings.arrays.any fun array =>
      (disk.read (chunks.chunkPath chunks.sealedReceipts.length (.raw array))).isSome then
    .error "worker adoption destination already exists"
  else
    .ok (settings.arrays.map fun array =>
      .rename (work.chunkPath sourceIndex (.raw array))
        (chunks.chunkPath chunks.sealedReceipts.length (.raw array)))

def adoptedReceipt (chunks : SplitChunks) (firstAcquiredIndex : Nat) (payload : Receipt) : Receipt :=
  { payload with
    index := chunks.sealedReceipts.length
    firstAcquiredIndex := firstAcquiredIndex + payload.firstAcquiredIndex - 1 }

/-- The loop of `adopt` over the worker's sealed chunks. -/
def adoptChunks (work : SplitChunks) (firstAcquiredIndex : Nat) (disk : Disk)
    (chunks : SplitChunks) : (sourceIndex : Nat) → List Receipt →
    Except String (Actions × SplitChunks)
  | _, [] => .ok ([], chunks)
  | sourceIndex, payload :: rest => do
      let found ← readReceipt disk work.place work.split sourceIndex
      if found ≠ payload then
        .error "worker receipt changed before adoption"
      else
        let committed := chunks.adoptedReceipt firstAcquiredIndex payload
        validateReceipt settings chunks.split chunks.sealedReceipts.length committed
        if committed.firstAcquiredIndex ≠ chunks.state.acquiredDocuments + 1 then
          .error "worker chunk source frontier is not contiguous"
        else
          let renamed ← chunks.adoptRaw settings work disk sourceIndex
          let actions := renamed ++ chunks.storeReceipt committed
          let (later, chunks) ← adoptChunks work firstAcquiredIndex (disk.performAll actions)
            (chunks.sealedWith committed) (sourceIndex + 1) rest
          pure (actions ++ later, chunks)

def adoptable (disk : Disk) (chunks work : SplitChunks) (firstAcquiredIndex : Nat) :
    Except String Bool :=
  match work.place with
  | .root => .ok false
  | .work split sequence => do
      let marker ← readOwner disk work.place
      pure (chunks.pending.acquiredDocuments = 0 ∧ work.pending.acquiredDocuments = 0 ∧
        work.split = chunks.split ∧ split = chunks.split ∧
        marker = (.work settings.owner split sequence, none) ∧
        firstAcquiredIndex = chunks.state.acquiredDocuments + 1)

def adopt (disk : Disk) (chunks work : SplitChunks) (firstAcquiredIndex : Nat) :
    Except String (Actions × SplitChunks) := do
  let accepted ← adoptable settings disk chunks work firstAcquiredIndex
  if accepted then
    let (adopted, chunks) ← adoptChunks settings work firstAcquiredIndex disk chunks 0
      work.sealedReceipts
    let discarded ← discardWork settings (disk.performAll adopted) work.place
    pure (adopted ++ discarded, chunks)
  else
    .error "worker chunks do not extend the committed source frontier"

def readRaw (chunks : SplitChunks) (disk : Disk) (array : ArrayName) (index : Nat)
    (receipt : Receipt) : Except String (List Int) :=
  match disk.read (chunks.chunkPath index (.raw array)) with
  | some (.raw _ values) =>
    if (receipt.arrays.lookup array).map RawMetadata.length ≠
        some (values.length * settings.itemsize array) then
      .error "sealed staging chunk changed during finalization"
    else
      .ok values
  | _ => .error "sealed staging chunk changed before finalization"

def readArray (chunks : SplitChunks) (disk : Disk) (array : ArrayName) :
    (index : Nat) → List Receipt → Except String (List Int)
  | _, [] => .ok []
  | index, receipt :: rest => do
      let values ← chunks.readRaw settings disk array index receipt
      let later ← chunks.readArray disk array (index + 1) rest
      pure (values ++ later)

def storeArray (chunks : SplitChunks) (array : ArrayName) (values : List Int) : Actions :=
  [.unlink (.entry chunks.place (.final chunks.split array)),
    .unlink (.entry chunks.place (.finalTmp chunks.split array))] ++
  storeDocument chunks.place (.finalTmp chunks.split array) (.final chunks.split array)
    (.array array values)

structure Finished where
  arrays : List (ArrayName × List Int)
  stats : Counters
  deriving DecidableEq

/-- `finish`: seal, then write each final array from the sealed raw files. -/
def finish (chunks : SplitChunks) (disk : Disk) :
    Except String (Actions × SplitChunks × Finished) := do
  let (sealActions, chunks) ← chunks.sealChunk settings
  let arrays ← settings.arrays.mapM fun array => do
    let values ← chunks.readArray settings (disk.performAll sealActions) array 0
      chunks.sealedReceipts
    pure (array, values)
  pure (sealActions ++ arrays.flatMap (fun (array, values) => chunks.storeArray array values),
    chunks, { arrays, stats := chunks.state })

end SplitChunks

end SparseLab.Data
