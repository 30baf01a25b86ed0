import SparseLab.Data.Streaming

/-!
Parallel collection, from `data/preparation_workers.py`. A worker's whole batch is one operation in
a directory of its own.
-/

namespace SparseLab.Data

open Library

/-- A batch that was given to a worker: `future, slot, upper, first` of the queue. -/
structure Item where
  sequence : Nat
  slot : Nat
  upper : Nat
  first : Nat
  batch : List String

structure Workers where
  count : Nat
  countPos : 0 < count
  order : Nat → List Nat

structure Coordinator where
  ledger : Ledger
  acquired : Nat
  selected : Nat
  pending : List Item := []
  free : List Nat
  batch : List String := []
  batchBytes : Nat := 0
  batchUpper : Nat := 0
  reserved : Nat := 0
  sequence : Nat := 0
  failed : List Nat := []
  cancelled : Bool := false
  looks : Nat := 0

namespace Preparation

variable (preparation : Preparation) (split : Split) (eos : Int) (batchDocuments : Nat)

section

/-- The loop of `encode_pending`; empty texts are not encoded. -/
def pairEncodings : List String → List (List Int) → Except String (List Record)
  | [], _ => .ok []
  | text :: texts, encodings =>
    if text = "" then do
      let records ← pairEncodings texts encodings
      pure (none :: records)
    else
      match encodings with
      | [] => .error "preparation tokenizer child returned incorrect batch length"
      | encodedIds :: encodings => do
          let values ← preparation.streamingValues eos encodedIds text
          let records ← pairEncodings texts encodings
          pure (some values :: records)

def encodePending (pending : List String) : Except String (List Record) :=
  preparation.pairEncodings eos pending ((pending.filter (· ≠ "")).map preparation.encode)

/-- The records that `write_work` appends, encoder batch by encoder batch. -/
def workRecords (pending : List String) (pendingBytes : Nat) :
    List String → Except String (List Record)
  | [] => preparation.encodePending eos pending
  | text :: rest =>
    if pending ≠ [] ∧ (pending.length = batchDocuments ∨
        pendingBytes + text.utf8ByteSize > preparation.batchSourceBytes) then do
      let records ← preparation.encodePending eos pending
      let later ← workRecords [text] text.utf8ByteSize rest
      pure (records ++ later)
    else
      workRecords (pending ++ [text]) (pendingBytes + text.utf8ByteSize) rest

def writeItem (ledger : Ledger) (item : Item) : Except String Ledger := do
  let records ← preparation.workRecords eos batchDocuments [] 0 item.batch
  ledger.perform preparation.settings (.work split item.sequence records)

end

section

def workSourceBytes : Nat :=
  min 8388608 (max preparation.batchSourceBytes (preparation.settings.rawByteLimit /
    (preparation.settings.arrays.map preparation.settings.itemsize).sum))

def outputTokens (coordinator : Coordinator) : Nat :=
  (coordinator.ledger.session.ledgers split).state.outputTokens

def complete (coordinator : Coordinator) (item : Item) : Coordinator :=
  if (coordinator.ledger.session.works split item.sequence).isSome ∨
      item.sequence ∈ coordinator.failed then
    coordinator
  else
    match preparation.writeItem split eos batchDocuments coordinator.ledger item with
    | .ok ledger => { coordinator with ledger }
    | .error _ => { coordinator with
        failed := item.sequence :: coordinator.failed
        cancelled := true }

def settle (workers : Workers) (coordinator : Coordinator) : Coordinator :=
  (workers.order coordinator.looks).foldl (fun coordinator sequence =>
      match coordinator.pending.find? (·.sequence = sequence) with
      | some item => preparation.complete split eos batchDocuments coordinator item
      | none => coordinator)
    { coordinator with looks := coordinator.looks + 1 }

variable (workers : Workers)

def drain (coordinator : Coordinator) : Except (String × Ledger) Coordinator :=
  let coordinator := preparation.settle split eos batchDocuments workers coordinator
  match coordinator.pending with
  | [] => .error ("pop from an empty deque", coordinator.ledger)
  | item :: rest =>
    let coordinator := if coordinator.cancelled then coordinator else
      preparation.complete split eos batchDocuments coordinator item
    match coordinator.ledger.session.works split item.sequence with
    | none => .error ("preparation workers cancelled", coordinator.ledger)
    | some work =>
      if work.state.outputTokens > item.upper then
        .error ("tokenizer violated the UTF-8 output reservation", coordinator.ledger)
      else if outputTokens split coordinator + work.state.outputTokens >
          preparation.maxTokens split then
        .error ("token cap would truncate selected story", coordinator.ledger)
      else do
        let ledger ← (coordinator.ledger.perform preparation.settings
          (.adopt split item.sequence item.first)).mapError (·, coordinator.ledger)
        pure { coordinator with
          ledger
          pending := rest
          reserved := coordinator.reserved - item.upper
          free := coordinator.free ++ [item.slot] }

/-- `while pending and condition: drain()`, at most as often as there are batches. -/
def drainWhile (condition : Coordinator → Bool) :
    Nat → Coordinator → Except (String × Ledger) Coordinator
  | 0, coordinator => .ok coordinator
  | count + 1, coordinator =>
    if coordinator.pending ≠ [] ∧ condition coordinator then do
      let coordinator ← preparation.drain split eos batchDocuments workers coordinator
      drainWhile condition count coordinator
    else
      .ok coordinator

def assign (coordinator : Coordinator) : Except (String × Ledger) Coordinator :=
  match coordinator.free with
  | [] => .error ("pop from an empty deque", coordinator.ledger)
  | slot :: free => .ok { coordinator with
      free
      pending := coordinator.pending ++ [{
        sequence := coordinator.sequence
        slot
        upper := coordinator.batchUpper
        first := coordinator.acquired - coordinator.batch.length + 1
        batch := coordinator.batch }]
      reserved := coordinator.reserved + coordinator.batchUpper
      sequence := coordinator.sequence + 1
      batch := []
      batchBytes := 0
      batchUpper := 0 }

def submit (coordinator : Coordinator) : Except (String × Ledger) Coordinator :=
  if coordinator.batch = [] then
    .ok coordinator
  else if coordinator.free = [] then do
    let coordinator ← preparation.drain split eos batchDocuments workers coordinator
    assign coordinator
  else
    assign coordinator

def submitWhen (condition : Prop) [Decidable condition] (coordinator : Coordinator) :
    Except (String × Ledger) Coordinator :=
  if condition then
    preparation.submit split eos batchDocuments workers coordinator
  else
    .ok coordinator

def upperTokens (text : String) : Nat :=
  if text = "" then 0 else text.utf8ByteSize + 1

def exceeding (upper : Nat) (coordinator : Coordinator) : Bool :=
  outputTokens split coordinator + coordinator.reserved + coordinator.batchUpper + upper >
    preparation.maxTokens split

def extend (coordinator : Coordinator) (text : String) : Coordinator :=
  { coordinator with
    acquired := coordinator.acquired + 1
    selected := coordinator.selected + if text = "" then 0 else 1
    batch := coordinator.batch ++ [text]
    batchBytes := coordinator.batchBytes + text.utf8ByteSize
    batchUpper := coordinator.batchUpper + upperTokens text }

def submitFull (coordinator : Coordinator) : Except (String × Ledger) Coordinator :=
  if coordinator.batch.length = preparation.settings.recordLimit ∨
      coordinator.batchBytes = preparation.workSourceBytes ∨
      outputTokens split coordinator + coordinator.reserved + coordinator.batchUpper ≥
        preparation.maxTokens split then do
    let coordinator ← preparation.submit split eos batchDocuments workers coordinator
    if outputTokens split coordinator + coordinator.reserved ≥ preparation.maxTokens split then
      preparation.drainWhile split eos batchDocuments workers (fun _ => true)
        coordinator.pending.length coordinator
    else
      .ok coordinator
  else
    .ok coordinator

def admitParallel (coordinator : Coordinator) (text : String) :
    Except (String × Ledger) Coordinator :=
  if text.utf8ByteSize > preparation.batchSourceBytes then
    .error ("source document exceeds tokenizer_batch_source_bytes", coordinator.ledger)
  else do
    let coordinator ← preparation.submitWhen split eos batchDocuments workers
      (coordinator.batch ≠ [] ∧
        (coordinator.batch.length = preparation.settings.recordLimit ∨
          coordinator.batchBytes + text.utf8ByteSize > preparation.workSourceBytes ∨
          preparation.exceeding split (upperTokens text) coordinator)) coordinator
    let coordinator ← preparation.drainWhile split eos batchDocuments workers
      (preparation.exceeding split (upperTokens text)) coordinator.pending.length coordinator
    preparation.submitFull split eos batchDocuments workers (extend coordinator text)

def concludeParallel (coordinator : Coordinator) :
    Except (String × Ledger) (Ledger × SplitChunks.Finished) := do
  let coordinator ← preparation.submit split eos batchDocuments workers coordinator
  let coordinator ← preparation.drainWhile split eos batchDocuments workers (fun _ => true)
    coordinator.pending.length coordinator
  if (coordinator.ledger.session.ledgers split).state.retainedDocuments ≠
      preparation.selectedDocuments split then
    .error ("source has fewer selected distinct stories than required", coordinator.ledger)
  else
    (coordinator.ledger.finish preparation.settings split).mapError (·, coordinator.ledger)

def collectParallelFrom (coordinator : Coordinator) (source : Source) :
    Except (String × Ledger) (Ledger × SplitChunks.Finished) :=
  if coordinator.selected < preparation.selectedDocuments split then
    let coordinator := preparation.settle split eos batchDocuments workers coordinator
    if coordinator.cancelled then
      .error ("preparation workers cancelled", coordinator.ledger)
    else
      match source with
      | .finished => preparation.concludeParallel split eos batchDocuments workers coordinator
      | .failed reason => .error (reason, coordinator.ledger)
      | .document text rest => do
          let coordinator ← preparation.admitParallel split eos batchDocuments workers
            coordinator text
          collectParallelFrom coordinator rest
  else
    preparation.concludeParallel split eos batchDocuments workers coordinator

end

/-- `collect_parallel_stream`, from the ledger's committed records on. -/
def collectParallelStream (workers : Workers) (ledger : Ledger) :
    Except (String × Ledger) (Ledger × SplitChunks.Finished) :=
  match preparation.eos with
  | none => .error ("tokenizer has no <eos> special token", ledger)
  | some eos => do
      let state := (ledger.session.ledgers split).state
      let source ← (skipRecovered state.acquiredDocuments (preparation.source split)).mapError
        (·, ledger)
      preparation.collectParallelFrom split eos batchDocuments workers
        { ledger
          acquired := state.acquiredDocuments
          selected := state.retainedDocuments
          free := List.range workers.count } source

end Preparation

structure Shape where
  batchDocuments : Nat
  workers : Option Workers
  batchDocumentsBounds : 1 ≤ batchDocuments ∧ batchDocuments ≤ 256

namespace Preparation

variable (preparation : Preparation)

def collectSplit (shape : Shape) (split : Split) (ledger : Ledger) :
    Except (String × Ledger) (Ledger × SplitChunks.Finished) :=
  match shape.workers with
  | none => preparation.collectStreaming split shape.batchDocuments ledger
  | some workers => preparation.collectParallelStream split shape.batchDocuments workers ledger

def collectSplits (shape : Shape) (ledger : Ledger) :
    Except (String × Ledger) (Ledger × (Split → SplitChunks.Finished)) := do
  let (ledger, train) ← preparation.collectSplit shape .train ledger
  let (ledger, validation) ← preparation.collectSplit shape .validation ledger
  pure (ledger, fun
    | .train => train
    | .validation => validation)

def resume (shape : Shape) (disk : Disk) : Except String (Split → SplitChunks.Finished) := do
  let (_, session) ← Session.openAt preparation.settings disk
  let (_, results) ← (preparation.collectSplits shape { session }).mapError Prod.fst
  pure results

def operations {α : Type} : Except (String × Ledger) (Ledger × α) → List Operation
  | .ok (ledger, _) | .error (_, ledger) => ledger.log

def scratch : Operation → Bool
  | .work .. | .abandon .. => true
  | _ => false

/-- What processes that collect leave when they are stopped at any file action, whether they
collected serially or in parallel; their workers may have written any part of their batches. -/
inductive Interrupted : Disk → Prop
  | absent : Interrupted ∅
  | opening {disk actions} (cut : Nat) : Interrupted disk →
      construct preparation.settings disk = .ok actions →
      Interrupted (disk.performAll (actions.take cut))
  | collecting {disk opening session reached operation actions after} (shape : Shape)
      (count : Nat) (works : List Operation) (cut : Nat) : Interrupted disk →
      Session.openAt preparation.settings disk = .ok (opening, session) →
      (∀ work ∈ works, scratch work = true) →
      session.performEach preparation.settings
        ((operations (preparation.collectSplits shape { session })).take count ++ works) =
          .ok reached →
      (operations (preparation.collectSplits shape { session }))[count]? = some operation ∨
        scratch operation = true →
      reached.perform preparation.settings operation = .ok (actions, after) →
      Interrupted (reached.disk.performAll (actions.take cut))

end Preparation

end SparseLab.Data
