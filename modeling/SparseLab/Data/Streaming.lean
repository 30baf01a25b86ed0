import SparseLab.Data.StagingSessions

/-!
Streaming collection of whole documents, from `_collect_streaming` in `data/packing.py`. Telemetry
and the resource envelope are left out.
-/

namespace SparseLab.Data

open Library

inductive Source
  | finished
  | failed (reason : String)
  | document (text : String) (rest : Source)

section

def visibleBytes : List Nat :=
  List.range' 33 94 ++ List.range' 161 12 ++ List.range' 174 82

def extraBytes : List Nat :=
  (List.range 256).filter (· ∉ visibleBytes)

/-- `_BYTE_LEVEL_BYTES`: the code point that stands for each byte. -/
def byteLevelBytes : List (Nat × Nat) :=
  (visibleBytes ++ List.range' 256 extraBytes.length).zip (visibleBytes ++ extraBytes)

def tokenBytes (idToToken : Int → Option String) (tokenId : Int) : Except String (List UInt8) :=
  match idToToken tokenId with
  | none => .error "tokenizer has no token for ID"
  | some token => token.toList.mapM fun character =>
    match byteLevelBytes.lookup character.toNat with
    | some byte => .ok (UInt8.ofNat byte)
    | none => .error "raw byte addresses require a ByteLevel tokenizer"

def hashBytes (value : List UInt8) : Nat :=
  value.foldl (fun result byte => result * 257 + byte.toNat + 1) 0 * 257

def mixModulus : Nat := 2 ^ 31 - 1

def mixMultiplier : Nat := 1103515245

def mixedByteAddress (value : List UInt8) (tableSize : Nat) : Nat :=
  value.foldl (fun address byte => (address * mixMultiplier + byte.toNat + 1) % mixModulus) 1 *
    mixMultiplier % mixModulus % tableSize

def tableAddress (value : List UInt8) (tableSize : Nat) : Except String Int :=
  if tableSize = 0 then
    .error "table_size must be positive"
  else if Nat.gcd 257 tableSize ≠ 1 then
    .ok (mixedByteAddress value tableSize)
  else
    .ok (hashBytes value % tableSize : Nat)

/-- The last bytes of what is read so far; Python's `[-0:]` is everything. -/
def lastBytes (count : Nat) (bytes : List UInt8) : List UInt8 :=
  if count = 0 then bytes else bytes.drop (bytes.length - count)

def addresses (tableSize ngramSize : Nat) :
    List UInt8 → List (List UInt8) → Except String (List Int)
  | _, [] => .ok [0]
  | seen, piece :: pieces => do
      let address ← tableAddress (lastBytes ngramSize (seen ++ piece)) tableSize
      let rest ← addresses tableSize ngramSize (seen ++ piece) pieces
      pure (address :: rest)

end

structure Preparation where
  settings : Settings
  encode : String → List Int
  idToToken : Int → Option String
  eos : Option Int
  byteTable : Option (Nat × Nat)
  byteTokenBound : Bool
  source : Split → Source
  selectedDocuments : Split → Nat
  maxTokens : Split → Nat
  batchSourceBytes : Nat
  arrays : settings.arrays = if byteTable.isSome then [.ids, .byteAddresses] else [.ids]
  batchSourceBytesBounds : 1 ≤ batchSourceBytes ∧ batchSourceBytes ≤ 8388608

structure Ledger where
  session : Session
  log : List Operation := []

def Ledger.perform (settings : Settings) (ledger : Ledger) (operation : Operation) :
    Except String Ledger := do
  let (_, session) ← ledger.session.perform settings operation
  pure { session, log := ledger.log ++ [operation] }

/-- `finish` of a split, with the arrays and counters that it returns. -/
def Ledger.finish (settings : Settings) (ledger : Ledger) (split : Split) :
    Except String (Ledger × SplitChunks.Finished) := do
  let (_, _, finished) ← (ledger.session.ledgers split).finish settings ledger.session.disk
  let ledger ← ledger.perform settings (.finish split)
  pure (ledger, finished)

structure Sink (σ : Type) where
  chunked : Bool
  append : σ → Nat → Record → Except String σ
  finish : σ → Counters → Except String (σ × SplitChunks.Finished)

structure Collecting (σ : Type) where
  store : σ
  stats : Counters
  pending : List (String × Nat) := []
  pendingBytes : Nat := 0
  pendingUpper : Nat := 0

namespace Preparation

variable (preparation : Preparation)

def encodedTokenBytes (ids : List Int) (document : String) :
    Except String (List (List UInt8)) := do
  let pieces ← ids.mapM (tokenBytes preparation.idToToken)
  if pieces.flatten ≠ document.toUTF8.toList then
    .error "tokenizer token bytes do not reconstruct the source document"
  else
    pure pieces

def streamingValues (eos : Int) (encodedIds : List Int) (text : String) :
    Except String (ArrayName → List Int) :=
  match preparation.byteTable with
  | none => .ok fun
      | .ids => encodedIds ++ [eos]
      | .byteAddresses | .supervision => []
  | some (tableSize, ngramSize) => do
      let pieces ← preparation.encodedTokenBytes encodedIds text
      let found ← addresses tableSize ngramSize [] pieces
      pure fun
        | .ids => encodedIds ++ [eos]
        | .byteAddresses => found
        | .supervision => []

def skipRecovered : Nat → Source → Except String Source
  | 0, source => .ok source
  | count + 1, .document _ rest => skipRecovered count rest
  | _ + 1, .finished => .error "source ended before recovered record"
  | _ + 1, .failed reason => .error reason

def spools : Sink (ArrayName → List Int) where
  chunked := false
  append arrays _ record := .ok (SplitChunks.writeRecord (some arrays) record)
  finish arrays stats :=
    .ok (arrays, { arrays := preparation.settings.arrays.map fun array => (array, arrays array), stats })

def chunks (split : Split) : Sink Ledger where
  chunked := true
  append ledger index record := ledger.perform preparation.settings (.append split index record)
  finish ledger _ := ledger.finish preparation.settings split

section

variable {σ : Type} (sink : Sink σ) (split : Split) (eos : Int) (batchDocuments : Nat)

/-- The loop of `flush` over the encoded documents. -/
def flushEach (state : Collecting σ) :
    List ((String × Nat) × List Int) → Except (String × σ) (Collecting σ)
  | [] => .ok { store := state.store, stats := state.stats }
  | ((text, acquiredIndex), encodedIds) :: rest => do
      let values ← (preparation.streamingValues eos encodedIds text).mapError (·, state.store)
      if state.stats.outputTokens + (values .ids).length > preparation.maxTokens split then
        .error ("token cap would truncate selected story", state.store)
      else
        let store ← (sink.append state.store acquiredIndex (some values)).mapError
          (·, state.store)
        flushEach { state with
          store
          stats := { state.stats with
            retainedDocuments := state.stats.retainedDocuments + 1
            outputTokens := state.stats.outputTokens + (values .ids).length } } rest

def flush (state : Collecting σ) : Except (String × σ) (Collecting σ) :=
  if state.pending = [] then
    .ok state
  else
    preparation.flushEach sink split eos state
      (state.pending.zip ((state.pending.map Prod.fst).map preparation.encode))

def flushWhen (condition : Prop) [Decidable condition] (state : Collecting σ) :
    Except (String × σ) (Collecting σ) :=
  if condition then preparation.flush sink split eos state else .ok state

def flushBeforeReading (state : Collecting σ) : Except (String × σ) (Collecting σ) :=
  preparation.flushWhen sink split eos
    (state.pending ≠ [] ∧ (preparation.byteTokenBound = false ∨
      state.stats.outputTokens + state.pendingUpper ≥ preparation.maxTokens split)) state

def countSkipped (state : Collecting σ) : Collecting σ :=
  { state with
    stats := { state.stats with skippedDocuments := state.stats.skippedDocuments + 1 } }

def skipEmpty (state : Collecting σ) : Except (String × σ) (Collecting σ) :=
  if sink.chunked then do
    let state ← preparation.flush sink split eos state
    let store ← (sink.append state.store state.stats.acquiredDocuments none).mapError
      (·, state.store)
    pure (countSkipped { state with store })
  else
    .ok (countSkipped state)

def push (state : Collecting σ) (text : String) : Collecting σ :=
  { state with
    pending := state.pending ++ [(text, state.stats.acquiredDocuments)]
    pendingBytes := state.pendingBytes + text.utf8ByteSize
    pendingUpper := state.pendingUpper + text.utf8ByteSize + 1 }

def countAcquired (state : Collecting σ) : Collecting σ :=
  { state with
    stats := { state.stats with acquiredDocuments := state.stats.acquiredDocuments + 1 } }

def acquire (state : Collecting σ) (text : String) : Except (String × σ) (Collecting σ) :=
  if text = "" then
    preparation.skipEmpty sink split eos state
  else if text.utf8ByteSize > preparation.batchSourceBytes then
    .error ("source document exceeds tokenizer_batch_source_bytes", state.store)
  else do
    let state ← preparation.flushWhen sink split eos
      (state.pending ≠ [] ∧ (state.pending.length = batchDocuments ∨
        state.pendingBytes + text.utf8ByteSize > preparation.batchSourceBytes ∨
        state.stats.outputTokens + state.pendingUpper + text.utf8ByteSize + 1 >
          preparation.maxTokens split)) state
    let state := push state text
    preparation.flushWhen sink split eos
      (state.pending.length = batchDocuments ∨
        state.pendingBytes = preparation.batchSourceBytes ∨
        state.stats.outputTokens + state.pendingUpper ≥ preparation.maxTokens split) state

def conclude (state : Collecting σ) : Except (String × σ) (σ × SplitChunks.Finished) := do
  let state ← preparation.flush sink split eos state
  if state.stats.retainedDocuments ≠ preparation.selectedDocuments split then
    .error ("snapshot has fewer selected distinct stories than required", state.store)
  else
    (sink.finish state.store state.stats).mapError (·, state.store)

def collectFrom (state : Collecting σ) (source : Source) :
    Except (String × σ) (σ × SplitChunks.Finished) :=
  if state.stats.retainedDocuments + state.pending.length < preparation.selectedDocuments split then
    do
      let state ← preparation.flushBeforeReading sink split eos state
      match source with
      | .finished => preparation.conclude sink split eos state
      | .failed reason => .error (reason, state.store)
      | .document text rest =>
        let state ← preparation.acquire sink split eos batchDocuments (countAcquired state) text
        collectFrom state rest
  else
    preparation.conclude sink split eos state

end

/-- `_collect_streaming` into array spools. -/
def collectSpooled (split : Split) (batchDocuments : Nat) :
    Except String SplitChunks.Finished :=
  match preparation.eos with
  | none => .error "tokenizer has no <eos> special token"
  | some eos =>
    ((preparation.collectFrom preparation.spools split eos batchDocuments
      { store := fun _ => [], stats := {} } (preparation.source split)).mapError Prod.fst).map
        Prod.snd

/-- `_collect_streaming` through a ledger, from its committed records on. -/
def collectStreaming (split : Split) (batchDocuments : Nat) (ledger : Ledger) :
    Except (String × Ledger) (Ledger × SplitChunks.Finished) :=
  match preparation.eos with
  | none => .error ("tokenizer has no <eos> special token", ledger)
  | some eos => do
      let stats := (ledger.session.ledgers split).state
      let source ← (skipRecovered stats.acquiredDocuments (preparation.source split)).mapError
        (·, ledger)
      preparation.collectFrom (preparation.chunks split) split eos batchDocuments
        { store := ledger, stats } source

end Preparation

end SparseLab.Data
