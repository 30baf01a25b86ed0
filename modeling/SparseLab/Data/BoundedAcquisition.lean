import Mathlib.Algebra.GroupWithZero.Nat
import SparseLab.Corpus.TransportBudget
import SparseLab.Library.Routines
import SparseLab.Library.Utf8
import SparseLab.Library.Volumes

/-!
Bounded acquisition of pinned files, from `data/bounded_acquisition.py`. Symbolic links and timers
are left out.
-/

namespace SparseLab.Data.Acquisition

open Library Corpus

abbrev Bytes := List UInt8

inductive Reason | allowance | deadline | cancelled | answer | content | terminal | hits | foreign
deriving DecidableEq

inductive Failure
  | died
  | value (reason : Reason) (message : String)
  | os (reason : Reason) (message : String)
  | interrupted (reason : Reason) (message : String)
deriving DecidableEq

inductive Site
  | createOwner | writeOwner | syncCache | createLedger | createTable | insertRow | connect | commit
  | look | unlink | request | read | createPartial | writePartial | syncPartial | rename
deriving DecidableEq

structure Row where
  path : Text
  size : Nat
  lfsSha256 : Option Text
  blobId : Text
  nonempty : 0 < size
deriving DecidableEq

/-- `hexdigest` of both algorithms, and `canonical_digest` of a row. -/
structure Hashes where
  sha256 : Bytes → Text
  sha1 : Bytes → Text
  digest : Row → HexDigest

structure Admission (Stamp : Type) where
  policy : TransportPolicy Stamp
  maxRequests : Int
  maxScannedRows : Int
  maxVerificationBytes : Int
  maxCacheBytes : Int
  maxCacheFiles : Int
  maxObservedOwnedBytes : Int
  maxObservedOwnedInodes : Int
  repoId : Text
  noTotal : policy.totalBodyLimit = none
  noInitial : policy.initialBodyLimit = none
  derived : policy.corpusLedger = false
  unbounded : policy.boundedStorage = false
  positive : 0 < maxRequests ∧ 0 < maxScannedRows ∧ 0 < maxVerificationBytes

structure AcquisitionLedger (Stamp : Type) where
  transport : TransportLedger Stamp
  requests : Int := 0
  scannedRows : Int := 0
  scannedRowsObserved : Int := 0
  verificationBytes : Int := 0
  cacheHits : Int := 0
  peakOwnedBytes : Int := 0
  peakOwnedInodes : Int := 0
deriving DecidableEq

inductive LedgerFile (Stamp : Type)
  | absent
  | empty
  | bare
  | row (state : AcquisitionLedger Stamp)
deriving DecidableEq

inductive Kind | bin | unfinished
deriving DecidableEq

structure Member where
  key : HexDigest
  kind : Kind
deriving DecidableEq

structure World (Stamp : Type) where
  root : Bool := false
  owner : Option Text := none
  ledger : LedgerFile Stamp := .absent
  members : Volume Member Bytes := ∅
  journal : Bool := false
  tick : Nat := 0

/-- `_response_length` -/
inductive ContentLength
  | absent
  | invalid
  | bytes (count : Nat)
deriving DecidableEq

inductive Destination | insecure | foreign | admitted
deriving DecidableEq

structure Reply where
  identity : Bool
  status : Nat
  transferEncoding : Bool
  length : ContentLength
  body : List Bytes
  broken : Bool
  location : Option Destination

/-- `HTTPError` has a response as well. -/
inductive Answer
  | unreachable
  | failed (reply : Reply)
  | replied (reply : Reply)

structure Environment (Stamp : Type) [LinearOrder Stamp] where
  dies : Site → Nat → Bool
  clock : Nat → Stamp
  forward : ∀ earlier later, earlier ≤ later → clock earlier ≤ clock later
  owned : Nat → Nat × Nat
  ownedBounds : ∀ tick, (owned tick).1 < 2 ^ 63 ∧ (owned tick).2 < 2 ^ 63
  cancelled : Nat → Bool
  answer : Nat → Answer

section
variable {Stamp : Type} [LinearOrder Stamp]

abbrev M (Stamp : Type) := EStateM Failure (World Stamp)

abbrev LedgerUpdate (Stamp : Type) := EStateM TransportFailure (AcquisitionLedger Stamp)

def inherited {α : Type} (update : TransportLedger.TransportTransaction Stamp α) :
    LedgerUpdate Stamp α := fun state =>
  match update state.transport with
  | .ok value transport => .ok value { state with transport }
  | .error failure transport => .error failure { state with transport }

def allowances : List String :=
  ["transport budget shard retry allowance exhausted",
    "transport budget transfer count exhausted",
    "transport budget source body allowance exhausted",
    "transport budget metadata body allowance exhausted",
    "acquisition allowance exhausted: requests",
    "acquisition allowance exhausted: verification_bytes"]

def reasonOf (message : String) : Reason :=
  if message ∈ allowances then .allowance
  else if message = "transport budget deadline exceeded" then .deadline
  else if message = "transport budget shard is already complete or terminal" then .terminal
  else if message = "invalid acquisition operational counter" then .hits
  else .foreign

def raised : TransportFailure → Failure
  | .refused message => .value (reasonOf message) message
  | .index => .value .foreign "list index out of range"

variable (env : Environment Stamp) (admission : Admission Stamp)

def step (site : Site) : M Stamp Nat := fun world =>
  let later := { world with tick := world.tick + 1 }
  if env.dies site world.tick then .error .died later else .ok world.tick later

def instant (tick : Nat) : Clock Stamp := ⟨env.clock tick, env.clock tick, env.clock tick⟩

def validCounters (state : AcquisitionLedger Stamp) : Bool :=
  [(state.requests, admission.maxRequests), (state.scannedRows, admission.maxScannedRows),
    (state.verificationBytes, admission.maxVerificationBytes),
    (state.scannedRowsObserved, state.scannedRows), (state.cacheHits, 2 ^ 63 - 1),
    (state.peakOwnedBytes, 2 ^ 63 - 1), (state.peakOwnedInodes, 2 ^ 63 - 1)].all
    fun (value, maximum) => 0 ≤ value && value ≤ maximum

def validateState (state : AcquisitionLedger Stamp) : Except TransportFailure Unit := do
  state.transport.validateState admission.policy
  refuseIf (validCounters admission state = false)
    (.refused "invalid acquisition operational counter")

def opened (message : String) : M Stamp (AcquisitionLedger Stamp) := fun world =>
  match world.ledger with
  | .row state => .ok state world
  | .bare => .error (.value .foreign "transport budget ledger is incomplete") world
  | .empty => .error (.value .foreign message) world
  | .absent =>
    .error (.value .foreign message)
      (if world.root then { world with ledger := .empty } else world)

/-- `_read` -/
def readLedger : M Stamp (AcquisitionLedger Stamp) := do
  let now ← step env .connect
  let state ← opened "transport budget ledger is invalid"
  match validateState admission state with
  | .error failure => throw (raised failure)
  | .ok () =>
    raiseIf (env.clock now < state.transport.createdAt)
      (.value .foreign "transport budget clock moved backward")
    return state

def commit {α : Type} : Except TransportFailure α × AcquisitionLedger Stamp → M Stamp α
  | (.ok value, state) => do
      modify fun world => { world with ledger := .row state }
      return value
  | (.error failure, _) => throw (raised failure)

def transaction {α : Type} (update : Clock Stamp → LedgerUpdate Stamp α) : M Stamp α := do
  let now ← step env .commit
  let state ← opened "no such table: state"
  commit (transact (update (instant env now)) state)

/-- `_mutate` with the checks of this class; the deadline is that of the inherited part. -/
def mutate {α : Type} (update : LedgerUpdate Stamp α) : M Stamp α :=
  transaction env fun clock => do
    orRaise (validateState admission (← get))
    inherited (TransportLedger.mutate admission.policy clock true (pure ()))
    update

def operate {α : Type} (operation : Clock Stamp → TransportLedger.TransportTransaction Stamp α) :
    M Stamp α :=
  transaction env fun clock => do
    orRaise (validateState admission (← get))
    inherited (operation clock)

inductive Counter | requests | verificationBytes
deriving DecidableEq

def Counter.maximum : Counter → Int
  | .requests => admission.maxRequests
  | .verificationBytes => admission.maxVerificationBytes

def Counter.read (state : AcquisitionLedger Stamp) : Counter → Int
  | .requests => state.requests
  | .verificationBytes => state.verificationBytes

def Counter.add (amount : Nat) (state : AcquisitionLedger Stamp) :
    Counter → AcquisitionLedger Stamp
  | .requests => { state with requests := state.requests + amount }
  | .verificationBytes => { state with verificationBytes := state.verificationBytes + amount }

def Counter.spent : Counter → String
  | .requests => "acquisition allowance exhausted: requests"
  | .verificationBytes => "acquisition allowance exhausted: verification_bytes"

def consume (counter : Counter) (amount : Nat) : M Stamp Unit :=
  mutate env admission do
    let state ← get
    raiseIf (counter.maximum admission - counter.read state < amount) (.refused counter.spent)
    set (counter.add amount state)

def remainingSeconds : M Stamp Unit := do
  let now ← step env .look
  raiseIf (env.cancelled now = true)
    (.interrupted .cancelled "acquisition cancellation requested; journal retained")
  let state ← readLedger env admission
  let later ← step env .look
  raiseIf (state.transport.wallClockMode = .enforced ∧ state.transport.deadline ≤ env.clock later)
    (.value .deadline "transport budget deadline exceeded")

def recordPeaks (size count : Nat) : M Stamp Unit :=
  mutate env admission do
    modify fun state =>
      { state with
        peakOwnedBytes := max state.peakOwnedBytes size
        peakOwnedInodes := max state.peakOwnedInodes count }

def observe : M Stamp Unit := do
  remainingSeconds env admission
  let now ← step env .look
  recordPeaks env admission (env.owned now).1 (env.owned now).2
  raiseIf (admission.maxObservedOwnedBytes < (env.owned now).1 ∨
      admission.maxObservedOwnedInodes < (env.owned now).2)
    (.value .allowance "observed owned-storage stop exceeded (not a hard quota)")

section

def claimCache : M Stamp Unit := do
  raiseIf ((← get).members.keys ≠ []) (.value .foreign "acquisition cache lacks ownership")
  let _ ← step env .createOwner
  modify fun world => { world with owner := some [] }
  let _ ← step env .writeOwner
  modify fun world => { world with owner := some admission.policy.binding }
  let _ ← step env .syncCache

def checkOwner : M Stamp Unit := do
  match (← get).owner with
  | none => claimCache env admission
  | some owner =>
    raiseIf (owner ≠ admission.policy.binding)
      (.value .foreign "cache belongs to another acquisition admission")

def createLedger : M Stamp Unit := do
  let world ← get
  raiseIf (world.members.keys ≠ [] ∨ world.journal = true)
    (.value .foreign "acquisition ledger missing for existing payload/journal")
  let _ ← step env .createLedger
  modify fun world => { world with ledger := .empty }
  let _ ← step env .createTable
  modify fun world => { world with ledger := .bare }
  let now ← step env .insertRow
  modify fun world =>
    { world with ledger := .row { transport := initialLedger admission.policy (env.clock now) } }

def checkLedger : M Stamp Unit := do
  match (← get).ledger with
  | .absent => createLedger env admission
  | _ => return ()

/-- `initialize` -/
def initializeTransport : M Stamp Unit := do
  modify fun world => { world with root := true }
  checkOwner env admission
  checkLedger env admission
  let _ ← readLedger env admission
  observe env admission

end

section

def remote (broken : Bool) : M Stamp Unit :=
  raiseIf (broken = true) (.os .answer "the connection failed")

def readWithDeadline : M Stamp Unit := do
  remainingSeconds env admission
  let _ ← step env .read

def metadataRequest (length : Option Nat) (received : Nat) : M Stamp (Option Nat) :=
  match length with
  | some length =>
    return if length - received = 0 then none else some (min 65536 (length - received))
  | none => do
      let state ← readLedger env admission
      let remaining :=
        admission.policy.limits.maxMetadataBodyBytes - state.transport.metadataCharged
      raiseIf (remaining ≤ 0)
        (.value .allowance "metadata response length is unverified at body cap")
      let requested := min 65536 remaining.toNat
      operate env admission fun clock =>
        TransportLedger.reserveMetadata admission.policy clock requested
      return some requested

def metadataEnd (length : Option Nat) (broken : Bool) : M Stamp Unit := do
  remote broken
  raiseIf (length.isSome = true) (.value .answer "short HTTP metadata body")

def metadataLoop (length : Option Nat) (broken : Bool) :
    (received : Nat) → List Bytes → M Stamp Unit
  | received, [] => do
      match ← metadataRequest env admission length received with
      | none => return ()
      | some _ => do
          readWithDeadline env admission
          metadataEnd length broken
  | received, chunk :: chunks => do
      match ← metadataRequest env admission length received with
      | none => return ()
      | some requested => do
          readWithDeadline env admission
          if chunk.isEmpty then metadataEnd length false
          else do
            raiseIf (requested < chunk.length)
              (.value .answer "HTTP metadata body exceeded requested read")
            operate env admission fun clock =>
              TransportLedger.chargeMetadataActual admission.policy clock chunk.length
            metadataLoop length broken (received + chunk.length) chunks

def readMetadataBody (reply : Reply) : M Stamp Unit :=
  match reply.length with
  | .invalid => throw (.value .answer "invalid HTTP Content-Length")
  | .absent => metadataLoop env admission none reply.broken 0 reply.body
  | .bytes count => do
      operate env admission fun clock =>
        TransportLedger.reserveMetadata admission.policy clock count
      metadataLoop env admission (some count) reply.broken 0 reply.body

def checkDestination : Destination → M Stamp Unit
  | .insecure => throw (.value .answer "acquisition redirect requires ordinary HTTPS")
  | .foreign =>
    throw (.value .answer "acquisition redirect origin is not an admitted Hub delivery host")
  | .admitted => return ()

def redirects : List Nat := [301, 302, 303, 307, 308]

def settle (reply : Reply) : M Stamp (Option Destination) := do
  raiseIf (reply.identity = false) (.value .answer "HTTP content encoding is unavailable")
  if reply.status ∈ redirects then
    readMetadataBody env admission reply
    match reply.location with
    | none => throw (.value .answer "acquisition redirect lacks Location")
    | some destination => return some destination
  else if reply.status ≠ 200 then
    readMetadataBody env admission reply
    throw (.value .answer "unexpected acquisition HTTP status")
  else return none

/-- The loop of `_open`: a request with its answer, for at most as many turns. -/
def openTurns : Nat → Destination → M Stamp Reply
  | 0, _ => throw (.value .answer "too many acquisition redirects")
  | turns + 1, destination => do
      checkDestination destination
      consume env admission .requests 1
      remainingSeconds env admission
      let now ← step env .request
      match env.answer now with
      | .unreachable => throw (.os .answer "the server is not reached")
      | .failed reply => do
          readMetadataBody env admission reply
          throw (.os .answer "HTTP error")
      | .replied reply => do
          match ← settle env admission reply with
          | none => return reply
          | some destination => openTurns turns destination

end

section

variable (hashes : Hashes)

def cacheInventory : M Stamp (Nat × Nat) := do
  let _ ← step env .look
  let world ← get
  raiseIf (∃ owner ∈ world.owner, owner ≠ admission.policy.binding)
    (.value .foreign "cache ownership changed")
  let size : Nat := (world.members.entries.map fun entry => entry.2.length).sum
  let count : Nat := world.members.entries.length
  raiseIf (admission.maxCacheBytes < size ∨ admission.maxCacheFiles < count)
    (.value .allowance "acquisition cache allowance exceeded")
  return (size, count)

/-- `b"blob " + str(row["size"]).encode() + b"\0"`, and the content. -/
def gitBlob (row : Row) (content : Bytes) : Bytes :=
  (text "blob " ++ text (toString row.size) ++ [0]).map UInt8.ofNat ++ content

def authentic (row : Row) (content : Bytes) : Bool :=
  content.length = row.size &&
    match row.lfsSha256 with
    | some pinned => hashes.sha256 content = pinned
    | none => hashes.sha1 (gitBlob row content) = row.blobId

def hashTurns : Nat → M Stamp Unit
  | 0 => return ()
  | turns + 1 => do
      remainingSeconds env admission
      hashTurns turns

def contentOf (member : Member) : M Stamp Bytes := do
  return (((← get).members.read member).getD [])

/-- `_authenticate`, whose failure is the server's where the file has just arrived. -/
def authenticate (reason : Reason) (member : Member) (row : Row) : M Stamp Unit := do
  let content ← contentOf member
  raiseIf (content.length ≠ row.size) (.value reason "cached pinned file size mismatch")
  consume env admission .verificationBytes row.size
  hashTurns env admission ((row.size + (1024 * 1024 - 1)) / (1024 * 1024))
  raiseIf (authentic hashes row content = false)
    (.value reason "pinned file typed content hash mismatch")

def isPresent (member : Member) : M Stamp Bool := do
  return ((← get).members.read member).isSome

def perform (action : Action Member Bytes) : M Stamp Unit :=
  modify fun world => { world with members := world.members.perform action }

def countHit : M Stamp Unit :=
  mutate env admission (modify fun state => { state with cacheHits := state.cacheHits + 1 })

def dropUnfinished (key : HexDigest) : M Stamp Unit := do
  if ← isPresent ⟨key, .unfinished⟩ then
    let _ ← step env .unlink
    perform (.unlink ⟨key, .unfinished⟩)

def checkSpace (row : Row) : M Stamp Unit := do
  let (size, count) ← cacheInventory env admission
  raiseIf (admission.maxCacheBytes - size < row.size ∨ admission.maxCacheFiles ≤ count)
    (.value .allowance "acquisition cache reservation unavailable")

def reserveTransfer (row : Row) : M Stamp Nat :=
  operate env admission fun clock =>
    TransportLedger.reserveTransfer admission.policy clock admission.repoId row.path row.size true

def chargeTransfer (index amount : Nat) : M Stamp Unit :=
  operate env admission fun clock =>
    TransportLedger.chargeTransferActual admission.policy clock index amount

def finishTransfer (index : Nat) (success interrupted : Bool) : M Stamp Unit :=
  operate env admission fun clock =>
    TransportLedger.finishTransfer admission.policy clock index success interrupted

def appendChunk (member : Member) (chunk : Bytes) : M Stamp Unit := do
  let _ ← step env .writePartial
  let content ← contentOf member
  perform (.write member (content ++ chunk))

def receiveChunk (member : Member) (index remaining : Nat) (chunk : Bytes) : M Stamp Unit := do
  raiseIf (chunk.isEmpty = true ∨ min 65536 remaining < chunk.length)
    (.os .answer "short or oversized pinned response")
  chargeTransfer env admission index chunk.length
  appendChunk env member chunk
  observe env admission

def receive (member : Member) (index : Nat) (broken : Bool) :
    (remaining : Nat) → List Bytes → M Stamp Unit
  | 0, _ => return ()
  | _ + 1, [] => do
      readWithDeadline env admission
      remote broken
      throw (.os .answer "short or oversized pinned response")
  | remaining + 1, chunk :: chunks => do
      readWithDeadline env admission
      receiveChunk env admission member index (remaining + 1) chunk
      receive member index broken (remaining + 1 - chunk.length) chunks

def checkReply (row : Row) (reply : Reply) : M Stamp Unit :=
  if reply.transferEncoding then
    throw (.value .answer "pinned response requires exact Content-Length")
  else
    match reply.length with
    | .invalid => throw (.value .answer "invalid HTTP Content-Length")
    | length =>
      raiseIf (length ≠ .bytes row.size)
        (.value .answer "pinned response requires exact Content-Length")

def createUnfinished (key : HexDigest) : M Stamp Unit := do
  let _ ← step env .createPartial
  raiseIf (((← get).members.read ⟨key, .unfinished⟩).isSome = true) (.os .foreign "File exists")
  perform (.write ⟨key, .unfinished⟩ [])

/-- `_rename_noreplace` and the sync of the directory behind it. -/
def publish (key : HexDigest) : M Stamp Unit := do
  let _ ← step env .rename
  raiseIf (((← get).members.read ⟨key, .bin⟩).isSome = true) (.os .foreign "File exists")
  perform (.rename ⟨key, .unfinished⟩ ⟨key, .bin⟩)
  let _ ← step env .syncCache

def download (row : Row) (key : HexDigest) (index : Nat) : M Stamp Unit := do
  let reply ← openTurns env admission 6 .admitted
  checkReply row reply
  createUnfinished env key
  receive env admission ⟨key, .unfinished⟩ index reply.broken row.size reply.body
  let _ ← step env .syncPartial
  authenticate env admission hashes .answer ⟨key, .unfinished⟩ row
  publish env key
  finishTransfer env admission index true false

/-- Both handlers of `file`. -/
def abandon (index : Nat) : Failure → M Stamp Unit
  | .os reason message | .interrupted reason message => do
      finishTransfer env admission index false true
      throw (.interrupted reason message)
  | failure => do
      finishTransfer env admission index false false
      throw failure

def fetch (row : Row) (key : HexDigest) : M Stamp Unit := do
  dropUnfinished env key
  checkSpace env admission row
  let index ← reserveTransfer env admission row
  attempting (· ≠ .died) (download env admission hashes row key index)
    (abandon env admission index)

def reuse (row : Row) (key : HexDigest) : M Stamp Unit := do
  authenticate env admission hashes .content ⟨key, .bin⟩ row
  countHit env admission

/-- `file`, which returns the path of the key. -/
def file (row : Row) : M Stamp HexDigest := do
  observe env admission
  let _ ← cacheInventory env admission
  if ← isPresent ⟨hashes.digest row, .bin⟩ then
    reuse env admission hashes row (hashes.digest row)
  else fetch env admission hashes row (hashes.digest row)
  return hashes.digest row

end

inductive Call
  | initializeTransport
  | file (row : Row)
deriving DecidableEq

variable (hashes : Hashes)

def Call.perform : Call → M Stamp (Option HexDigest)
  | .initializeTransport => do
      Acquisition.initializeTransport env admission
      return none
  | .file row => do return some (← Acquisition.file env admission hashes row)

structure Report where
  call : Call
  result : Except Failure (Option HexDigest)

def Report.of (call : Call) :
    EStateM.Result Failure (World Stamp) (Option HexDigest) → Report × World Stamp
  | .ok value world => (⟨call, .ok value⟩, world)
  | .error failure world => (⟨call, .error failure⟩, world)

def runCalls (world : World Stamp) : List Call → List Report × World Stamp
  | [] => ([], world)
  | call :: calls =>
    let (report, later) := Report.of call (call.perform env admission hashes world)
    let (reports, last) := runCalls later calls
    (report :: reports, last)

end

end SparseLab.Data.Acquisition
