import SparseLab.Data.PreparationChunks

/-!
Whole preparations: processes that open, append, seal, adopt, finish and clean up, and may stop
after any file action.
-/

namespace SparseLab.Data

open Library

section

variable (settings : Settings)

structure Attempt where
  actions : Actions
  result : Except String Unit

def splits : List Split := [.train, .validation]

def finalNames : List Name :=
  splits.flatMap fun split => settings.arrays.map fun array => .final split array

def keptNames : List Name :=
  [.manifest, .staging] ++ finalNames settings

def ownedNames (split : Split) (count : Nat) : List Name :=
  (List.range count).flatMap fun index =>
    .chunk split index .receipt :: settings.arrays.map fun array => .chunk split index (.raw array)

def expectedNames (ledgers : Split → SplitChunks) : List Name :=
  keptNames settings ++ splits.flatMap fun split =>
    ownedNames settings split (ledgers split).sealedReceipts.length

def sizeBytes : File → Nat
  | .raw array values => values.length * settings.itemsize array
  | file => settings.documentSize file

def proofOf (file : File) : FileProof :=
  { sizeBytes := sizeBytes settings file, sha256 := settings.sha256 file }

def readFile (disk : Disk) (name : Name) : Except String File :=
  match disk.read (.entry .root name) with
  | some file => .ok file
  | none => .error s!"No such file or directory: {name.text}"

def readManifest (disk : Disk) : Except String (Manifest × Sha256) :=
  match disk.read (.entry .root .manifest) with
  | some (.manifest manifest signature) => .ok (manifest, signature)
  | some _ => .error "published manifest must be an object"
  | none => .error "No such file or directory: manifest.json"

/-- `[0-9]{6}` and the array names that the pattern of `_finish_cleanup` admits. -/
def ownedFilename : Name → Bool
  | .chunk _ index .receipt => (zeroPadded 6 index).length = 6
  | .chunk _ index (.raw array) =>
    (zeroPadded 6 index).length = 6 ∧ (array = .byteAddresses → array ∈ settings.arrays)
  | _ => false

def cleanupInventory (disk : Disk) (files : List Name) : Prop :=
  (∀ name ∈ keptNames settings, name ∈ names disk .root) ∧
    (∀ name ∈ names disk .root, name ∈ keptNames settings ++ files ++ [.stagingTmp]) ∧
    works disk = []

instance (disk : Disk) (files : List Name) : Decidable (cleanupInventory settings disk files) :=
  inferInstanceAs (Decidable (_ ∧ _ ∧ _))

def verifyOwned (disk : Disk) : List (Name × FileProof) → Except String Unit
  | [] => .ok ()
  | (name, proof) :: rest =>
    match disk.read (.entry .root name) with
    | none => verifyOwned disk rest
    | some file =>
      if settings.sha256 file ≠ proof.sha256 then
        .error "prepared file SHA-256 mismatch"
      else if sizeBytes settings file ≠ proof.sizeBytes then
        .error "published cleanup raw size mismatch"
      else
        verifyOwned disk rest

/-- `_finish_cleanup`: the marker goes last. -/
def finishCleanup (disk : Disk) (cleanup : Cleanup) (cold : Bool) : Except String Actions := do
  let files := (cleanup.files.map Prod.fst).mergeSort fun first second =>
    first.chars ≤ second.chars
  if files.any fun name => !ownedFilename settings name then
    .error "invalid owned cleanup filename"
  else if ¬ cleanupInventory settings disk files then
    .error "unexpected published cleanup inventory"
  else
    if cold then verifyOwned settings disk cleanup.files else .ok ()
    pure (files.map (fun name => .unlink (.entry .root name)) ++
      [.unlink (.entry .root .stagingTmp), .unlink (.entry .root .staging)])

def cleanupFiles (disk : Disk) (ledger : SplitChunks) :
    (index : Nat) → List Receipt → Except String (List (Name × FileProof))
  | _, [] => .ok []
  | index, payload :: rest => do
      let file ← readFile disk (.chunk ledger.split index .receipt)
      let later ← cleanupFiles disk ledger (index + 1) rest
      pure ((.chunk ledger.split index .receipt, proofOf settings file) ::
        payload.arrays.map (fun (array, metadata) => (.chunk ledger.split index (.raw array),
          { sizeBytes := metadata.length, sha256 := metadata.sha256 })) ++ later)

/-- The checks of `cleanup_published` and the cleanup receipt that it commits. -/
def cleanupReceipt (disk : Disk) (ledgers : Split → SplitChunks) : Except String Cleanup := do
  let marker ← readOwner disk .root
  if marker ≠ (settings.owner, none) then
    .error "published staging owner changed"
  else if (splits.any fun split => (ledgers split).pending.acquiredDocuments ≠ 0) then
    .error "split not finalized before publication"
  else
    if ¬ ((∀ name ∈ names disk .root, name ∈ expectedNames settings ledgers ++ [.stagingTmp]) ∧
        works disk = []) then
      .error "unexpected published staging entry"
    else if ¬ ∀ name ∈ expectedNames settings ledgers, name ∈ names disk .root then
      .error "published staging inventory is incomplete"
    else
      let train ← cleanupFiles settings disk (ledgers .train) 0 (ledgers .train).sealedReceipts
      let validation ← cleanupFiles settings disk (ledgers .validation) 0
        (ledgers .validation).sealedReceipts
      let (_, signature) ← readManifest disk
      pure { manifestSha256 := signature, files := train ++ validation }

def commitCleanup (cleanup : Cleanup) : Actions :=
  .unlink (.entry .root .stagingTmp) ::
    storeDocument .root .stagingTmp .staging (.owner settings.owner (some cleanup))

def cleanupPublished (disk : Disk) (ledgers : Split → SplitChunks) : Attempt :=
  match cleanupReceipt settings disk ledgers with
  | .error failure => { actions := [], result := .error failure }
  | .ok cleanup =>
    let intent := commitCleanup settings cleanup
    match finishCleanup settings (disk.performAll intent) cleanup false with
    | .error failure => { actions := intent, result := .error failure }
    | .ok removals => { actions := intent ++ removals, result := .ok () }

def verifyArrays (disk : Disk) : List ArrayMetadata → Except String Unit
  | [] => .ok ()
  | metadata :: rest =>
    match disk.read (.entry .root (.final metadata.split metadata.array)) with
    | some (.array owner values) =>
      if settings.sha256 (.array owner values) ≠ metadata.sha256 then
        .error "prepared file SHA-256 mismatch"
      else if values.length ≠ metadata.tokens ∨
          sizeBytes settings (.array owner values) ≠ metadata.sizeBytes ∨
          values.length = 0 then
        .error "published staging array metadata mismatch"
      else
        verifyArrays disk rest
    | _ => .error "published staging array metadata mismatch"

def openSplits (disk : Disk) : Except String (Split → SplitChunks) := do
  let train ← openSplit settings disk .root .train
  let validation ← openSplit settings disk .root .validation
  pure fun
    | .train => train
    | .validation => validation

def requiredArrays (manifest : Manifest) : List Name :=
  manifest.arrays.map fun metadata => .final metadata.split metadata.array

/-- The checks of `recover_published` against the manifest. -/
def checkManifest (disk : Disk) (cleanup : Option Cleanup) (ledgers : Option (Split → SplitChunks)) :
    Except String Unit := do
  let (manifest, signature) ← readManifest disk
  if settings.signManifest manifest ≠ signature ∨
      manifest.cacheIdentity ≠ settings.cacheIdentity then
    .error "published staging manifest or identity mismatch"
  else if ¬ (∀ name ∈ requiredArrays manifest, name ∈ finalNames settings) ∨
      ¬ (∀ name ∈ finalNames settings, name ∈ requiredArrays manifest) then
    .error "published staging arrays do not match owner"
  else if cleanup.any fun cleanup => cleanup.manifestSha256 ≠ signature then
    .error "published cleanup manifest identity mismatch"
  else if ledgers.any fun ledgers => splits.any fun split =>
      manifest.counters split ≠ (ledgers split).state then
    .error "published staging scientific counts mismatch"
  else
    verifyArrays settings disk manifest.arrays

/-- `recover_published`: cleanup after a crash between the rename and its end. -/
def recoverPublished (disk : Disk) : Attempt :=
  match readOwner disk .root with
  | .error failure => { actions := [], result := .error failure }
  | .ok (owner, cleanup) =>
    if owner ≠ settings.owner then
      { actions := [], result := .error "published staging identity or binding mismatch" }
    else
      match cleanup with
      | none =>
        match openSplits settings disk with
        | .error failure => { actions := [], result := .error failure }
        | .ok ledgers =>
          match checkManifest settings disk none (some ledgers) with
          | .error failure => { actions := [], result := .error failure }
          | .ok _ => cleanupPublished settings disk ledgers
      | some cleanup =>
        match checkManifest settings disk (some cleanup) none with
        | .error failure => { actions := [], result := .error failure }
        | .ok _ =>
          match finishCleanup settings disk cleanup true with
          | .error failure => { actions := [], result := .error failure }
          | .ok removals => { actions := removals, result := .ok () }

def manifestOf (results : Split → SplitChunks.Finished) : Manifest where
  cacheIdentity := settings.cacheIdentity
  counters split := (results split).stats
  arrays := splits.flatMap fun split => (results split).arrays.map fun (array, values) => {
    split, array
    tokens := values.length
    sizeBytes := sizeBytes settings (.array array values)
    sha256 := settings.sha256 (.array array values) }

def storeManifest (results : Split → SplitChunks.Finished) : Actions :=
  storeFile (.entry .root .manifest)
    (.manifest (manifestOf settings results) (settings.signManifest (manifestOf settings results)))

end

variable (settings : Settings)

def SplitChunks.collect (chunks : SplitChunks) (disk : Disk) (records : List Record) :
    Except String (SplitChunks.Finished × List (Option File)) := do
  let (appended, chunks) ← chunks.appendAll settings records
  let (stored, chunks, finished) ← chunks.finish settings (disk.performAll appended)
  pure (finished, settings.arrays.map fun array =>
    ((disk.performAll appended).performAll stored).read
      (.entry chunks.place (.final chunks.split array)))

structure Session where
  disk : Disk
  ledgers : Split → SplitChunks
  works : Split → Nat → Option SplitChunks := fun _ _ => none
  results : Split → Option SplitChunks.Finished := fun _ => none

inductive Operation
  | append (split : Split) (acquiredIndex : Nat) (record : Record)
  | sealChunk (split : Split)
  | finish (split : Split)
  | work (split : Split) (sequence : Nat) (batch : List Record)
  | abandon (split : Split) (sequence : Nat) (batch : List Record) (progress : Nat)
  | adopt (split : Split) (sequence firstAcquiredIndex : Nat)

namespace Session

/-- The constructor and `open_split` for both splits. -/
def openAt (disk : Disk) : Except String (Actions × Session) := do
  let actions ← construct settings disk
  let ledgers ← openSplits settings (disk.performAll actions)
  pure (actions, { disk := disk.performAll actions, ledgers })

variable (session : Session)

def withLedger (split : Split) (actions : Actions) (ledger : SplitChunks)
    (result : Option SplitChunks.Finished) : Session :=
  { session with
    disk := session.disk.performAll actions
    ledgers := Function.update session.ledgers split ledger
    results := Function.update session.results split result }

@[simp] theorem withLedger_self (split : Split) (actions : Actions) (ledger : SplitChunks)
    (result : Option SplitChunks.Finished) :
    (session.withLedger split actions ledger result).ledgers split = ledger := by
  simp [withLedger]

@[simp] theorem withLedger_results (split : Split) (actions : Actions) (ledger : SplitChunks)
    (result : Option SplitChunks.Finished) :
    (session.withLedger split actions ledger result).results split = result := by
  simp [withLedger]

def withWork (split : Split) (sequence : Nat) (actions : Actions) (work : Option SplitChunks) :
    Session :=
  { session with
    disk := session.disk.performAll actions
    works := Function.update session.works split
      (Function.update (session.works split) sequence work)
    results := Function.update session.results split none }

def perform : Operation → Except String (Actions × Session)
  | .append split acquiredIndex record => do
      let (actions, ledger) ← (session.ledgers split).appendRecord settings acquiredIndex record
      pure (actions, session.withLedger split actions ledger none)
  | .sealChunk split => do
      let (actions, ledger) ← (session.ledgers split).sealChunk settings
      pure (actions, session.withLedger split actions ledger none)
  | .finish split => do
      let (actions, ledger, finished) ← (session.ledgers split).finish settings session.disk
      pure (actions, session.withLedger split actions ledger (some finished))
  | .work split sequence batch => do
      let (actions, work) ← SplitChunks.writeWork settings session.disk split sequence batch
      pure (actions, session.withWork split sequence actions (some work))
  | .abandon split sequence batch progress => do
      let (actions, _) ← SplitChunks.writeWork settings session.disk split sequence batch
      pure (actions.take progress, session.withWork split sequence (actions.take progress) none)
  | .adopt split sequence firstAcquiredIndex =>
    match session.works split sequence with
    | none => .error "preparation work is missing"
    | some work => do
        let (actions, ledger) ← SplitChunks.adopt settings session.disk
          (session.ledgers split) work firstAcquiredIndex
        pure (actions, (session.withLedger split actions ledger none).withWork split sequence []
          none)

def performEach (session : Session) : List Operation → Except String Session
  | [] => .ok session
  | operation :: operations => do
      let (_, next) ← session.perform settings operation
      performEach next operations

theorem performEach_append (session : Session) (first second : List Operation) :
    session.performEach settings (first ++ second) =
      session.performEach settings first >>= fun next => next.performEach settings second := by
  induction first generalizing session with
  | nil => rfl
  | cons operation first ih =>
    simp only [List.cons_append, Session.performEach]
    cases session.perform settings operation with
    | error failure => rfl
    | ok result => exact ih result.2

def publish (seqLen : Nat) : Except String (Split → SplitChunks.Finished) :=
  match session.results .train, session.results .validation with
  | some train, some validation =>
    if train.stats.outputTokens < seqLen + 1 ∨ validation.stats.outputTokens < seqLen + 1 then
      .error "prepared split lacks a full next-token block"
    else
      .ok fun
        | .train => train
        | .validation => validation
  | _, _ => .error "split is not finished"

def collect (split : Split) (records : List Record) :
    Except String (SplitChunks.Finished × List (Option File)) :=
  (session.ledgers split).collect settings session.disk records

def uninterrupted (split : Split) (records : List Record) :
    Except String (SplitChunks.Finished × List (Option File)) := do
  let (_, session) ← openAt settings ∅
  session.collect settings split records

end Session

structure Journal where
  records : Split → List Record := fun _ => []
  batches : Split → Nat → List Record := fun _ _ => []

namespace Journal

def append (journal : Journal) (split : Split) (records : List Record) : Journal :=
  { journal with
    records := Function.update journal.records split (journal.records split ++ records) }

def after (journal : Journal) : Operation → Journal
  | .append split _ record => journal.append split [record]
  | .adopt split sequence _ => journal.append split (journal.batches split sequence)
  | .work split sequence batch =>
    { journal with
      batches := Function.update journal.batches split
        (Function.update (journal.batches split) sequence batch) }
  | .sealChunk _ | .finish _ | .abandon .. => journal

def reopened (journal : Journal) (session : Session) : Journal where
  records split :=
    (journal.records split).take (session.ledgers split).state.acquiredDocuments

end Journal

inductive Situation
  | stopped (disk : Disk) (published : Bool)
  | running (session : Session)

inductive Course : Situation → Journal → Prop
  | absent : Course (.stopped ∅ false) {}
  | openingCrash {disk journal actions} (cut : Nat) : Course (.stopped disk false) journal →
      construct settings disk = .ok actions →
      Course (.stopped (disk.performAll (actions.take cut)) false) journal
  | opened {disk journal actions session} : Course (.stopped disk false) journal →
      Session.openAt settings disk = .ok (actions, session) →
      Course (.running session) (journal.reopened session)
  | performed {session journal operation actions after} : Course (.running session) journal →
      session.perform settings operation = .ok (actions, after) →
      Course (.running after) (journal.after operation)
  | crash {session journal operation actions after} (cut : Nat) :
      Course (.running session) journal →
      session.perform settings operation = .ok (actions, after) →
      Course (.stopped (session.disk.performAll (actions.take cut)) false)
        (journal.after operation)
  | manifestCrash {session journal seqLen results} (cut : Nat) : Course (.running session) journal →
      session.publish seqLen = .ok results →
      Course (.stopped (session.disk.performAll ((storeManifest settings results).take cut)) false)
        journal
  | published {session journal seqLen results} (cut : Nat) : Course (.running session) journal →
      session.publish seqLen = .ok results → works session.disk = [] →
      Course (.stopped ((session.disk.performAll (storeManifest settings results)).performAll
        ((cleanupPublished settings (session.disk.performAll (storeManifest settings results))
          session.ledgers).actions.take cut)) true) journal
  | recovered {disk journal} (cut : Nat) : Course (.stopped disk true) journal →
      Course (.stopped (disk.performAll ((recoverPublished settings disk).actions.take cut)) true)
        journal

end SparseLab.Data
