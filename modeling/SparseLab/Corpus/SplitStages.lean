import Mathlib.Data.Char
import Mathlib.Data.List.Lex
import Mathlib.Data.List.Sort
import SparseLab.Library.Numerals
import SparseLab.Library.Procedures

/-!
`SplitStages` of `corpus/split_runs.py`: completed phases and their completion records. A process
can be killed at every write, and files may change between two processes.
-/

namespace SparseLab.Corpus

open Library

/-- What `uuid4` gives. -/
abbrev Uuid := Nat

structure Value (Body Data : Type) where
  outputs : List (String × Body)
  data : Data
deriving DecidableEq

abbrev Path (ι : Type) := (ι × Uuid) × String

section

variable (ι Stamp Data : Type)

structure Result where
  directory : ι × Uuid
  files : List (String × Stamp)
  data : Data
deriving DecidableEq

/-- `body` -/
structure Record where
  previous : Option String
  request : String
  phase : ι
  result : Result ι Stamp Data
  elapsed : Nat
deriving DecidableEq

structure Completion where
  record : Record ι Stamp Data
  sha256 : String
deriving DecidableEq

structure Entry where
  name : List Char
  completion : Option (Completion ι Stamp Data)

/-- What `InspectionCache` keeps for a completion. -/
structure Proof where
  payload : Result ι Stamp Data
  dependencies : List (Path ι × Stamp)

structure Disk where
  files : Path ι → Option Stamp := fun _ => none
  directories : List (ι × Uuid) := []
  entries : List (Entry ι Stamp Data) := []
  proofs : List (String × Proof ι Stamp Data) := []
  journal : List (Completion ι Stamp Data) := []

/-- The fields of `SplitStages`. -/
structure Memory where
  completed : List (ι × Result ι Stamp Data) := []
  authenticated : List ι := []
  previous : Option String := none
  sequence : Nat := 0
  reused : List ι := []

/-- A process, with what its calls of `phase` have returned. -/
structure Process where
  memory : Memory ι Stamp Data
  results : List (ι × Result ι Stamp Data) := []

structure Machine where
  disk : Disk ι Stamp Data := {}
  process : Option (Process ι Stamp Data) := none

end

inductive Kill (Stamp : Type)
  | inside (left : List (String × Stamp))
  | writing (scratch : Uuid)
  | linked (scratch : Uuid)
  | recorded
  | proved
  | mirrored

structure Writing (Stamp : Type) where
  uuid : Uuid
  stamps : String → Stamp
  elapsed : Nat
  proven : Bool
  killed : Option (Kill Stamp)

inductive Event (ι Stamp : Type)
  | start (trusts : String → Bool)
  | call (writing : Writing Stamp)
  | change (files : Path ι → Option Stamp)
  | stop

section

variable {ι Stamp Data : Type} [DecidableEq ι] [DecidableEq Stamp] [DecidableEq Data]

/-- `completion-{sequence:06d}-{digest}.json` -/
def completionName (sequence : Nat) (digest : String) : List Char :=
  "completion-".toList ++ (zeroPadded 6 sequence ++ ('-' :: digest.toList ++ ".json".toList))

def scratchName (name : List Char) (uuid : Uuid) : List Char :=
  name ++ ".partial-".toList ++ Nat.toDigits 16 uuid

/-- `completion-*.json` -/
def isCompletion (name : List Char) : Bool :=
  "completion-".toList.isPrefixOf name && ".json".toList.isSuffixOf name

section

variable (disk : Disk ι Stamp Data) (memory : Memory ι Stamp Data)

def Memory.remember (name : ι) (result : Result ι Stamp Data) : Memory ι Stamp Data :=
  let dropped := (memory.completed.dropWhile (·.1 ≠ name)).map Prod.fst
  { memory with
    completed := memory.completed.takeWhile (·.1 ≠ name) ++ [(name, result)]
    authenticated := memory.authenticated.filter (· ∉ dropped) }

def Result.unchanged (result : Result ι Stamp Data) : Prop :=
  ∀ file ∈ result.files, disk.files (result.directory, file.1) = some file.2

instance (result : Result ι Stamp Data) : Decidable (result.unchanged disk) :=
  inferInstanceAs (Decidable (∀ _ ∈ _, _))

/-- `cache.load` gives back the result. -/
def Disk.proves (trusts : String → Bool) (digest : String) (result : Result ι Stamp Data) : Bool :=
  trusts digest && match disk.proofs.lookup digest with
    | none => false
    | some proof => proof.payload = result ∧
        ∀ dependency ∈ proof.dependencies, disk.files dependency.1 = some dependency.2

def completedPhase (name : ι) : Option (Result ι Stamp Data) :=
  match memory.completed.lookup name with
  | none => none
  | some prior => if prior.unchanged disk ∧ name ∈ memory.authenticated then some prior else none

end

section

variable (digest : Record ι Stamp Data → String) (identity : String)

def accept (disk : Disk ι Stamp Data) (trusts : String → Bool) (memory : Memory ι Stamp Data)
    (entry : Entry ι Stamp Data) : Except String (Memory ι Stamp Data) :=
  match entry.completion with
  | none => .error "invalid JSON"
  | some event => do
      let body := event.record
      refuseIf (event.sha256 ≠ digest body ∨ body.previous ≠ memory.previous)
        "corrupt split completion chain"
      refuseIf (body.request ≠ identity) "split checkpoint request mismatch"
      let memory := memory.remember body.phase body.result
      pure { memory with
        authenticated := if disk.proves trusts (digest body) body.result then
          body.phase :: memory.authenticated else memory.authenticated
        previous := some (digest body)
        sequence := memory.sequence + 1 }

def Disk.listed (disk : Disk ι Stamp Data) : List (Entry ι Stamp Data) :=
  disk.entries.filter fun entry => isCompletion entry.name

def load (disk : Disk ι Stamp Data) (trusts : String → Bool) : Except String (Memory ι Stamp Data) :=
  (disk.listed.insertionSort fun first second => first.name ≤ second.name).foldlM
    (accept digest identity disk trusts) {}

section

variable {Body : Type} [DecidableEq Body] (content : Stamp → Body)

def Disk.view (disk : Disk ι Stamp Data) (result : Result ι Stamp Data) : Option (Value Body Data) :=
  (result.files.mapM fun file =>
    (disk.files (result.directory, file.1)).map fun stamp => (file.1, content stamp)).map
      fun outputs => { outputs, data := result.data }

def Disk.write (disk : Disk ι Stamp Data) (directory : ι × Uuid) (files : List (String × Stamp)) :
    Disk ι Stamp Data :=
  { disk with
    directories := directory :: disk.directories
    files := fun path =>
      if path.1 = directory then (files.lookup path.2).or (disk.files path) else disk.files path }

def Memory.completion (memory : Memory ι Stamp Data) (name : ι) (result : Result ι Stamp Data)
    (elapsed : Nat) : Completion ι Stamp Data :=
  let body := { previous := memory.previous, request := identity, phase := name, result, elapsed }
  { record := body, sha256 := digest body }

def Disk.addEntry (disk : Disk ι Stamp Data) (name : List Char)
    (completion : Option (Completion ι Stamp Data)) : Disk ι Stamp Data :=
  { disk with entries := disk.entries ++ [{ name, completion }] }

def Disk.prove (disk : Disk ι Stamp Data) (event : Completion ι Stamp Data) : Disk ι Stamp Data :=
  let result := event.record.result
  let dependencies := result.files.map fun file => ((result.directory, file.1), file.2)
  { disk with proofs := (event.sha256, { payload := result, dependencies }) :: disk.proofs }

/-- `phase` after `produce` has returned, up to a kill. -/
def finishPhase (disk : Disk ι Stamp Data) (process : Process ι Stamp Data) (name : ι)
    (result : Result ι Stamp Data) (writing : Writing Stamp) : Machine ι Stamp Data :=
  let memory := process.memory
  let event := memory.completion digest identity name result writing.elapsed
  let path := completionName memory.sequence event.sha256
  let recorded := disk.addEntry path (some event)
  let proved := if writing.proven then recorded.prove event else recorded
  let mirrored := { proved with journal := proved.journal ++ [event] }
  match writing.killed with
  | some (.inside _) => { disk }
  | some (.writing scratch) => { disk := disk.addEntry (scratchName path scratch) none }
  | some (.linked scratch) =>
    { disk := (disk.addEntry (scratchName path scratch) (some event)).addEntry path (some event) }
  | some .recorded => { disk := recorded }
  | some .proved => { disk := proved }
  | some .mirrored => { disk := mirrored }
  | none =>
    let memory := memory.remember name result
    { disk := mirrored
      process := some {
        memory := { memory with
          authenticated := name :: memory.authenticated
          previous := some event.sha256
          sequence := memory.sequence + 1 }
        results := process.results ++ [(name, result)] } }

def producePhase (disk : Disk ι Stamp Data) (process : Process ι Stamp Data) (name : ι)
    (value : Except String (Value Body Data)) (writing : Writing Stamp) : Machine ι Stamp Data :=
  let directory := (name, writing.uuid)
  if directory ∈ disk.directories then { disk }
  else
    match value with
    | .error _ => { disk := disk.write directory [] }
    | .ok value =>
      let files := value.outputs.map fun output => (output.1, writing.stamps output.1)
      if ∀ output ∈ value.outputs, content (writing.stamps output.1) = output.2 then
        match writing.killed with
        | some (.inside left) => { disk := disk.write directory left }
        | _ =>
          finishPhase digest identity (disk.write directory files) process name
            { directory, files, data := value.data } writing
      else { disk, process := some process }

def phase (disk : Disk ι Stamp Data) (process : Process ι Stamp Data) (name : ι)
    (value : Except String (Value Body Data)) (writing : Writing Stamp) : Machine ι Stamp Data :=
  match completedPhase disk process.memory name with
  | some prior =>
    { disk
      process := some {
        memory := { process.memory with reused := process.memory.reused ++ [name] }
        results := process.results ++ [(name, prior)] } }
  | none => producePhase digest identity content disk process name value writing

variable {α : Type} (procedure : Procedure ι String (Value Body Data) α)

def Process.remaining (process : Process ι Stamp Data) (disk : Disk ι Stamp Data) :
    Option (Procedure ι String (Value Body Data) α) :=
  (process.results.mapM fun entry => disk.view content entry.2).map procedure.after

def step (machine : Machine ι Stamp Data) : Event ι Stamp → Machine ι Stamp Data
  | .start trusts =>
    match machine.process with
    | some _ => machine
    | none =>
      match load digest identity machine.disk trusts with
      | .error _ => machine
      | .ok memory => { machine with process := some { memory } }
  | .call writing =>
    match machine.process with
    | none => machine
    | some process =>
      match process.remaining content procedure machine.disk with
      | some (.step name value _) =>
        phase digest identity content machine.disk process name value writing
      | some _ => machine
      | none => { disk := machine.disk }
  | .change files =>
    match machine.process with
    | some _ => machine
    | none => { machine with disk := { machine.disk with files } }
  | .stop => { disk := machine.disk }

def runEvents (machine : Machine ι Stamp Data) (events : List (Event ι Stamp)) :
    Machine ι Stamp Data :=
  events.foldl (step digest identity content procedure) machine

end

end

end

end SparseLab.Corpus
