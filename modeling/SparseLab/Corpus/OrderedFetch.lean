import Mathlib.Algebra.GroupWithZero.Nat
import Mathlib.Data.List.Basic

/-!
Ordered bounded reads, from `ordered_fetch` in `corpus/mixture_pipeline.py`: the generator, the
pool's threads and the consumer take turns.
-/

namespace SparseLab.Corpus.Prefetch

def maxRowBytes : Nat := 64 * 1024 ^ 2

def prefetchBytes : Nat := 128 * 1024 ^ 2

def prefetchDocuments : Nat := 256

inductive Failure (ε : Type)
  | invalidReservation | emptyQueue | fetch (error : ε)
deriving DecidableEq

/-- `emptyQueue` is what `queued.popleft()` raises. -/
def Failure.text {ε : Type} (shown : ε → String) : Failure ε → String
  | invalidReservation => "invalid mixture prefetch byte reservation"
  | emptyQueue => "pop from an empty deque"
  | fetch error => shown error

structure Request (α β ε : Type) where
  fetch : α → Except ε β
  size : α → Int
  cached : α → Option β
  workers : Nat

inductive Future (β ε : Type)
  | pending | running | finished (result : Except ε β) | cancelled

structure Task (α β ε : Type) where
  item : α
  future : Future β ε

/-- An entry of `queued`: the ticket is the position of its future among the submitted. -/
structure Slot (α : Type) where
  item : α
  charge : Nat
  ticket : Nat

inductive Point (α β ε : Type)
  | looping | filling | taking
  | waiting (slot : Slot α)
  | yielding (slot : Slot α) (value : β)
  | ended
  | raised (failure : Failure ε)
  | closed

structure Pipeline (α β ε : Type) where
  point : Point α β ε
  current : Option α
  iterator : List α
  queued : List (Slot α)
  reserved : Nat
  tasks : List (Task α β ε)
  yielded : List (α × β)
  readQueueBytesPeak : Nat
  readQueueRecordsPeak : Nat
  readActivePeak : Nat

namespace Future

variable {β ε : Type}

/-- `future.cancel()`: a read that has begun goes on. -/
def cancel : Future β ε → Future β ε
  | pending => cancelled
  | future => future

def isPending : Future β ε → Bool
  | pending => true
  | _ => false

def isRunning : Future β ε → Bool
  | running => true
  | _ => false

end Future

namespace Request

variable {α β ε : Type} (request : Request α β ε)

def validCharge (item : α) : Prop :=
  0 < request.size item ∧ request.size item ≤ maxRowBytes

instance (item : α) : Decidable (request.validCharge item) :=
  inferInstanceAs (Decidable (_ ∧ _))

def result (item : α) : Except ε β :=
  match request.cached item with
  | some value => .ok value
  | none => request.fetch item

/-- The reads of `workers == 0`: what is yielded, and the error behind it. -/
def inlineFetch : List α → List (α × β) × Option (Failure ε)
  | [] => ([], none)
  | item :: items =>
    if request.validCharge item then
      match request.result item with
      | .error error => ([], some (.fetch error))
      | .ok value =>
        let later := inlineFetch items
        ((item, value) :: later.1, later.2)
    else
      ([], some .invalidReservation)

/-- `max(PREFETCH_DOCUMENTS, 2 * workers)` -/
def queueLimit : Nat := max prefetchDocuments (2 * request.workers)

def opened (items : List α) : Pipeline α β ε where
  point := .looping
  current := items.head?
  iterator := items.tail
  queued := []
  reserved := 0
  tasks := []
  yielded := []
  readQueueBytesPeak := 0
  readQueueRecordsPeak := 0
  readActivePeak := 0

def active (tasks : List (Task α β ε)) : Nat :=
  tasks.countP fun task => task.future.isRunning

def cancelTask (task : Task α β ε) : Task α β ε :=
  { task with future := task.future.cancel }

/-- `for _, _, future in queued: future.cancel()` -/
def cancelQueued (pipeline : Pipeline α β ε) : List (Task α β ε) :=
  pipeline.queued.foldl (fun tasks slot => tasks.modify slot.ticket cancelTask) pipeline.tasks

/-- The generator leaves its loop: `finally` cancels what is queued. -/
def leave (pipeline : Pipeline α β ε) (point : Point α β ε) : Pipeline α β ε :=
  { pipeline with
    point
    tasks := cancelQueued pipeline }

def submit (item : α) : Future β ε :=
  match request.cached item with
  | some value => .finished (.ok value)
  | none => .pending

def enqueue (pipeline : Pipeline α β ε) (item : α) : Pipeline α β ε :=
  let charge := (request.size item).toNat
  let queued := pipeline.queued ++ [⟨item, charge, pipeline.tasks.length⟩]
  let reserved := pipeline.reserved + charge
  { pipeline with
    tasks := pipeline.tasks ++ [⟨item, request.submit item⟩]
    queued
    reserved
    readQueueBytesPeak := max pipeline.readQueueBytesPeak reserved
    readQueueRecordsPeak := max pipeline.readQueueRecordsPeak queued.length
    current := pipeline.iterator.head?
    iterator := pipeline.iterator.tail }

def fill (pipeline : Pipeline α β ε) : Pipeline α β ε :=
  match pipeline.current with
  | none => { pipeline with point := .taking }
  | some item =>
    if request.queueLimit ≤ pipeline.queued.length then { pipeline with point := .taking }
    else if ¬ request.validCharge item then leave pipeline (.raised .invalidReservation)
    else if prefetchBytes < pipeline.reserved + (request.size item).toNat then
      { pipeline with point := .taking }
    else request.enqueue pipeline item

def takeLeft (pipeline : Pipeline α β ε) : Pipeline α β ε :=
  match pipeline.queued with
  | [] => leave pipeline (.raised .emptyQueue)
  | slot :: queued =>
    { pipeline with
      point := .waiting slot
      queued }

def turn (pipeline : Pipeline α β ε) : Option (Pipeline α β ε) :=
  match pipeline.point with
  | .looping =>
    if pipeline.current.isNone ∧ pipeline.queued.isEmpty then some (leave pipeline .ended)
    else some { pipeline with point := .filling }
  | .filling => some (request.fill pipeline)
  | .taking => some (takeLeft pipeline)
  | .waiting slot =>
    match pipeline.tasks[slot.ticket]? with
    | some ⟨_, .finished (.ok value)⟩ =>
      some { pipeline with
        point := .yielding slot value
        yielded := pipeline.yielded ++ [(slot.item, value)] }
    | some ⟨_, .finished (.error error)⟩ => some (leave pipeline (.raised (.fetch error)))
    | _ => none
  | .yielding slot _ =>
    some { pipeline with
      point := .looping
      reserved := pipeline.reserved - slot.charge }
  | .ended | .raised _ | .closed => none

inductive Move : Pipeline α β ε → Pipeline α β ε → Prop
  | begin (pipeline : Pipeline α β ε) (ticket : Nat) (item : α)
      (submitted : pipeline.tasks[ticket]? = some ⟨item, .pending⟩)
      (oldest : ∀ task ∈ pipeline.tasks.take ticket, ¬ task.future.isPending)
      (idle : active pipeline.tasks < request.workers) :
      Move pipeline { pipeline with
        tasks := pipeline.tasks.set ticket ⟨item, .running⟩
        readActivePeak := max pipeline.readActivePeak (active pipeline.tasks + 1) }
  | finish (pipeline : Pipeline α β ε) (ticket : Nat) (item : α)
      (begun : pipeline.tasks[ticket]? = some ⟨item, .running⟩) :
      Move pipeline { pipeline with
        tasks := pipeline.tasks.set ticket ⟨item, .finished (request.fetch item)⟩ }
  | turn (pipeline next : Pipeline α β ε) (turned : request.turn pipeline = some next) :
      Move pipeline next
  | close (pipeline : Pipeline α β ε) (slot : Slot α) (value : β)
      (suspended : pipeline.point = .yielding slot value) :
      Move pipeline (leave pipeline .closed)

end Request

end SparseLab.Corpus.Prefetch
