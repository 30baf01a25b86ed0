import Mathlib.Data.List.AList
import SparseLab.Library.Threads

/-!
Launch deliveries to a hosted worker, from `workers/colab.py`. The controller that launches holds
its process lock; observers hold nothing.
-/

namespace SparseLab.Workers.Deliveries

open Library

inductive DeliveryState
  | prepared | issued | observedRunning | observedTerminal
deriving DecidableEq

def DeliveryState.rank : DeliveryState → Nat
  | prepared => 0
  | issued => 1
  | observedRunning => 2
  | observedTerminal => 3

structure Delivery where
  state : DeliveryState
  attemptId : String
  instanceId : String
  specDigest : String
  issuedAt : Int
deriving DecidableEq

/-- The states for which `_assert_no_other_delivery` refuses another attempt. -/
def Delivery.Unfinished (delivery : Delivery) : Prop := delivery.state ≠ .observedTerminal

instance (delivery : Delivery) : Decidable delivery.Unfinished :=
  inferInstanceAs (Decidable (_ ≠ _))

structure Call where
  attemptId : String
  instanceId : String
  specDigest : String
deriving DecidableEq

structure Root where
  records : AList fun _ : String => Delivery
  controller : Option Nat
  slots : String → Option Nat
  executed : List String

namespace Root

variable (root : Root)

def write (delivery : Delivery) : Root :=
  { root with records := root.records.insert delivery.attemptId delivery }

def release (process : Nat) : Root :=
  { root with
    controller := if root.controller = some process then none else root.controller
    slots := fun place => if root.slots place = some process then none else root.slots place }

@[simp] theorem write_records (delivery : Delivery) :
    (root.write delivery).records = root.records.insert delivery.attemptId delivery := rfl

@[simp] theorem write_controller (delivery : Delivery) :
    (root.write delivery).controller = root.controller := rfl

@[simp] theorem write_executed (delivery : Delivery) :
    (root.write delivery).executed = root.executed := rfl

@[simp] theorem release_records (process : Nat) :
    (root.release process).records = root.records := rfl

@[simp] theorem release_executed (process : Nat) :
    (root.release process).executed = root.executed := rfl

end Root

/-- Where a process stands. `rest` are the files that `_assert_no_other_delivery` still reads. -/
inductive Program
  | launch (call : Call)
  | looking (call : Call) (rest : List String)
  | reading (call : Call)
  | preparing (call : Call)
  | recording (call : Call) (rest : List String)
  | recorded (call : Call)
  | recordWrite (call : Call)
  | reread (call : Call)
  | locking (call : Call)
  | checking (call : Call) (rest : List String)
  | issuing (call : Call)
  | asking (call : Call) (existing : Delivery)
  | writing (call : Call) (existing : Delivery)
  | executing (call : Call)
  | reconciling (attemptId specDigest : String) (terminal : Bool)
  | marking (attemptId : String) (terminal : Bool)
  | observing (record : Delivery) (terminal : Bool)
deriving DecidableEq

def observed (terminal : Bool) : DeliveryState :=
  if terminal then .observedTerminal else .observedRunning

/-- One file of `_assert_no_other_delivery`. -/
def Passes (call : Call) (other : Delivery) : Prop :=
  other.attemptId = call.attemptId ∨ other.instanceId ≠ call.instanceId ∨ ¬ other.Unfinished

instance (call : Call) (other : Delivery) : Decidable (Passes call other) :=
  inferInstanceAs (Decidable (_ ∨ _ ∨ _))

/-- The record that `record_prepared_delivery` and `issue_foreground_launch` accept. -/
def Agrees (call : Call) (existing : Delivery) : Prop :=
  existing.instanceId = call.instanceId ∧ existing.specDigest = call.specDigest

instance (call : Call) (existing : Delivery) : Decidable (Agrees call existing) :=
  inferInstanceAs (Decidable (_ ∧ _))

/-- The new record of `record_prepared_delivery`. -/
def preparedRecord (call : Call) (time : Int) : Delivery where
  state := .prepared
  attemptId := call.attemptId
  instanceId := call.instanceId
  specDigest := call.specDigest
  issuedAt := time

/-- One turn of a process. A turn has at most one access to a file. A call that raises ends the
process with it, as far as the deliveries are concerned. -/
inductive Turn (process : Nat) : Root → Program → Root → Option Program → Prop
  | begin (root : Root) (call : Call) (free : root.controller = none) :
      Turn process root (.launch call) { root with controller := some process }
        (some (.looking call root.records.keys))
  | look (root : Root) (call : Call) (candidate : String) (rest : List String)
      (other : Delivery) (found : root.records.lookup candidate = some other)
      (passes : Passes call other) :
      Turn process root (.looking call (candidate :: rest)) root (some (.looking call rest))
  | looked (root : Root) (call : Call) :
      Turn process root (.looking call []) root (some (.reading call))
  | launchNew (root : Root) (call : Call)
      (absent : root.records.lookup call.attemptId = none) :
      Turn process root (.reading call) root (some (.preparing call))
  | launchPrepared (root : Root) (call : Call) (delivery : Delivery)
      (found : root.records.lookup call.attemptId = some delivery)
      (prepared : delivery.state = .prepared) :
      Turn process root (.reading call) root (some (.locking call))
  | prepare (root : Root) (call : Call) :
      Turn process root (.preparing call) root (some (.recording call root.records.keys))
  | prepareFurther (root : Root) (call : Call) (terminal : Bool) :
      Turn process root (.preparing call) root
        (some (.reconciling call.attemptId call.specDigest terminal))
  | record (root : Root) (call : Call) (candidate : String) (rest : List String)
      (other : Delivery) (found : root.records.lookup candidate = some other)
      (passes : Passes call other) :
      Turn process root (.recording call (candidate :: rest)) root (some (.recording call rest))
  | recordChecked (root : Root) (call : Call) :
      Turn process root (.recording call []) root (some (.recorded call))
  | recordNew (root : Root) (call : Call)
      (absent : root.records.lookup call.attemptId = none) :
      Turn process root (.recorded call) root (some (.recordWrite call))
  | recordFound (root : Root) (call : Call) (existing : Delivery)
      (found : root.records.lookup call.attemptId = some existing)
      (agrees : Agrees call existing) :
      Turn process root (.recorded call) root (some (.reread call))
  | recordWritten (root : Root) (call : Call) (time : Int) :
      Turn process root (.recordWrite call) (root.write (preparedRecord call time))
        (some (.reread call))
  | rereadPrepared (root : Root) (call : Call) (delivery : Delivery)
      (found : root.records.lookup call.attemptId = some delivery)
      (prepared : delivery.state = .prepared) :
      Turn process root (.reread call) root (some (.locking call))
  | lock (root : Root) (call : Call) (free : root.slots call.instanceId = none) :
      Turn process root (.locking call)
        { root with slots := Function.update root.slots call.instanceId (some process) }
        (some (.checking call root.records.keys))
  | check (root : Root) (call : Call) (candidate : String) (rest : List String)
      (other : Delivery) (found : root.records.lookup candidate = some other)
      (passes : Passes call other) :
      Turn process root (.checking call (candidate :: rest)) root (some (.checking call rest))
  | checked (root : Root) (call : Call) :
      Turn process root (.checking call []) root (some (.issuing call))
  | issue (root : Root) (call : Call) (existing : Delivery)
      (found : root.records.lookup call.attemptId = some existing)
      (agrees : Agrees call existing) (prepared : existing.state = .prepared) :
      Turn process root (.issuing call) root (some (.asking call existing))
  | asked (root : Root) (call : Call) (existing : Delivery) :
      Turn process root (.asking call existing) root (some (.writing call existing))
  | written (root : Root) (call : Call) (existing : Delivery) (time : Int) :
      Turn process root (.writing call existing)
        (root.write { existing with state := .issued, issuedAt := time }) (some (.executing call))
  | execute (root : Root) (call : Call) :
      Turn process root (.executing call)
        ({ root with executed := root.executed ++ [call.attemptId] }.release process) none
  | reconcile (root : Root) (attemptId specDigest : String) (terminal : Bool)
      (delivery : Delivery) (found : root.records.lookup attemptId = some delivery)
      (same : delivery.specDigest = specDigest) :
      Turn process root (.reconciling attemptId specDigest terminal) root
        (some (.marking attemptId terminal))
  | mark (root : Root) (attemptId : String) (terminal : Bool) (record : Delivery)
      (found : root.records.lookup attemptId = some record)
      (open' : ¬ (record.state = .observedTerminal ∧ terminal = false)) :
      Turn process root (.marking attemptId terminal) root (some (.observing record terminal))
  | observe (root : Root) (record : Delivery) (terminal : Bool) :
      Turn process root (.observing record terminal)
        ((root.write { record with state := observed terminal }).release process) none
  | leave (root : Root) (program : Program) :
      Turn process root program (root.release process) none

inductive Starts : Program → Prop
  | launch (call : Call) : Starts (.launch call)
  | reconcile (attemptId specDigest : String) (terminal : Bool) :
      Starts (.reconciling attemptId specDigest terminal)

def protocol : Protocol Root Program where
  turn := Turn
  start := Starts
  crash process root := root.release process

def Root.empty : Root where
  records := ∅
  controller := none
  slots _ := none
  executed := []

def idle : Threads Root Program where
  shared := .empty
  program _ := none
  used := []

end SparseLab.Workers.Deliveries
