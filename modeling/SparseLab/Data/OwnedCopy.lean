import SparseLab.Library.Routines
import SparseLab.Library.Texts

/-! Private, no-replace file copies from `owned_copy.py`. The system decides how calls end. -/

namespace SparseLab.Data.OwnedCopy

open Library

abbrev Bytes := List UInt8

inductive Failure
  | os
  | fileExists
  | attribute
  | value (message : String)
  | interrupt
deriving DecidableEq

/-- `OSError` with its subclasses. -/
def Failure.IsOs (failure : Failure) : Prop := failure = .os ∨ failure = .fileExists

instance : DecidablePred Failure.IsOs := fun _ => inferInstanceAs (Decidable (_ ∨ _))

inductive Platform
  | linux
  | darwin
  | other
deriving DecidableEq

inductive Site
  | sourceParent | destinationParent | examine | before | openSource
  | opened | resolve | hashSource | authenticated | rewindSource | create
  | privacy
  | reflink | truncateRefused | rewindRefused | rewindAgain
  | closeForClone | unlinkForClone | clonefile | openClone | cloneMode | discardClone | createAgain
  | native (index : Nat) | nativeProgress (index : Nat)
  | nativeTruncate | nativeRewindCopy | nativeRewindSource
  | read (index : Nat) | write (block index : Nat) | writeProgress (block index : Nat)
  | cloneProgress | size | hashCopy | copied | sync | unpublished | temporaryPrint | link
  | unlinkTemporary | published | sealed | afterPublication | written | resolveDestination
  | openParent | syncParent | closeParent | final
deriving DecidableEq

structure Fingerprint where
  device : Nat
  inode : Nat
  mode : Nat
  size : Nat
  mtime : Nat
  ctime : Nat
deriving DecidableEq

def Fingerprint.leading (print : Fingerprint) : List Nat :=
  [print.device, print.inode, print.mode, print.size, print.mtime]

structure Behaviour where
  platform : Platform
  copyFileRange : Bool
  fault : Site → Option Failure
  source : Site → Bytes
  stamp : Site → Fingerprint
  amount : Site → Nat
  leftover : Site → Option Bytes
  resolved : Text
  intruder : Option Bytes

/-- How the calls of the cleanup end: the removal of a published copy, and the `finally` blocks. -/
structure Cleanup where
  rollback : Option Failure
  closeCopy : Option Failure
  unlinkLeft : Option Failure
  closeSource : Option Failure
deriving DecidableEq

structure Proof (δ : Type) where
  owned : Bool
  path : Text
  sha256 : δ
  fingerprint : Fingerprint

structure Request (δ : Type) where
  proof : Option (Proof δ)
  expected : Option δ
  watched : Bool

structure CopyResult (δ : Type) where
  sha256 : δ
  fingerprint : Fingerprint
  mechanism : String
  logicalBytes : Nat
deriving DecidableEq

inductive Entry
  | ours
  | foreign (content : Bytes)
deriving DecidableEq

/-- The files of a copy with the two descriptors. `content` is the private copy's. -/
structure Workspace where
  destination : Option Entry
  arrived : Option Bytes
  temporary : Bool
  content : Bytes
  named : Bool
  fd : Bool
  incoming : Nat
  outgoing : Nat
  reported : Nat
  reports : List Nat
deriving DecidableEq

def start (existing : Option Bytes) : Workspace where
  destination := existing.map .foreign
  arrived := none
  temporary := false
  content := []
  named := false
  fd := false
  incoming := 0
  outgoing := 0
  reported := 0
  reports := []

abbrev M := EStateM Failure Workspace

def chunk : Nat := 1024 * 1024

def writeAt (content : Bytes) (offset : Nat) (block : Bytes) : Bytes :=
  (content ++ List.replicate (offset - content.length) 0).take offset ++ block ++
    content.drop (offset + block.length)

def raising : Option Failure → M Unit
  | some failure => throw failure
  | none => pure ()

section
variable (b : Behaviour)

def call (site : Site) : M Unit := raising (b.fault site)

def sourcePrint (site : Site) : M Fingerprint := do
  call b site
  return { b.stamp site with size := (b.source site).length }

def copyPrint (site : Site) : M Fingerprint := do
  call b site
  return { b.stamp site with size := (← get).content.length }

section
variable (watched : Bool)

def report (site : Site) (position : Nat) : M Unit := do
  modify fun state => { state with reports := state.reports ++ [position] }
  call b site

def advance (site : Site) (position : Nat) : M Unit := do
  if watched = true ∧ (← get).reported < position then
    modify fun state => { state with reported := position }
    report b site position

def nativeCopy (site : Site) (requested : Nat) : M Nat := do
  let state ← get
  let block := ((b.source site).drop state.incoming).take (min requested (b.amount site))
  set { state with
    content := writeAt state.content state.outgoing block
    incoming := state.incoming + block.length
    outgoing := state.outgoing + block.length }
  call b site
  return block.length

def read (site : Site) (requested : Nat) : M Bytes := do
  call b site
  let state ← get
  let block := ((b.source site).drop state.incoming).take (min requested (max 1 (b.amount site)))
  set { state with incoming := state.incoming + block.length }
  return block

def write (site : Site) (view : Bytes) : M Nat := do
  let state ← get
  let block := view.take (b.amount site)
  set { state with
    content := writeAt state.content state.outgoing block
    outgoing := state.outgoing + block.length }
  call b site
  return block.length

def truncate (site : Site) : M Unit := do
  call b site
  modify fun state => { state with content := [] }

def rewindCopy (site : Site) : M Unit := do
  call b site
  modify fun state => { state with outgoing := 0 }

def rewindSource (site : Site) : M Unit := do
  call b site
  modify fun state => { state with incoming := 0 }

/-- Each turn copies at least one byte: `fuel` is as many turns as there are bytes. -/
def nativeLoop (length : Nat) : (fuel index copied : Nat) → M Unit
  | 0, _, _ => pure ()
  | fuel + 1, index, copied => do
      if copied < length then
        let count ← nativeCopy b (.native index) (min chunk (length - copied))
        raiseIf (count = 0) .os
        advance b watched (.nativeProgress index) (copied + count)
        nativeLoop length fuel (index + 1) (copied + count)

def writeLoop (block : Nat) : (fuel index : Nat) → (view : Bytes) → (copied : Nat) → M Nat
  | 0, _, _, copied => pure copied
  | fuel + 1, index, view, copied => do
      if view = [] then return copied
      else
        let count ← write b (.write block index) view
        raiseIf (count = 0) .os
        advance b watched (.writeProgress block index) (copied + count)
        writeLoop block fuel (index + 1) (view.drop count) (copied + count)

def bufferedLoop (length : Nat) : (fuel index copied : Nat) → M Unit
  | 0, _, _ => pure ()
  | fuel + 1, index, copied => do
      if copied < length then
        let block ← read b (.read index) (min chunk (length - copied))
        raiseIf (block = []) (.value "source shortened during copy")
        let copied ← writeLoop b watched index block.length 0 block copied
        bufferedLoop length fuel (index + 1) copied

def nativeTransfer (length : Nat) : M Bool :=
  if b.copyFileRange then
    attempting Failure.IsOs
      (do
        nativeLoop b watched length length 0 0
        return true)
      fun _ => do
        truncate b .nativeTruncate
        rewindCopy b .nativeRewindCopy
        rewindSource b .nativeRewindSource
        return false
  else return false

def transfer (length : Nat) : M String := do
  if ← nativeTransfer b watched length then return "copy_file_range"
  else
    bufferedLoop b watched length length 0 0
    return "buffered"

end

def reflink : M Unit :=
  match b.fault .reflink with
  | none => modify fun state => { state with content := b.source .reflink }
  | some failure => do
      modify fun state => { state with content := (b.leftover .reflink).getD state.content }
      throw failure

def clonefile : M Unit :=
  match b.fault .clonefile with
  | none => modify fun state => { state with temporary := true, content := b.source .clonefile }
  | some failure => do
      modify fun state =>
        { state with temporary := (b.leftover .clonefile).isSome,
                     content := (b.leftover .clonefile).getD [] }
      throw failure

def openClone : M Unit := do
  call b .openClone
  modify fun state => { state with fd := true, outgoing := 0 }

def createAgain : M Unit := do
  call b .createAgain
  modify fun state => { state with temporary := true, content := [], fd := true, outgoing := 0 }

def unlinkTemporary (fault : Option Failure) : M Unit := do
  raising fault
  modify fun state => { state with temporary := false }

def cloneLinux : M (Option String) :=
  attempting Failure.IsOs
    (do
      reflink b
      return some "reflink")
    fun _ => do
      truncate b .truncateRefused
      rewindCopy b .rewindRefused
      rewindSource b .rewindAgain
      return none

def cloneDarwin : M (Option String) := do
  call b .closeForClone
  modify fun state => { state with fd := false }
  unlinkTemporary (b.fault .unlinkForClone)
  attempting (fun failure => failure.IsOs ∨ failure = .attribute)
    (do
      clonefile b
      openClone b
      call b .cloneMode
      return some "clone")
    fun _ => do
      unlinkTemporary (b.fault .discardClone)
      createAgain b
      rewindSource b .rewindAgain
      return none

def clone : M (Option String) :=
  match b.platform with
  | .linux => cloneLinux b
  | .darwin => cloneDarwin b
  | .other => return none

def copyContent (watched : Bool) (length : Nat) : M String := do
  match ← clone b with
  | none => transfer b watched length
  | some mechanism =>
    if watched = true ∧ length ≠ 0 then report b .cloneProgress length
    return mechanism

def link : M Unit := do
  modify fun state =>
    if state.destination.isSome then state
    else { state with destination := b.intruder.map .foreign, arrived := b.intruder }
  call b .link
  raiseIf ((← get).destination.isSome = true) .fileExists
  modify fun state => { state with destination := some .ours }

variable {δ : Type} [DecidableEq δ] (sha256 : Bytes → δ)

def hashSource : M δ := do
  call b .hashSource
  modify fun state => { state with incoming := (b.source .hashSource).length }
  return sha256 (b.source .hashSource)

def hashCopy : M δ := do
  call b .hashCopy
  modify fun state => { state with outgoing := state.content.length }
  return sha256 (← get).content

def authenticate (request : Request δ) (before : Fingerprint) : M δ :=
  match request.proof with
  | some proof => do
      raiseIf (proof.owned = false) (.value "source proof is not a current file seal")
      call b .resolve
      raiseIf (proof.path ≠ b.resolved ∨ proof.fingerprint ≠ before)
        (.value "source proof is not a current file seal")
      return proof.sha256
  | none => do
      let digest ← hashSource b sha256
      let print ← sourcePrint b .authenticated
      raiseIf (print ≠ before) (.value "source changed during authentication")
      return digest

def publish (before hidden : Fingerprint) (authenticated : δ) (mechanism : String) :
    M (CopyResult δ) := do
  unlinkTemporary (b.fault .unlinkTemporary)
  modify fun state => { state with named := false }
  let published ← copyPrint b .published
  let opened ← copyPrint b .sealed
  raiseIf (published.leading ≠ hidden.leading ∨ published ≠ opened)
    (.value "file changed during publication")
  let print ← sourcePrint b .afterPublication
  raiseIf (print ≠ before) (.value "file changed during publication")
  let written ← copyPrint b .written
  raiseIf (written.size ≠ before.size) (.value "prepared write size changed")
  call b .resolveDestination
  raiseIf (written ≠ published) (.value "destination changed during publication")
  call b .openParent
  ensuring (call b .syncParent) (call b .closeParent)
  let final ← copyPrint b .final
  raiseIf (final ≠ written) (.value "destination changed during publication")
  return ⟨authenticated, written, mechanism, before.size⟩

def rollback (c : Cleanup) (failure : Failure) : M (CopyResult δ) := do
  raising c.rollback
  modify fun state => { state with destination := none }
  throw failure

def verifyCopy (before : Fingerprint) (authenticated : δ) : M Unit := do
  call b .size
  raiseIf ((← get).content.length ≠ before.size) (.value "copied file size mismatch")
  let digest ← hashCopy b sha256
  raiseIf (digest ≠ authenticated) (.value "copied file digest mismatch")
  let print ← sourcePrint b .copied
  raiseIf (print ≠ before) (.value "source changed during copy")
  call b .sync
  let print ← sourcePrint b .unpublished
  raiseIf (print ≠ before) (.value "source changed before publication")

def hiddenCopy (watched : Bool) (before : Fingerprint) (authenticated : δ) :
    M (String × Fingerprint) := do
  call b .privacy
  let mechanism ← copyContent b watched before.size
  verifyCopy b sha256 before authenticated
  let hidden ← copyPrint b .temporaryPrint
  link b
  return (mechanism, hidden)

def privateCopy (c : Cleanup) (watched : Bool) (before : Fingerprint) (authenticated : δ) :
    M (CopyResult δ) := do
  let (mechanism, hidden) ← hiddenCopy b sha256 watched before authenticated
  attempting (fun _ => True) (publish b before hidden authenticated mechanism) (rollback c)

def closeDescriptor (c : Cleanup) : M Unit := do
  if (← get).fd then raising c.closeCopy

def unlinkNamed (c : Cleanup) : M Unit := do
  if (← get).named then unlinkTemporary c.unlinkLeft

/-- The inner `finally`. -/
def cleanUp (c : Cleanup) : M Unit := do
  closeDescriptor c
  unlinkNamed c

def makeTemporary : M Unit := do
  call b .create
  modify fun state =>
    { state with temporary := true, content := [], named := true, fd := true, outgoing := 0 }

def prepareCopy (request : Request δ) (before : Fingerprint) : M δ := do
  let opened ← sourcePrint b .opened
  raiseIf (opened ≠ before) (.value "source changed before copying")
  let authenticated ← authenticate b sha256 request before
  raiseIf (∃ expected ∈ request.expected, authenticated ≠ expected)
    (.value "source digest mismatch")
  rewindSource b .rewindSource
  makeTemporary b
  return authenticated

def copyFrom (c : Cleanup) (request : Request δ) (before : Fingerprint) : M (CopyResult δ) := do
  let authenticated ← prepareCopy b sha256 request before
  ensuring (privateCopy b sha256 c request.watched before authenticated) (cleanUp c)

def openSource : M Fingerprint := do
  call b .sourceParent
  call b .destinationParent
  call b .examine
  raiseIf ((← get).destination.isSome = true) .fileExists
  let before ← sourcePrint b .before
  call b .openSource
  return before

def ownedCopy (c : Cleanup) (request : Request δ) : M (CopyResult δ) := do
  let before ← openSource b
  ensuring (copyFrom b sha256 c request before) (raising c.closeSource)

end

structure Hidden (state : Workspace) : Prop where
  absent : state.destination = none
  alone : state.arrived = none
  named : state.named = true

structure Rising (length : Nat) (state : Workspace) : Prop where
  rising : state.reports.Pairwise (· < ·)
  behind : ∀ position ∈ state.reports, position ≤ state.reported
  within : state.reported ≤ length

structure Transferring (length : Nat) (state : Workspace) : Prop where
  hidden : Hidden state
  reports : Rising length state
  opened : state.fd = true

def Told (length : Nat) (state : Workspace) : Prop :=
  state.reports.Pairwise (· < ·) ∧ ∀ position ∈ state.reports, position ≤ length

theorem Rising.told {length : Nat} {state : Workspace} (rising : Rising length state) :
    Told length state :=
  ⟨rising.rising, fun position member => (rising.behind position member).trans rising.within⟩

section
variable {b : Behaviour} {length : Nat} {watched : Bool}

theorem ends_raising {fault : Option Failure} {state : Workspace} {good : Unit → Workspace → Prop}
    {bad : Failure → Workspace → Prop} (passes : good () state)
    (fails : ∀ failure, fault = some failure → bad failure state) :
    Ends (raising fault) state good bad := by
  cases fault with
  | none => exact passes
  | some failure => exact fails failure rfl

theorem keeps_raising {invariant : Workspace → Prop} (fault : Option Failure) :
    Keeps invariant (fun _ => True) (raising fault) :=
  fun _ holds => ends_raising holds fun _ _ => ⟨trivial, holds⟩

theorem keeps_call {invariant : Workspace → Prop} (site : Site) :
    Keeps invariant (fun _ => True) (call b site) := keeps_raising _

theorem keeps_modify {invariant : Workspace → Prop} {write : Workspace → Workspace}
    (kept : ∀ state, invariant state → invariant (write state)) :
    Keeps invariant (fun _ => True) (modify write : M PUnit) :=
  fun state holds => kept state holds

theorem keeps_advance (site : Site) {position : Nat} (within : position ≤ length) :
    Keeps (Transferring length) (fun _ => True) (advance b watched site position) := by
  intro state holds
  refine ends_bind.mpr (ends_get.mpr ?_)
  by_cases news : watched = true ∧ state.reported < position
  · rw [if_pos news]
    refine ends_bind.mpr (ends_modify.mpr (ends_bind.mpr (ends_modify.mpr ?_)))
    refine keeps_call site _ ⟨⟨holds.hidden.absent, holds.hidden.alone, holds.hidden.named⟩,
      ⟨?_, ?_, within⟩, holds.opened⟩
    · refine List.pairwise_append.mpr ⟨holds.reports.rising, List.pairwise_singleton _ _, ?_⟩
      intro earlier member later last
      have bound := holds.reports.behind earlier member
      rw [List.mem_singleton.mp last]
      omega
    · intro earlier member
      rcases List.mem_append.mp member with before | last
      · have bound := holds.reports.behind earlier before
        dsimp only
        omega
      · exact (List.mem_singleton.mp last).le
  · rw [if_neg news]
    exact holds

theorem Transferring.moved {state other : Workspace} (holds : Transferring length state)
    (destination : other.destination = state.destination) (arrived : other.arrived = state.arrived)
    (named : other.named = state.named) (fd : other.fd = state.fd)
    (reported : other.reported = state.reported) (reports : other.reports = state.reports) :
    Transferring length other := by
  obtain ⟨⟨absent, alone, name⟩, ⟨rising, behind, within⟩, opened⟩ := holds
  refine ⟨⟨?_, ?_, ?_⟩, ⟨?_, ?_, ?_⟩, ?_⟩
  · rw [destination, absent]
  · rw [arrived, alone]
  · rw [named, name]
  · rw [reports]
    exact rising
  · rw [reports, reported]
    exact behind
  · rw [reported]
    exact within
  · rw [fd, opened]

theorem ends_nativeCopy (site : Site) (requested : Nat) {state : Workspace}
    (holds : Transferring length state) :
    Ends (nativeCopy b site requested) state
      (fun count written => count ≤ requested ∧ Transferring length written)
      fun _ written => True ∧ Transferring length written := by
  unfold nativeCopy
  refine ends_bind.mpr (ends_get.mpr (ends_bind.mpr ?_))
  refine ends_bind.mpr ?_
  refine ends_raising ?_ ?_
  · refine ⟨?_, holds.moved rfl rfl rfl rfl rfl rfl⟩
    rw [List.length_take]
    omega
  · intro failure _
    exact ⟨trivial, holds.moved rfl rfl rfl rfl rfl rfl⟩

theorem ends_read (site : Site) (requested : Nat) {state : Workspace}
    (holds : Transferring length state) :
    Ends (read b site requested) state
      (fun block written => block.length ≤ requested ∧ Transferring length written)
      fun _ written => True ∧ Transferring length written := by
  unfold read
  refine ends_bind.mpr ((keeps_call site state holds).mono ?_ fun _ _ => id)
  intro _ written kept
  refine ends_bind.mpr (ends_get.mpr (ends_bind.mpr ?_))
  refine ⟨?_, kept.moved rfl rfl rfl rfl rfl rfl⟩
  rw [List.length_take]
  omega

theorem ends_write (site : Site) (view : Bytes) {state : Workspace}
    (holds : Transferring length state) :
    Ends (write b site view) state
      (fun count written => count ≤ view.length ∧ Transferring length written)
      fun _ written => True ∧ Transferring length written := by
  unfold write
  refine ends_bind.mpr (ends_get.mpr (ends_bind.mpr (ends_bind.mpr ?_)))
  refine ends_raising ?_ ?_
  · refine ⟨?_, holds.moved rfl rfl rfl rfl rfl rfl⟩
    rw [List.length_take]
    omega
  · intro failure _
    exact ⟨trivial, holds.moved rfl rfl rfl rfl rfl rfl⟩

theorem keeps_nativeLoop (fuel : Nat) : ∀ index copied,
    Keeps (Transferring length) (fun _ => True)
      (nativeLoop b watched length fuel index copied) := by
  induction fuel with
  | zero => exact fun _ _ => Keeps.pure _
  | succ fuel ih =>
    intro index copied
    unfold nativeLoop
    refine Keeps.ite (fun short => ?_) fun _ => Keeps.pure _
    refine Keeps.after (fun state => ends_nativeCopy (.native index) _) fun count bound => ?_
    refine Keeps.raiseIf_bind (fun _ => trivial) fun _ => ?_
    refine (keeps_advance _ (by omega)).bind fun _ => ih _ _

theorem ends_writeLoop (block fuel : Nat) : ∀ index view copied state,
    copied + view.length ≤ length → Transferring length state →
    Ends (writeLoop b watched block fuel index view copied) state
      (fun copied written => copied ≤ length ∧ Transferring length written)
      fun _ written => True ∧ Transferring length written := by
  induction fuel with
  | zero => exact fun _ _ _ _ bound holds => ⟨by omega, holds⟩
  | succ fuel ih =>
    intro index view copied state bound holds
    unfold writeLoop
    by_cases done : view = []
    · rw [if_pos done]
      exact ⟨by omega, holds⟩
    · rw [if_neg done]
      refine ends_bind.mpr ((ends_write (.write block index) view holds).mono ?_ fun _ _ => id)
      rintro count written ⟨few, kept⟩
      by_cases stuck : count = 0
      · rw [stuck]
        exact ⟨trivial, kept⟩
      · refine (ends_raiseIf_bind stuck).mpr (ends_bind.mpr ?_)
        refine (keeps_advance (.writeProgress block index) (by omega) written kept).mono
          (fun _ later kept => ?_) fun _ _ => id
        refine ih _ _ _ _ ?_ kept
        rw [List.length_drop]
        omega

theorem keeps_bufferedLoop (fuel : Nat) : ∀ index copied,
    Keeps (Transferring length) (fun _ => True)
      (bufferedLoop b watched length fuel index copied) := by
  induction fuel with
  | zero => exact fun _ _ => Keeps.pure _
  | succ fuel ih =>
    intro index copied
    unfold bufferedLoop
    refine Keeps.ite (fun short => ?_) fun _ => Keeps.pure _
    refine Keeps.after (fun state => ends_read (.read index) _) fun view bound => ?_
    refine Keeps.raiseIf_bind (fun _ => trivial) fun _ => ?_
    refine Keeps.after (fun state => ends_writeLoop index view.length 0 view copied state ?_)
      fun copied _ => ih _ _
    omega

theorem keeps_truncate (site : Site) :
    Keeps (Transferring length) (fun _ => True) (truncate b site) :=
  (keeps_call site).bind fun _ => keeps_modify fun _ holds => holds.moved rfl rfl rfl rfl rfl rfl

theorem keeps_rewindCopy (site : Site) :
    Keeps (Transferring length) (fun _ => True) (rewindCopy b site) :=
  (keeps_call site).bind fun _ => keeps_modify fun _ holds => holds.moved rfl rfl rfl rfl rfl rfl

theorem keeps_rewindSource (site : Site) :
    Keeps (Transferring length) (fun _ => True) (rewindSource b site) :=
  (keeps_call site).bind fun _ => keeps_modify fun _ holds => holds.moved rfl rfl rfl rfl rfl rfl

theorem keeps_transfer :
    Keeps (Transferring length) (fun _ => True) (transfer b watched length) := by
  refine Keeps.bind ?_ fun done => ?_
  · unfold nativeTransfer
    split
    · exact ((keeps_nativeLoop length 0 0).bind fun _ => Keeps.pure _).attempting
        (fun _ _ _ => (keeps_truncate _).bind fun _ => (keeps_rewindCopy _).bind fun _ =>
          (keeps_rewindSource _).bind fun _ => Keeps.pure _)
        fun _ _ _ => trivial
    · exact Keeps.pure _
  · split
    · exact Keeps.pure _
    · exact (keeps_bufferedLoop length 0 0).bind fun _ => Keeps.pure _

end

end SparseLab.Data.OwnedCopy
