import Mathlib.Data.List.Infix

/-! Worker and device leases from `workers/leases.py`, over `flock` on open file descriptions. -/

namespace SparseLab.Workers.Leases

structure Request where
  workerId : String
  backend : String
  physicalDeviceId : Option String
deriving DecidableEq

namespace Request

/-- `physical_device_id` where it is neither `None` nor empty. -/
def knownDevice (request : Request) : Option String :=
  request.physicalDeviceId.filter (· ≠ "")

def apple (request : Request) : Bool := request.backend = "mps" || request.backend = "metal"

end Request

/-- `[A-Za-z0-9_.-]` -/
def safeLetter (letter : Char) : Bool :=
  letter.isAlphanum || letter = '_' || letter = '.' || letter = '-'

/-- `_SAFE_LOCK.sub("_", raw)`: one underscore for each run of other letters. -/
def replaceRuns : (inside : Bool) → List Char → List Char
  | _, [] => []
  | inside, letter :: letters =>
    if safeLetter letter then letter :: replaceRuns false letters
    else if inside then replaceRuns true letters
    else '_' :: replaceRuns true letters

def safeLock (raw : String) : String := String.ofList (replaceRuns false raw.toList)

def globalAcceleratorGate : String := "accelerator-host-wide"

def leaseKey (request : Request) : String :=
  safeLock <|
    if request.backend = "cpu" then "worker-" ++ request.workerId
    else match request.knownDevice with
      | some device => if request.apple then "physical-apple-metal" else "physical-" ++ device
      | none => globalAcceleratorGate

example : leaseKey ⟨"a b//c", "cpu", none⟩ = "worker-a_b_c" := by decide +kernel

inductive Mode
  | shared | exclusive
deriving DecidableEq

structure Lock where
  description : Nat
  key : String
  mode : Mode
deriving DecidableEq

/-- What `take` is called with, in order. -/
def plan (request : Request) : List (String × Mode) :=
  (leaseKey { request with backend := "cpu", physicalDeviceId := none }, .exclusive) ::
    if request.backend = "cpu" then []
    else match request.knownDevice with
      | some _ => [(globalAcceleratorGate, .shared), (leaseKey request, .exclusive)]
      | none => [(globalAcceleratorGate, .exclusive)]

structure DeviceLease where
  key : String
  fd : Lock
  gateFd : Option Lock
  slotFd : Option Lock
deriving DecidableEq

def DeviceLease.inheritedFds (lease : DeviceLease) : List Lock :=
  lease.fd :: (lease.gateFd.toList ++ lease.slotFd.toList)

def assemble (request : Request) : List Lock → Option DeviceLease
  | [slot] => some ⟨leaseKey request, slot, none, none⟩
  | [slot, hostGate] => some ⟨leaseKey request, hostGate, none, some slot⟩
  | [slot, hostGate, device] => some ⟨leaseKey request, device, some hostGate, some slot⟩
  | _ => none

inductive Phase
  | taking (held : List Lock) (remaining : List (String × Mode))
  | releasing (held : List Lock)
  | failed
  | live (lease : DeviceLease)
  | closing (remaining : List Lock)
deriving DecidableEq

structure Handle where
  lease : Nat
  process : Nat
  request : Request
  phase : Phase
deriving DecidableEq

def Phase.locks : Phase → List Lock
  | taking held _ => held
  | releasing held => held
  | failed => []
  | live lease => lease.inheritedFds
  | closing remaining => remaining

/-- `acquire_lease` has not returned a lease, and will not if it has failed. -/
def Phase.unfinished : Phase → Bool
  | taking _ _ => true
  | releasing _ => true
  | failed => true
  | live _ => false
  | closing _ => false

def Handle.locks (handle : Handle) : List Lock := handle.phase.locks

structure State where
  handles : List Handle := []
  nextDescription : Nat := 0
  nextLease : Nat := 0
deriving DecidableEq

inductive Event
  | acquire (process : Nat) (request : Request)
  | take (index : Nat)
  | raise (index : Nat)
  | complete (index : Nat)
  | release (index : Nat)
  | inherit (index child : Nat)
  | close (index : Nat)
  | abandon (index : Nat)
deriving DecidableEq

namespace State

variable (state : State)

def locks : List Lock := state.handles.flatMap Handle.locks

/-- `flock` with `LOCK_NB` does not block. -/
def grants (key : String) (mode : Mode) : Bool :=
  state.locks.all fun lock => lock.key ≠ key || (lock.mode = .shared && mode = .shared)

def setPhase (index : Nat) (handle : Handle) (phase : Phase) : State :=
  { state with handles := state.handles.set index { handle with phase } }

def progress (index : Nat) (handle : Handle) : Event → State
  | .take _ =>
    match handle.phase with
    | .taking held ((key, mode) :: remaining) =>
      if state.grants key mode then
        { state.setPhase index handle
            (.taking (held ++ [⟨state.nextDescription, key, mode⟩]) remaining) with
          nextDescription := state.nextDescription + 1 }
      else state.setPhase index handle (.releasing held)
    | _ => state
  | .raise _ =>
    match handle.phase with
    | .taking held _ => state.setPhase index handle (.releasing held)
    | _ => state
  | .complete _ =>
    match handle.phase with
    | .taking held [] =>
      match assemble handle.request held with
      | some lease => state.setPhase index handle (.live lease)
      | none => state
    | _ => state
  | .release _ =>
    match handle.phase with
    | .releasing [] => state.setPhase index handle .failed
    | .releasing (lock :: held) =>
      state.setPhase index handle (.releasing (lock :: held).dropLast)
    | _ => state
  | .close _ =>
    match handle.phase with
    | .live lease => state.setPhase index handle (.closing lease.inheritedFds)
    | .closing (_ :: remaining) => state.setPhase index handle (.closing remaining)
    | _ => state
  | .abandon _ =>
    match handle.phase with
    | .failed => state
    | phase => state.setPhase index handle (.closing phase.locks)
  | .inherit _ child =>
    match handle.phase with
    | .live _ => { state with handles := state.handles ++ [{ handle with process := child }] }
    | _ => state
  | .acquire _ _ => state

def begin (process : Nat) (request : Request) : State :=
  { state with
    handles := state.handles ++ [{
      lease := state.nextLease, process, request, phase := .taking [] (plan request) }]
    nextLease := state.nextLease + 1 }

def onHandle (index : Nat) (event : Event) : State :=
  match state.handles[index]? with
  | some handle => state.progress index handle event
  | none => state

def perform : Event → State
  | .acquire process request => state.begin process request
  | .take index => state.onHandle index (.take index)
  | .raise index => state.onHandle index (.raise index)
  | .complete index => state.onHandle index (.complete index)
  | .release index => state.onHandle index (.release index)
  | .inherit index child => state.onHandle index (.inherit index child)
  | .close index => state.onHandle index (.close index)
  | .abandon index => state.onHandle index (.abandon index)

def run (events : List Event) : State := events.foldl perform {}

end State

def State.held (state : State) : List (Nat × Lock) :=
  state.handles.flatMap fun handle => handle.locks.map fun lock => (handle.lease, lock)

def Compatible (first second : Nat × Lock) : Prop :=
  (first.2.description = second.2.description → first.1 = second.1) ∧
    (first.2.key = second.2.key → first.2.description ≠ second.2.description →
      first.2.mode = .shared ∧ second.2.mode = .shared)

def Handle.Planned (handle : Handle) : Prop :=
  match handle.phase with
  | .taking held remaining =>
    held.map (fun lock => (lock.key, lock.mode)) ++ remaining = plan handle.request
  | .live lease =>
    ∀ entry ∈ plan handle.request, ∃ lock ∈ lease.inheritedFds, (lock.key, lock.mode) = entry
  | _ => True

def Alone (handles : List Handle) : Prop :=
  ∀ (index other : Nat) (first second : Handle), handles[index]? = some first → handles[other]? = some second →
    first.phase.unfinished = true → second.lease = first.lease → other = index

structure Sound (state : State) : Prop where
  fresh : ∀ entry ∈ state.held, entry.2.description < state.nextDescription
  compatible : ∀ first ∈ state.held, ∀ second ∈ state.held, Compatible first second
  numbered : ∀ handle ∈ state.handles, handle.lease < state.nextLease
  planned : ∀ handle ∈ state.handles, handle.Planned
  alone : Alone state.handles

section

variable {state : State} {index : Nat} {handle : Handle} {phase : Phase}

theorem mem_held {lease : Nat} {lock : Lock} : (lease, lock) ∈ state.held ↔
    ∃ handle ∈ state.handles, handle.lease = lease ∧ lock ∈ handle.locks := by
  simp only [State.held, List.mem_flatMap, List.mem_map, Prod.mk.injEq]
  constructor
  · rintro ⟨handle, member, lock, inside, rfl, rfl⟩
    exact ⟨handle, member, rfl, inside⟩
  · rintro ⟨handle, member, rfl, inside⟩
    exact ⟨handle, member, lock, inside, rfl, rfl⟩

theorem Compatible.symm {first second : Nat × Lock} (compatible : Compatible first second) :
    Compatible second first := by
  refine ⟨fun same => (compatible.1 same.symm).symm, fun key different => ?_⟩
  exact (compatible.2 key.symm (Ne.symm different)).symm

theorem mem_setPhase {other : Handle}
    (member : other ∈ (state.setPhase index handle phase).handles) :
    other ∈ state.handles ∨ other = { handle with phase } :=
  List.mem_or_eq_of_mem_set member

theorem Alone.set {handles : List Handle} (alone : Alone handles)
    (found : handles[index]? = some handle)
    (earlier : phase.unfinished = true → handle.phase.unfinished = true) :
    Alone (handles.set index { handle with phase }) := by
  have before : ∀ (place : Nat) (present : Handle), (handles.set index { handle with phase })[place]? = some present →
      ∃ old, handles[place]? = some old ∧ present.lease = old.lease ∧
        (present.phase.unfinished = true → old.phase.unfinished = true) := by
    intro place present there
    by_cases same : index = place
    · subst same
      have inside := (List.getElem?_eq_some_iff.mp found).1
      rw [List.getElem?_set_self inside, Option.some.injEq] at there
      subst there
      exact ⟨handle, found, rfl, earlier⟩
    · rw [List.getElem?_set_ne same] at there
      exact ⟨present, there, rfl, id⟩
  intro place other first second firstThere secondThere unfinished same
  obtain ⟨oldFirst, firstFound, firstLease, wasUnfinished⟩ := before place first firstThere
  obtain ⟨oldSecond, secondFound, secondLease, _⟩ := before other second secondThere
  rw [firstLease, secondLease] at same
  exact alone place other oldFirst oldSecond firstFound secondFound (wasUnfinished unfinished) same

theorem Sound.setPhase (sound : Sound state) (found : state.handles[index]? = some handle)
    (fewer : phase.locks ⊆ handle.locks) (planned : Handle.Planned { handle with phase })
    (earlier : phase.unfinished = true → handle.phase.unfinished = true) :
    Sound (state.setPhase index handle phase) := by
  have member := List.mem_of_getElem? found
  have within : ∀ entry ∈ (state.setPhase index handle phase).held, entry ∈ state.held := by
    rintro ⟨lease, lock⟩ inside
    obtain ⟨other, otherMember, rfl, held⟩ := mem_held.mp inside
    rcases mem_setPhase otherMember with old | rfl
    · exact mem_held.mpr ⟨other, old, rfl, held⟩
    · exact mem_held.mpr ⟨handle, member, rfl, fewer held⟩
  refine ⟨?_, ?_, ?_, ?_, sound.alone.set found earlier⟩
  · intro entry inside
    exact sound.fresh entry (within entry inside)
  · intro first firstInside second secondInside
    exact sound.compatible first (within first firstInside) second (within second secondInside)
  · intro other inside
    rcases mem_setPhase inside with old | rfl
    · exact sound.numbered other old
    · exact sound.numbered handle member
  · intro other inside
    rcases mem_setPhase inside with old | rfl
    · exact sound.planned other old
    · exact planned

theorem Sound.take (sound : Sound state) (found : state.handles[index]? = some handle)
    {held : List Lock} {key : String} {mode : Mode} {remaining : List (String × Mode)}
    (taking : handle.phase = .taking held ((key, mode) :: remaining))
    (grants : state.grants key mode = true) :
    Sound { state.setPhase index handle
        (.taking (held ++ [⟨state.nextDescription, key, mode⟩]) remaining) with
      nextDescription := state.nextDescription + 1 } := by
  have member := List.mem_of_getElem? found
  have within : ∀ entry, entry ∈ (state.setPhase index handle
        (.taking (held ++ [⟨state.nextDescription, key, mode⟩]) remaining)).held →
      entry ∈ state.held ∨ entry = (handle.lease, ⟨state.nextDescription, key, mode⟩) := by
    rintro ⟨lease, lock⟩ inside
    obtain ⟨other, otherMember, rfl, present⟩ := mem_held.mp inside
    rcases mem_setPhase otherMember with old | rfl
    · exact .inl (mem_held.mpr ⟨other, old, rfl, present⟩)
    · rcases List.mem_append.mp present with earlier | new
      · refine .inl (mem_held.mpr ⟨handle, member, rfl, ?_⟩)
        rw [Handle.locks, taking]
        exact earlier
      · rw [List.mem_singleton.mp new]
        exact .inr rfl
  -- A lock that is there already allows the new one, whose description is fresh.
  have beside : ∀ entry ∈ state.held,
      Compatible entry (handle.lease, ⟨state.nextDescription, key, mode⟩) := by
    rintro ⟨lease, lock⟩ inside
    have older := sound.fresh _ inside
    refine ⟨fun same => ?_, fun sameKey _ => ?_⟩
    · simp only at same older
      omega
    · obtain ⟨other, otherMember, _, present⟩ := mem_held.mp inside
      have allowed := List.all_eq_true.mp grants lock
        (List.mem_flatMap.mpr ⟨other, otherMember, present⟩)
      simp only [ne_eq, decide_not, Bool.or_eq_true, Bool.not_eq_true', decide_eq_false_iff_not,
        Bool.and_eq_true, decide_eq_true_eq] at allowed
      exact allowed.resolve_left (not_not_intro sameKey)
  refine ⟨?_, ?_, ?_, ?_, sound.alone.set found ?_⟩
  · intro entry inside
    rcases within entry inside with old | rfl
    · have below := sound.fresh entry old
      simp only
      omega
    · exact Nat.lt_succ_self _
  · intro first firstInside second secondInside
    rcases within first firstInside with oldFirst | rfl
    · rcases within second secondInside with oldSecond | rfl
      · exact sound.compatible first oldFirst second oldSecond
      · exact beside first oldFirst
    · rcases within second secondInside with oldSecond | rfl
      · exact (beside second oldSecond).symm
      · exact ⟨fun _ => rfl, fun _ different => absurd rfl different⟩
  · intro other inside
    rcases mem_setPhase inside with old | rfl
    · exact sound.numbered other old
    · exact sound.numbered handle member
  · intro other inside
    rcases mem_setPhase inside with old | rfl
    · exact sound.planned other old
    · have planned := sound.planned handle member
      simp only [Handle.Planned, taking] at planned
      simp only [Handle.Planned, ← planned, List.map_append, List.map_cons, List.map_nil,
        List.append_assoc, List.singleton_append]
  · intro _
    rw [taking]
    rfl

theorem getElem?_concat {values : List Handle} {last found : Handle} {place : Nat}
    (there : (values ++ [last])[place]? = some found) :
    values[place]? = some found ∨ (place = values.length ∧ found = last) := by
  rw [List.getElem?_append] at there
  split at there
  · exact .inl there
  · rw [List.getElem?_singleton] at there
    split at there
    · cases there
      exact .inr ⟨by omega, rfl⟩
    · cases there

theorem Sound.begin (sound : Sound state) (process : Nat) (request : Request) :
    Sound (state.begin process request) := by
  have within : ∀ entry ∈ (state.begin process request).held, entry ∈ state.held := by
    rintro ⟨lease, lock⟩ inside
    obtain ⟨other, otherMember, rfl, present⟩ := mem_held.mp inside
    rcases List.mem_append.mp otherMember with old | new
    · exact mem_held.mpr ⟨other, old, rfl, present⟩
    · rw [List.mem_singleton.mp new] at present
      cases present
  refine ⟨?_, ?_, ?_, ?_, ?_⟩
  · intro entry inside
    exact sound.fresh entry (within entry inside)
  · intro first firstInside second secondInside
    exact sound.compatible first (within first firstInside) second (within second secondInside)
  · intro other inside
    rcases List.mem_append.mp inside with old | new
    · have below := sound.numbered other old
      simp only [State.begin]
      omega
    · rw [List.mem_singleton.mp new]
      exact Nat.lt_succ_self _
  · intro other inside
    rcases List.mem_append.mp inside with old | new
    · exact sound.planned other old
    · rw [List.mem_singleton.mp new]
      rfl
  · -- The new handle is the only one with the new number.
    have lease : ∀ (place : Nat) (present : Handle), (state.begin process request).handles[place]? = some present →
        (state.handles[place]? = some present ∧ present.lease < state.nextLease) ∨
          (place = state.handles.length ∧ present.lease = state.nextLease) := by
      intro place present there
      rcases getElem?_concat there with old | ⟨last, rfl⟩
      · exact .inl ⟨old, sound.numbered present (List.mem_of_getElem? old)⟩
      · exact .inr ⟨last, rfl⟩
    intro place other first second firstThere secondThere unfinished same
    rcases lease place first firstThere with ⟨firstOld, firstBelow⟩ | ⟨firstPlace, firstNew⟩ <;>
      rcases lease other second secondThere with ⟨secondOld, secondBelow⟩ | ⟨secondPlace, secondNew⟩
    · exact sound.alone place other first second firstOld secondOld unfinished same
    · omega
    · omega
    · omega

theorem Sound.inherit (sound : Sound state) (found : state.handles[index]? = some handle)
    {lease : DeviceLease} (live : handle.phase = .live lease) (child : Nat) :
    Sound { state with handles := state.handles ++ [{ handle with process := child }] } := by
  have member := List.mem_of_getElem? found
  have within : ∀ entry, entry ∈ State.held
        { state with handles := state.handles ++ [{ handle with process := child }] } →
      entry ∈ state.held := by
    rintro ⟨number, lock⟩ inside
    obtain ⟨other, otherMember, rfl, present⟩ := mem_held.mp inside
    rcases List.mem_append.mp otherMember with old | new
    · exact mem_held.mpr ⟨other, old, rfl, present⟩
    · rw [List.mem_singleton.mp new] at present ⊢
      exact mem_held.mpr ⟨handle, member, rfl, present⟩
  refine ⟨?_, ?_, ?_, ?_, ?_⟩
  · intro entry inside
    exact sound.fresh entry (within entry inside)
  · intro first firstInside second secondInside
    exact sound.compatible first (within first firstInside) second (within second secondInside)
  · intro other inside
    rcases List.mem_append.mp inside with old | new
    · exact sound.numbered other old
    · rw [List.mem_singleton.mp new]
      exact sound.numbered handle member
  · intro other inside
    rcases List.mem_append.mp inside with old | new
    · exact sound.planned other old
    · rw [List.mem_singleton.mp new]
      exact sound.planned handle member
  · -- The copy has the lease and the phase of a handle that was there.
    have copied : ∀ (place : Nat) (present : Handle),
        (state.handles ++ [{ handle with process := child }])[place]? = some present →
        state.handles[place]? = some present ∨
          (present.lease = handle.lease ∧ present.phase = handle.phase) := by
      intro place present there
      rcases getElem?_concat there with old | ⟨-, rfl⟩
      · exact .inl old
      · exact .inr ⟨rfl, rfl⟩
    have started : handle.phase.unfinished = false := by
      rw [live]
      rfl
    intro place other first second firstThere secondThere unfinished same
    rcases copied place first firstThere with firstOld | ⟨_, samePhase⟩
    · rcases copied other second secondThere with secondOld | ⟨sameLease, _⟩
      · exact sound.alone place other first second firstOld secondOld unfinished same
      · rw [sameLease] at same
        have here := sound.alone place index first handle firstOld found unfinished same
        rw [here, firstOld, Option.some.injEq] at found
        rw [found, started] at unfinished
        cases unfinished
    · rw [samePhase, started] at unfinished
      cases unfinished

theorem mem_inheritedFds {request : Request} {held : List Lock} {lease : DeviceLease}
    (assembled : assemble request held = some lease) {lock : Lock} :
    lock ∈ lease.inheritedFds ↔ lock ∈ held := by
  unfold assemble at assembled
  split at assembled
  · cases assembled
    simp [DeviceLease.inheritedFds]
  · cases assembled
    simp [DeviceLease.inheritedFds, or_comm]
  · cases assembled
    simp only [DeviceLease.inheritedFds, Option.toList_some, List.mem_cons, List.mem_append,
      List.not_mem_nil, or_false]
    constructor
    · rintro (same | same | same) <;> simp [same]
    · rintro (same | same | same) <;> simp [same]
  · cases assembled

theorem Sound.progress (sound : Sound state) (found : state.handles[index]? = some handle)
    (event : Event) : Sound (state.progress index handle event) := by
  have member := List.mem_of_getElem? found
  have planned := sound.planned handle member
  cases event with
  | acquire process request => exact sound
  | take _ =>
    cases phase : handle.phase with
    | taking held remaining =>
      cases remaining with
      | nil => simpa only [State.progress, phase] using sound
      | cons next remaining =>
        simp only [State.progress, phase]
        by_cases grants : state.grants next.1 next.2 = true
        · rw [if_pos grants]
          exact sound.take found phase grants
        · rw [if_neg grants]
          refine sound.setPhase found ?_ trivial ?_
          · rw [Handle.locks, phase]
            exact List.Subset.refl _
          · intro _
            rw [phase]
            rfl
    | _ => simpa only [State.progress, phase] using sound
  | raise _ =>
    cases phase : handle.phase with
    | taking held remaining =>
      simp only [State.progress, phase]
      refine sound.setPhase found ?_ trivial ?_
      · rw [Handle.locks, phase]
        exact List.Subset.refl _
      · intro _
        rw [phase]
        rfl
    | _ => simpa only [State.progress, phase] using sound
  | complete _ =>
    cases phase : handle.phase with
    | taking held remaining =>
      cases remaining with
      | cons next remaining => simpa only [State.progress, phase] using sound
      | nil =>
        simp only [State.progress, phase]
        cases assembled : assemble handle.request held with
        | none => exact sound
        | some lease =>
          refine sound.setPhase found ?_ ?_ ?_
          · intro lock inside
            rw [Handle.locks, phase]
            exact (mem_inheritedFds assembled).mp inside
          · simp only [Handle.Planned, phase, List.append_nil] at planned
            intro entry wanted
            rw [← planned] at wanted
            obtain ⟨lock, inside, same⟩ := List.mem_map.mp wanted
            exact ⟨lock, (mem_inheritedFds assembled).mpr inside, same⟩
          · intro unfinished
            cases unfinished
    | _ => simpa only [State.progress, phase] using sound
  | release _ =>
    cases phase : handle.phase with
    | releasing held =>
      have unfinished : handle.phase.unfinished = true := by
        rw [phase]
        rfl
      cases held with
      | nil =>
        simp only [State.progress, phase]
        exact sound.setPhase found (List.nil_subset _) trivial fun _ => unfinished
      | cons lock held =>
        simp only [State.progress, phase]
        refine sound.setPhase found ?_ trivial fun _ => unfinished
        rw [Handle.locks, phase]
        exact List.dropLast_subset _
    | _ => simpa only [State.progress, phase] using sound
  | inherit _ child =>
    cases phase : handle.phase with
    | live lease =>
      simp only [State.progress, phase]
      have copied := sound.inherit found phase child
      simpa only [phase] using copied
    | _ => simpa only [State.progress, phase] using sound
  | close _ =>
    cases phase : handle.phase with
    | live lease =>
      simp only [State.progress, phase]
      refine sound.setPhase found ?_ trivial fun unfinished => nomatch unfinished
      rw [Handle.locks, phase]
      exact List.Subset.refl _
    | closing remaining =>
      cases remaining with
      | nil => simpa only [State.progress, phase] using sound
      | cons lock remaining =>
        simp only [State.progress, phase]
        refine sound.setPhase found ?_ trivial fun unfinished => nomatch unfinished
        rw [Handle.locks, phase]
        exact List.subset_cons_self _ _
    | _ => simpa only [State.progress, phase] using sound
  | abandon _ =>
    have closes : Sound (state.setPhase index handle (.closing handle.phase.locks)) :=
      sound.setPhase found (List.Subset.refl _) trivial fun unfinished => nomatch unfinished
    cases phase : handle.phase with
    | failed => simpa only [State.progress, phase] using sound
    | taking held remaining => simpa only [State.progress, phase] using closes
    | releasing held => simpa only [State.progress, phase] using closes
    | live lease => simpa only [State.progress, phase] using closes
    | closing remaining => simpa only [State.progress, phase] using closes

theorem Sound.onHandle (sound : Sound state) (index : Nat) (event : Event) :
    Sound (state.onHandle index event) := by
  unfold State.onHandle
  cases found : state.handles[index]? with
  | none => exact sound
  | some handle => exact sound.progress found event

theorem Sound.perform (sound : Sound state) (event : Event) : Sound (state.perform event) := by
  cases event with
  | acquire process request => exact sound.begin process request
  | _ => exact sound.onHandle _ _

theorem sound_run (events : List Event) : Sound (State.run events) := by
  have empty : Sound {} := by
    have none : State.held {} = [] := rfl
    refine ⟨?_, ?_, by simp, by simp, ?_⟩
    · simp [none]
    · simp [none]
    · intro place other first second there
      cases there
  have every : ∀ state, Sound state → Sound (events.foldl State.perform state) := by
    induction events with
    | nil => exact fun _ sound => sound
    | cons event events ih => exact fun state sound => ih _ (sound.perform event)
  exact every {} empty

end

namespace Request

def SameWorker (first second : Request) : Prop := first.workerId = second.workerId

def onAccelerator (request : Request) : Bool := request.backend ≠ "cpu"

inductive Names : Request → Option String → Prop
  | apple {request : Request} {device : String} (accelerator : request.onAccelerator = true)
      (known : request.knownDevice = some device) (apple : request.apple = true) :
      Names request none
  | other {request : Request} {device : String} (accelerator : request.onAccelerator = true)
      (known : request.knownDevice = some device) (apple : request.apple = false) :
      Names request (some device)

def SameDevice (first second : Request) : Prop := ∃ device, Names first device ∧ Names second device

def Unidentified (first second : Request) : Prop :=
  first.onAccelerator = true ∧ second.onAccelerator = true ∧
    (first.knownDevice = none ∨ second.knownDevice = none)

def Conflict (first second : Request) : Prop :=
  SameWorker first second ∨ SameDevice first second ∨ Unidentified first second

end Request

section

variable {first second : Request}

def deviceText : Option String → String
  | none => "physical-apple-metal"
  | some device => "physical-" ++ device

theorem leaseKey_of_names {device : Option String} (named : first.Names device) :
    leaseKey first = safeLock (deviceText device) := by
  cases named with
  | apple accelerator known apple =>
    have other : first.backend ≠ "cpu" := of_decide_eq_true accelerator
    simp [leaseKey, deviceText, other, known, apple]
  | other accelerator known apple =>
    have other : first.backend ≠ "cpu" := of_decide_eq_true accelerator
    simp [leaseKey, deviceText, other, known, apple]

theorem device_planned {device : Option String} (named : first.Names device) :
    (leaseKey first, Mode.exclusive) ∈ plan first := by
  cases named with
  | apple accelerator known apple =>
    have other : first.backend ≠ "cpu" := of_decide_eq_true accelerator
    simp [plan, other, known]
  | other accelerator known apple =>
    have other : first.backend ≠ "cpu" := of_decide_eq_true accelerator
    simp [plan, other, known]

theorem gate_planned (accelerator : first.onAccelerator = true) :
    ∃ mode, (globalAcceleratorGate, mode) ∈ plan first ∧
      (first.knownDevice = none → mode = .exclusive) := by
  have other : first.backend ≠ "cpu" := of_decide_eq_true accelerator
  cases known : first.knownDevice with
  | none => exact ⟨.exclusive, by simp [plan, other, known], fun _ => rfl⟩
  | some device => exact ⟨.shared, by simp [plan, other, known], fun none => nomatch none⟩

theorem Request.Conflict.planned (conflict : first.Conflict second) :
    ∃ key mode mode', (key, mode) ∈ plan first ∧ (key, mode') ∈ plan second ∧
      ¬ (mode = .shared ∧ mode' = .shared) := by
  rcases conflict with worker | ⟨device, named, named'⟩ | ⟨accelerator, accelerator', unknown⟩
  · refine ⟨_, .exclusive, .exclusive, List.mem_cons_self, ?_, by simp⟩
    have same : leaseKey { first with backend := "cpu", physicalDeviceId := none } =
        leaseKey { second with backend := "cpu", physicalDeviceId := none } := by
      rw [Request.SameWorker] at worker
      simp [leaseKey, worker]
    rw [same]
    exact List.mem_cons_self
  · refine ⟨leaseKey first, .exclusive, .exclusive, device_planned named, ?_, by simp⟩
    rw [leaseKey_of_names named, ← leaseKey_of_names named']
    exact device_planned named'
  · obtain ⟨mode, member, exclusive⟩ := gate_planned accelerator
    obtain ⟨mode', member', exclusive'⟩ := gate_planned accelerator'
    refine ⟨_, mode, mode', member, member', ?_⟩
    rintro ⟨rfl, rfl⟩
    rcases unknown with none | none
    · cases exclusive none
    · cases exclusive' none

end

structure Excluded (state : State) : Prop where
  exclusive : ∀ first ∈ state.handles, ∀ second ∈ state.handles, ∀ lease lease' : DeviceLease,
    first.phase = .live lease → second.phase = .live lease' → first.lease ≠ second.lease →
      ¬ first.request.Conflict second.request
  released : ∀ handle ∈ state.handles, handle.phase = .failed →
    ∀ entry ∈ state.held, entry.1 ≠ handle.lease

theorem Sound.exclusive {state : State} (sound : Sound state) {first second : Handle}
    (firstMember : first ∈ state.handles) (secondMember : second ∈ state.handles)
    {lease lease' : DeviceLease} (firstLive : first.phase = .live lease)
    (secondLive : second.phase = .live lease') (different : first.lease ≠ second.lease) :
    ¬ first.request.Conflict second.request := by
  intro conflict
  obtain ⟨key, mode, mode', firstPlan, secondPlan, excluded⟩ := conflict.planned
  have firstPlanned := sound.planned first firstMember
  have secondPlanned := sound.planned second secondMember
  simp only [Handle.Planned, firstLive] at firstPlanned
  simp only [Handle.Planned, secondLive] at secondPlanned
  obtain ⟨lock, inside, same⟩ := firstPlanned _ firstPlan
  obtain ⟨lock', inside', same'⟩ := secondPlanned _ secondPlan
  rw [Prod.mk.injEq] at same same'
  have held : (first.lease, lock) ∈ state.held := by
    refine mem_held.mpr ⟨first, firstMember, rfl, ?_⟩
    rw [Handle.locks, firstLive]
    exact inside
  have held' : (second.lease, lock') ∈ state.held := by
    refine mem_held.mpr ⟨second, secondMember, rfl, ?_⟩
    rw [Handle.locks, secondLive]
    exact inside'
  have compatible := sound.compatible _ held _ held'
  have apart : lock.description ≠ lock'.description := fun one => different (compatible.1 one)
  have shared := compatible.2 (same.1.trans same'.1.symm) apart
  rw [same.2, same'.2] at shared
  exact excluded shared

theorem Sound.released {state : State} (sound : Sound state) {handle : Handle}
    (member : handle ∈ state.handles) (failed : handle.phase = .failed) :
    ∀ entry ∈ state.held, entry.1 ≠ handle.lease := by
  rintro ⟨lease, lock⟩ inside same
  obtain ⟨other, otherMember, rfl, present⟩ := mem_held.mp inside
  obtain ⟨index, found⟩ := List.mem_iff_getElem?.mp member
  obtain ⟨place, otherFound⟩ := List.mem_iff_getElem?.mp otherMember
  have unfinished : handle.phase.unfinished = true := by
    rw [failed]
    rfl
  have here := sound.alone index place handle other found otherFound unfinished same
  rw [here, found, Option.some.injEq] at otherFound
  rw [← otherFound, Handle.locks, failed] at present
  cases present

theorem lease_exclusion (events : List Event) : Excluded (State.run events) := by
  have sound := sound_run events
  refine ⟨?_, ?_⟩
  · intro first firstMember second secondMember lease lease' firstLive secondLive different
    exact sound.exclusive firstMember secondMember firstLive secondLive different
  · intro handle member failed
    exact sound.released member failed

end SparseLab.Workers.Leases
