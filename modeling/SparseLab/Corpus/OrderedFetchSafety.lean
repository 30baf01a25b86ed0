import Mathlib.Data.List.Forall2
import SparseLab.Corpus.OrderedFetch
import SparseLab.Library.Runs

/-! Ordered reads keep their limits and end with what inline reads give. -/

namespace SparseLab.Corpus.Prefetch

open Library

namespace Request

variable {α β ε : Type} {request : Request α β ε} {items : List α}

section

theorem inlineFetch_append {yielded : List (α × β)} {rest : List α}
    (sizes : ∀ entry ∈ yielded, request.validCharge entry.1)
    (read : ∀ entry ∈ yielded, request.result entry.1 = .ok entry.2) :
    request.inlineFetch (yielded.map Prod.fst ++ rest) =
      (yielded ++ (request.inlineFetch rest).1, (request.inlineFetch rest).2) := by
  induction yielded with
  | nil => rfl
  | cons entry yielded ih =>
    have later := ih (fun other member => sizes other (List.mem_cons_of_mem _ member))
      (fun other member => read other (List.mem_cons_of_mem _ member))
    rw [List.map_cons, List.cons_append, inlineFetch, if_pos (sizes entry List.mem_cons_self),
      read entry List.mem_cons_self, later]
    rfl

theorem inlineFetch_all {value : α → β} (sizes : ∀ item ∈ items, request.validCharge item)
    (read : ∀ item ∈ items, request.result item = .ok (value item)) :
    request.inlineFetch items = (items.map fun item => (item, value item), none) := by
  have valid : ∀ entry ∈ items.map fun item => (item, value item),
      request.validCharge entry.1 := by simpa using sizes
  have whole := @inlineFetch_append _ _ _ request _ [] valid (by simpa using read)
  simpa [inlineFetch, Function.comp_def] using whole

end

section

def slots (request : Request α β ε) (tasks : List (Task α β ε)) : List (Slot α) :=
  (tasks.map Task.item).zipIdx.map fun entry =>
    ⟨entry.1, (request.size entry.1).toNat, entry.2⟩

def charged (queued : List (Slot α)) : Nat :=
  (queued.map Slot.charge).sum

theorem slots_append (tasks : List (Task α β ε)) (task : Task α β ε) :
    request.slots (tasks ++ [task]) = request.slots tasks ++
      [⟨task.item, (request.size task.item).toNat, tasks.length⟩] := by
  simp [slots, List.zipIdx_append]

@[simp] theorem length_slots (tasks : List (Task α β ε)) :
    (request.slots tasks).length = tasks.length := by
  simp [slots]

theorem slots_congr {tasks others : List (Task α β ε)}
    (same : tasks.map Task.item = others.map Task.item) :
    request.slots tasks = request.slots others := by
  rw [slots, slots, same]

theorem map_item_set {tasks : List (Task α β ε)} {ticket : Nat} {item : α}
    {future : Future β ε} (current : tasks[ticket]? = some ⟨item, future⟩) (next : Future β ε) :
    (tasks.set ticket ⟨item, next⟩).map Task.item = tasks.map Task.item := by
  obtain ⟨inside, found⟩ := List.getElem?_eq_some_iff.mp current
  rw [List.map_set]
  apply List.ext_getElem
  · simp
  · intro index first second
    rw [List.getElem_set]
    by_cases same : ticket = index
    · subst same
      simp [found]
    · rw [if_neg same]

def Cancelled (before after : List (Task α β ε)) : Prop :=
  List.Forall₂ (fun task other => other = task ∨ other = cancelTask task) before after

theorem cancelTask_twice (task : Task α β ε) : cancelTask (cancelTask task) = cancelTask task := by
  obtain ⟨item, future⟩ := task
  cases future <;> rfl

theorem cancelled_refl (tasks : List (Task α β ε)) : Cancelled tasks tasks := by
  induction tasks with
  | nil => exact .nil
  | cons task tasks ih => exact .cons (.inl rfl) ih

theorem cancelled_modify {before after : List (Task α β ε)} (given : Cancelled before after)
    (ticket : Nat) : Cancelled before (after.modify ticket cancelTask) := by
  induction given generalizing ticket with
  | nil => simp [Cancelled]
  | cons same rest ih =>
    cases ticket with
    | zero =>
      rw [List.modify_zero_cons]
      refine .cons ?_ rest
      rcases same with rfl | rfl
      · exact .inr rfl
      · exact .inr (cancelTask_twice _)
    | succ ticket =>
      rw [List.modify_succ_cons]
      exact .cons same (ih ticket)

theorem cancelled_fold {before after : List (Task α β ε)} (given : Cancelled before after)
    (queued : List (Slot α)) :
    Cancelled before
      (queued.foldl (fun tasks slot => tasks.modify slot.ticket cancelTask) after) := by
  induction queued generalizing after with
  | nil => exact given
  | cons slot queued ih => exact ih (cancelled_modify given slot.ticket)

theorem cancelled_queued (pipeline : Pipeline α β ε) :
    Cancelled pipeline.tasks (cancelQueued pipeline) :=
  cancelled_fold (cancelled_refl _) _

theorem map_item_cancelled {before after : List (Task α β ε)} (given : Cancelled before after) :
    after.map Task.item = before.map Task.item := by
  induction given with
  | nil => rfl
  | cons same rest ih =>
    rw [List.map_cons, List.map_cons, ih]
    rcases same with rfl | rfl <;> rfl

def Faithful (request : Request α β ε) (task : Task α β ε) : Prop :=
  match task.future with
  | .pending | .running => request.cached task.item = none
  | .finished result => result = request.result task.item
  | .cancelled => True

theorem faithful_cancelled {before after : List (Task α β ε)} (given : Cancelled before after)
    (faithful : ∀ task ∈ before, request.Faithful task) :
    ∀ task ∈ after, request.Faithful task := by
  induction given with
  | nil => simp
  | @cons task other _ _ same rest ih =>
    rw [List.forall_mem_cons] at faithful ⊢
    refine ⟨?_, ih faithful.2⟩
    rcases same with rfl | rfl
    · exact faithful.1
    · have first := faithful.1
      obtain ⟨item, future⟩ := task
      cases future with
      | pending => exact trivial
      | running => exact first
      | finished _ => exact first
      | cancelled => exact trivial

def work (task : Task α β ε) : Nat :=
  match task.future with
  | .pending => 2
  | .running => 1
  | .finished _ | .cancelled => 0

def workLeft (tasks : List (Task α β ε)) : Nat :=
  (tasks.map work).sum

theorem work_cancelTask (task : Task α β ε) : work (cancelTask task) ≤ work task := by
  obtain ⟨item, future⟩ := task
  cases future <;> simp [work, cancelTask, Future.cancel]

theorem isRunning_cancelTask (task : Task α β ε) :
    (cancelTask task).future.isRunning = task.future.isRunning := by
  obtain ⟨item, future⟩ := task
  cases future <;> rfl

theorem workLeft_cancelled {before after : List (Task α β ε)} (given : Cancelled before after) :
    workLeft after ≤ workLeft before := by
  induction given with
  | nil => exact Nat.le_refl _
  | @cons task other _ _ same rest ih =>
    simp only [workLeft, List.map_cons, List.sum_cons] at ih ⊢
    have first : work other ≤ work task := by
      rcases same with rfl | rfl
      · exact Nat.le_refl _
      · exact work_cancelTask task
    omega

theorem active_cancelled {before after : List (Task α β ε)} (given : Cancelled before after) :
    active after = active before := by
  induction given with
  | nil => rfl
  | cons same rest ih =>
    simp only [active, List.countP_cons] at ih ⊢
    rw [ih]
    rcases same with rfl | rfl
    · rfl
    · rw [isRunning_cancelTask]

theorem faithful_set {tasks : List (Task α β ε)} {ticket : Nat} {item : α} {next : Future β ε}
    (faithful : ∀ task ∈ tasks, request.Faithful task)
    (changed : request.Faithful ⟨item, next⟩) :
    ∀ task ∈ tasks.set ticket ⟨item, next⟩, request.Faithful task := by
  intro task member
  rcases List.mem_or_eq_of_mem_set member with earlier | rfl
  · exact faithful task earlier
  · exact changed

section

variable {tasks : List (Task α β ε)} {ticket : Nat} {item : α} {future : Future β ε}
  (current : tasks[ticket]? = some ⟨item, future⟩) (next : Future β ε)

include current

theorem workLeft_set : workLeft (tasks.set ticket ⟨item, next⟩) + work ⟨item, future⟩ =
    workLeft tasks + work ⟨item, next⟩ := by
  induction tasks generalizing ticket with
  | nil => simp at current
  | cons task tasks ih =>
    cases ticket with
    | zero =>
      have same : task = ⟨item, future⟩ := by simpa using current
      simp only [workLeft, List.set_cons_zero, List.map_cons, List.sum_cons, same]
      omega
    | succ ticket =>
      have rest := ih (by simpa using current)
      simp only [workLeft, List.set_cons_succ, List.map_cons, List.sum_cons] at rest ⊢
      omega

theorem active_set : active (tasks.set ticket ⟨item, next⟩) + (if future.isRunning then 1 else 0) =
    active tasks + (if next.isRunning then 1 else 0) := by
  induction tasks generalizing ticket with
  | nil => simp at current
  | cons task tasks ih =>
    cases ticket with
    | zero =>
      have same : task = ⟨item, future⟩ := by simpa using current
      simp only [active, List.set_cons_zero, List.countP_cons, same]
      omega
    | succ ticket =>
      have rest := ih (by simpa using current)
      simp only [active, List.set_cons_succ, List.countP_cons] at rest ⊢
      omega

end

end

def Stands (request : Request α β ε) (items : List α) (pipeline : Pipeline α β ε) : Prop :=
  let left := (request.slots pipeline.tasks).drop pipeline.yielded.length
  match pipeline.point with
  | .looping => pipeline.queued = left ∧ pipeline.reserved = charged pipeline.queued
  | .filling =>
    pipeline.queued = left ∧ pipeline.reserved = charged pipeline.queued ∧
      (pipeline.current = none → pipeline.queued ≠ [])
  | .taking =>
    pipeline.queued = left ∧ pipeline.reserved = charged pipeline.queued ∧ pipeline.queued ≠ []
  | .waiting slot =>
    slot :: pipeline.queued = left ∧
      pipeline.reserved = slot.charge + charged pipeline.queued
  | .yielding slot _ =>
    pipeline.queued = left ∧ pipeline.reserved = slot.charge + charged pipeline.queued
  | .ended => pipeline.tasks.length ≤ pipeline.yielded.length ∧ pipeline.current = none
  | .raised failure =>
    ∃ item rest error, items = pipeline.yielded.map Prod.fst ++ item :: rest ∧
      request.result item = .error error ∧ failure = .fetch error
  | .closed => True

def gone : Point α β ε → Bool
  | .ended | .raised _ | .closed => true
  | _ => false

structure Sound (request : Request α β ε) (items : List α) (pipeline : Pipeline α β ε) : Prop where
  input : items = pipeline.tasks.map Task.item ++ pipeline.current.toList ++ pipeline.iterator
  exhausted : pipeline.current = none → pipeline.iterator = []
  faithful : ∀ task ∈ pipeline.tasks, request.Faithful task
  inOrder : pipeline.yielded.map Prod.fst <+: pipeline.tasks.map Task.item
  read : ∀ entry ∈ pipeline.yielded, request.result entry.1 = .ok entry.2
  stands : request.Stands items pipeline
  live : gone pipeline.point = false → ∀ task ∈ pipeline.tasks, task.future ≠ .cancelled
  reserved : pipeline.reserved ≤ prefetchBytes
  queued : pipeline.queued.length ≤ request.queueLimit
  bytesPeak : pipeline.readQueueBytesPeak ≤ prefetchBytes
  recordsPeak : pipeline.readQueueRecordsPeak ≤ request.queueLimit
  active : active pipeline.tasks ≤ request.workers
  activePeak : pipeline.readActivePeak ≤ request.workers

theorem sound_opened (items : List α) : request.Sound items (opened items) := by
  constructor <;> cases items <;> simp [opened, Stands, slots, charged, Request.active]

section

variable {pipeline : Pipeline α β ε} (sound : request.Sound items pipeline)

include sound

theorem sound_set {ticket : Nat} {item : α} {future next : Future β ε} {peak : Nat}
    (current : pipeline.tasks[ticket]? = some ⟨item, future⟩)
    (changed : request.Faithful ⟨item, next⟩) (kept : next ≠ .cancelled)
    (within : Request.active (pipeline.tasks.set ticket ⟨item, next⟩) ≤ request.workers)
    (peaked : peak ≤ request.workers) :
    request.Sound items { pipeline with
      tasks := pipeline.tasks.set ticket ⟨item, next⟩
      readActivePeak := peak } := by
  have same := map_item_set current next
  constructor <;> try simp only [same]
  · exact sound.input
  · exact sound.exhausted
  · exact faithful_set sound.faithful changed
  · exact sound.inOrder
  · exact sound.read
  · have stands := sound.stands
    unfold Stands at stands ⊢
    simp only [request.slots_congr same, List.length_set]
    exact stands
  · intro inside task member
    rcases List.mem_or_eq_of_mem_set member with earlier | rfl
    · exact sound.live inside task earlier
    · exact kept
  · exact sound.reserved
  · exact sound.queued
  · exact sound.bytesPeak
  · exact sound.recordsPeak
  · exact within
  · exact peaked

theorem sound_leave {point : Point α β ε} (left : gone point = true)
    (stands : request.Stands items (leave pipeline point)) :
    request.Sound items (leave pipeline point) := by
  have given := cancelled_queued pipeline
  have same := map_item_cancelled given
  constructor <;> try simp only [leave, same]
  · exact sound.input
  · exact sound.exhausted
  · exact faithful_cancelled given sound.faithful
  · exact sound.inOrder
  · exact sound.read
  · exact stands
  · intro inside
    rw [left] at inside
    cases inside
  · exact sound.reserved
  · exact sound.queued
  · exact sound.bytesPeak
  · exact sound.recordsPeak
  · rw [active_cancelled given]
    exact sound.active
  · exact sound.activePeak

theorem sound_point {point : Point α β ε} (inside : gone pipeline.point = false)
    (stands : request.Stands items { pipeline with point }) :
    request.Sound items { pipeline with point } := by
  obtain ⟨input, exhausted, faithful, inOrder, read, -, live, reserved, queued, bytesPeak,
    recordsPeak, active, activePeak⟩ := sound
  exact ⟨input, exhausted, faithful, inOrder, read, stands, fun _ => live inside, reserved, queued,
    bytesPeak, recordsPeak, active, activePeak⟩

theorem length_yielded : pipeline.yielded.length ≤ pipeline.tasks.length := by
  have shorter := sound.inOrder.length_le
  simpa using shorter

theorem sound_enqueue {item : α} (filling : pipeline.point = .filling)
    (current : pipeline.current = some item)
    (room : pipeline.queued.length < request.queueLimit)
    (fits : pipeline.reserved + (request.size item).toNat ≤ prefetchBytes) :
    request.Sound items (request.enqueue pipeline item) := by
  have stands := sound.stands
  simp only [Stands, filling] at stands
  have left := length_yielded sound
  have submitted : ∀ future : Future β ε, request.slots (pipeline.tasks ++ [⟨item, future⟩]) =
      request.slots pipeline.tasks ++
        [⟨item, (request.size item).toNat, pipeline.tasks.length⟩] :=
    fun future => request.slots_append pipeline.tasks ⟨item, future⟩
  constructor
  · have input := sound.input
    rw [current] at input
    simp only [enqueue, List.map_append, List.map_cons, List.map_nil]
    rw [input]
    cases pipeline.iterator <;> simp
  · intro none
    simp only [enqueue, List.head?_eq_none_iff] at none ⊢
    rw [none]
    rfl
  · intro task member
    simp only [enqueue, List.mem_append, List.mem_singleton] at member
    rcases member with earlier | rfl
    · exact sound.faithful task earlier
    · unfold Faithful submit Request.result
      cases request.cached item <;> rfl
  · simp only [enqueue, List.map_append]
    exact sound.inOrder.trans (List.prefix_append _ _)
  · exact sound.read
  · simp only [Stands, enqueue, filling, submitted]
    refine ⟨?_, ?_, ?_⟩
    · rw [List.drop_append_of_le_length (by rw [length_slots]; exact left), ← stands.1]
    · rw [stands.2.1, charged, charged, List.map_append, List.sum_append]
      simp
    · intro _
      simp
  · intro _ task member
    have inside : gone pipeline.point = false := by
      rw [filling]
      rfl
    simp only [enqueue, List.mem_append, List.mem_singleton] at member
    rcases member with earlier | rfl
    · exact sound.live inside task earlier
    · unfold submit
      cases request.cached item <;> simp
  · exact fits
  · simp only [enqueue, List.length_append, List.length_singleton]
    omega
  · exact Nat.max_le.mpr ⟨sound.bytesPeak, fits⟩
  · refine Nat.max_le.mpr ⟨sound.recordsPeak, ?_⟩
    simp only [List.length_append, List.length_singleton]
    omega
  · have same : Request.active (request.enqueue pipeline item).tasks =
        Request.active pipeline.tasks := by
      simp only [enqueue, Request.active, List.countP_append, submit]
      cases request.cached item <;> rfl
    rw [same]
    exact sound.active
  · exact sound.activePeak

theorem current_mem {item : α} (current : pipeline.current = some item) : item ∈ items := by
  rw [sound.input, current]
  simp

theorem sound_fill (sizes : ∀ item ∈ items, request.validCharge item)
    (filling : pipeline.point = .filling) : request.Sound items (request.fill pipeline) := by
  have stands := sound.stands
  simp only [Stands, filling] at stands
  obtain ⟨listed, reserved, more⟩ := stands
  have inside : gone pipeline.point = false := by
    rw [filling]
    rfl
  unfold fill
  split
  · next none =>
      refine sound_point sound inside ?_
      exact ⟨listed, reserved, more none⟩
  · next item current =>
      have valid := sizes item (current_mem sound current)
      by_cases full : request.queueLimit ≤ pipeline.queued.length
      · rw [if_pos full]
        refine sound_point sound inside ⟨listed, reserved, ?_⟩
        intro empty
        rw [empty, queueLimit, prefetchDocuments, List.length_nil] at full
        omega
      · rw [if_neg full, if_neg (not_not.mpr valid)]
        by_cases beyond : prefetchBytes < pipeline.reserved + (request.size item).toNat
        · rw [if_pos beyond]
          refine sound_point sound inside ⟨listed, reserved, ?_⟩
          intro empty
          -- One item alone always fits: the row limit is below the byte budget.
          have bound := valid.2
          rw [reserved, empty, charged, List.map_nil, List.sum_nil] at beyond
          rw [prefetchBytes] at beyond
          rw [maxRowBytes] at bound
          omega
        · rw [if_neg beyond]
          exact sound_enqueue sound filling current (by omega) (by omega)

theorem sound_takeLeft (taking : pipeline.point = .taking) :
    request.Sound items (takeLeft pipeline) := by
  have stands := sound.stands
  simp only [Stands, taking] at stands
  obtain ⟨listed, reserved, some⟩ := stands
  obtain ⟨input, exhausted, faithful, inOrder, read, -, live, withinBytes, withinQueue, bytesPeak,
    recordsPeak, active, activePeak⟩ := sound
  rw [taking] at live
  unfold takeLeft
  split
  · next empty => exact absurd empty some
  · next slot queued first =>
      rw [first, List.length_cons] at withinQueue
      rw [first] at listed reserved
      refine ⟨input, exhausted, faithful, inOrder, read, ⟨listed, ?_⟩, fun _ => live rfl,
        withinBytes, ?_, bytesPeak, recordsPeak, active, activePeak⟩
      · rw [reserved, charged, charged, List.map_cons, List.sum_cons]
      · exact Nat.le_of_succ_le withinQueue

theorem waiting_slot {slot : Slot α} (waiting : pipeline.point = .waiting slot) :
    ∃ task, pipeline.tasks[slot.ticket]? = some task ∧ slot.item = task.item ∧
      slot.ticket = pipeline.yielded.length := by
  have stands := sound.stands
  simp only [Stands, waiting] at stands
  have first : (request.slots pipeline.tasks)[pipeline.yielded.length]? = some slot := by
    rw [← List.head?_drop, ← stands.1]
    rfl
  simp only [slots, List.getElem?_map, List.getElem?_zipIdx, Option.map_eq_some_iff] at first
  obtain ⟨_, ⟨_, ⟨task, found, rfl⟩, rfl⟩, rfl⟩ := first
  refine ⟨task, ?_, rfl, ?_⟩
  · rw [← found]
    simp
  · simp

theorem yielded_append {slot : Slot α} {task : Task α β ε}
    (found : pipeline.tasks[slot.ticket]? = some task) (same : slot.item = task.item)
    (ticket : slot.ticket = pipeline.yielded.length) :
    pipeline.yielded.map Prod.fst ++ [slot.item] <+: pipeline.tasks.map Task.item := by
  obtain ⟨rest, split⟩ := sound.inOrder
  have here : (pipeline.tasks.map Task.item)[pipeline.yielded.length]? = some slot.item := by
    rw [← ticket, List.getElem?_map, found, same]
    rfl
  rw [← split, List.getElem?_append_right (by simp), List.length_map, Nat.sub_self]
    at here
  cases rest with
  | nil => cases here
  | cons item rest =>
    obtain rfl := Option.some.inj here
    exact ⟨rest, by rw [← split, List.append_assoc]; rfl⟩

theorem sound_turn (sizes : ∀ item ∈ items, request.validCharge item) {next : Pipeline α β ε}
    (turned : request.turn pipeline = some next) : request.Sound items next := by
  unfold turn at turned
  split at turned
  · next looping =>
      have stands := sound.stands
      simp only [Stands, looping] at stands
      split at turned
      · next finished =>
          obtain rfl := Option.some.inj turned
          refine sound_leave sound rfl ?_
          rw [Option.isNone_iff_eq_none, List.isEmpty_iff] at finished
          have short := congrArg List.length (finished.2.symm.trans stands.1)
          rw [List.length_nil, List.length_drop, length_slots] at short
          have kept := map_item_cancelled (cancelled_queued pipeline)
          have same := congrArg List.length kept
          rw [List.length_map, List.length_map] at same
          refine ⟨?_, finished.1⟩
          change (cancelQueued pipeline).length ≤ pipeline.yielded.length
          omega
      · next more =>
          obtain rfl := Option.some.inj turned
          refine sound_point sound (by rw [looping]; rfl) ⟨stands.1, stands.2, ?_⟩
          intro none empty
          exact more ⟨by rw [none]; rfl, by rw [empty]; rfl⟩
  · next filling =>
      obtain rfl := Option.some.inj turned
      exact sound_fill sound sizes filling
  · next taking =>
      obtain rfl := Option.some.inj turned
      exact sound_takeLeft sound taking
  · next slot waiting =>
      have stands := sound.stands
      simp only [Stands, waiting] at stands
      obtain ⟨task, found, same, ticket⟩ := waiting_slot sound waiting
      have faithful := sound.faithful task (List.mem_of_getElem? found)
      have extended := yielded_append sound found same ticket
      split at turned
      · next item value ended =>
          obtain rfl := Option.some.inj turned
          obtain rfl := Option.some.inj (found.symm.trans ended)
          have read : request.result slot.item = .ok value := by
            rw [same]
            exact faithful.symm
          refine ⟨sound.input, sound.exhausted, sound.faithful, ?_, ?_, ?_,
            fun _ => sound.live (by rw [waiting]; rfl), sound.reserved, sound.queued,
            sound.bytesPeak, sound.recordsPeak, sound.active, sound.activePeak⟩
          · simpa using extended
          · intro entry member
            rcases List.mem_append.mp member with earlier | last
            · exact sound.read entry earlier
            · rw [List.mem_singleton.mp last]
              exact read
          · refine ⟨?_, stands.2⟩
            have tail := congrArg List.tail stands.1
            rw [List.tail_cons, List.tail_drop] at tail
            simpa using tail
      · next item error ended =>
          obtain rfl := Option.some.inj turned
          obtain rfl := Option.some.inj (found.symm.trans ended)
          obtain ⟨rest, split⟩ := extended
          refine sound_leave sound rfl
            ⟨slot.item, rest ++ pipeline.current.toList ++ pipeline.iterator, error, ?_, ?_, rfl⟩
          · change items = pipeline.yielded.map Prod.fst ++ _
            rw [sound.input, ← split]
            simp
          · rw [same]
            exact faithful.symm
      · cases turned
  · next slot value yielding =>
      have stands := sound.stands
      simp only [Stands, yielding] at stands
      obtain rfl := Option.some.inj turned
      refine ⟨sound.input, sound.exhausted, sound.faithful, sound.inOrder, sound.read,
        ⟨stands.1, ?_⟩, fun _ => sound.live (by rw [yielding]; rfl), ?_, sound.queued,
        sound.bytesPeak, sound.recordsPeak, sound.active, sound.activePeak⟩
      · change pipeline.reserved - slot.charge = charged pipeline.queued
        omega
      · exact Nat.le_trans (Nat.sub_le _ _) sound.reserved
  · cases turned
  · cases turned
  · cases turned

end

theorem sound_move (sizes : ∀ item ∈ items, request.validCharge item)
    (pipeline next : Pipeline α β ε) (sound : request.Sound items pipeline)
    (moved : request.Move pipeline next) : request.Sound items next := by
  cases moved with
  | begin ticket item submitted oldest idle =>
    have faithful := sound.faithful _ (List.mem_of_getElem? submitted)
    have counted := active_set submitted .running
    simp only [Future.isRunning, if_true, Bool.false_eq_true, if_false] at counted
    exact sound_set sound submitted faithful (by simp) (by omega)
      (Nat.max_le.mpr ⟨sound.activePeak, idle⟩)
  | finish ticket item begun =>
    have uncached := sound.faithful _ (List.mem_of_getElem? begun)
    have counted := active_set begun (.finished (request.fetch item))
    simp only [Future.isRunning, if_true, Bool.false_eq_true, if_false] at counted
    have within := sound.active
    refine sound_set sound begun ?_ (by simp) (by omega) sound.activePeak
    unfold Faithful at uncached ⊢
    simp only at uncached ⊢
    rw [Request.result, uncached]
  | turn _ turned => exact sound_turn sound sizes turned
  | close slot value suspended => exact sound_leave sound rfl trivial

section

def standing : Point α β ε → Nat
  | .taking => 1
  | .filling => 2
  | .looping => 3
  | .yielding _ _ => 4
  | .waiting _ => 5
  | .ended | .raised _ | .closed => 0

def remaining (pipeline : Pipeline α β ε) : Nat :=
  12 * (pipeline.current.toList.length + pipeline.iterator.length) + 8 * pipeline.queued.length +
    standing pipeline.point + workLeft pipeline.tasks

theorem remaining_leave {pipeline : Pipeline α β ε} {point : Point α β ε}
    (stopped : standing point = 0) (running : 0 < standing pipeline.point) :
    remaining (leave pipeline point) < remaining pipeline := by
  have given := workLeft_cancelled (cancelled_queued pipeline)
  simp only [remaining, leave, stopped]
  omega

theorem remaining_fill (request : Request α β ε) {pipeline : Pipeline α β ε}
    (filling : pipeline.point = .filling) :
    remaining (request.fill pipeline) < remaining pipeline := by
  have running : 0 < standing pipeline.point := by
    rw [filling]
    exact Nat.zero_lt_succ _
  have next : remaining { pipeline with point := .taking } < remaining pipeline := by
    simp only [remaining, filling, standing]
    omega
  unfold fill
  split
  · exact next
  · next item current =>
      split
      · exact next
      · split
        · exact remaining_leave rfl running
        · split
          · exact next
          · have first : work (⟨item, request.submit item⟩ : Task α β ε) ≤ 2 := by
              cases request.submit item <;> simp [work]
            have shorter : pipeline.iterator.head?.toList.length + pipeline.iterator.tail.length =
                pipeline.iterator.length := by
              cases pipeline.iterator with
              | nil => rfl
              | cons later rest => simp [Nat.add_comm]
            simp only [remaining, enqueue, filling, current, workLeft, List.map_append,
              List.map_cons, List.map_nil, List.sum_append, List.sum_cons, List.sum_nil,
              List.length_append, List.length_cons, List.length_nil, Option.toList_some]
            omega

theorem remaining_turn {pipeline next : Pipeline α β ε}
    (turned : request.turn pipeline = some next) : remaining next < remaining pipeline := by
  unfold turn at turned
  split at turned
  · next looping =>
      split at turned
      · obtain rfl := Option.some.inj turned
        exact remaining_leave rfl (by rw [looping]; exact Nat.zero_lt_succ _)
      · obtain rfl := Option.some.inj turned
        simp only [remaining, looping, standing]
        omega
  · next filling =>
      obtain rfl := Option.some.inj turned
      exact remaining_fill request filling
  · next taking =>
      obtain rfl := Option.some.inj turned
      unfold takeLeft
      split
      · exact remaining_leave rfl (by rw [taking]; exact Nat.zero_lt_succ _)
      · next slot queued first =>
          simp only [remaining, taking, first, standing, List.length_cons]
          omega
  · next slot waiting =>
      split at turned
      · obtain rfl := Option.some.inj turned
        simp only [remaining, waiting, standing]
        omega
      · obtain rfl := Option.some.inj turned
        exact remaining_leave rfl (by rw [waiting]; exact Nat.zero_lt_succ _)
      · cases turned
  · next slot value yielding =>
      obtain rfl := Option.some.inj turned
      simp only [remaining, yielding, standing]
      omega
  · cases turned
  · cases turned
  · cases turned

theorem remaining_move {pipeline next : Pipeline α β ε} (moved : request.Move pipeline next) :
    remaining next < remaining pipeline := by
  cases moved with
  | begin ticket item submitted =>
    have left := workLeft_set submitted .running
    simp only [work] at left
    simp only [remaining]
    omega
  | finish ticket item begun =>
    have left := workLeft_set begun (.finished (request.fetch item))
    simp only [work] at left
    simp only [remaining]
    omega
  | turn _ turned => exact remaining_turn turned
  | close slot value suspended =>
    exact remaining_leave rfl (by rw [suspended]; exact Nat.zero_lt_succ _)

theorem threads_move {pipeline : Pipeline α β ε} {ticket : Nat} {item : α}
    (workers : 0 < request.workers) (submitted : pipeline.tasks[ticket]? = some ⟨item, .pending⟩) :
    ∃ next, request.Move pipeline next := by
  by_cases idle : Request.active pipeline.tasks < request.workers
  · have oldest : ∃ first other, pipeline.tasks[first]? = some ⟨other, .pending⟩ ∧
        ∀ task ∈ pipeline.tasks.take first, ¬ task.future.isPending := by
      induction ticket using Nat.strongRecOn generalizing item with
      | ind ticket ih =>
        by_cases first : ∀ task ∈ pipeline.tasks.take ticket, ¬ task.future.isPending
        · exact ⟨ticket, item, submitted, first⟩
        · simp only [not_forall, not_not] at first
          obtain ⟨⟨other, future⟩, member, waits⟩ := first
          obtain ⟨earlier, inside, found⟩ := List.mem_take_iff_getElem.mp member
          cases future with
          | pending =>
            have waiting : pipeline.tasks[earlier]? = some ⟨other, .pending⟩ :=
              List.getElem?_eq_some_iff.mpr ⟨by omega, found⟩
            exact ih earlier (by omega) waiting
          | running => cases waits
          | finished _ => cases waits
          | cancelled => cases waits
    obtain ⟨first, other, found, earlier⟩ := oldest
    exact ⟨_, .begin pipeline first other found earlier idle⟩
  · have running : 0 < Request.active pipeline.tasks := by omega
    obtain ⟨⟨other, future⟩, member, runs⟩ := List.countP_pos_iff.mp running
    cases future with
    | running =>
      obtain ⟨position, found⟩ := List.mem_iff_getElem?.mp member
      exact ⟨_, .finish pipeline position other found⟩
    | pending => cases runs
    | finished _ => cases runs
    | cancelled => cases runs

theorem stuck_gone {pipeline : Pipeline α β ε} (sound : request.Sound items pipeline)
    (workers : 0 < request.workers) (stuck : Stuck request.Move pipeline) :
    gone pipeline.point = true := by
  by_contra inside
  rw [Bool.not_eq_true] at inside
  have silent : request.turn pipeline = none := by
    by_contra turns
    obtain ⟨next, turned⟩ := Option.ne_none_iff_exists'.mp turns
    exact stuck next (.turn pipeline next turned)
  unfold turn at silent
  split at silent
  · split at silent <;> cases silent
  · cases silent
  · cases silent
  · next slot waiting =>
      obtain ⟨⟨item, future⟩, found, -, -⟩ := waiting_slot sound waiting
      cases future with
      | pending =>
        obtain ⟨next, moved⟩ := threads_move workers found
        exact stuck next moved
      | running => exact stuck _ (.finish pipeline slot.ticket item found)
      | finished result =>
        rw [found] at silent
        cases result <;> cases silent
      | cancelled => exact sound.live inside _ (List.mem_of_getElem? found) rfl
  · cases silent
  · next ended =>
      rw [ended] at inside
      cases inside
  · next raised =>
      rw [raised] at inside
      cases inside
  · next closed =>
      rw [closed] at inside
      cases inside

end

section

def ending : Option (Failure ε) → Point α β ε
  | none => .ended
  | some failure => .raised failure

structure Kept (request : Request α β ε) (items : List α) (pipeline : Pipeline α β ε) : Prop where
  reserved : pipeline.reserved ≤ prefetchBytes
  queued : pipeline.queued.length ≤ request.queueLimit
  bytesPeak : pipeline.readQueueBytesPeak ≤ prefetchBytes
  recordsPeak : pipeline.readQueueRecordsPeak ≤ request.queueLimit
  activePeak : pipeline.readActivePeak ≤ request.workers
  nonempty : pipeline.point ≠ .raised .emptyQueue
  inOrder : pipeline.yielded <+: (request.inlineFetch items).1

variable {pipeline : Pipeline α β ε}

section

variable (sizes : ∀ item ∈ items, request.validCharge item)

include sizes

theorem yielded_begins (sound : request.Sound items pipeline) {rest : List α}
    (split : items = pipeline.yielded.map Prod.fst ++ rest) :
    request.inlineFetch items =
      (pipeline.yielded ++ (request.inlineFetch rest).1, (request.inlineFetch rest).2) := by
  rw [split]
  apply inlineFetch_append _ sound.read
  intro entry member
  apply sizes
  rw [split]
  exact List.mem_append_left _ (List.mem_map_of_mem member)

theorem Sound.kept (sound : request.Sound items pipeline) : request.Kept items pipeline := by
  obtain ⟨rest, split⟩ := sound.inOrder
  have input := sound.input
  rw [← split, List.append_assoc, List.append_assoc] at input
  refine ⟨sound.reserved, sound.queued, sound.bytesPeak, sound.recordsPeak, sound.activePeak, ?_,
    ?_⟩
  · intro raised
    have stands := sound.stands
    simp only [Stands, raised] at stands
    obtain ⟨_, _, _, _, _, impossible⟩ := stands
    cases impossible
  · rw [yielded_begins sizes sound input]
    exact List.prefix_append _ _

theorem Sound.ends (sound : request.Sound items pipeline) (left : gone pipeline.point = true) :
    pipeline.point = .closed ∨ pipeline.yielded = (request.inlineFetch items).1 ∧
      pipeline.point = ending (request.inlineFetch items).2 := by
  have stands := sound.stands
  cases point : pipeline.point with
  | ended =>
    simp only [Stands, point] at stands
    right
    obtain ⟨rest, split⟩ := sound.inOrder
    have counted := congrArg List.length split
    simp only [List.length_append, List.length_map] at counted
    have nothing : rest = [] := List.eq_nil_of_length_eq_zero (by omega)
    have input := sound.input
    rw [← split, nothing, stands.2, sound.exhausted stands.2] at input
    have whole : items = pipeline.yielded.map Prod.fst ++ [] := by simpa using input
    rw [yielded_begins sizes sound whole]
    simp [inlineFetch, ending]
  | raised failure =>
    simp only [Stands, point] at stands
    obtain ⟨item, rest, error, split, failed, rfl⟩ := stands
    have valid := sizes item (by rw [split]; simp)
    right
    rw [yielded_begins sizes sound split]
    simp [inlineFetch, ending, valid, failed]
  | closed => exact .inl rfl
  | looping | filling | taking | waiting _ | yielding _ _ =>
    rw [point] at left
    cases left

end

variable (request)

/--
However the threads' reads interleave and end, the pooled reads stay within their byte and queue
limits and never take from an empty queue, every run of them is finite, and one that its consumer
does not close ends with exactly what the inline reads yield and raise: every item once, in
order, where no read fails.
-/
theorem ordered_fetch (items : List α) (sizes : ∀ item ∈ items, request.validCharge item) :
    (∀ value : α → β, (∀ item ∈ items, request.result item = .ok (value item)) →
      request.inlineFetch items = (items.map fun item => (item, value item), none)) ∧
    ∀ count pipeline, 0 < request.workers →
      Moves request.Move count (opened items) pipeline →
        request.Kept items pipeline ∧ count ≤ 12 * items.length + 3 ∧
          (Stuck request.Move pipeline →
            pipeline.point = .closed ∨ pipeline.yielded = (request.inlineFetch items).1 ∧
              pipeline.point = ending (request.inlineFetch items).2) := by
  refine ⟨fun value read => inlineFetch_all sizes read, ?_⟩
  intro count pipeline workers run
  have initial : request.Sound items (opened items) := sound_opened items
  have sound := run.invariant (sound_move sizes) initial
  have bound := run.count_le remaining (sound_move sizes) (fun _ _ _ => remaining_move) initial
  refine ⟨sound.kept sizes, ?_, fun stuck => sound.ends sizes (stuck_gone sound workers stuck)⟩
  have start : remaining (opened items : Pipeline α β ε) = 12 * items.length + 3 := by
    cases items <;> simp [remaining, opened, standing, workLeft]
    omega
  omega

theorem ordered_fetch_pair :
    let request : Request Nat Nat String :=
      ⟨fun item => .ok (item + 1), fun _ => 5, fun _ => none, 2⟩
    request.inlineFetch [3, 4] = ([(3, 4), (4, 5)], none) ∧
      ∀ count pipeline, Moves request.Move count (opened [3, 4]) pipeline →
        request.Kept [3, 4] pipeline ∧ count ≤ 27 ∧
          (Stuck request.Move pipeline →
            pipeline.point = .closed ∨ pipeline.yielded = (request.inlineFetch [3, 4]).1 ∧
              pipeline.point = ending (request.inlineFetch [3, 4]).2) := by
  intro request
  have sizes : ∀ item ∈ [3, 4], request.validCharge item := by decide
  have ordered := ordered_fetch request [3, 4] sizes
  exact ⟨ordered.1 (· + 1) (by decide), fun count pipeline => ordered.2 count pipeline (by decide)⟩

end

end Request

end SparseLab.Corpus.Prefetch
