import Mathlib.Data.Fintype.EquivFin
import SparseLab.Corpus.SplitFreeze
import SparseLab.Corpus.StageTransparency

/-! Runs of a split preparation with any interruptions and any changes of files between. -/

namespace SparseLab.Corpus

open Library

variable {ι Stamp Data Body α : Type} [DecidableEq ι] [DecidableEq Stamp] [DecidableEq Data]

section

variable (digest : Record ι Stamp Data → String) (identity : String) (content : Stamp → Body)
  (procedure : Procedure ι String (Value Body Data) α)

structure Transparent (machine : Machine ι Stamp Data) : Prop where
  linked : ∃ chain, machine.disk.listed = recordFiles 0 chain ∧ Linked digest identity none chain
  accepted : machine.disk.listed.length ≤ sortableRecords → ∀ trusts, ∃ memory,
    load digest identity machine.disk trusts = .ok memory
  reused : ∀ process ∈ machine.process, ∃ fresh,
    process.results.map Prod.fst = process.memory.reused ++ fresh
  unchanged : ∀ process ∈ machine.process, ∀ earlier entry later,
    process.results = earlier ++ entry :: later → entry.2.unchanged machine.disk ∧
      ∃ before event after, machine.disk.listed = recordFiles 0 (before ++ event :: after) ∧
        (event.record.phase, event.record.result) = entry ∧
          ∀ next ∈ after, next.record.phase ∉ (earlier ++ [entry]).map Prod.fst
  finished : ∀ process ∈ machine.process, ∃ left,
    process.remaining content procedure machine.disk = some left ∧ left.run = procedure.run

variable {digest : Record ι Stamp Data → String} {identity : String} {content : Stamp → Body}
  {procedure : Procedure ι String (Value Body Data) α} {machine : Machine ι Stamp Data}

theorem Kept.transparent (kept : Kept digest identity content procedure machine) :
    Transparent digest identity content procedure machine := by
  obtain ⟨chain, chained, follows⟩ := kept
  refine ⟨⟨chain, chained.listed, chained.linked⟩, fun narrow trusts => ?_, fun process alive => ?_,
    fun process alive earlier entry later split => ?_, fun process alive => ?_⟩
  · obtain ⟨memory, loaded, _⟩ := start_kept (kept_idle chained) narrow trusts
    exact ⟨memory, loaded⟩
  · obtain ⟨fresh, names, _⟩ := (follows process alive).reused
    exact ⟨fresh, names⟩
  · have follows := follows process alive
    refine ⟨follows.unchanged entry (by simp [split]), ?_⟩
    obtain ⟨rest, whole⟩ := follows.results
    rw [split, List.append_assoc, List.cons_append] at whole
    obtain ⟨before, event, after, rfl, same, apart⟩ := replay_recorded whole.symm
    exact ⟨before, event, after, chained.listed, same, apart⟩
  · have follows := follows process alive
    refine ⟨_, follows.remaining_eq, Procedure.Traced.run_after ?_⟩
    obtain ⟨rest, whole⟩ := follows.results
    have traced := chained.traced
    rw [← whole, worths, List.map_append] at traced
    exact traced.left

end

variable [DecidableEq Body]

section

variable (digest : Record ι Stamp Data → String) (identity : String) (content : Stamp → Body)
  (procedure : Procedure ι String (Value Body Data) α)

def Careful (machine : Machine ι Stamp Data) : Event ι Stamp → Prop
  | .start _ => machine.disk.listed.length ≤ sortableRecords
  | _ => True

def CarefulRun : Machine ι Stamp Data → List (Event ι Stamp) → Prop
  | _, [] => True
  | machine, event :: events =>
    Careful machine event ∧ CarefulRun (step digest identity content procedure machine event) events

def Halted (left : Procedure ι String (Value Body Data) α) : Prop :=
  ∀ name value next, left ≠ .step name (.ok value) next

def Writable : Prop :=
  ∀ values name value next, procedure.after values = .step name (.ok value) next →
    ∃ stamps : String → Stamp, ∀ output ∈ value.outputs, content (stamps output.1) = output.2

end

section

variable {digest : Record ι Stamp Data → String} {identity : String} {content : Stamp → Body}
  {procedure : Procedure ι String (Value Body Data) α} {machine : Machine ι Stamp Data}

theorem step_kept {event : Event ι Stamp} (distinct : procedure.Distinct ∅)
    (kept : Kept digest identity content procedure machine) (careful : Careful machine event) :
    Kept digest identity content procedure (step digest identity content procedure machine event) := by
  obtain ⟨disk, process⟩ := machine
  cases event with
  | start trusts =>
    cases process with
    | some process => exact kept
    | none =>
      obtain ⟨memory, loaded, kept'⟩ := start_kept kept careful trusts
      dsimp only [step]
      rw [loaded]
      exact kept'
  | call writing =>
    cases process with
    | none => exact kept
    | some process =>
      obtain ⟨chain, chained, follows⟩ := kept
      have follows := follows process rfl
      dsimp only [step]
      rw [follows.remaining_eq]
      cases called : procedure.after ((worths content process.results).map Prod.snd) with
      | step name value next => exact (phase_kept chained distinct follows called writing).1
      | done result => exact ⟨chain, chained, fun _ same => by cases same; exact follows⟩
      | fail failure => exact ⟨chain, chained, fun _ same => by cases same; exact follows⟩
  | change files =>
    cases process with
    | some process => exact kept
    | none =>
      obtain ⟨chain, chained, _⟩ := kept
      exact kept_idle (chained.moved rfl fun _ member => member)
  | stop =>
    obtain ⟨chain, chained, _⟩ := kept
    exact kept_idle chained

theorem run_kept (distinct : procedure.Distinct ∅) (events : List (Event ι Stamp))
    (kept : Kept digest identity content procedure machine)
    (careful : CarefulRun digest identity content procedure machine events) :
    Kept digest identity content procedure
      (runEvents digest identity content procedure machine events) := by
  induction events generalizing machine with
  | nil => exact kept
  | cons event events ih => exact ih (step_kept distinct kept careful.1) careful.2

theorem process_halts (distinct : procedure.Distinct ∅) (writable : Writable content procedure)
    (left : Procedure ι String (Value Body Data) α) {process : Process ι Stamp Data}
    (kept : Kept digest identity content procedure machine) (alive : machine.process = some process)
    (ahead : procedure.after ((worths content process.results).map Prod.snd) = left) :
    ∃ calls process', CarefulRun digest identity content procedure machine calls ∧
      (runEvents digest identity content procedure machine calls).process = some process' ∧
        Halted (procedure.after ((worths content process'.results).map Prod.snd)) := by
  induction left generalizing machine process with
  | done result => exact ⟨[], process, trivial, alive, fun _ _ _ same => by rw [ahead] at same; cases same⟩
  | fail failure =>
    exact ⟨[], process, trivial, alive, fun _ _ _ same => by rw [ahead] at same; cases same⟩
  | step name value next ih =>
    cases value with
    | error failure =>
      refine ⟨[], process, trivial, alive, fun _ _ _ same => ?_⟩
      rw [ahead] at same
      cases same
    | ok given =>
      obtain ⟨disk, process'⟩ := machine
      obtain rfl : process' = some process := alive
      obtain ⟨chain, chained, follows⟩ := kept
      have follows := follows process rfl
      obtain ⟨stamps, told⟩ := writable _ name given next ahead
      obtain ⟨uuid, fresh⟩ : ∃ uuid, (name, uuid) ∉ disk.directories := by
        obtain ⟨uuid, fresh⟩ := Infinite.exists_notMem_finset (disk.directories.map Prod.snd).toFinset
        refine ⟨uuid, fun taken => fresh ?_⟩
        rw [List.mem_toFinset]
        exact List.mem_map.mpr ⟨_, taken, rfl⟩
      obtain ⟨kept', goes⟩ := phase_kept chained distinct follows ahead
        { uuid, stamps, elapsed := 0, proven := true, killed := none }
      obtain ⟨process', result, alive', results, worth⟩ := goes given rfl fresh told rfl
      have stepped : step digest identity content procedure { disk, process := some process }
          (.call { uuid, stamps, elapsed := 0, proven := true, killed := none }) =
            phase digest identity content disk process name (.ok given)
              { uuid, stamps, elapsed := 0, proven := true, killed := none } := by
        dsimp only [step]
        rw [follows.remaining_eq, ahead]
      have ahead' : procedure.after ((worths content process'.results).map Prod.snd) =
          next given := by
        rw [results, worths, List.map_append, List.map_append, Procedure.after_append]
        rw [← worths, ahead]
        change (Procedure.step name _ next).after [result.worth content] = _
        rw [worth]
        cases named : next given <;> simp [Procedure.after, named]
      obtain ⟨calls, last, careful, ended, halted⟩ := ih given kept' alive' ahead'
      refine ⟨.call { uuid, stamps, elapsed := 0, proven := true, killed := none } :: calls, last,
        ⟨trivial, ?_⟩, ?_, halted⟩
      · rw [stepped]
        exact careful
      · rw [runEvents, List.foldl_cons, stepped]
        exact ended

end

end SparseLab.Corpus
