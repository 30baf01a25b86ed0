import SparseLab.Corpus.StageReplay

/-! A resumed split preparation computes what an uninterrupted one computes. -/

namespace SparseLab.Corpus

open Library

theorem mapM_some {β γ : Type} {attempt : β → Option γ} {result : β → γ} {values : List β}
    (each : ∀ value ∈ values, attempt value = some (result value)) :
    values.mapM attempt = some (values.map result) := by
  induction values with
  | nil => rfl
  | cons value values ih =>
    rw [List.mapM_cons, each value List.mem_cons_self,
      ih fun later member => each later (List.mem_cons_of_mem _ member)]
    rfl

variable {ι Stamp Data Body α : Type}

theorem lookup_stamps {outputs : List (String × Body)} (stamps : String → Stamp) {name : String}
    (written : name ∈ outputs.map (·.1)) :
    (outputs.map fun output => (output.1, stamps output.1)).lookup name = some (stamps name) := by
  induction outputs with
  | nil => cases written
  | cons output outputs ih =>
    rw [List.map_cons, List.lookup_cons]
    split
    next same => rw [beq_iff_eq.mp same]
    next differs => exact ih ((List.mem_cons.mp written).resolve_left (by simpa using differs))

section

variable (content : Stamp → Body)

def Result.worth (result : Result ι Stamp Data) : Value Body Data where
  outputs := result.files.map fun file => (file.1, content file.2)
  data := result.data

def worths (results : List (ι × Result ι Stamp Data)) : List (ι × Value Body Data) :=
  results.map fun entry => (entry.1, entry.2.worth content)

variable {content} {disk : Disk ι Stamp Data}

theorem view_unchanged {result : Result ι Stamp Data} (unchanged : result.unchanged disk) :
    disk.view content result = some (result.worth content) := by
  have found : (result.files.mapM fun file => (disk.files (result.directory, file.1)).map
      fun stamp => (file.1, content stamp)) =
        some (result.files.map fun file => (file.1, content file.2)) :=
    mapM_some fun file member => by rw [unchanged file member]; rfl
  rw [Disk.view, found]
  rfl

end

theorem listed_scratch (disk : Disk ι Stamp Data) (path : List Char) (scratch : Uuid) (event : Option (Completion ι Stamp Data)) :
    (disk.addEntry (scratchName path scratch) event).listed = disk.listed := by
  rw [Disk.listed, Disk.addEntry, List.filter_append, List.filter_cons, scratchName_unlisted]
  simp [Disk.listed]

theorem listed_completion (disk : Disk ι Stamp Data) (sequence : Nat) (sha256 : String)
    (event : Option (Completion ι Stamp Data)) :
    (disk.addEntry (completionName sequence sha256) event).listed =
      disk.listed ++ [{ name := completionName sequence sha256, completion := event }] := by
  rw [Disk.listed, Disk.addEntry, List.filter_append, List.filter_cons, completionName_listed]
  rfl

theorem written_worth {content : Stamp → Body} {value : Value Body Data} {stamps : String → Stamp}
    (told : ∀ output ∈ value.outputs, content (stamps output.1) = output.2) (directory : ι × Uuid) :
    (Result.mk directory (value.outputs.map fun output => (output.1, stamps output.1))
      value.data).worth content = value := by
  have same : (value.outputs.map fun output => (output.1, stamps output.1)).map
      (fun file => (file.1, content file.2)) = value.outputs := by
    rw [List.map_map]
    refine (List.map_congr_left fun output member => ?_).trans (List.map_id _)
    exact congrArg (Prod.mk output.1) (told output member)
  rw [Result.worth, same]

theorem proved_disk (disk : Disk ι Stamp Data) (event : Completion ι Stamp Data) (proven : Bool) :
    (if proven then disk.prove event else disk).entries = disk.entries ∧
      (if proven then disk.prove event else disk).directories = disk.directories ∧
        (if proven then disk.prove event else disk).files = disk.files := by
  cases proven <;> exact ⟨rfl, rfl, rfl⟩

variable [DecidableEq ι]

section

variable (digest : Record ι Stamp Data → String) (identity : String) (content : Stamp → Body)
  (procedure : Procedure ι String (Value Body Data) α)

structure Chained (disk : Disk ι Stamp Data) (chain : List (Completion ι Stamp Data)) : Prop where
  listed : disk.listed = recordFiles 0 chain
  linked : Linked digest identity none chain
  traced : procedure.Traced (worths content (replay chain))
  directories : ∀ entry ∈ replay chain, entry.2.directory ∈ disk.directories

structure Process.Follows (process : Process ι Stamp Data) (disk : Disk ι Stamp Data)
    (chain : List (Completion ι Stamp Data)) : Prop where
  completed : process.memory.completed = replay chain
  previous : process.memory.previous = tip none chain
  sequence : process.memory.sequence = chain.length
  results : process.results <+: replay chain
  unchanged : ∀ entry ∈ process.results, entry.2.unchanged disk
  reused : ∃ fresh, process.results.map Prod.fst = process.memory.reused ++ fresh ∧
    (fresh ≠ [] → process.results = replay chain)

def Kept (machine : Machine ι Stamp Data) : Prop :=
  ∃ chain, Chained digest identity content procedure machine.disk chain ∧
    ∀ process ∈ machine.process, process.Follows machine.disk chain

end

section

variable {digest : Record ι Stamp Data → String} {identity : String} {content : Stamp → Body}
  {procedure : Procedure ι String (Value Body Data) α} {disk disk' : Disk ι Stamp Data}
  {chain : List (Completion ι Stamp Data)} {process : Process ι Stamp Data} {name : ι}
  {value : Except String (Value Body Data)}
  {next : Value Body Data → Procedure ι String (Value Body Data) α}

theorem Chained.moved (chained : Chained digest identity content procedure disk chain)
    (entries : disk'.listed = disk.listed)
    (more : ∀ directory ∈ disk.directories, directory ∈ disk'.directories) :
    Chained digest identity content procedure disk' chain :=
  ⟨entries.trans chained.listed, chained.linked, chained.traced, fun entry member =>
    more _ (chained.directories entry member)⟩

theorem Process.Follows.remaining_eq (follows : process.Follows disk chain) :
    process.remaining content procedure disk =
      some (procedure.after ((worths content process.results).map Prod.snd)) := by
  have found : (process.results.mapM fun entry => disk.view content entry.2) =
      some (process.results.map fun entry => entry.2.worth content) :=
    mapM_some fun entry member => view_unchanged (follows.unchanged entry member)
  rw [Process.remaining, found, worths, List.map_map]
  rfl

section

variable (chained : Chained digest identity content procedure disk chain)

include chained

theorem Chained.ahead (distinct : procedure.Distinct ∅) (follows : process.Follows disk chain)
    (called : procedure.after ((worths content process.results).map Prod.snd) =
      .step name value next) : ∃ rest, replay chain = process.results ++ rest ∧
      name ∉ process.results.map Prod.fst ∧
      (rest = [] ∨ ∃ result later, rest = (name, result) :: later ∧
        value = .ok (result.worth content)) := by
  obtain ⟨rest, split⟩ := follows.results
  have traced := chained.traced
  rw [← split, worths, List.map_append] at traced
  obtain ⟨_, _, left⟩ := traced.left.distinct distinct
  have names : (worths content process.results).map Prod.fst = process.results.map Prod.fst := by
    rw [worths, List.map_map]
    rfl
  rw [← worths, called, names] at left
  refine ⟨rest, split.symm, fun member => left.1 (Or.inr member), ?_⟩
  have right := traced.right
  rw [← worths, called] at right
  cases rest with
  | nil => exact Or.inl rfl
  | cons entry later =>
    obtain ⟨named, returned, _⟩ := right
    exact Or.inr ⟨entry.2, later, by rw [← named], returned⟩

theorem Chained.recorded (distinct : procedure.Distinct ∅) (follows : process.Follows disk chain)
    (called : procedure.after ((worths content process.results).map Prod.snd) =
      .step name value next) {result : Result ι Stamp Data}
    (produced : value = .ok (result.worth content)) (elapsed : Nat)
    (listed : disk'.listed = disk.listed ++ [{
      name := completionName process.memory.sequence
        (process.memory.completion digest identity name result elapsed).sha256
      completion := some (process.memory.completion digest identity name result elapsed) }])
    (more : ∀ directory ∈ disk.directories, directory ∈ disk'.directories)
    (mine : result.directory ∈ disk'.directories) :
    Chained digest identity content procedure disk'
        (chain ++ [process.memory.completion digest identity name result elapsed]) ∧
      replay (chain ++ [process.memory.completion digest identity name result elapsed]) =
        process.results ++ [(name, result)] := by
  obtain ⟨rest, split, apart, later⟩ := chained.ahead distinct follows called
  have kept : (replay chain).takeWhile (·.1 ≠ name) = process.results := by
    have others : ∀ entry ∈ process.results, decide (entry.1 ≠ name) = true := by
      intro entry member
      exact decide_eq_true fun named => apart (named ▸ List.mem_map_of_mem member)
    rw [split, List.takeWhile_append_of_pos others]
    obtain rfl | ⟨_, _, rfl, _⟩ := later
    · exact List.append_nil _
    · rw [List.takeWhile_cons, if_neg (by simp), List.append_nil]
  have replayed : replay (chain ++ [process.memory.completion digest identity name result elapsed]) =
      process.results ++ [(name, result)] := by
    rw [replay_concat]
    exact congrArg (· ++ [(name, result)]) kept
  refine ⟨⟨?_, chained.linked.append ⟨⟨rfl, follows.previous, rfl⟩, trivial⟩, ?_, ?_⟩, replayed⟩
  · rw [listed, chained.listed, recordFiles_append, Nat.zero_add, follows.sequence]
    rfl
  · have before := chained.traced
    rw [split, worths, List.map_append] at before
    rw [replayed, worths, List.map_append]
    refine before.left.append ?_
    rw [← worths, called]
    exact ⟨rfl, produced, Procedure.traced_nil⟩
  · intro entry member
    rw [replayed] at member
    obtain member | member := List.mem_append.mp member
    · exact more _ (chained.directories entry (split ▸ List.mem_append_left _ member))
    · rw [List.mem_singleton.mp member]
      exact mine

theorem kept_idle :
    Kept digest identity content procedure { disk } :=
  ⟨chain, chained, fun _ none => by cases none⟩

end

theorem kept_empty : Kept digest identity content procedure {} :=
  ⟨[], ⟨rfl, trivial, Procedure.traced_nil, fun _ member => absurd member List.not_mem_nil⟩,
    fun _ none => by cases none⟩

end

section

variable {digest : Record ι Stamp Data → String} {identity : String} {content : Stamp → Body}
  {procedure : Procedure ι String (Value Body Data) α} {disk : Disk ι Stamp Data}
  {chain : List (Completion ι Stamp Data)} {process : Process ι Stamp Data} {name : ι}
  {value : Except String (Value Body Data)}
  {next : Value Body Data → Procedure ι String (Value Body Data) α}

theorem finishPhase_kept (chained : Chained digest identity content procedure disk chain)
    (distinct : procedure.Distinct ∅) (follows : process.Follows disk chain)
    (called : procedure.after ((worths content process.results).map Prod.snd) =
      .step name value next) {result : Result ι Stamp Data}
    (produced : value = .ok (result.worth content)) (mine : result.directory ∈ disk.directories)
    (written : result.unchanged disk) (writing : Writing Stamp) :
    Kept digest identity content procedure
        (finishPhase digest identity disk process name result writing) ∧
      (writing.killed = none → ∃ process',
        (finishPhase digest identity disk process name result writing).process = some process' ∧
          process'.results = process.results ++ [(name, result)]) := by
  have recorded : ∀ disk' : Disk ι Stamp Data, disk'.listed = disk.listed ++ [{
      name := completionName process.memory.sequence
        (process.memory.completion digest identity name result writing.elapsed).sha256
      completion := some
        (process.memory.completion digest identity name result writing.elapsed) }] →
      disk'.directories = disk.directories →
      Chained digest identity content procedure disk'
        (chain ++ [process.memory.completion digest identity name result writing.elapsed]) ∧
      replay (chain ++ [process.memory.completion digest identity name result writing.elapsed]) =
        process.results ++ [(name, result)] := fun disk' listed same =>
    chained.recorded distinct follows called produced writing.elapsed listed
      (fun directory member => same ▸ member) (same ▸ mine)
  have phase : (process.memory.completion digest identity name result
      writing.elapsed).record.phase = name := rfl
  have outcome : (process.memory.completion digest identity name result
      writing.elapsed).record.result = result := rfl
  unfold finishPhase
  dsimp only
  generalize process.memory.completion digest identity name result writing.elapsed = event
    at recorded phase outcome ⊢
  have listed := listed_completion disk process.memory.sequence event.sha256 (some event)
  obtain ⟨entries, directories, files⟩ := proved_disk
    (disk.addEntry (completionName process.memory.sequence event.sha256) (some event)) event
    writing.proven
  generalize (if writing.proven then (disk.addEntry (completionName process.memory.sequence
    event.sha256) (some event)).prove event else disk.addEntry
      (completionName process.memory.sequence event.sha256) (some event)) = proved at *
  have listed' : proved.listed = _ := (by rw [Disk.listed, entries]; rfl : proved.listed = _).trans listed
  cases writing.killed with
  | none =>
    refine ⟨?_, fun _ => ⟨_, rfl, rfl⟩⟩
    obtain ⟨chained', replayed⟩ := recorded { proved with journal := proved.journal ++ [event] }
      listed' directories
    refine ⟨_, chained', ?_⟩
    rintro _ same
    cases same
    refine ⟨?_, tip_concat.symm, ?_, ?_, ?_, ?_⟩
    · rw [replay_concat, phase, outcome, ← follows.completed]
      rfl
    · rw [List.length_append, ← follows.sequence]
      rfl
    · exact replayed ▸ List.prefix_refl _
    · intro entry member file listed
      rw [files]
      obtain member | member := List.mem_append.mp member
      · exact follows.unchanged entry member file listed
      · rw [List.mem_singleton.mp member] at listed ⊢
        exact written file listed
    · obtain ⟨fresh, names, _⟩ := follows.reused
      refine ⟨fresh ++ [name], ?_, fun _ => replayed.symm⟩
      rw [List.map_append, names, List.append_assoc]
      rfl
  | some kill =>
    refine ⟨?_, fun none => by cases none⟩
    cases kill with
    | inside left => exact kept_idle chained
    | writing scratch =>
      exact kept_idle (chained.moved (listed_scratch disk _ scratch none) fun _ member => member)
    | linked scratch =>
      have linked := listed_completion (disk.addEntry (scratchName
        (completionName process.memory.sequence event.sha256) scratch) (some event))
          process.memory.sequence event.sha256 (some event)
      rw [listed_scratch] at linked
      exact kept_idle (recorded _ linked rfl).1
    | recorded => exact kept_idle (recorded _ listed rfl).1
    | proved => exact kept_idle (recorded _ listed' directories).1
    | mirrored =>
      exact kept_idle (recorded { proved with journal := proved.journal ++ [event] } listed'
        directories).1

theorem Chained.follows_write (chained : Chained digest identity content procedure disk chain)
    (follows : process.Follows disk chain) {directory : ι × Uuid}
    (fresh : directory ∉ disk.directories) (files : List (String × Stamp)) :
    process.Follows (disk.write directory files) chain := by
  refine ⟨follows.completed, follows.previous, follows.sequence, follows.results, ?_, follows.reused⟩
  intro entry member file listed
  have apart : entry.2.directory ≠ directory := fun same =>
    fresh (same ▸ chained.directories entry (follows.results.subset member))
  rw [Disk.write]
  dsimp only
  rw [if_neg apart]
  exact follows.unchanged entry member file listed

variable [DecidableEq Stamp]

theorem reuse_kept (chained : Chained digest identity content procedure disk chain)
    (distinct : procedure.Distinct ∅) (follows : process.Follows disk chain)
    (called : procedure.after ((worths content process.results).map Prod.snd) =
      .step name value next) {prior : Result ι Stamp Data}
    (found : completedPhase disk process.memory name = some prior) :
    value = .ok (prior.worth content) ∧ Process.Follows
      { memory := { process.memory with reused := process.memory.reused ++ [name] }
        results := process.results ++ [(name, prior)] } disk chain := by
  obtain ⟨rest, split, apart, later⟩ := chained.ahead distinct follows called
  have skipped : process.results.lookup name = none := by
    rw [List.lookup_eq_none_iff]
    intro entry member
    have differs : name ≠ entry.1 := fun named => apart (named ▸ List.mem_map_of_mem member)
    simpa using differs
  unfold completedPhase at found
  rw [follows.completed, split, List.lookup_append, skipped, Option.none_or] at found
  obtain rfl | ⟨result, rest', rfl, returned⟩ := later
  · cases found
  rw [List.lookup_cons, beq_self_eq_true] at found
  dsimp only at found
  split at found
  next valid =>
    cases found
    refine ⟨returned, follows.completed, follows.previous, follows.sequence, ?_, ?_, ?_⟩
    · exact ⟨rest', by rw [split, List.append_assoc]; rfl⟩
    · intro entry member
      obtain member | member := List.mem_append.mp member
      · exact follows.unchanged entry member
      · rw [List.mem_singleton.mp member]
        exact valid.1
    · obtain ⟨fresh, names, all⟩ := follows.reused
      have none : fresh = [] := by
        by_contra some
        have whole := all some
        rw [split] at whole
        simp at whole
      refine ⟨[], ?_, fun some => absurd rfl some⟩
      rw [List.map_append, names, none]
      simp
  next => cases found

variable [DecidableEq Body]

theorem phase_kept (chained : Chained digest identity content procedure disk chain)
    (distinct : procedure.Distinct ∅) (follows : process.Follows disk chain)
    (called : procedure.after ((worths content process.results).map Prod.snd) =
      .step name value next) (writing : Writing Stamp) :
    Kept digest identity content procedure
        (phase digest identity content disk process name value writing) ∧
      ∀ given, value = .ok given → (name, writing.uuid) ∉ disk.directories →
        (∀ output ∈ given.outputs, content (writing.stamps output.1) = output.2) →
          writing.killed = none → ∃ process' result,
            (phase digest identity content disk process name value writing).process =
              some process' ∧ process'.results = process.results ++ [(name, result)] ∧
                result.worth content = given := by
  unfold phase
  cases found : completedPhase disk process.memory name with
  | some prior =>
    obtain ⟨returned, follows'⟩ := reuse_kept chained distinct follows called found
    refine ⟨⟨chain, chained, fun _ same => by cases same; exact follows'⟩,
      fun given same _ _ _ => ⟨_, prior, rfl, rfl, ?_⟩⟩
    rw [returned] at same
    exact Except.ok.inj same
  | none =>
    dsimp only
    unfold producePhase
    dsimp only
    split
    next taken => exact ⟨kept_idle chained, fun _ _ fresh => absurd taken fresh⟩
    next fresh =>
      have wrote : ∀ files, Chained digest identity content procedure
          (disk.write (name, writing.uuid) files) chain := fun files =>
        chained.moved rfl fun directory member => List.mem_cons_of_mem _ member
      cases value with
      | error failure => exact ⟨kept_idle (wrote []), fun _ same => by cases same⟩
      | ok given =>
        dsimp only
        split
        next told =>
          have written : Result.unchanged (disk.write (name, writing.uuid)
              (given.outputs.map fun output => (output.1, writing.stamps output.1)))
              ⟨(name, writing.uuid), given.outputs.map fun output =>
                (output.1, writing.stamps output.1), given.data⟩ := by
            intro file member
            obtain ⟨output, listed, rfl⟩ := List.mem_map.mp member
            rw [Disk.write]
            dsimp only
            rw [if_pos rfl, lookup_stamps writing.stamps (List.mem_map_of_mem listed)]
            rfl
          have finished := finishPhase_kept (wrote (given.outputs.map fun output =>
              (output.1, writing.stamps output.1))) distinct
            (chained.follows_write follows fresh _) called
            (congrArg _ (written_worth told (name, writing.uuid)).symm) List.mem_cons_self
            written writing
          cases killed : writing.killed with
          | none =>
            refine ⟨finished.1, fun _ same _ _ _ => ?_⟩
            obtain ⟨process', alive, results⟩ := finished.2 killed
            refine ⟨process', _, alive, results, ?_⟩
            rw [← Except.ok.inj same]
            exact written_worth told _
          | some kill =>
            refine ⟨?_, fun _ _ _ _ none => by cases none⟩
            cases kill with
            | inside left => exact kept_idle (wrote left)
            | _ => exact finished.1
        next untold =>
          refine ⟨⟨chain, chained, fun _ same => by cases same; exact follows⟩,
            fun _ same _ told => absurd ?_ untold⟩
          rw [Except.ok.inj same]
          exact told

end

section

variable [DecidableEq Stamp] [DecidableEq Data] {digest : Record ι Stamp Data → String}
  {identity : String} {content : Stamp → Body}
  {procedure : Procedure ι String (Value Body Data) α}

theorem start_kept {disk : Disk ι Stamp Data}
    (kept : Kept digest identity content procedure { disk }) (narrow : disk.listed.length ≤ sortableRecords)
    (trusts : String → Bool) : ∃ memory, load digest identity disk trusts = .ok memory ∧
      Kept digest identity content procedure { disk, process := some { memory } } := by
  obtain ⟨chain, chained, _⟩ := kept
  have bounded : chain.length ≤ sortableRecords := by
    rw [← recordFiles_length 0 chain, ← chained.listed]
    exact narrow
  obtain ⟨memory, loaded, completed, previous, sequence, reused⟩ :=
    load_chain chained.listed chained.linked bounded trusts
  refine ⟨memory, loaded, chain, chained, ?_⟩
  intro _ same
  cases same
  exact ⟨completed, previous, sequence, List.nil_prefix, fun _ member => absurd member List.not_mem_nil,
    ⟨[], by rw [reused]; rfl, fun some => absurd rfl some⟩⟩

end

end SparseLab.Corpus
