import SparseLab.Corpus.StageRuns

/-! Interrupted runs of `freeze_completed_preparation`, and the limit of their completion chain. -/

namespace SparseLab.Corpus

open Library

section

variable {Stamp : Type} [DecidableEq Stamp] (phases : Phases)
  (digest : Record PhaseName Stamp Fields → String) (identity : String) (content : Stamp → Lines)

structure FreezeTransparent (machine : Machine PhaseName Stamp Fields) : Prop
    extends Transparent digest identity content (freeze phases) machine where
  files : ∀ process ∈ machine.process, ∀ assignment candidates,
    process.remaining content (freeze phases) machine.disk = some (.done (assignment, candidates)) →
      (freeze phases).run = .ok (assignment, candidates) ∧
        (∃ result, (.assembled .assignments, result) ∈ process.results ∧
          machine.disk.view content result = some assignment) ∧
        ∃ result, (.assembled .families, result) ∈ process.results ∧
          machine.disk.view content result = some candidates
  resumed : Writable content (freeze phases) → machine.process = none →
    machine.disk.listed.length ≤ sortableRecords → ∀ trusts, ∃ calls process left,
      (runEvents digest identity content (freeze phases) machine (.start trusts :: calls)).process =
          some process ∧
        process.remaining content (freeze phases) (runEvents digest identity content
          (freeze phases) machine (.start trusts :: calls)).disk = some left ∧
        Halted left ∧ left.run = (freeze phases).run

/-- In every careful run a freeze can be interrupted and resumed at any point. -/
theorem freeze_transparent (events : List (Event PhaseName Stamp))
    (careful : CarefulRun digest identity content (freeze phases) {} events) :
    FreezeTransparent phases digest identity content
      (runEvents digest identity content (freeze phases) {} events) := by
  have distinct := freeze_distinct phases
  have kept := run_kept distinct events kept_empty careful
  generalize runEvents digest identity content (freeze phases) {} events = machine at kept
  refine ⟨kept.transparent, fun process alive assignment candidates finished => ?_,
    fun writable idle narrow trusts => ?_⟩
  · obtain ⟨left, remaining, same⟩ := kept.transparent.finished process alive
    rw [finished] at remaining
    cases remaining
    obtain ⟨chain, chained, follows⟩ := kept
    have follows := follows process alive
    rw [follows.remaining_eq] at finished
    have traced : (freeze phases).Traced (worths content process.results) := by
      obtain ⟨rest, whole⟩ := follows.results
      have traced := chained.traced
      rw [← whole, worths, List.map_append] at traced
      exact traced.left
    have shown : ∀ name value, (name, value) ∈ worths content process.results →
        ∃ result, (name, result) ∈ process.results ∧
          machine.disk.view content result = some value := by
      intro name value member
      obtain ⟨⟨name', result⟩, known, same⟩ := List.mem_map.mp member
      cases same
      exact ⟨result, known, view_unchanged (follows.unchanged _ known)⟩
    obtain ⟨first, second⟩ := freeze_done traced (Option.some.inj finished)
    exact ⟨same.symm, shown _ _ first, shown _ _ second⟩
  · obtain ⟨disk, process⟩ := machine
    obtain rfl : process = none := idle
    obtain ⟨memory, loaded, kept'⟩ := start_kept kept narrow trusts
    have started : step digest identity content (freeze phases) { disk } (.start trusts) =
        { disk, process := some { memory } } := by
      dsimp only [step]
      rw [loaded]
    obtain ⟨calls, process, careful', alive, halted⟩ :=
      process_halts distinct writable _ kept' rfl rfl
    have run : runEvents digest identity content (freeze phases) { disk } (.start trusts :: calls) =
        runEvents digest identity content (freeze phases) { disk, process := some { memory } } calls := by
      rw [runEvents, List.foldl_cons, started]
      rfl
    have kept'' := run_kept distinct calls kept' careful'
    obtain ⟨left, remaining, same⟩ := kept''.transparent.finished process alive
    obtain ⟨chain, chained, follows⟩ := kept''
    refine ⟨calls, process, left, ?_, ?_, ?_, same⟩
    · rw [run, alive]
    · rw [run, remaining]
    · have known : process.remaining content (freeze phases) _ = _ :=
        (follows process alive).remaining_eq
      rw [remaining] at known
      rw [Option.some.inj known]
      exact halted

end

section

def refusedPhases : Phases where
  admission := .ok { outputs := [], data := .json "" }
  inventory _ := .error "inventory and admission snapshots disagree"
  reported := 0
  merges := .ok ()
  prior := none
  join _ _ := .error ""
  family _ := .error ""
  allocation _ := .error ""
  assigned _ _ := .error ""
  content _ := .error ""
  decode _ := ⟨"", "test", none, none, ""⟩
  canonicalJson _ := ""

def countingDigest (record : Record PhaseName Lines Fields) : String :=
  String.ofList ('0' :: (record.previous.getD "").toList)

abbrev LimitEvent := Event PhaseName Lines

def killedWriting (uuid : Uuid) : Writing Lines where
  uuid := uuid
  stamps _ := []
  elapsed := 0
  proven := false
  killed := some .recorded

def killedRound (uuid : Uuid) : List LimitEvent :=
  [.start fun _ => false, .call (killedWriting uuid)]

def limitRun (machine : Machine PhaseName Lines Fields) (events : List LimitEvent) :
    Machine PhaseName Lines Fields :=
  runEvents countingDigest "" id (freeze refusedPhases) machine events

theorem freeze_transparent_killed : FreezeTransparent refusedPhases countingDigest "" id
    (limitRun {} (killedRound 0 ++ [.start fun _ => true])) := by
  refine freeze_transparent refusedPhases countingDigest "" id _ ⟨?_, trivial, ?_, trivial⟩
  · exact Nat.zero_le _
  · unfold Careful
    decide +kernel

theorem load_untrusted {disk : Disk PhaseName Lines Fields}
    {memory : Memory PhaseName Lines Fields}
    (loaded : load countingDigest "" disk (fun _ => false) = .ok memory) :
    memory.authenticated = [] := by
  unfold load at loaded
  generalize disk.listed.insertionSort (fun first second => first.name ≤ second.name) = files at loaded
  have started : ({} : Memory PhaseName Lines Fields).authenticated = [] := rfl
  generalize ({} : Memory PhaseName Lines Fields) = before at loaded started
  induction files generalizing before with
  | nil =>
    cases loaded
    exact started
  | cons file files ih =>
    rw [List.foldlM_cons] at loaded
    obtain ⟨next, accepted, loaded⟩ := bind_eq_ok loaded
    refine ih next loaded ?_
    unfold accept at accepted
    cases written : file.completion with
    | none =>
      rw [written] at accepted
      cases accepted
    | some event =>
      rw [written] at accepted
      obtain ⟨_, accepted⟩ := refuseIf_bind_eq_ok.mp accepted
      obtain ⟨_, accepted⟩ := refuseIf_bind_eq_ok.mp accepted
      rw [← Except.ok.inj accepted]
      simp [Disk.proves, Memory.remember, started]

theorem killedRound_records {disk : Disk PhaseName Lines Fields} {uuid : Uuid}
    (kept : Kept countingDigest "" id (freeze refusedPhases) { disk })
    (narrow : disk.listed.length ≤ sortableRecords)
    (fresh : (PhaseName.admission, uuid) ∉ disk.directories) :
    ∃ disk', limitRun { disk } (killedRound uuid) = { disk := disk' } ∧
      Kept countingDigest "" id (freeze refusedPhases) { disk := disk' } ∧
        disk'.listed.length = disk.listed.length + 1 ∧
          disk'.directories = (.admission, uuid) :: disk.directories := by
  obtain ⟨memory, loaded, kept'⟩ := start_kept kept narrow fun _ => false
  have unproven : completedPhase disk memory .admission = none := by
    unfold completedPhase
    rw [load_untrusted loaded]
    split
    next => rfl
    next => exact if_neg fun valid => absurd valid.2 List.not_mem_nil
  have started : step countingDigest "" id (freeze refusedPhases) { disk } (.start fun _ => false) =
      { disk, process := some { memory } } := by
    dsimp only [step]
    rw [loaded]
  obtain ⟨disk', called, listed, directories⟩ : ∃ disk',
      step countingDigest "" id (freeze refusedPhases) { disk, process := some { memory } }
        (.call (killedWriting uuid)) = { disk := disk' } ∧
        disk'.listed.length = disk.listed.length + 1 ∧
          disk'.directories = (.admission, uuid) :: disk.directories := by
    refine ⟨(disk.write (.admission, uuid) []).addEntry (completionName memory.sequence
      (memory.completion countingDigest "" .admission ⟨(.admission, uuid), [], .json ""⟩ 0).sha256)
        (some (memory.completion countingDigest "" .admission
          ⟨(.admission, uuid), [], .json ""⟩ 0)), ?_, ?_, rfl⟩
    · change phase countingDigest "" id disk { memory } .admission _ _ = _
      unfold phase
      rw [unproven]
      dsimp only [producePhase]
      exact if_neg fresh
    · rw [listed_completion, List.length_append]
      rfl
  have kept'' : Kept countingDigest "" id (freeze refusedPhases) (step countingDigest "" id
      (freeze refusedPhases) { disk, process := some { memory } } (.call (killedWriting uuid))) :=
    step_kept (freeze_distinct _) kept' trivial
  rw [called] at kept''
  refine ⟨disk', ?_, kept'', listed, directories⟩
  rw [limitRun, runEvents, killedRound, List.foldl_cons, started, List.foldl_cons, called]
  rfl

theorem limitRun_append (machine : Machine PhaseName Lines Fields) (first later : List LimitEvent) :
    limitRun machine (first ++ later) = limitRun (limitRun machine first) later :=
  List.foldl_append

theorem killedRounds_records (count : Nat) (narrow : count ≤ sortableRecords + 1) : ∃ disk,
    limitRun {} ((List.range count).flatMap killedRound) = { disk } ∧
      Kept countingDigest "" id (freeze refusedPhases) { disk } ∧ disk.listed.length = count ∧
        ∀ directory ∈ disk.directories, directory.2 < count := by
  induction count with
  | zero => exact ⟨{}, rfl, kept_empty, rfl, fun _ member => absurd member List.not_mem_nil⟩
  | succ count ih =>
    obtain ⟨disk, ran, kept, records, directories⟩ := ih (by omega)
    have fresh : (PhaseName.admission, count) ∉ disk.directories :=
      fun taken => Nat.lt_irrefl _ (directories _ taken)
    obtain ⟨disk', round, kept', more, grown⟩ := killedRound_records kept (by omega) fresh
    refine ⟨disk', ?_, kept', by omega, fun directory member => ?_⟩
    · rw [List.range_succ, List.flatMap_append, List.flatMap_singleton, limitRun_append, ran, round]
    · rw [grown] at member
      obtain rfl | member := List.mem_cons.mp member
      · exact Nat.lt_succ_self _
      · exact Nat.lt_succ_of_lt (directories directory member)

def depth (sha256 : Option String) : Nat := (sha256.getD "").toList.length

theorem depth_counting {record : Record PhaseName Lines Fields} :
    depth (some (countingDigest record)) = depth record.previous + 1 := by
  simp [depth, countingDigest]

theorem recordFiles_depth {previous : Option String} {start : Nat}
    {chain : List (Completion PhaseName Lines Fields)}
    (linked : Linked countingDigest "" previous chain) (graded : depth previous = start)
    {file : Entry PhaseName Lines Fields} (member : file ∈ recordFiles start chain) :
    ∃ sequence event, file.name = completionName sequence event.sha256 ∧
      file.completion = some event ∧ depth (some event.sha256) = sequence + 1 := by
  induction chain generalizing previous start with
  | nil => cases member
  | cons event chain ih =>
    obtain ⟨⟨sealed, follows, _⟩, linked⟩ := linked
    have deeper : depth (some event.sha256) = start + 1 := by
      rw [sealed, depth_counting, follows, graded]
    obtain rfl | member := List.mem_cons.mp member
    · exact ⟨start, event, rfl, rfl, deeper⟩
    · exact ih linked deeper member

theorem accepted_depth {disk : Disk PhaseName Lines Fields} {trusts : String → Bool}
    {files : List (Entry PhaseName Lines Fields)} {memory memory' : Memory PhaseName Lines Fields}
    (accepted : files.foldlM (accept countingDigest "" disk trusts) memory = .ok memory')
    {index : Nat} (inside : index < files.length) : ∃ event, files[index].completion = some event ∧
      depth (some event.sha256) = depth memory.previous + index + 1 := by
  induction files generalizing memory index with
  | nil => cases inside
  | cons file files ih =>
    rw [List.foldlM_cons] at accepted
    obtain ⟨next, first, accepted⟩ := bind_eq_ok accepted
    unfold accept at first
    cases written : file.completion with
    | none =>
      rw [written] at first
      cases first
    | some event =>
      rw [written] at first
      obtain ⟨intact, first⟩ := refuseIf_bind_eq_ok.mp first
      obtain ⟨_, first⟩ := refuseIf_bind_eq_ok.mp first
      obtain ⟨sealed, follows⟩ := not_or.mp intact
      have sealed := not_not.mp sealed
      have follows := not_not.mp follows
      have deeper : depth (some event.sha256) = depth memory.previous + 1 := by
        rw [sealed, depth_counting, follows]
      cases index with
      | zero => exact ⟨event, written, deeper⟩
      | succ index =>
        have previous : next.previous = some event.sha256 := by
          rw [← Except.ok.inj first, sealed]
        obtain ⟨found, shown, deep⟩ := ih accepted (Nat.lt_of_succ_lt_succ inside)
        refine ⟨found, shown, ?_⟩
        rw [deep, previous, deeper]
        omega

theorem load_refused {disk : Disk PhaseName Lines Fields}
    {chain : List (Completion PhaseName Lines Fields)} (listed : disk.listed = recordFiles 0 chain)
    (linked : Linked countingDigest "" none chain) (many : sortableRecords < chain.length)
    (trusts : String → Bool) : ∃ failure, load countingDigest "" disk trusts = .error failure := by
  cases loaded : load countingDigest "" disk trusts with
  | error failure => exact ⟨failure, rfl⟩
  | ok memory =>
    exfalso
    unfold load at loaded
    have total : Std.Total fun first second : Entry PhaseName Lines Fields =>
        first.name ≤ second.name := ⟨fun first second => le_total first.name second.name⟩
    have chained : IsTrans _ fun first second : Entry PhaseName Lines Fields =>
        first.name ≤ second.name := ⟨fun _ _ _ before after => le_trans before after⟩
    have sorted := List.pairwise_insertionSort
      (fun first second : Entry PhaseName Lines Fields => first.name ≤ second.name) disk.listed
    have same := List.perm_insertionSort
      (fun first second : Entry PhaseName Lines Fields => first.name ≤ second.name) disk.listed
    generalize disk.listed.insertionSort (fun first second => first.name ≤ second.name) = files
      at loaded sorted same
    have count : files.length = chain.length := by
      rw [same.length_eq, listed, recordFiles_length]
    have named : ∀ index (inside : index < files.length), ∃ sha256,
        files[index].name = completionName index sha256 := by
      intro index inside
      obtain ⟨event, shown, deep⟩ := accepted_depth loaded inside
      have member : files[index] ∈ recordFiles 0 chain :=
        listed ▸ same.mem_iff.mp (List.getElem_mem inside)
      obtain ⟨sequence, event', name, shown', deep'⟩ := recordFiles_depth linked rfl member
      rw [shown] at shown'
      cases shown'
      have place : sequence = index := by
        have none : depth (none : Option String) = 0 := rfl
        have start : ({} : Memory PhaseName Lines Fields).previous = Option.none := rfl
        rw [start, none] at deep
        omega
      exact ⟨event.sha256, place ▸ name⟩
    have last : sortableRecords - 1 < files.length := by omega
    have next : sortableRecords < files.length := by omega
    obtain ⟨lastSha, lastName⟩ := named _ last
    obtain ⟨nextSha, nextName⟩ := named _ next
    have positive : 0 < sortableRecords := Nat.pow_pos (by decide)
    have order := List.pairwise_iff_getElem.mp sorted _ _ last next (by omega)
    rw [lastName, nextName] at order
    exact not_le_of_gt completionName_overflow order

theorem million_records_refused : ∃ disk,
    limitRun {} ((List.range (sortableRecords + 1)).flatMap killedRound) = { disk } ∧
      (∃ chain, disk.listed = recordFiles 0 chain ∧ Linked countingDigest "" none chain) ∧
        ∀ trusts, ∃ failure, load countingDigest "" disk trusts = .error failure := by
  obtain ⟨disk, ran, ⟨chain, chained, _⟩, records, _⟩ :=
    killedRounds_records (sortableRecords + 1) le_rfl
  refine ⟨disk, ran, ⟨chain, chained.listed, chained.linked⟩, fun trusts => ?_⟩
  refine load_refused chained.listed chained.linked ?_ trusts
  rw [chained.listed, recordFiles_length] at records
  omega

end

end SparseLab.Corpus
