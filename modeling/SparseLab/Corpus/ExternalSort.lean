import SparseLab.Corpus.StructureCleaning
import SparseLab.Library.Numerals
import SparseLab.Library.StableSorting

/-! Sorted runs on disk and their merge: `external_sort` of `corpus/split_runs.py`. -/

namespace SparseLab.Corpus.ExternalSort

open Library Cleaning

abbrev Bytes := List Nat

def fanIn : Nat := 32

inductive RunPath
  | run (number : Nat)
  | merge (generation start : Nat)
deriving DecidableEq

def RunPath.text : RunPath → List Char
  | run number => "run-".toList ++ zeroPadded 6 number ++ ".jsonl".toList
  | merge generation start =>
    "merge-".toList ++ zeroPadded 3 generation ++ '-' :: zeroPadded 6 start ++ ".jsonl".toList

inductive SortFailure
  | fileExists | missing | unencodable | unreadable
deriving DecidableEq

/-- `canonical_json` and `json.loads`. -/
structure Codec (ρ : Type) where
  canonical : ρ → Option Bytes
  loads : Bytes → Option ρ

structure Codec.Faithful {ρ : Type} (codec : Codec ρ) : Prop where
  reads : ∀ record raw, codec.canonical record = some raw →
    codec.loads (raw ++ [0x0a]) = some record
  single : ∀ record raw, codec.canonical record = some raw → 0x0a ∉ raw

abbrev Directory := List (RunPath × Bytes)

structure Published where
  path : RunPath
  rows : Nat
  bytes : Nat
deriving DecidableEq

structure Receipt where
  published : Published
  initialRuns : Nat
  mergeGenerations : Nat
  logicalBytesWritten : Nat
deriving DecidableEq

structure State where
  directory : Directory
  published : List Published
  paths : List RunPath

section

variable {ρ κ : Type} [LinearOrder κ] (codec : Codec ρ) (key : ρ → κ)

/-- `_write_raw` of lines to a name that is not taken. -/
def writeRaw (state : State) (path : RunPath) (encoded : List Bytes) : Except SortFailure State :=
  if path ∈ state.directory.map Prod.fst then .error .fileExists
  else
    .ok
      { directory := state.directory ++ [(path, encoded.flatten)]
        published := state.published ++
          [{ path := path, rows := encoded.length, bytes := encoded.flatten.length }]
        paths := state.paths }

def writeBatch (state : State) (number : Nat) (batch : List (κ × Bytes)) :
    Except SortFailure State := do
  let written ← writeRaw state (.run number) ((sortedBy Prod.fst batch).map Prod.snd)
  .ok { written with paths := written.paths ++ [.run number] }

def formRuns (bufferBytes : Nat) : State → (batch : List (κ × Bytes)) → (size run : Nat) → List ρ →
    Except SortFailure State
  | state, batch, _, run, [] =>
    if batch ≠ [] ∨ state.paths = [] then writeBatch state run batch else .ok state
  | state, batch, size, run, record :: records =>
    match codec.canonical record with
    | none => .error .unencodable
    | some json => do
        let raw := json ++ [0x0a]
        let batch := batch ++ [(key record, raw)]
        let size := size + raw.length
        if bufferBytes ≤ size then
          let state ← writeBatch state run batch
          formRuns bufferBytes state [] 0 (run + 1) records
        else formRuns bufferBytes state batch size run records

def readRun (directory : Directory) (path : RunPath) : Except SortFailure (List (κ × Bytes)) :=
  match (directory.find? fun file => file.1 = path).map Prod.snd with
  | none => .error .missing
  | some contents =>
    (physicalLines contents).mapM fun line =>
      match codec.loads line with
      | none => .error .unreadable
      | some record => .ok (key record, line)

/-- The merge of at most `fanIn` runs at a time, in the order of the runs. -/
def mergeRound (generation : Nat) : (fuel start : Nat) → State → List RunPath →
    Except SortFailure State
  | _, _, state, [] => .ok state
  | 0, _, state, _ :: _ => .ok state
  | fuel + 1, start, state, path :: paths => do
      let selected := (path :: paths).take fanIn
      let streams ← selected.mapM (readRun codec key state.directory)
      let output := RunPath.merge generation start
      let written ← writeRaw state output ((heapMerge Prod.fst streams).map Prod.snd)
      mergeRound generation fuel (start + fanIn) { written with paths := written.paths ++ [output] }
        ((path :: paths).drop fanIn)

/-- `while len(paths) > 1` -/
def mergeRuns : (fuel generation : Nat) → State → Except SortFailure (State × Nat)
  | 0, generation, state => .ok (state, generation)
  | fuel + 1, generation, state =>
    if 1 < state.paths.length then do
      let merged ← mergeRound codec key generation state.paths.length 0
        { state with paths := [] } state.paths
      mergeRuns fuel (generation + 1) merged
    else .ok (state, generation)

def externalSort (bufferBytes : Nat) (records : List ρ) :
    Except SortFailure (Receipt × Directory) := do
  let formed ← formRuns codec key bufferBytes
    { directory := [], published := [], paths := [] } [] 0 0 records
  let (merged, generations) ← mergeRuns codec key formed.paths.length 0 formed
  match merged.paths.head?.bind fun path => merged.published.find? fun item => item.path = path with
  | none => .error .missing
  | some item =>
    .ok
      ({ published := item
         initialRuns := formed.paths.length
         mergeGenerations := generations
         logicalBytesWritten := (merged.published.map Published.bytes).sum }, merged.directory)

end

section

theorem digits_of_zeroPadded {width number : Nat} : '-' ∉ zeroPadded width number := by
  have digit : ∀ width, '-' ∉ fixedDigits width number := by
    intro width
    induction width with
    | zero => exact List.not_mem_nil
    | succ width ih =>
      intro inside
      rcases List.mem_cons.mp inside with here | there
      · have all : ∀ digit : Fin 10, Nat.digitChar digit ≠ '-' := by decide
        exact all ⟨number / 10 ^ width % 10, Nat.mod_lt _ (by decide)⟩ here.symm
      · exact ih there
  exact digit _

theorem split_first {before before' after after' : List Char} (first : '-' ∉ before)
    (second : '-' ∉ before') (same : before ++ '-' :: after = before' ++ '-' :: after') :
    before = before' ∧ after = after' := by
  have front : ∀ {part tail : List Char}, '-' ∉ part →
      (part ++ '-' :: tail).takeWhile (· ≠ '-') = part := by
    intro part tail absent
    rw [List.takeWhile_append_of_pos fun char member => by
      simpa using ne_of_mem_of_not_mem member absent]
    simp
  have heads := congrArg (List.takeWhile (· ≠ '-')) same
  rw [front first, front second] at heads
  subst heads
  exact ⟨rfl, (List.cons.inj (List.append_cancel_left same)).2⟩

theorem between_injective {front back inner inner' : List Char}
    (same : front ++ inner ++ back = front ++ inner' ++ back) : inner = inner' := by
  rw [List.append_assoc, List.append_assoc] at same
  exact List.append_cancel_right (List.append_cancel_left same)

theorem numbers_injective {front back : List Char} {width width' first second first' second' : Nat}
    (same : front ++ zeroPadded width first ++ '-' :: zeroPadded width' second ++ back =
      front ++ zeroPadded width first' ++ '-' :: zeroPadded width' second' ++ back) :
    first = first' ∧ second = second' := by
  have whole := List.append_cancel_right same
  rw [List.append_assoc, List.append_assoc] at whole
  obtain ⟨firsts, seconds⟩ := split_first digits_of_zeroPadded digits_of_zeroPadded
    (List.append_cancel_left whole)
  exact ⟨zeroPadded_injective firsts, zeroPadded_injective seconds⟩

theorem RunPath.text_injective : Function.Injective RunPath.text := by
  intro first second same
  cases first with
  | run number =>
    cases second with
    | run number' => rw [zeroPadded_injective (between_injective same)]
    | merge generation start =>
      have head : some 'r' = some 'm' := congrArg List.head? same
      cases head
  | merge generation start =>
    cases second with
    | run number =>
      have head : some 'm' = some 'r' := congrArg List.head? same
      cases head
    | merge generation' start' =>
      obtain ⟨rfl, rfl⟩ := numbers_injective same
      rfl

end

section

theorem physicalLines_ended {bodies : List Bytes} (single : ∀ body ∈ bodies, 0x0a ∉ body) :
    physicalLines ((bodies.map fun body => body ++ [0x0a]).flatten) =
      bodies.map fun body => body ++ [0x0a] := by
  have whole : (bodies.map fun body => body ++ [0x0a]).flatten =
      [0x0a].intercalate (bodies ++ [[]]) := by
    have ended := flatten_ended 0x0a (bodies ++ [[]]) (by simp)
    rw [← ended]
    simp
  by_cases empty : bodies = []
  · subst empty
    rfl
  · have parts : ([0x0a].intercalate (bodies ++ [[]])).splitOn 0x0a = bodies ++ [[]] := by
      apply List.splitOn_intercalate
      · intro body member
        rcases List.mem_append.mp member with inside | last
        · exact single body inside
        · rw [List.mem_singleton.mp last]
          exact List.not_mem_nil
      · simp
    have some : [0x0a].intercalate (bodies ++ [[]]) ≠ [] := by
      rw [← whole]
      cases bodies with
      | nil => exact absurd rfl empty
      | cons body bodies => simp
    rw [whole, physicalLines, if_neg some]
    simp only [parts, List.dropLast_concat, List.getLast?_concat, Option.getD_some, if_pos,
      List.append_nil]

end

section

variable {ρ κ : Type} [LinearOrder κ] {codec : Codec ρ} {key : ρ → κ} {state next : State}
  {path : RunPath} {group records : List ρ} {groups : List (List ρ)}

def lineOf (codec : Codec ρ) (record : ρ) : Bytes := (codec.canonical record).getD [] ++ [0x0a]

def entryOf (codec : Codec ρ) (key : ρ → κ) (record : ρ) : κ × Bytes :=
  (key record, lineOf codec record)

def Encodable (codec : Codec ρ) (records : List ρ) : Prop :=
  ∀ record ∈ records, ∃ raw, codec.canonical record = some raw

def contentsOf (codec : Codec ρ) (records : List ρ) : Bytes := (records.map (lineOf codec)).flatten

structure RunOf (codec : Codec ρ) (key : ρ → κ) (state : State) (path : RunPath)
    (group : List ρ) : Prop where
  encodable : Encodable codec group
  stored : state.directory.find? (fun file => file.1 = path) =
    some (path, contentsOf codec (sortedBy key group))
  receipt : state.published.find? (fun item => item.path = path) =
    some { path := path, rows := group.length
           bytes := (contentsOf codec (sortedBy key group)).length }

theorem writeRaw_eq {encoded : List Bytes} (fresh : path ∉ state.directory.map Prod.fst) :
    writeRaw state path encoded = .ok
      { directory := state.directory ++ [(path, encoded.flatten)]
        published := state.published ++
          [{ path := path, rows := encoded.length, bytes := encoded.flatten.length }]
        paths := state.paths } := by
  rw [writeRaw, if_neg fresh]

def Listed (state : State) : Prop :=
  state.published.map Published.path = state.directory.map Prod.fst

variable (key) in
theorem writeRaw_runs (listed : Listed state) (fresh : path ∉ state.directory.map Prod.fst)
    (encodable : Encodable codec group) :
    ∃ next, writeRaw state path ((sortedBy key group).map (lineOf codec)) = .ok next ∧
      Listed next ∧ next.paths = state.paths ∧
      next.directory.map Prod.fst = state.directory.map Prod.fst ++ [path] ∧
      RunOf codec key next path group ∧
      ∀ other group', RunOf codec key state other group' → RunOf codec key next other group' := by
  have unknown : state.directory.find? (fun file => file.1 = path) = none := by
    rw [List.find?_eq_none]
    intro file member same
    exact fresh (List.mem_map.mpr ⟨file, member, by simpa using same⟩)
  have unpublished : state.published.find? (fun item => item.path = path) = none := by
    rw [List.find?_eq_none]
    intro item member same
    apply fresh
    rw [← listed]
    exact List.mem_map.mpr ⟨item, member, by simpa using same⟩
  refine ⟨_, writeRaw_eq fresh, ?_, rfl, ?_, ⟨encodable, ?_, ?_⟩, ?_⟩
  · rw [Listed, List.map_append, List.map_append, listed]
    rfl
  · rw [List.map_append]
    rfl
  · rw [List.find?_append, unknown, Option.none_or, List.find?_cons_of_pos (by simp)]
    rfl
  · have rows : ((sortedBy key group).map (lineOf codec)).length = group.length := by
      rw [List.length_map, (sortedBy_stable group).perm.length_eq]
    rw [List.find?_append, unpublished, Option.none_or, List.find?_cons_of_pos (by simp), rows]
    rfl
  · intro other group' run
    refine ⟨run.encodable, ?_, ?_⟩
    · rw [List.find?_append, run.stored, Option.some_or]
    · rw [List.find?_append, run.receipt, Option.some_or]

theorem sortedBy_entries (group : List ρ) :
    (sortedBy Prod.fst (group.map (entryOf codec key))).map Prod.snd =
      (sortedBy key group).map (lineOf codec) := by
  rw [@sortedBy_map ρ κ _ key _ Prod.fst (entryOf codec key) (fun _ => rfl), List.map_map]
  rfl

variable (key) in
theorem writeBatch_runs (listed : Listed state) {number : Nat}
    (fresh : RunPath.run number ∉ state.directory.map Prod.fst)
    (encodable : Encodable codec group) :
    ∃ next, writeBatch state number (group.map (entryOf codec key)) = .ok next ∧ Listed next ∧
      next.paths = state.paths ++ [.run number] ∧
      next.directory.map Prod.fst = state.directory.map Prod.fst ++ [.run number] ∧
      RunOf codec key next (.run number) group ∧
      ∀ other group', RunOf codec key state other group' → RunOf codec key next other group' := by
  obtain ⟨written, returned, listed', paths, names, own, others⟩ :=
    writeRaw_runs key listed fresh encodable
  refine ⟨{ written with paths := written.paths ++ [.run number] }, ?_, listed', ?_, names,
    ⟨own.encodable, own.stored, own.receipt⟩, fun other group' run => ?_⟩
  · rw [writeBatch, sortedBy_entries, returned]
    rfl
  · rw [paths]
  · have kept := others other group' run
    exact ⟨kept.encodable, kept.stored, kept.receipt⟩

theorem run_fresh {run : Nat}
    (names : ∀ name ∈ state.directory.map Prod.fst, ∃ number < run, name = .run number) :
    RunPath.run run ∉ state.directory.map Prod.fst := by
  intro inside
  obtain ⟨number, below, same⟩ := names _ inside
  cases same
  omega

theorem runs_concat (runs : List.Forall₂ (RunOf codec key state) state.paths groups)
    (paths : next.paths = state.paths ++ [path]) (own : RunOf codec key next path group)
    (others : ∀ other group', RunOf codec key state other group' →
      RunOf codec key next other group') :
    List.Forall₂ (RunOf codec key next) next.paths (groups ++ [group]) := by
  rw [paths]
  exact List.rel_append (runs.imp fun other group' run => others other group' run)
    (List.Forall₂.cons own List.Forall₂.nil)

theorem formRuns_runs {bufferBytes size run : Nat} (listed : Listed state)
    (names : ∀ name ∈ state.directory.map Prod.fst, ∃ number < run, name = .run number)
    (runs : List.Forall₂ (RunOf codec key state) state.paths groups)
    (waiting : Encodable codec group) (encodable : Encodable codec records) :
    ∃ next groups', formRuns codec key bufferBytes state (group.map (entryOf codec key)) size run
        records = .ok next ∧ Listed next ∧ next.paths ≠ [] ∧
      (∀ name ∈ next.directory.map Prod.fst, ∃ number, name = .run number) ∧
      List.Forall₂ (RunOf codec key next) next.paths groups' ∧
      groups'.flatten = groups.flatten ++ group ++ records := by
  induction records generalizing state groups group size run with
  | nil =>
    by_cases flush : group.map (entryOf codec key) ≠ [] ∨ state.paths = []
    · obtain ⟨next, returned, listed', paths, names', own, others⟩ :=
        writeBatch_runs key listed (run_fresh names) waiting
      refine ⟨next, groups ++ [group], ?_, listed', by simp [paths], ?_,
        runs_concat runs paths own others, by simp⟩
      · rw [formRuns, if_pos flush, returned]
      · intro name member
        rw [names'] at member
        rcases List.mem_append.mp member with old | new
        · obtain ⟨number, -, same⟩ := names name old
          exact ⟨number, same⟩
        · exact ⟨run, List.mem_singleton.mp new⟩
    · have both := not_or.mp flush
      have empty : group = [] := List.map_eq_nil_iff.mp (not_not.mp both.1)
      refine ⟨state, groups, ?_, listed, both.2, ?_, runs, by simp [empty]⟩
      · rw [formRuns, if_neg flush]
      · intro name member
        obtain ⟨number, -, same⟩ := names name member
        exact ⟨number, same⟩
  | cons record records ih =>
    obtain ⟨⟨raw, written⟩, rest⟩ := List.forall_mem_cons.mp encodable
    have line : lineOf codec record = raw ++ [0x0a] := by rw [lineOf, written, Option.getD_some]
    have batch : group.map (entryOf codec key) ++ [(key record, raw ++ [0x0a])] =
        (group ++ [record]).map (entryOf codec key) := by
      rw [List.map_append, List.map_singleton, entryOf, line]
    have waiting' : Encodable codec (group ++ [record]) := by
      intro other member
      rcases List.mem_append.mp member with old | new
      · exact waiting other old
      · rw [List.mem_singleton.mp new]
        exact ⟨raw, written⟩
    rw [formRuns, written]
    simp only [batch]
    by_cases full : bufferBytes ≤ size + (raw ++ [0x0a]).length
    · obtain ⟨next, returned, listed', paths, names', own, others⟩ :=
        writeBatch_runs key listed (run_fresh names) waiting'
      rw [if_pos full, returned]
      have below : ∀ name ∈ next.directory.map Prod.fst,
          ∃ number < run + 1, name = .run number := by
        intro name member
        rw [names'] at member
        rcases List.mem_append.mp member with old | new
        · obtain ⟨number, small, same⟩ := names name old
          exact ⟨number, by omega, same⟩
        · exact ⟨run, by omega, List.mem_singleton.mp new⟩
      obtain ⟨last, groups', formed, listed, some, named, each, flat⟩ :=
        @ih next [] _ 0 (run + 1) listed' below (runs_concat runs paths own others)
          (List.forall_mem_nil _) rest
      exact ⟨last, groups', formed, listed, some, named, each, by simpa using flat⟩
    · rw [if_neg full]
      obtain ⟨last, groups', formed, listed, some, named, each, flat⟩ :=
        @ih state (group ++ [record]) groups (size + (raw ++ [0x0a]).length) run listed names runs
          waiting' rest
      exact ⟨last, groups', formed, listed, some, named, each, by simpa using flat⟩

theorem lineOf_loads (faithful : codec.Faithful) (encodable : Encodable codec group) {record : ρ}
    (member : record ∈ group) : codec.loads (lineOf codec record) = some record := by
  obtain ⟨raw, written⟩ := encodable record member
  rw [lineOf, written, Option.getD_some]
  exact faithful.reads record raw written

theorem Encodable.sorted (encodable : Encodable codec group) :
    Encodable codec (sortedBy key group) := fun record member =>
  encodable record ((sortedBy_stable group).perm.subset member)

theorem physicalLines_contents (faithful : codec.Faithful) (encodable : Encodable codec group) :
    physicalLines (contentsOf codec group) = group.map (lineOf codec) := by
  have ended := @physicalLines_ended (group.map fun record => (codec.canonical record).getD []) (by
    intro body member
    obtain ⟨record, inside, rfl⟩ := List.mem_map.mp member
    obtain ⟨raw, written⟩ := encodable record inside
    rw [written]
    exact faithful.single record raw written)
  rw [List.map_map] at ended
  exact ended

theorem readRun_eq (faithful : codec.Faithful) (run : RunOf codec key state path group) :
    readRun codec key state.directory path =
      .ok ((sortedBy key group).map (entryOf codec key)) := by
  rw [readRun, run.stored]
  simp only [Option.map_some]
  rw [physicalLines_contents faithful run.encodable.sorted, mapM_eq_ok]
  rw [List.forall₂_map_left_iff, List.forall₂_map_right_iff, List.forall₂_same]
  intro record member
  rw [lineOf_loads faithful run.encodable.sorted member]
  rfl

theorem heapMerge_entries (groups : List (List ρ)) :
    (heapMerge Prod.fst (groups.map fun group =>
      (sortedBy key group).map (entryOf codec key))).map Prod.snd =
      (sortedBy key groups.flatten).map (lineOf codec) := by
  have sorts : ∀ group : List ρ, StableSort Prod.fst (group.map (entryOf codec key))
      ((sortedBy key group).map (entryOf codec key)) :=
    fun group => (sortedBy_stable group).map fun _ => rfl
  have merged := @heapMerge_stable (κ × Bytes) κ _ Prod.fst (groups.map fun group =>
      (sortedBy key group).map (entryOf codec key)) (by
    intro values member
    obtain ⟨group, -, rfl⟩ := List.mem_map.mp member
    exact (sorts group).ordered)
  have each : List.Forall₂ (StableSort Prod.fst)
      (groups.map fun group => group.map (entryOf codec key))
      (groups.map fun group => (sortedBy key group).map (entryOf codec key)) := by
    rw [List.forall₂_map_left_iff, List.forall₂_map_right_iff, List.forall₂_same]
    exact fun group _ => sorts group
  have whole := StableSort.flatten each merged
  have flat : (groups.map fun group => group.map (entryOf codec key)).flatten =
      groups.flatten.map (entryOf codec key) := List.map_flatten.symm
  rw [flat] at whole
  rw [whole.unique (sorts groups.flatten), List.map_map]
  rfl

theorem mapM_readRun (faithful : codec.Faithful) {paths : List RunPath}
    (runs : List.Forall₂ (RunOf codec key state) paths groups) :
    paths.mapM (readRun codec key state.directory) =
      .ok (groups.map fun group => (sortedBy key group).map (entryOf codec key)) := by
  rw [mapM_eq_ok, List.forall₂_map_right_iff]
  exact runs.imp fun _ _ run => readRun_eq faithful run

theorem encodable_flatten {paths : List RunPath}
    (runs : List.Forall₂ (RunOf codec key state) paths groups) :
    Encodable codec groups.flatten := by
  induction runs with
  | nil => exact List.forall_mem_nil _
  | cons head _ ih =>
    intro record member
    rw [List.flatten_cons] at member
    rcases List.mem_append.mp member with here | there
    · exact head.encodable record here
    · exact ih record there

theorem RunOf.withPaths (run : RunOf codec key state path group) (paths : List RunPath) :
    RunOf codec key { state with paths := paths } path group :=
  ⟨run.encodable, run.stored, run.receipt⟩

theorem mergeRound_runs (faithful : codec.Faithful) {generation fuel start : Nat}
    {paths : List RunPath} {finished : List (List ρ)} (listed : Listed state)
    (fresh : ∀ later, start ≤ later →
      RunPath.merge generation later ∉ state.directory.map Prod.fst)
    (enough : paths.length ≤ fuel) (runs : List.Forall₂ (RunOf codec key state) paths groups)
    (merged : List.Forall₂ (RunOf codec key state) state.paths finished) :
    ∃ next finished', mergeRound codec key generation fuel start state paths = .ok next ∧
      Listed next ∧ (∀ name ∈ next.directory.map Prod.fst,
        name ∈ state.directory.map Prod.fst ∨ ∃ later, name = .merge generation later) ∧
      next.paths.length = state.paths.length + (paths.length + 31) / 32 ∧
      List.Forall₂ (RunOf codec key next) next.paths finished' ∧
        finished'.flatten = finished.flatten ++ groups.flatten := by
  induction fuel generalizing start state paths groups finished with
  | zero =>
    have none : paths = [] := List.eq_nil_of_length_eq_zero (Nat.le_zero.mp enough)
    subst none
    cases runs
    exact ⟨state, finished, by rw [mergeRound], listed, fun name member => Or.inl member, rfl,
      merged, by simp⟩
  | succ fuel ih =>
    cases paths with
    | nil =>
      cases runs
      exact ⟨state, finished, by rw [mergeRound], listed, fun name member => Or.inl member, rfl,
        merged, by simp⟩
    | cons path paths =>
      have selected := List.forall₂_take fanIn runs
      have rest := List.forall₂_drop fanIn runs
      obtain ⟨written, returned, listed', paths', names, own, others⟩ :=
        writeRaw_runs key listed (fresh start (le_refl _)) (encodable_flatten selected)
      have fresh' : ∀ later, start + fanIn ≤ later →
          RunPath.merge generation later ∉ written.directory.map Prod.fst := by
        intro later after inside
        rw [names] at inside
        rcases List.mem_append.mp inside with old | new
        · exact fresh later (by omega) old
        · have same := RunPath.merge.inj (List.mem_singleton.mp new)
          unfold fanIn at after
          omega
      have keep : ∀ {paths : List RunPath} {groups : List (List ρ)} (all : List RunPath),
          List.Forall₂ (RunOf codec key state) paths groups →
          List.Forall₂ (RunOf codec key { written with paths := all }) paths groups :=
        fun all each => each.imp fun other group' run => (others other group' run).withPaths all
      have merged' : List.Forall₂ (RunOf codec key
          { written with paths := written.paths ++ [.merge generation start] })
          (written.paths ++ [.merge generation start])
          (finished ++ [(groups.take fanIn).flatten]) := by
        rw [paths']
        exact List.rel_append (keep _ merged)
          (List.Forall₂.cons (own.withPaths _) List.Forall₂.nil)
      have shorter : ((path :: paths).drop fanIn).length ≤ fuel := by
        rw [List.length_drop]
        rw [List.length_cons] at enough ⊢
        unfold fanIn
        omega
      obtain ⟨next, finished', round, listed'', names', length, each, flat⟩ :=
        @ih { written with paths := written.paths ++ [.merge generation start] }
          _ (start + fanIn) _ _ listed' fresh' shorter (keep _ rest) merged'
      refine ⟨next, finished', ?_, listed'', ?_, ?_, each, ?_⟩
      · rw [mergeRound, mapM_readRun faithful selected]
        change (writeRaw state _ ((heapMerge Prod.fst _).map Prod.snd) >>= _) = _
        rw [heapMerge_entries, returned]
        exact round
      · intro name member
        rcases names' name member with old | new
        · have old : name ∈ written.directory.map Prod.fst := old
          rw [names] at old
          rcases List.mem_append.mp old with before | here
          · exact Or.inl before
          · exact Or.inr ⟨start, List.mem_singleton.mp here⟩
        · exact Or.inr new
      · rw [length, List.length_append, paths', List.length_drop]
        rw [List.length_singleton, List.length_cons]
        unfold fanIn
        omega
      · rw [flat, List.flatten_append, List.flatten_singleton, List.append_assoc,
          ← List.flatten_append, List.take_append_drop]

theorem mergeRuns_runs (faithful : codec.Faithful) {fuel generation : Nat} (listed : Listed state)
    (fresh : ∀ other later, generation ≤ other →
      RunPath.merge other later ∉ state.directory.map Prod.fst)
    (enough : state.paths.length ≤ fuel) (some : state.paths ≠ [])
    (runs : List.Forall₂ (RunOf codec key state) state.paths groups) :
    ∃ next generations path, mergeRuns codec key fuel generation state = .ok (next, generations) ∧
      next.paths = [path] ∧ RunOf codec key next path groups.flatten := by
  induction fuel generalizing generation state groups with
  | zero => exact absurd (List.eq_nil_of_length_eq_zero (Nat.le_zero.mp enough)) some
  | succ fuel ih =>
    by_cases many : 1 < state.paths.length
    · obtain ⟨next, finished, round, listed', names, length, each, flat⟩ :=
        @mergeRound_runs ρ κ _ codec key { state with paths := [] } groups faithful generation
          state.paths.length 0 state.paths [] listed
          (fun later _ => fresh generation later (le_refl _)) (le_refl _)
          (runs.imp fun _ _ run => run.withPaths []) List.Forall₂.nil
      have fresh' : ∀ other later, generation + 1 ≤ other →
          RunPath.merge other later ∉ next.directory.map Prod.fst := by
        intro other later after inside
        rcases names _ inside with old | ⟨start, new⟩
        · exact fresh other later (by omega) old
        · have same := (RunPath.merge.inj new).1
          omega
      have count : next.paths.length = (state.paths.length + 31) / 32 := by
        rw [length]
        exact Nat.zero_add _
      have nonempty : next.paths ≠ [] := by
        intro none
        rw [none, List.length_nil] at count
        omega
      obtain ⟨last, generations, path, returned, single, run⟩ :=
        ih listed' fresh' (by omega) nonempty each
      refine ⟨last, generations, path, ?_, single, ?_⟩
      · rw [mergeRuns, if_pos many, round]
        exact returned
      · rw [flat] at run
        exact run
    · have one : state.paths.length = 1 := by
        have positive := List.length_pos_iff.mpr some
        omega
      obtain ⟨path, single⟩ := List.length_eq_one_iff.mp one
      rw [single] at runs
      cases runs with
      | cons run rest =>
        cases rest
        refine ⟨state, generation, path, ?_, single, by simpa using run⟩
        rw [mergeRuns, if_neg many]

theorem formRuns_raises {bufferBytes size run : Nat} {batch : List (κ × Bytes)} {result : State}
    (returned : formRuns codec key bufferBytes state batch size run records = .ok result) :
    Encodable codec records := by
  induction records generalizing state batch size run with
  | nil => exact List.forall_mem_nil _
  | cons record records ih =>
    rw [formRuns] at returned
    cases written : codec.canonical record with
    | none =>
      rw [written] at returned
      cases returned
    | some raw =>
      rw [written] at returned
      refine List.forall_mem_cons.mpr ⟨⟨raw, written⟩, ?_⟩
      simp only at returned
      split at returned
      · obtain ⟨next, -, rest⟩ := bind_eq_ok returned
        exact ih rest
      · exact ih returned

/-- What the caller finds in the published file: `rows` of its path. -/
def readRows (codec : Codec ρ) (directory : Directory) (path : RunPath) : Option (List ρ) :=
  (directory.find? fun file => file.1 = path).bind fun file =>
    (physicalLines file.2).mapM codec.loads

theorem mapM_loads (faithful : codec.Faithful) (encodable : Encodable codec records) :
    (records.map (lineOf codec)).mapM codec.loads = some records := by
  induction records with
  | nil => rfl
  | cons record records ih =>
    rw [List.map_cons, List.mapM_cons, lineOf_loads faithful encodable List.mem_cons_self,
      ih (List.forall_mem_cons.mp encodable).2]
    rfl

/-- The sort publishes the stable sort of the records, with its counts; it raises for a record that
has no canonical form. -/
theorem external_sort (codec : Codec ρ) (faithful : codec.Faithful) (key : ρ → κ)
    (bufferBytes : Nat) (records : List ρ) :
    ((∃ outcome, externalSort codec key bufferBytes records = .ok outcome) ↔
      Encodable codec records) ∧
    ∀ receipt directory, externalSort codec key bufferBytes records = .ok (receipt, directory) →
      ∃ sorted contents, StableSort key records sorted ∧
        directory.find? (fun file => file.1 = receipt.published.path) =
          some (receipt.published.path, contents) ∧
        readRows codec directory receipt.published.path = some sorted ∧
        receipt.published.rows = records.length ∧ receipt.published.bytes = contents.length := by
  have sorts : Encodable codec records → ∃ receipt directory,
      externalSort codec key bufferBytes records = .ok (receipt, directory) ∧
      directory.find? (fun file => file.1 = receipt.published.path) =
        some (receipt.published.path, contentsOf codec (sortedBy key records)) ∧
      receipt.published.rows = records.length ∧
      receipt.published.bytes = (contentsOf codec (sortedBy key records)).length := by
    intro encodable
    obtain ⟨formed, groups, returned, listed, nonempty, names, runs, flat⟩ :=
      @formRuns_runs ρ κ _ codec key { directory := [], published := [], paths := [] } [] records []
        bufferBytes 0 0 rfl (List.forall_mem_nil _) List.Forall₂.nil (List.forall_mem_nil _)
        encodable
    have fresh : ∀ other later, 0 ≤ other →
        RunPath.merge other later ∉ formed.directory.map Prod.fst := by
      intro other later _ inside
      obtain ⟨number, same⟩ := names _ inside
      cases same
    obtain ⟨merged, generations, path, merges, single, run⟩ :=
      mergeRuns_runs faithful listed fresh (le_refl _) nonempty runs
    have whole : groups.flatten = records := by simpa using flat
    rw [whole] at run
    refine ⟨{
      published := {
        path := path
        rows := records.length
        bytes := (contentsOf codec (sortedBy key records)).length }
      initialRuns := formed.paths.length
      mergeGenerations := generations
      logicalBytesWritten := (merged.published.map Published.bytes).sum },
      merged.directory, ?_, run.stored, rfl, rfl⟩
    rw [externalSort]
    change (formRuns codec key bufferBytes _ (([] : List ρ).map (entryOf codec key)) 0 0 records >>=
      _) = _
    rw [returned]
    change (mergeRuns codec key formed.paths.length 0 formed >>= _) = _
    rw [merges]
    change (match merged.paths.head?.bind fun path => merged.published.find? fun item =>
      item.path = path with | none => _ | some item => _) = _
    rw [single]
    simp only [List.head?_cons, Option.bind_some, run.receipt]
  constructor
  · constructor
    · rintro ⟨outcome, returned⟩
      obtain ⟨formed, forms, -⟩ := bind_eq_ok returned
      exact formRuns_raises forms
    · intro encodable
      obtain ⟨receipt, directory, returned, -⟩ := sorts encodable
      exact ⟨_, returned⟩
  · intro receipt directory returned
    obtain ⟨formed, forms, -⟩ := bind_eq_ok returned
    have encodable := formRuns_raises forms
    obtain ⟨receipt', directory', again, stored, rows, bytes⟩ := sorts encodable
    rw [returned] at again
    cases again
    refine ⟨sortedBy key records, _, sortedBy_stable records, stored, ?_, rows, bytes⟩
    rw [readRows, stored, Option.bind_some]
    simp only
    rw [physicalLines_contents faithful encodable.sorted]
    exact mapM_loads faithful encodable.sorted

end

section

/-- Rows that are `true` or `false`. -/
def boolCodec : Codec Bool where
  canonical record := some (if record then text "true" else text "false")
  loads line :=
    if line = text "true\n" then some true
    else if line = text "false\n" then some false
    else none

theorem boolCodec_faithful : boolCodec.Faithful := by
  constructor
  · intro record raw written
    cases record <;> cases written <;> rfl
  · intro record raw written
    cases record <;> cases written <;> decide

theorem external_sort_of_six :
    (∃ outcome, externalSort boolCodec (fun record => if record then 1 else 0) 1
        [true, false, true, true, false, false] = .ok outcome) ∧
      Encodable boolCodec [true, false, true, true, false, false] := by
  have sorted := (external_sort boolCodec boolCodec_faithful
    (fun record => if record then 1 else 0) 1 [true, false, true, true, false, false]).1
  have encodable : Encodable boolCodec [true, false, true, true, false, false] :=
    fun record _ => ⟨_, rfl⟩
  exact ⟨sorted.mpr encodable, encodable⟩

end

end SparseLab.Corpus.ExternalSort
