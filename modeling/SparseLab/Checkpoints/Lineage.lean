import SparseLab.Checkpoints.RetainedGenerations
import SparseLab.Library.Earliest

/-! The best evaluated generation of a run's ancestry, which a child run is given. -/

namespace SparseLab.Checkpoints

open Library

def chooseLineageBest : Option LineageBest → Option LineageBest → Option LineageBest
  | none, candidate => candidate
  | some current, none => some current
  | some current, some candidate =>
    if candidate.loss < current.loss then some candidate else some current

/-- `LineageBest(run_id, digest, step, loss)` of an evaluated generation. -/
def CheckpointRecord.lineage (run : String) (record : CheckpointRecord) : Option LineageBest :=
  record.validationLoss.map fun loss =>
    { parentRunId := run
      checkpointDigest := record.manifestSha256
      step := record.step
      loss }

def lineageBestForChild (root : CheckpointRoot) (parentRunId selectedDigest : String) :
    Except String (Option LineageBest) :=
  match root.verifiedDirectories.find? (·.record.manifestSha256 = selectedDigest) with
  | none => .error "selected parent is not a verified generation of this run"
  | some selected =>
    let directories := root.verifiedDirectories.filter fun directory =>
      directory.record.generationId ≤ selected.record.generationId ∧
        directory.record.step ≤ selected.record.step
    let localBest := (best (directories.map (·.record))).bind (·.lineage parentRunId)
    let inherited := directories.foldl
      (fun current directory => chooseLineageBest current directory.lineageBest) none
    .ok (chooseLineageBest inherited localBest)

/-- One run: its checkpoint root, what its manager remembers, and, while its trainer is alive, the
trainer's `lineage_best`. -/
structure RunState where
  settings : Settings
  root : CheckpointRoot
  memory : Option (List CheckpointRecord)
  trainer : Option (Option LineageBest)

/-- `save_boundary` after `_save` returned. -/
def saveBoundary (run : String) (lineageBest : Option LineageBest) (record : CheckpointRecord) :
    Option LineageBest :=
  match record.lineage run with
  | none => lineageBest
  | some evaluated => chooseLineageBest lineageBest (some evaluated)

def evaluated (run : String) (records : List CheckpointRecord) : List LineageBest :=
  records.filterMap (·.lineage run)

structure Carries (lineageBest : Option LineageBest) (finalized : List CheckpointRecord)
    (snapshot : Snapshot) : Prop where
  forward : Nondecreasing finalized snapshot
  fresh : snapshot.digest ∉ finalized.map (·.manifestSha256)
  carried : snapshot.lineageBest = lineageBest

inductive Chain : RunState → List LineageBest → Prop
  | first (settings : Settings) :
      Chain ⟨settings, .empty, none, some none⟩ []
  | saved {settings root memory lineageBest ancestry}
      (earlier : Chain ⟨settings, root, memory, some lineageBest⟩ ancestry)
      (keepPeriodic : Bool) (snapshot : Snapshot)
      (carries : Carries lineageBest root.finalized snapshot) (record kept)
      (ended : ((save settings keepPeriodic memory snapshot).run root).2 = .ok (record, kept)) :
      Chain ⟨settings, performAll root ((save settings keepPeriodic memory snapshot).run root).1,
        some kept, some (saveBoundary settings.run lineageBest record)⟩ ancestry
  | stopped {settings root memory lineageBest ancestry}
      (earlier : Chain ⟨settings, root, memory, some lineageBest⟩ ancestry)
      (keepPeriodic : Bool) (snapshot : Snapshot)
      (carries : Carries lineageBest root.finalized snapshot) (cut scraps : Nat) :
      Chain ⟨settings,
        { performAll root (((save settings keepPeriodic memory snapshot).run root).1.take cut) with
          scraps }, none, none⟩ ancestry
  | ended {settings root memory lineageBest ancestry}
      (earlier : Chain ⟨settings, root, memory, lineageBest⟩ ancestry) :
      Chain ⟨settings, root, none, none⟩ ancestry
  | reconciled {settings root memory lineageBest ancestry}
      (earlier : Chain ⟨settings, root, memory, lineageBest⟩ ancestry)
      (keepPeriodic : Bool) (cut scraps : Nat) :
      Chain ⟨settings,
        { performAll root (((reconcile settings keepPeriodic).run root).1.take cut) with
          scraps }, none, none⟩ ancestry
  | child {parent ancestry} (earlier : Chain parent ancestry) (settings : Settings)
      {selected : CheckpointRecord} (intact : Intact parent.root selected)
      {before after : List CheckpointRecord}
      (finalized : parent.root.finalized = before ++ selected :: after) (lineageBest)
      (ended : lineageBestForChild parent.root parent.settings.run selected.manifestSha256 =
        .ok lineageBest) :
      Chain ⟨settings, .empty, none, some lineageBest⟩
        (ancestry ++ evaluated parent.settings.run (before ++ [selected]))

def earliestBest (entries : List LineageBest) : Option LineageBest :=
  entries.argmin (·.loss)

theorem chooseLineageBest_eq (current candidate : Option LineageBest) :
    chooseLineageBest current candidate = keepBetter (·.loss) current candidate := by
  cases current <;> cases candidate <;> rfl

theorem evaluated_append (run : String) (first second : List CheckpointRecord) :
    evaluated run (first ++ second) = evaluated run first ++ evaluated run second :=
  List.filterMap_append

theorem evaluated_singleton (run : String) (record : CheckpointRecord) :
    earliestBest (evaluated run [record]) = record.lineage run := by
  unfold evaluated earliestBest
  cases evaluates : record.lineage run <;> simp [evaluates]

theorem saveBoundary_earliest (run : String) (entries : List LineageBest)
    (records : List CheckpointRecord) (record : CheckpointRecord) :
    saveBoundary run (earliestBest (entries ++ evaluated run records)) record =
      earliestBest (entries ++ evaluated run (records ++ [record])) := by
  have last := evaluated_singleton run record
  unfold earliestBest at last ⊢
  rw [evaluated_append, ← List.append_assoc]
  generalize entries ++ evaluated run records = earlier
  rw [argmin_append, last]
  unfold saveBoundary
  cases record.lineage run with
  | none => simp
  | some evaluated => exact chooseLineageBest_eq _ _

theorem concat_split {α : Type} {list before after : List α} {last element : α}
    (split : list ++ [last] = before ++ element :: after) :
    (after = [] ∧ element = last ∧ before = list) ∨
      ∃ shorter, after = shorter ++ [last] ∧ list = before ++ element :: shorter := by
  obtain rfl | ⟨shorter, final, rfl⟩ := List.eq_nil_or_concat after
  · obtain ⟨rfl, same⟩ := List.append_inj' split rfl
    exact .inl ⟨rfl, (List.cons.inj same).1.symm, rfl⟩
  · rw [List.concat_eq_append, ← List.cons_append, ← List.append_assoc] at split
    obtain ⟨same, final'⟩ := List.append_inj' split rfl
    rw [List.concat_eq_append, ← (List.cons.inj final').1]
    exact .inr ⟨shorter, rfl, same⟩

structure Chronicle (settings : Settings) (ancestry : List LineageBest) (root : CheckpointRoot) :
    Prop extends Sound settings root where
  sorted : root.finalized.Pairwise Older
  latest : ∀ record, root.finalized.getLast? = some record → Intact root record
  digests : (root.finalized.map (·.manifestSha256)).Nodup
  carried : ∀ directory ∈ root.directories, ∀ before after,
    root.finalized = before ++ directory.record :: after →
      directory.lineageBest = earliestBest (ancestry ++ evaluated settings.run before)

section

variable {settings : Settings} {ancestry : List LineageBest} {root after : CheckpointRoot}
  {records : List CheckpointRecord}

def Records (settings : Settings) (ancestry : List LineageBest)
    (finalized : List CheckpointRecord) (snapshot : Snapshot) : Prop :=
  Carries (earliestBest (ancestry ++ evaluated settings.run finalized)) finalized snapshot

namespace Chronicle

theorem idle (chronicle : Chronicle settings ancestry root)
    (directories : after.directories = root.directories)
    (finalized : after.finalized = root.finalized) (retention : after.retention = root.retention) :
    Chronicle settings ancestry after := by
  refine ⟨chronicle.toSound.idle directories finalized retention, ?_, ?_, ?_, ?_⟩
  · rw [finalized]
    exact chronicle.sorted
  · intro record last
    rw [finalized] at last
    rw [Intact, directories]
    exact chronicle.latest record last
  · rw [finalized]
    exact chronicle.digests
  · rw [finalized, directories]
    exact chronicle.carried

theorem project (chronicle : Chronicle settings ancestry root)
    (remembers : Remembers root records)
    (projecting : Projecting settings root (order records) after) :
    Chronicle settings ancestry after := by
  refine ⟨chronicle.toSound.project remembers projecting, ?_, ?_, ?_, ?_⟩
  · rw [projecting.finalized]
    exact chronicle.sorted
  · intro record last
    rw [projecting.finalized] at last
    have intact := chronicle.latest record last
    cases projecting with
    | pointers directories _ _ _ => rwa [Intact, directories]
    | pruning report plans _ shrinks _ _ =>
      refine shrinks.intact intact (protected_pointers remembers.distinct.order plans (.inl ?_))
      exact getLast?_sublist (chronicle.toSound.sublist chronicle.sorted remembers)
        (older_distinct chronicle.sorted).nodup last
        (mem_order.mpr ((remembers.intact record).mpr intact))
  · rw [projecting.finalized]
    exact chronicle.digests
  · rw [projecting.finalized]
    intro directory inside
    obtain ⟨earlier, before, record, lineage, _⟩ := projecting.same directory inside
    rw [record, lineage]
    exact chronicle.carried earlier before

theorem withGeneration (chronicle : Chronicle settings ancestry root) {snapshot : Snapshot}
    (records : Records settings ancestry root.finalized snapshot)
    (fits : ∀ policy, settings.retention = some policy →
      snapshot.bytes ≤ policy.maxGenerationBytes) :
    Chronicle settings ancestry (withGeneration root snapshot) := by
  have new : ∀ record ∈ root.finalized, record ≠ snapshot.record root.nextGeneration := by
    rintro record member rfl
    have older := older_than_next chronicle.sorted chronicle.latest member
    simp [Snapshot.record] at older
  refine ⟨chronicle.toSound.withGeneration snapshot fits,
    sorted_withGeneration chronicle.sorted chronicle.latest records.forward, ?_, ?_, ?_⟩
  · intro record last
    simp only [Checkpoints.withGeneration, List.getLast?_concat, Option.some.injEq] at last
    rw [← last]
    exact intact_new root snapshot
  · simp only [Checkpoints.withGeneration, List.map_append, List.nodup_append]
    refine ⟨chronicle.digests, by simp, ?_⟩
    intro digest member digest' inside same
    simp only [List.map_cons, List.map_nil, List.mem_singleton] at inside
    rw [same, inside] at member
    exact records.fresh member
  · intro directory inside before after split
    obtain earlier | latest := List.mem_append.mp inside
    · obtain ⟨_, same, _⟩ | ⟨shorter, _, split'⟩ := concat_split split
      · exact absurd same (new _ (chronicle.toSound.finalized directory earlier))
      · exact chronicle.carried directory earlier before shorter split'
    · rw [List.mem_singleton.mp latest] at split ⊢
      obtain ⟨_, _, rfl⟩ | ⟨shorter, _, split'⟩ := concat_split split
      · exact records.carried
      · refine absurd rfl (new _ ?_)
        rw [split']
        exact List.mem_append_right _ List.mem_cons_self

theorem closed : Closed settings (Records settings ancestry) (Chronicle settings ancestry) where
  distinct _ chronicle := chronicle.distinct
  idle _ _ chronicle directories finalized retention :=
    chronicle.idle directories finalized retention
  project _ _ _ chronicle remembers projecting := chronicle.project remembers projecting
  finalize _ _ chronicle records fits := chronicle.withGeneration records fits

theorem empty : Chronicle settings ancestry .empty :=
  ⟨Sound.empty, .nil, by simp [CheckpointRoot.empty], List.nodup_nil,
    by simp [CheckpointRoot.empty]⟩

end Chronicle

section

variable {selected : CheckpointRecord} {before later : List CheckpointRecord}

theorem Chronicle.not_later (chronicle : Chronicle settings ancestry root)
    (split : root.finalized = before ++ selected :: later) {record : CheckpointRecord}
    (member : record ∈ root.finalized) (upTo : record.generationId ≤ selected.generationId) :
    record ∈ before ++ [selected] := by
  have sorted := chronicle.sorted
  rw [split] at member sorted
  rw [List.append_cons, List.mem_append] at member
  obtain earlier | after := member
  · exact earlier
  · rw [List.pairwise_append, List.pairwise_cons] at sorted
    have grows := (sorted.2.1.1 record after).2
    omega

theorem Chronicle.carries_prefix (chronicle : Chronicle settings ancestry root)
    (split : root.finalized = before ++ selected :: later) {directory : Directory}
    (inside : directory ∈ root.directories)
    (member : directory.record ∈ before ++ [selected]) :
    ∃ shorter, shorter <+: ancestry ++ evaluated settings.run before ∧
      directory.lineageBest = earliestBest shorter := by
  obtain ⟨first, rest, whole⟩ := List.append_of_mem member
  have within : root.finalized = first ++ directory.record :: (rest ++ later) := by
    rw [split, List.append_cons, whole]
    simp
  refine ⟨ancestry ++ evaluated settings.run first, ?_,
    chronicle.carried directory inside first _ within⟩
  have isPrefix : first <+: before := by
    obtain ⟨_, _, rfl⟩ | ⟨shorter, _, rfl⟩ := concat_split whole
    · exact List.prefix_refl _
    · exact List.prefix_append _ _
  obtain ⟨more, rfl⟩ := isPrefix
  rw [evaluated_append, ← List.append_assoc]
  exact List.prefix_append _ _

theorem earliestBest_le {entries : List LineageBest} {entry : LineageBest}
    (member : entry ∈ entries) :
    ∃ least, earliestBest entries = some least ∧ least.loss ≤ entry.loss := by
  cases found : earliestBest entries with
  | none =>
    rw [earliestBest, List.argmin_eq_none] at found
    rw [found] at member
    cases member
  | some least => exact ⟨least, rfl, List.le_of_mem_argmin member found⟩

theorem chooseLineageBest_local {run : String} {entries : List LineageBest}
    {left : List CheckpointRecord} (here : selected ∈ left)
    (among : ∀ record ∈ left, record = selected ∨
      ∀ entry, record.lineage run = some entry → entry ∈ entries) :
    chooseLineageBest (earliestBest entries) ((best left).bind (·.lineage run)) =
      chooseLineageBest (earliestBest entries) (selected.lineage run) := by
  cases least : best left with
  | none =>
    have unevaluated : selected.validationLoss = none := by
      have none_left := List.argmin_eq_none.mp least
      have absent : selected ∉ left.filter (·.validationLoss.isSome) := by
        rw [none_left]
        exact List.not_mem_nil
      simpa [here] using absent
    simp [CheckpointRecord.lineage, unevaluated]
  | some record =>
    have member := List.mem_filter.mp (List.argmin_mem least)
    obtain ⟨loss, evaluates⟩ := Option.isSome_iff_exists.mp member.2
    obtain rfl | earlier := among record member.1
    · rfl
    · have entry := earlier ⟨run, record.manifestSha256, record.step, loss⟩
        (by simp [CheckpointRecord.lineage, evaluates])
      obtain ⟨kept, same, below⟩ := earliestBest_le entry
      have keeps : ∀ candidate : LineageBest, loss ≤ candidate.loss →
          chooseLineageBest (some kept) (some candidate) = some kept := by
        intro candidate above
        exact if_neg (not_lt.mpr (below.trans above))
      rw [same]
      have first : chooseLineageBest (some kept) ((some record).bind (·.lineage run)) = some kept := by
        simp only [Option.bind_some, CheckpointRecord.lineage, evaluates, Option.map_some]
        exact keeps _ le_rfl
      rw [first]
      cases other : selected.validationLoss with
      | none => simp [CheckpointRecord.lineage, other, chooseLineageBest]
      | some loss' =>
        have listed : selected ∈ left.filter (·.validationLoss.isSome) := by
          simp [here, other]
        have minimal := List.le_of_mem_argmin listed least
        have losses : loss ≤ loss' := by
          rw [CheckpointRecord.rank, CheckpointRecord.rank, evaluates, other,
            Prod.Lex.toLex_le_toLex] at minimal
          obtain less | ⟨same, _⟩ := minimal
          · exact less.le
          · exact same.le
        simp only [CheckpointRecord.lineage, other, Option.map_some]
        exact (keeps _ losses).symm

theorem Chronicle.lineageBestForChild_eq (chronicle : Chronicle settings ancestry root)
    (intact : Intact root selected) (split : root.finalized = before ++ selected :: later) :
    lineageBestForChild root settings.run selected.manifestSha256 =
      .ok (earliestBest (ancestry ++ evaluated settings.run (before ++ [selected]))) := by
  obtain ⟨directory, inside, verified, rfl⟩ := intact
  have listed : ∀ other, other ∈ root.verifiedDirectories ↔
      other ∈ root.directories ∧ other.verified = true := by
    intro other
    simp [CheckpointRoot.verifiedDirectories]
  have found : root.verifiedDirectories.find?
      (·.record.manifestSha256 = directory.record.manifestSha256) = some directory := by
    refine find?_eq_of ((listed directory).mpr ⟨inside, verified⟩) (by simp) ?_
    intro other member same
    have present := ((listed other).mp member).1
    have equal := List.inj_on_of_nodup_map chronicle.digests
      (chronicle.toSound.finalized other present) (chronicle.toSound.finalized directory inside)
      (of_decide_eq_true same)
    exact List.inj_on_of_nodup_map (List.Nodup.of_map _ chronicle.distinct) present inside equal
  unfold lineageBestForChild
  rw [found]
  dsimp only
  generalize chosen : (root.verifiedDirectories.filter fun other =>
    decide (other.record.generationId ≤ directory.record.generationId ∧
      other.record.step ≤ directory.record.step)) = directories
  have within : ∀ other ∈ directories, other ∈ root.directories ∧
      other.record ∈ before ++ [directory.record] := by
    intro other member
    rw [← chosen, List.mem_filter, listed, decide_eq_true_eq] at member
    obtain ⟨⟨present, _⟩, upTo, _⟩ := member
    exact ⟨present, chronicle.not_later split (chronicle.toSound.finalized other present) upTo⟩
  have here : directory ∈ directories := by
    rw [← chosen, List.mem_filter, listed]
    simp [inside, verified]
  have inherited : directories.foldl
      (fun current other => chooseLineageBest current other.lineageBest) none =
        earliestBest (ancestry ++ evaluated settings.run before) := by
    simp only [chooseLineageBest_eq]
    refine foldl_keepBetter_prefixes LineageBest.loss List.nil_prefix ?_ (.inr ⟨directory, here, ?_⟩)
    · intro other member
      obtain ⟨present, upTo⟩ := within other member
      exact chronicle.carries_prefix split present upTo
    · exact chronicle.carried directory inside before later split
  have among : ∀ record ∈ directories.map (·.record), record = directory.record ∨
      ∀ entry, record.lineage settings.run = some entry →
        entry ∈ ancestry ++ evaluated settings.run before := by
    intro record member
    obtain ⟨other, member', rfl⟩ := List.mem_map.mp member
    obtain earlier | selected := List.mem_append.mp (within other member').2
    · refine .inr fun entry evaluates => List.mem_append_right _ ?_
      exact List.mem_filterMap.mpr ⟨other.record, earlier, evaluates⟩
    · exact .inl (List.mem_singleton.mp selected)
  rw [inherited, chooseLineageBest_local (List.mem_map_of_mem here) among, chooseLineageBest_eq,
    ← evaluated_singleton, evaluated_append, ← List.append_assoc]
  exact congrArg Except.ok (argmin_append _ _ _).symm

end

end

theorem Chain.chronicle {state : RunState} {ancestry : List LineageBest}
    (chain : Chain state ancestry) :
    Chronicle state.settings ancestry state.root ∧
      (∀ records, state.memory = some records → Remembers state.root records) ∧
      ∀ lineageBest, state.trainer = some lineageBest →
        lineageBest = earliestBest (ancestry ++ evaluated state.settings.run state.root.finalized) := by
  induction chain with
  | first settings =>
    refine ⟨Chronicle.empty, by simp, ?_⟩
    rintro _ ⟨⟩
    rfl
  | @saved settings root memory lineageBest ancestry earlier keepPeriodic snapshot carries record
      kept ended ih =>
      obtain ⟨chronicle, known, carried⟩ := ih
      have best := carried lineageBest rfl
      rw [best] at carries
      have saves := @Closed.save _ _ _ Chronicle.closed keepPeriodic _ snapshot _ chronicle known carries
      obtain ⟨after, left, finalized, generation, same⟩ := saves.done _ ended
      refine ⟨after, ?_, ?_⟩
      · rintro _ ⟨⟩
        exact left
      · rintro _ ⟨⟩
        dsimp only at finalized ⊢
        rw [best, finalized]
        exact saveBoundary_earliest _ _ _ _
  | @stopped settings root memory lineageBest ancestry earlier keepPeriodic snapshot carries cut
      scraps ih =>
      obtain ⟨chronicle, known, carried⟩ := ih
      rw [carried lineageBest rfl] at carries
      have saves := @Closed.save _ _ _ Chronicle.closed keepPeriodic _ snapshot _ chronicle known carries
      refine ⟨(saves.crashed cut).idle rfl rfl rfl, by simp, by simp⟩
  | ended earlier ih => exact ⟨ih.1, by simp, by simp⟩
  | @reconciled settings root memory lineageBest ancestry earlier keepPeriodic cut scraps ih =>
    have reconciles := @Closed.reconcile _ _ _ Chronicle.closed keepPeriodic _ ih.1
    exact ⟨(reconciles.crashed cut).idle rfl rfl rfl, by simp, by simp⟩
  | child earlier settings intact finalized lineageBest ended ih =>
    refine ⟨Chronicle.empty, by simp, ?_⟩
    rintro _ ⟨⟩
    rw [ih.1.lineageBestForChild_eq intact finalized, Except.ok.injEq] at ended
    simp [← ended, CheckpointRoot.empty, evaluated]

/-- A child run is given the earliest generation with the least loss of the whole ancestry up to
the selected one. -/
theorem lineage_best_earliest {state : RunState} {ancestry : List LineageBest}
    (chain : Chain state ancestry) {selected : CheckpointRecord}
    (intact : Intact state.root selected) {before later : List CheckpointRecord}
    (split : state.root.finalized = before ++ selected :: later) :
    lineageBestForChild state.root state.settings.run selected.manifestSha256 =
      .ok (earliestBest (ancestry ++ evaluated state.settings.run (before ++ [selected]))) :=
  chain.chronicle.1.lineageBestForChild_eq intact split

def sampleRun (run : String) : Settings where
  run := run
  encoding := ⟨fun _ => 1, fun _ => 1, fun _ => 1, 1⟩
  retention := none
  inherited := []
  admitted := .inl rfl

def sampleEvaluated (digest : String) (loss : ℚ) (lineageBest : Option LineageBest) : Snapshot where
  step := 1
  tokensSeen := 1
  validationLoss := some loss
  lineageBest := lineageBest
  digest := digest
  files := []
  manifestBytes := 1
  available := 1
  names := by decide

def sampleEvaluation (run digest : String) (loss : ℚ) (lineageBest : Option LineageBest) :
    CheckpointRoot :=
  performAll .empty
    ((save (sampleRun run) false none (sampleEvaluated digest loss lineageBest)).run .empty).1

theorem sampleEvaluation_chain {run digest : String} {loss : ℚ} {lineageBest : Option LineageBest}
    {ancestry : List LineageBest}
    (start : Chain ⟨sampleRun run, .empty, none, some lineageBest⟩ ancestry) :
    Chain ⟨sampleRun run, sampleEvaluation run digest loss lineageBest,
      some [(sampleEvaluated digest loss lineageBest).record 1],
      some (saveBoundary run lineageBest ((sampleEvaluated digest loss lineageBest).record 1))⟩
      ancestry := by
  refine start.saved false (sampleEvaluated digest loss lineageBest) ⟨?_, ?_, rfl⟩
    ((sampleEvaluated digest loss lineageBest).record 1) _ ?_
  · simp [Nondecreasing, CheckpointRoot.empty]
  · simp [CheckpointRoot.empty]
  · rfl

theorem lineage_best_earliest_child :
    lineageBestForChild (sampleEvaluation "child" "b" 2 (some ⟨"parent", "a", 1, 1⟩)) "child" "b" =
      .ok (earliestBest ([] ++ evaluated "parent" ([] ++ [(sampleEvaluated "a" 1 none).record 1]) ++
        evaluated "child" ([] ++
          [(sampleEvaluated "b" 2 (some ⟨"parent", "a", 1, 1⟩)).record 1]))) := by
  have parent := @sampleEvaluation_chain "parent" "a" 1 none [] (.first _)
  have given : lineageBestForChild (sampleEvaluation "parent" "a" 1 none) "parent" "a" =
      .ok (some ⟨"parent", "a", 1, 1⟩) := by
    decide +kernel
  have intact : Intact (sampleEvaluation "parent" "a" 1 none)
      ((sampleEvaluated "a" 1 none).record 1) :=
    mem_verifiedRecords.mp (by decide +kernel)
  have split : (sampleEvaluation "parent" "a" 1 none).finalized =
      [] ++ (sampleEvaluated "a" 1 none).record 1 :: [] :=
    rfl
  have started := parent.child (sampleRun "child") intact split _ given
  have child := @sampleEvaluation_chain "child" "b" 2 (some ⟨"parent", "a", 1, 1⟩) _ started
  have intact' : Intact (sampleEvaluation "child" "b" 2 (some ⟨"parent", "a", 1, 1⟩))
      ((sampleEvaluated "b" 2 (some ⟨"parent", "a", 1, 1⟩)).record 1) :=
    mem_verifiedRecords.mp (by decide +kernel)
  have split' : (sampleEvaluation "child" "b" 2 (some ⟨"parent", "a", 1, 1⟩)).finalized =
      [] ++ (sampleEvaluated "b" 2 (some ⟨"parent", "a", 1, 1⟩)).record 1 :: [] :=
    rfl
  exact lineage_best_earliest child intact' split'

end SparseLab.Checkpoints
