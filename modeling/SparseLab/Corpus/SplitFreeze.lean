import SparseLab.Corpus.SplitStages

/-! The phases of `freeze_completed_preparation`, with `_export` line by line. -/

namespace SparseLab.Corpus

open Library

inductive ExportKind
  | assignments | families
deriving DecidableEq

def ExportKind.text : ExportKind → String
  | assignments => "assignments"
  | families => "families"

inductive PhaseName
  | admission | inventory | priorMergeIsolation | joinAdmission | priorContentIsolation | familyRank
  | priorFamilyAnchors | familyAssign | documentAssign | contentIsolation
  | exported (kind : ExportKind) (index : Nat)
  | assembled (kind : ExportKind)
deriving DecidableEq

inductive Fields
  | count (number : Nat)
  | chunk (nextOffset : Nat) (eof : Bool) (rows : Nat)
  | json (text : String)
deriving DecidableEq

abbrev Lines := List String

abbrev Phase := Value Lines Fields

namespace Phase

/-- `documents`, `eligible` or the number of rows. -/
def number (phase : Phase) : Nat :=
  match phase.data with
  | .count number => number
  | .chunk _ _ rows => rows
  | .json _ => 0

def nextOffset (phase : Phase) : Nat :=
  match phase.data with
  | .chunk nextOffset _ _ => nextOffset
  | _ => 0

def eof (phase : Phase) : Bool :=
  match phase.data with
  | .chunk _ eof _ => eof
  | _ => false

def lines (phase : Phase) : Lines := phase.outputs.flatMap Prod.snd

end Phase

structure AssignedRow where
  document : String
  split : String
  family : Option String
  stratum : Option String
  contentSha : String
deriving DecidableEq

inductive ExportRow
  | assignment (document split : String)
  | family (document family split : String) (stratum : Option String) (contentSha : String)
deriving DecidableEq

structure PriorPhases where
  checkMerges : Except String Phase
  checkContent : Phase → Except String Phase
  pinFamilies : Phase → Phase → Except String Phase

structure Phases where
  admission : Except String Phase
  inventory : Phase → Except String Phase
  reported : Nat
  merges : Except String Unit
  prior : Option PriorPhases
  join : Phase → Phase → Except String Phase
  family : Phase → Except String Phase
  allocation : Phase → Except String Phase
  assigned : Phase → Phase → Except String Phase
  content : Phase → Except String Phase
  decode : String → AssignedRow
  canonicalJson : ExportRow → String

def bufferBytes : Nat := 32 * 1024 ^ 2

def bytes (line : String) : Nat := line.utf8ByteSize + 1

/-- `stream.seek` to the start of a line. -/
def seek : Nat → Lines → Lines
  | _, [] => []
  | offset, raw :: lines => if offset = 0 then raw :: lines else seek (offset - bytes raw) lines

abbrev Chain := Procedure PhaseName String Phase

def refuse (condition : Prop) [Decidable condition] (message : String) : Chain Unit :=
  if condition then .fail message else .done ()

def check : Except String Unit → Chain Unit
  | .ok _ => .done ()
  | .error failure => .fail failure

def optionally {π α : Type} (prior : Option π) (chain : π → Chain α) : Chain (Option α) :=
  match prior with
  | none => .done none
  | some prior => chain prior >>= fun result => .done (some result)

section

variable (phases : Phases) (kind : ExportKind)

def exportRow (row : AssignedRow) : Option ExportRow :=
  match kind with
  | .assignments => some (.assignment row.document row.split)
  | .families => row.family.map fun family =>
    .family row.document family row.split row.stratum row.contentSha

/-- `records` of a chunk: the exported lines, the bytes they are read from, and whether the file
ended. -/
def records : (size : Nat) → Lines → Lines × Nat × Bool
  | _, [] => ([], 0, true)
  | size, raw :: lines =>
    match exportRow kind (phases.decode raw) with
    | none =>
      let (rest, read, eof) := records size lines
      (rest, bytes raw + read, eof)
    | some row =>
      let value := phases.canonicalJson row
      if bufferBytes ≤ size + bytes value then ([value], bytes raw, false)
      else
        let (rest, read, eof) := records (size + bytes value) lines
        (value :: rest, bytes raw + read, eof)

def chunk (assigned : Lines) (start : Nat) : Phase :=
  let (written, read, eof) := records phases kind 0 (seek start assigned)
  { outputs := [("chunk.jsonl", written)], data := .chunk (start + read) eof written.length }

/-- The loop of `_export`. A chunk that is not the last one has read a line. -/
def exportChunks (assigned : Lines) : (fuel index offset : Nat) → List Phase → Chain (List Phase)
  | 0, _, _, _ => .fail "out of fuel"
  | fuel + 1, index, offset, chunks => do
      let result ← Procedure.stage (.exported kind index) (.ok (chunk phases kind assigned offset))
      if result.eof then pure (chunks ++ [result])
      else exportChunks assigned fuel (index + 1) result.nextOffset (chunks ++ [result])

def assemble (chunks : List Phase) (expectedRows : Nat) : Phase where
  outputs := [(kind.text ++ ".jsonl", chunks.flatMap Phase.lines)]
  data := .count expectedRows

def export' (assigned : Lines) (expectedRows : Nat) : Chain Phase := do
  let chunks ← exportChunks phases kind assigned (assigned.length + 1) 0 0 []
  refuse ((chunks.map Phase.number).sum ≠ expectedRows) "split export coverage mismatch"
  Procedure.stage (.assembled kind) (.ok (assemble kind chunks expectedRows))

/-- `freeze_completed_preparation` from its first phase to its last. -/
def freeze : Chain (Phase × Phase) := do
  let admission ← Procedure.stage .admission phases.admission
  let inventory ← Procedure.stage .inventory (phases.inventory admission)
  refuse (inventory.number ≠ phases.reported) "completed inventory document count mismatch"
  check phases.merges
  let _ ← optionally phases.prior fun prior =>
    Procedure.stage .priorMergeIsolation prior.checkMerges
  let joined ← Procedure.stage .joinAdmission (phases.join inventory admission)
  let anchors ← optionally phases.prior fun prior =>
    Procedure.stage .priorContentIsolation (prior.checkContent joined)
  let ranked ← Procedure.stage .familyRank (phases.family joined)
  let pinned ← optionally phases.prior fun prior =>
    Procedure.stage .priorFamilyAnchors (prior.pinFamilies ranked (anchors.getD joined))
  let allocated ← Procedure.stage .familyAssign (phases.allocation (pinned.getD ranked))
  let assigned ← Procedure.stage .documentAssign (phases.assigned joined allocated)
  refuse (assigned.number ≠ inventory.number) "split assignments do not cover inventory"
  let _ ← Procedure.stage .contentIsolation (phases.content assigned)
  let assignment ← export' phases .assignments assigned.lines inventory.number
  let candidates ← export' phases .families assigned.lines joined.number
  pure (assignment, candidates)

theorem distinct_refuse (condition : Prop) [Decidable condition] (message : String)
    (used : Set PhaseName) : (refuse condition message).Distinct used := by
  unfold refuse
  split <;> trivial

theorem within_refuse (condition : Prop) [Decidable condition] (message : String)
    (names : Set PhaseName) : (refuse condition message).Within names := by
  unfold refuse
  split <;> trivial

theorem distinct_check (checked : Except String Unit) (used : Set PhaseName) :
    (check checked).Distinct used := by
  cases checked <;> trivial

theorem within_check (checked : Except String Unit) (names : Set PhaseName) :
    (check checked).Within names := by
  cases checked <;> trivial

section

variable {phases kind}

def exportNames (kind : ExportKind) : Set PhaseName :=
  {name | name = .assembled kind ∨ ∃ index, name = .exported kind index}

theorem exportChunks_within (assigned : Lines) (fuel index offset : Nat) (chunks : List Phase) :
    (exportChunks phases kind assigned fuel index offset chunks).Within
      {name | ∃ index, name = .exported kind index} := by
  induction fuel generalizing index offset chunks with
  | zero => trivial
  | succ fuel ih =>
    refine Procedure.Within.bind (Procedure.within_stage ⟨index, rfl⟩) fun result => ?_
    split
    next => trivial
    next => exact ih _ _ _

theorem exportChunks_distinct (assigned : Lines) (fuel index offset : Nat) (chunks : List Phase)
    {used : Set PhaseName} (fresh : ∀ later, index ≤ later → .exported kind later ∉ used) :
    (exportChunks phases kind assigned fuel index offset chunks).Distinct used := by
  induction fuel generalizing index offset chunks used with
  | zero => trivial
  | succ fuel ih =>
    refine (Procedure.distinct_stage (fresh index le_rfl)).bind
      (Procedure.within_stage (Set.mem_singleton _)) fun result => ?_
    split
    next => trivial
    next =>
      refine ih _ _ _ fun later after => ?_
      rintro (taken | same)
      · exact fresh later (by omega) taken
      · have equal : later = index := by injection same
        omega

theorem export_within (assigned : Lines) (expectedRows : Nat) :
    (export' phases kind assigned expectedRows).Within (exportNames kind) := by
  refine Procedure.Within.bind ?_ fun chunks => Procedure.Within.bind (within_refuse _ _ _) fun _ =>
    Procedure.within_stage (Or.inl rfl)
  exact (exportChunks_within assigned _ 0 0 []).mono fun name member => Or.inr member

theorem export_distinct (assigned : Lines) (expectedRows : Nat) {used : Set PhaseName}
    (fresh : ∀ name ∈ exportNames kind, name ∉ used) :
    (export' phases kind assigned expectedRows).Distinct used := by
  refine (exportChunks_distinct assigned _ 0 0 [] fun later _ => fresh _ (Or.inr ⟨later, rfl⟩)).bind
    (exportChunks_within assigned _ 0 0 []) fun chunks => ?_
  refine (distinct_refuse _ _ _).bind (within_refuse _ _ ∅) fun _ => Procedure.distinct_stage ?_
  rintro ((taken | ⟨index, same⟩) | none)
  · exact fresh _ (Or.inl rfl) taken
  · cases same
  · exact none

theorem optionally_distinct {π : Type} (prior : Option π) {name : PhaseName}
    (value : π → Except String Phase) {used : Set PhaseName} (fresh : name ∉ used) :
    (optionally prior fun given => Procedure.stage name (value given)).Distinct used := by
  cases prior with
  | none => trivial
  | some given => exact ⟨fresh, fun _ => trivial⟩

theorem optionally_within {π : Type} (prior : Option π) (name : PhaseName)
    (value : π → Except String Phase) :
    (optionally prior fun given => Procedure.stage name (value given)).Within {name} := by
  cases prior with
  | none => trivial
  | some given => exact ⟨rfl, fun _ => trivial⟩

theorem stage_within (name : PhaseName) (value : Except String Phase) :
    (Procedure.stage name value : Chain Phase).Within {name} :=
  Procedure.within_stage rfl

theorem freeze_distinct (phases : Phases) : (freeze phases).Distinct ∅ := by
  unfold freeze
  refine (Procedure.distinct_stage (by simp)).bind (stage_within _ _) fun admission => ?_
  refine (Procedure.distinct_stage (by simp)).bind (stage_within _ _) fun inventory => ?_
  refine (distinct_refuse _ _ _).bind (within_refuse _ _ ∅) fun _ => ?_
  refine (distinct_check _ _).bind (within_check _ ∅) fun _ => ?_
  refine (optionally_distinct _ _ (by simp)).bind (optionally_within _ _ _) fun _ => ?_
  refine (Procedure.distinct_stage (by simp)).bind (stage_within _ _) fun joined => ?_
  refine (optionally_distinct _ _ (by simp)).bind (optionally_within _ _ _) fun anchors => ?_
  refine (Procedure.distinct_stage (by simp)).bind (stage_within _ _) fun ranked => ?_
  refine (optionally_distinct _ _ (by simp)).bind (optionally_within _ _ _) fun pinned => ?_
  refine (Procedure.distinct_stage (by simp)).bind (stage_within _ _) fun allocated => ?_
  refine (Procedure.distinct_stage (by simp)).bind (stage_within _ _) fun assigned => ?_
  refine (distinct_refuse _ _ _).bind (within_refuse _ _ ∅) fun _ => ?_
  refine (Procedure.distinct_stage (by simp)).bind (stage_within _ _) fun _ => ?_
  refine (export_distinct _ _ ?_).bind (export_within _ _) fun assignment => ?_
  · rintro name (rfl | ⟨index, rfl⟩) <;> simp
  · refine (export_distinct _ _ ?_).bind (export_within _ _) fun candidates => trivial
    rintro name (rfl | ⟨index, rfl⟩) <;> simp [exportNames]

end

section

variable {phases kind}

def exportText (phases : Phases) (kind : ExportKind) (raw : String) : Option String :=
  (exportRow kind (phases.decode raw)).map phases.canonicalJson

theorem seek_append (before rest : Lines) : seek (before.map bytes).sum (before ++ rest) = rest := by
  induction before with
  | nil => cases rest <;> rfl
  | cons raw before ih =>
    have positive : ¬ bytes raw + (before.map bytes).sum = 0 := by
      unfold bytes
      omega
    rw [List.map_cons, List.sum_cons, List.cons_append, seek, if_neg positive,
      Nat.add_sub_cancel_left, ih]

theorem records_read (phases : Phases) (kind : ExportKind) (size : Nat) (lines : Lines) : ∃ taken left, lines = taken ++ left ∧
    (records phases kind size lines).1 = taken.filterMap (exportText phases kind) ∧
      (records phases kind size lines).2.1 = (taken.map bytes).sum ∧
        ((records phases kind size lines).2.2 = true → left = []) ∧
          ((records phases kind size lines).2.2 = false → taken ≠ []) := by
  induction lines generalizing size with
  | nil => exact ⟨[], [], rfl, rfl, rfl, fun _ => rfl, fun more => by cases more⟩
  | cons raw lines ih =>
    unfold records
    cases row : exportRow kind (phases.decode raw) with
    | none =>
      have skipped : exportText phases kind raw = none := by rw [exportText, row]; rfl
      obtain ⟨taken, left, rfl, written, read, ended, _⟩ := ih size
      refine ⟨raw :: taken, left, rfl, ?_, ?_, ended, fun _ => List.cons_ne_nil _ _⟩
      · rw [List.filterMap_cons_none skipped]
        exact written
      · rw [List.map_cons, List.sum_cons, ← read]
    | some value =>
      have exported : exportText phases kind raw = some (phases.canonicalJson value) := by
        rw [exportText, row]
        rfl
      dsimp only
      split
      next =>
        refine ⟨[raw], lines, rfl, ?_, ?_, fun last => Bool.noConfusion last,
          fun _ => List.cons_ne_nil _ _⟩
        · rw [List.filterMap_cons_some exported]
          rfl
        · rw [List.map_singleton, List.sum_singleton]
      next =>
        obtain ⟨taken, left, rfl, written, read, ended, _⟩ :=
          ih (size + bytes (phases.canonicalJson value))
        refine ⟨raw :: taken, left, rfl, ?_, ?_, ended, fun _ => List.cons_ne_nil _ _⟩
        · rw [List.filterMap_cons_some exported]
          exact congrArg _ written
        · rw [List.map_cons, List.sum_cons, ← read]

theorem exportChunks_run (phases : Phases) (kind : ExportKind) (fuel index : Nat) (before rest : Lines) (chunks : List Phase)
    (enough : rest.length < fuel) : ∃ later,
    (exportChunks phases kind (before ++ rest) fuel index (before.map bytes).sum chunks).run =
        .ok (chunks ++ later) ∧
      later.flatMap Phase.lines = rest.filterMap (exportText phases kind) ∧
        (later.map Phase.number).sum = (rest.filterMap (exportText phases kind)).length := by
  induction fuel generalizing index before rest chunks with
  | zero => omega
  | succ fuel ih =>
    obtain ⟨taken, left, rfl, written, read, ended, more⟩ := records_read phases kind 0 rest
    have found : seek (before.map bytes).sum (before ++ (taken ++ left)) = taken ++ left :=
      seek_append before (taken ++ left)
    have lines : (chunk phases kind (before ++ (taken ++ left)) (before.map bytes).sum).lines =
        taken.filterMap (exportText phases kind) := by
      rw [chunk, found]
      exact (List.append_nil _).trans written
    have number : (chunk phases kind (before ++ (taken ++ left)) (before.map bytes).sum).number =
        (taken.filterMap (exportText phases kind)).length := by
      rw [chunk, found, ← written]
      rfl
    have offset : (chunk phases kind (before ++ (taken ++ left))
        (before.map bytes).sum).nextOffset = ((before ++ taken).map bytes).sum := by
      rw [chunk, found, List.map_append, List.sum_append, ← read]
      rfl
    have eof : (chunk phases kind (before ++ (taken ++ left)) (before.map bytes).sum).eof =
        (records phases kind 0 (taken ++ left)).2.2 := by
      rw [chunk, found]
      rfl
    unfold exportChunks
    rw [Procedure.run_bind, Procedure.run_stage]
    generalize chunk phases kind (before ++ (taken ++ left)) (before.map bytes).sum = result at *
    change ∃ later, (if result.eof then (pure (chunks ++ [result]) : Chain (List Phase)) else
      exportChunks phases kind (before ++ (taken ++ left)) fuel (index + 1) result.nextOffset
        (chunks ++ [result])).run = _ ∧ _
    cases last : (records phases kind 0 (taken ++ left)).2.2 with
    | true =>
      obtain rfl := ended last
      rw [if_pos (eof.trans last)]
      refine ⟨[result], rfl, ?_, ?_⟩
      · rw [List.append_nil, ← lines]
        exact List.append_nil _
      · rw [List.append_nil, ← number]
        rfl
    | false =>
      have read' := List.length_pos_iff.mpr (more last)
      rw [List.length_append] at enough
      obtain ⟨later, returned, rows, total⟩ := ih (index + 1) (before ++ taken) left
        (chunks ++ [result]) (by omega)
      rw [if_neg (by rw [eof, last]; exact Bool.noConfusion), offset]
      refine ⟨result :: later, ?_, ?_, ?_⟩
      · rw [← List.append_assoc, returned, List.append_assoc]
        rfl
      · rw [List.filterMap_append, ← lines, ← rows]
        rfl
      · rw [List.filterMap_append, List.length_append, ← number, ← total]
        rfl

theorem export_run (assigned : Lines) (expectedRows : Nat) :
    (export' phases kind assigned expectedRows).run =
      if (assigned.filterMap (exportText phases kind)).length = expectedRows then
        .ok { outputs := [(kind.text ++ ".jsonl", assigned.filterMap (exportText phases kind))]
              data := .count expectedRows }
      else .error "split export coverage mismatch" := by
  obtain ⟨chunks, returned, rows, total⟩ := exportChunks_run phases kind
    (assigned.length + 1) 0 [] assigned [] (Nat.lt_succ_self _)
  unfold export'
  rw [Procedure.run_bind]
  change (exportChunks phases kind assigned (assigned.length + 1) 0 0 []).run = _ at returned
  rw [returned]
  change ((refuse ((chunks.map Phase.number).sum ≠ expectedRows) _ >>= fun _ => _).run) = _
  rw [Procedure.run_bind, total, refuse]
  by_cases covered : (assigned.filterMap (exportText phases kind)).length = expectedRows
  · rw [if_neg (not_not.mpr covered), if_pos covered, ← rows]
    rfl
  · rw [if_pos covered, if_neg covered]
    rfl

theorem export_done {assigned : Lines} {expectedRows : Nat} {trace : List (PhaseName × Phase)}
    {result : Phase} (traced : (export' phases kind assigned expectedRows).Traced trace)
    (finished : (export' phases kind assigned expectedRows).after (trace.map Prod.snd) =
      .done result) : (.assembled kind, result) ∈ trace := by
  obtain ⟨_, _, trace, rfl, _, _, traced, finished⟩ := traced.bind_done finished
  obtain ⟨_, _, trace, rfl, _, _, traced, finished⟩ := traced.bind_done finished
  rw [traced.stage_done finished]
  simp

theorem freeze_done {trace : List (PhaseName × Phase)} {assignment candidates : Phase}
    (traced : (freeze phases).Traced trace)
    (finished : (freeze phases).after (trace.map Prod.snd) = .done (assignment, candidates)) :
    (.assembled .assignments, assignment) ∈ trace ∧ (.assembled .families, candidates) ∈ trace := by
  unfold freeze at traced finished
  iterate 13 obtain ⟨_, _, trace, rfl, _, _, traced, finished⟩ := traced.bind_done finished
  obtain ⟨first, before, trace, rfl, exported, assembled, traced, finished⟩ :=
    traced.bind_done finished
  obtain ⟨second, later, trace, rfl, exported', assembled', traced, finished⟩ :=
    traced.bind_done finished
  cases trace with
  | nil =>
    cases finished
    have first := export_done exported assembled
    have second := export_done exported' assembled'
    simp only [List.mem_append]
    exact ⟨by simp [first], by simp [second]⟩
  | cons entry trace => cases traced

end

end

end SparseLab.Corpus
