import SparseLab.Corpus.SourceRecords

/-! Row-by-row preparation of a shard against one parse of the whole file. -/

namespace SparseLab.Corpus.Records

open Library Cleaning

variable (routines : Routines) (shard : Shard)

section

theorem mem_numbered {lines : List Bytes} {physicalLine ordinal : Nat} {row : Row}
    (member : row ∈ numbered physicalLine ordinal lines) :
    row.raw ∈ lines ∧ blankBytes row.raw = false := by
  induction lines generalizing physicalLine ordinal with
  | nil => cases member
  | cons raw lines ih =>
    rw [numbered] at member
    by_cases empty : blankBytes raw = true
    · rw [if_pos empty] at member
      obtain ⟨inside, visible⟩ := ih member
      exact ⟨List.mem_cons_of_mem raw inside, visible⟩
    · rw [if_neg empty] at member
      rcases List.mem_cons.mp member with first | later
      · rw [first]
        exact ⟨List.mem_cons_self, by simpa using empty⟩
      · obtain ⟨inside, visible⟩ := ih later
        exact ⟨List.mem_cons_of_mem raw inside, visible⟩

theorem exists_numbered {lines : List Bytes} {line : Bytes} (physicalLine ordinal : Nat)
    (member : line ∈ lines) (visible : blankBytes line = false) :
    ∃ row ∈ numbered physicalLine ordinal lines, row.raw = line := by
  induction lines generalizing physicalLine ordinal with
  | nil => cases member
  | cons raw lines ih =>
    rw [numbered]
    rcases List.mem_cons.mp member with first | later
    · rw [← first, if_neg (by simp [visible])]
      exact ⟨_, List.mem_cons_self, rfl⟩
    · by_cases empty : blankBytes raw = true
      · rw [if_pos empty]
        exact ih _ _ later
      · rw [if_neg empty]
        obtain ⟨row, inside, same⟩ := ih (physicalLine + 1) (ordinal + 1) later
        exact ⟨row, List.mem_cons_of_mem _ inside, same⟩

theorem not_blank_of_null {line : Bytes} (null : 0 ∈ line) : blankBytes line = false := by
  by_contra blank
  have space := List.all_eq_true.mp (by simpa using blank : blankBytes line = true) 0 null
  cases space

theorem records_line {line : Bytes} (single : physicalLines line = [line])
    (visible : blankBytes line = false) (ordinal : Nat) {maxRows : Nat} (positive : 1 ≤ maxRows) :
    records line ordinal maxRows = [{ raw := line, physicalLine := 1, ordinal := ordinal }] := by
  rw [records, single, numbered, if_neg (by simp [visible]), numbered]
  exact List.take_of_length_le positive

end

section

variable (rawSha : Text)

def parseSteps (row : Row) : Except Failure (Json ⊕ (Json ⊕ (Json × Json))) :=
  bothSteps (selectRow routines shard) (makeRecord routines shard rawSha) row

theorem parseRow_moved (row : Row) (physicalLine : Nat) :
    (Raises (parseRow routines { row with physicalLine := physicalLine }) ∧
        Raises (parseRow routines row)) ∨
      parseRow routines { row with physicalLine := physicalLine } = parseRow routines row := by
  unfold parseRow
  cases decoded : routines.decode row.raw with
  | none => exact Or.inl ⟨raises_error _, raises_error _⟩
  | some content =>
    dsimp only
    cases loaded : routines.loads content with
    | ok value => exact Or.inr rfl
    | error failure =>
      cases failure with
      | malformed message => exact Or.inl ⟨raises_error _, raises_error _⟩
      | raised exception => exact Or.inr rfl

theorem selectRow_moved (row : Row) (physicalLine : Nat) :
    (Raises (selectRow routines shard { row with physicalLine := physicalLine }) ∧
        Raises (selectRow routines shard row)) ∨
      selectRow routines shard { row with physicalLine := physicalLine } =
        selectRow routines shard row := by
  unfold selectRow
  rcases parseRow_moved routines row physicalLine with ⟨⟨here, new⟩, ⟨there, old⟩⟩ | same
  · rw [new, old]
    exact Or.inl ⟨raises_error _, raises_error _⟩
  · rw [same]
    exact Or.inr rfl

theorem parseSteps_moved (row : Row) (physicalLine : Nat) :
    (Raises (parseSteps routines shard rawSha { row with physicalLine := physicalLine }) ∧
        Raises (parseSteps routines shard rawSha row)) ∨
      parseSteps routines shard rawSha { row with physicalLine := physicalLine } =
        parseSteps routines shard rawSha row := by
  unfold parseSteps bothSteps
  rcases selectRow_moved routines shard row physicalLine with ⟨⟨here, new⟩, ⟨there, old⟩⟩ | same
  · rw [new, old]
    exact Or.inl ⟨raises_error _, raises_error _⟩
  · rw [same]
    exact Or.inr rfl

def Refused (row : Row) : Prop := 0 ∈ row.raw ∨ Raises (parseSteps routines shard rawSha row)

def outcomeValues : Json ⊕ (Json ⊕ (Json × Json)) → List Json
  | .inl rejected => [rejected]
  | .inr (.inl rejected) => [rejected]
  | .inr (.inr row) => [row.1, row.2]

def Unwritable (row : Row) : Prop :=
  ∃ outcome, parseSteps routines shard rawSha row = .ok outcome ∧
    ∃ value ∈ outcomeValues outcome, Raises (routines.canonical value)

def Stops (row : Row) : Prop :=
  Refused routines shard rawSha row ∨ Unwritable routines shard rawSha row

variable {routines shard rawSha}

theorem Stops.moved {row : Row} {physicalLine : Nat} :
    Stops routines shard rawSha { row with physicalLine := physicalLine } ↔
      Stops routines shard rawSha row := by
  unfold Stops Refused Unwritable
  rcases parseSteps_moved routines shard rawSha row physicalLine with ⟨new, old⟩ | same
  · exact ⟨fun _ => Or.inl (Or.inr old), fun _ => Or.inl (Or.inr new)⟩
  · rw [same]

theorem output_ok {value : Json} (writable : ¬ Raises (routines.canonical value)) :
    output routines value = .ok value := by
  obtain ⟨written, same⟩ := not_raises_iff.mp writable
  rw [output, same]
  rfl

theorem output_raises {value : Json} (unwritable : Raises (routines.canonical value)) :
    Raises (output routines value) := by
  obtain ⟨failure, same⟩ := unwritable
  rw [output, same]
  exact raises_error failure

def recorded (state : Preparation) (outcomes : List (Json ⊕ (Json ⊕ (Json × Json)))) :
    Preparation :=
  { state with
    documents := state.documents ++ (kept (outcomes.map oneLoop)).map Prod.fst
    spans := state.spans ++ (kept (outcomes.map oneLoop)).map Prod.snd
    rejected := state.rejected ++ turnedAway (outcomes.map oneLoop) }

theorem recordsForFile_line {line : Bytes} (single : physicalLines line = [line])
    (visible : blankBytes line = false) (ordinal : Nat) (positive : 1 ≤ shard.maxRows)
    (full : rawSha ≠ []) (clean : 0 ∉ line) :
    recordsForFile routines shard line (some rawSha) ordinal =
      siftTwice (selectRow routines shard) (makeRecord routines shard rawSha)
        [{ raw := line, physicalLine := 1, ordinal := ordinal }] := by
  have sha : orElse (some rawSha) (text (routines.sha256 line)) = rawSha := by
    cases rawSha with
    | nil => exact absurd rfl full
    | cons letter letters => rfl
  rw [recordsForFile, if_neg clean, if_neg (by simp [visible]), sha,
    records_line single visible ordinal positive]

def counted (state : Preparation) (line : Bytes) (rows : Nat) : Preparation :=
  { state with
    digested := state.digested ++ line
    inputBytes := state.inputBytes + line.length
    index := state.index + rows }

abbrev TooLong (shard : Shard) (line : Bytes) : Prop :=
  shard.recordAdmission.isSome ∧ admittedRecordMaxBytes < line.length

theorem prepareLine_long {state : Preparation} {line : Bytes} (long : TooLong shard line) :
    Raises (prepareLine routines shard rawSha state line) := by
  rw [prepareLine, refuseIf_raises long]
  exact raises_error _

theorem prepareLine_blank {state : Preparation} {line : Bytes} (short : ¬ TooLong shard line)
    (empty : blankBytes line = true) :
    prepareLine routines shard rawSha state line = .ok (counted state line 0) := by
  rw [prepareLine, refuseIf_bind short]
  exact if_pos empty

theorem prepareLine_past {state : Preparation} {line : Bytes} (short : ¬ TooLong shard line)
    (visible : blankBytes line = false) (past : shard.maxRows < state.index + 1) :
    prepareLine routines shard rawSha state line = .ok (counted state line 1) := by
  rw [prepareLine, refuseIf_bind short]
  dsimp only
  rw [if_neg (by simp [visible]), if_pos past]
  rfl

def stored (routines : Routines) (state : Preparation) (dropped : List Json)
    (rows : List (Json × Json)) : Except Failure Preparation := do
  let rows ← rows.mapM (outputRow routines)
  let dropped ← dropped.mapM (output routines)
  .ok
    { state with
      documents := state.documents ++ rows.map Prod.fst
      spans := state.spans ++ rows.map Prod.snd
      rejected := state.rejected ++ dropped }

theorem stored_ok {state : Preparation} {outcome : Json ⊕ (Json ⊕ (Json × Json))}
    (writable : ∀ value ∈ outcomeValues outcome, ¬ Raises (routines.canonical value)) :
    stored routines state (turnedAway [oneLoop outcome]) (kept [oneLoop outcome]) =
      .ok (recorded state [outcome]) := by
  rcases outcome with rejected | rejected | row
  · have written := output_ok (writable rejected List.mem_cons_self)
    simp only [stored, recorded, oneLoop, List.map_cons, List.map_nil, turnedAway_inl,
      turnedAway_nil, kept_inl, kept_nil, List.mapM_cons, List.mapM_nil, written]
    rfl
  · have written := output_ok (writable rejected List.mem_cons_self)
    simp only [stored, recorded, oneLoop, List.map_cons, List.map_nil, turnedAway_inl,
      turnedAway_nil, kept_inl, kept_nil, List.mapM_cons, List.mapM_nil, written]
    rfl
  · have document := output_ok (writable row.1 List.mem_cons_self)
    have span := output_ok (writable row.2 (List.mem_cons_of_mem _ List.mem_cons_self))
    simp only [stored, recorded, oneLoop, List.map_cons, List.map_nil, turnedAway_inr,
      turnedAway_nil, kept_inr, kept_nil, List.mapM_cons, List.mapM_nil, outputRow, document, span]
    rfl

theorem stored_raises {state : Preparation} {outcome : Json ⊕ (Json ⊕ (Json × Json))} {value : Json}
    (member : value ∈ outcomeValues outcome) (unwritable : Raises (routines.canonical value)) :
    Raises (stored routines state (turnedAway [oneLoop outcome]) (kept [oneLoop outcome])) := by
  obtain ⟨failure, raised⟩ := output_raises unwritable
  rcases outcome with rejected | rejected | row
  · rw [List.mem_singleton.mp member] at raised
    simp only [stored, oneLoop, turnedAway_inl, turnedAway_nil, kept_inl, kept_nil,
      List.mapM_cons, List.mapM_nil, raised]
    exact raises_error failure
  · rw [List.mem_singleton.mp member] at raised
    simp only [stored, oneLoop, turnedAway_inl, turnedAway_nil, kept_inl, kept_nil,
      List.mapM_cons, List.mapM_nil, raised]
    exact raises_error failure
  · simp only [stored, oneLoop, kept_inr, kept_nil, List.mapM_cons, outputRow]
    rcases List.mem_cons.mp member with document | span
    · rw [← document, raised]
      exact raises_error failure
    · rw [List.mem_singleton.mp span] at raised
      cases first : output routines row.1 with
      | error other => exact raises_error other
      | ok value =>
        rw [raised]
        exact raises_error failure

section

variable {state : Preparation} {line : Bytes}
  (single : physicalLines line = [line]) (short : ¬ TooLong shard line)
  (visible : blankBytes line = false) (within : state.index + 1 ≤ shard.maxRows)
  (full : rawSha ≠ [])

include short visible within

theorem prepareLine_row : prepareLine routines shard rawSha state line =
    match recordsForFile routines shard line (some rawSha) (state.index + 1) with
    | (_, .error failure) => .error (sourceParseError failure)
    | (dropped, .ok rows) => stored routines (counted state line 1) dropped rows := by
  rw [prepareLine, refuseIf_bind short]
  dsimp only
  rw [if_neg (by simp [visible]), if_neg (by omega)]
  rfl

include single full

theorem prepareLine_refused
    (refused : Refused routines shard rawSha
      { raw := line, physicalLine := 1, ordinal := state.index + 1 }) :
    Raises (prepareLine routines shard rawSha state line) := by
  have raised : Raises
      (recordsForFile routines shard line (some rawSha) (state.index + 1)).2 := by
    by_cases clean : 0 ∈ line
    · rw [recordsForFile, if_pos clean]
      exact raises_error _
    · rw [recordsForFile_line single visible _ (by omega) full clean, siftTwice_raises]
      rcases refused with null | fails
      · exact absurd null clean
      · exact ⟨_, List.mem_cons_self, fails⟩
  rw [prepareLine_row short visible within]
  generalize recordsForFile routines shard line (some rawSha) (state.index + 1) = parsed at raised
  obtain ⟨dropped, rows⟩ := parsed
  obtain ⟨failure, same⟩ := raised
  change rows = .error failure at same
  rw [same]
  exact raises_error _

theorem prepareLine_outcome {outcome : Json ⊕ (Json ⊕ (Json × Json))} (clean : 0 ∉ line)
    (steps : parseSteps routines shard rawSha
      { raw := line, physicalLine := 1, ordinal := state.index + 1 } = .ok outcome) :
    prepareLine routines shard rawSha state line =
      stored routines (counted state line 1) (turnedAway [oneLoop outcome])
        (kept [oneLoop outcome]) := by
  have parsed : siftTwice (selectRow routines shard) (makeRecord routines shard rawSha)
      [{ raw := line, physicalLine := 1, ordinal := state.index + 1 }] =
        (turnedAway [oneLoop outcome], .ok (kept [oneLoop outcome])) := by
    have sifted : siftTwice (selectRow routines shard) (makeRecord routines shard rawSha)
        [{ raw := line, physicalLine := 1, ordinal := state.index + 1 }] =
          (turnedAway [outcome] ++ turnedAway (kept [outcome]), .ok (kept (kept [outcome]))) :=
      siftTwice_ok (congrArg (fun attempt => [attempt]) steps)
    rw [sifted]
    rcases outcome with rejected | rejected | row
    · rfl
    · rfl
    · rfl
  rw [prepareLine_row short visible within,
    recordsForFile_line single visible _ (by omega) full clean, parsed]

theorem prepareLine_unwritable (clean : 0 ∉ line)
    (unwritable : Unwritable routines shard rawSha
      { raw := line, physicalLine := 1, ordinal := state.index + 1 }) :
    Raises (prepareLine routines shard rawSha state line) := by
  obtain ⟨outcome, steps, value, member, refused⟩ := unwritable
  rw [prepareLine_outcome single short visible within full clean steps]
  exact stored_raises member refused

theorem prepareLine_recorded (clean : 0 ∉ line) {outcome : Json ⊕ (Json ⊕ (Json × Json))}
    (steps : parseSteps routines shard rawSha
      { raw := line, physicalLine := 1, ordinal := state.index + 1 } = .ok outcome)
    (writable : ∀ value ∈ outcomeValues outcome, ¬ Raises (routines.canonical value)) :
    prepareLine routines shard rawSha state line =
      .ok (recorded (counted state line 1) [outcome]) := by
  rw [prepareLine_outcome single short visible within full clean steps]
  exact stored_ok writable

end

theorem counted_counted (state : Preparation) (line rest : Bytes) (rows more : Nat) :
    counted (counted state line rows) rest more = counted state (line ++ rest) (rows + more) := by
  simp only [counted, List.append_assoc, List.length_append, Nat.add_assoc]

theorem recorded_recorded (state : Preparation) (line rest : Bytes) (rows more : Nat)
    (outcome : Json ⊕ (Json ⊕ (Json × Json))) (outcomes : List (Json ⊕ (Json ⊕ (Json × Json)))) :
    recorded (counted (recorded (counted state line rows) [outcome]) rest more) outcomes =
      recorded (counted state (line ++ rest) (rows + more)) (outcome :: outcomes) := by
  have rows_append : kept ((outcome :: outcomes).map oneLoop) =
      kept ([outcome].map oneLoop) ++ kept (outcomes.map oneLoop) :=
    @List.filterMap_append _ _ [oneLoop outcome] _ _
  have rejected_append : turnedAway ((outcome :: outcomes).map oneLoop) =
      turnedAway ([outcome].map oneLoop) ++ turnedAway (outcomes.map oneLoop) :=
    @List.filterMap_append _ _ [oneLoop outcome] _ _
  rw [← counted_counted]
  simp only [recorded, counted, rows_append, rejected_append, List.map_append, List.append_assoc]

end

section

variable {routines shard} {rawSha : Text}

def openRows (shard : Shard) (index physicalLine : Nat) (lines : List Bytes) : List Row :=
  (numbered physicalLine (index + 1) lines).take (shard.maxRows - index)

def Prepares (routines : Routines) (shard : Shard) (rawSha : Text) (lines : List Bytes)
    (state : Preparation) (rows : List Row) : Prop :=
  (((∃ line ∈ lines, TooLong shard line) ∨ ∃ row ∈ rows, Stops routines shard rawSha row) ∧
      Raises (lines.foldlM (prepareLine routines shard rawSha) state)) ∨
    ((¬ ∃ line ∈ lines, TooLong shard line) ∧ (¬ ∃ row ∈ rows, Stops routines shard rawSha row) ∧
      ∃ outcomes count, rows.map (parseSteps routines shard rawSha) = outcomes.map Except.ok ∧
        lines.foldlM (prepareLine routines shard rawSha) state =
          .ok (recorded (counted state lines.flatten count) outcomes))

variable {state : Preparation} {line : Bytes} {lines : List Bytes} {rows : List Row}

theorem prepares_long (long : TooLong shard line) :
    Prepares routines shard rawSha (line :: lines) state rows := by
  left
  have stopped : Raises (prepareLine routines shard rawSha state line) := prepareLine_long long
  obtain ⟨failure, raised⟩ := stopped
  rw [List.foldlM_cons, raised]
  exact ⟨Or.inl ⟨line, List.mem_cons_self, long⟩, raises_error failure⟩

theorem Prepares.read {count : Nat} (short : ¬ TooLong shard line)
    (step : prepareLine routines shard rawSha state line = .ok (counted state line count))
    (later : Prepares routines shard rawSha lines (counted state line count) rows) :
    Prepares routines shard rawSha (line :: lines) state rows := by
  unfold Prepares at later ⊢
  rw [List.foldlM_cons, step, List.flatten_cons]
  rcases later with ⟨stops, raised⟩ | ⟨allShort, quiet, outcomes, more, same, ran⟩
  · left
    refine ⟨stops.imp ?_ id, raised⟩
    rintro ⟨other, member, long⟩
    exact ⟨other, List.mem_cons_of_mem line member, long⟩
  · right
    refine ⟨?_, quiet, outcomes, count + more, same, ?_⟩
    · simpa [short] using allShort
    · rw [← counted_counted]
      exact ran

theorem prepares_stop {row : Row}
    (raised : Raises (prepareLine routines shard rawSha state line))
    (stops : Stops routines shard rawSha row) :
    Prepares routines shard rawSha (line :: lines) state (row :: rows) := by
  left
  obtain ⟨failure, same⟩ := raised
  rw [List.foldlM_cons, same]
  exact ⟨Or.inr ⟨row, List.mem_cons_self, stops⟩, raises_error failure⟩

theorem Prepares.record {row : Row} {outcome : Json ⊕ (Json ⊕ (Json × Json))}
    (short : ¬ TooLong shard line) (passes : ¬ Stops routines shard rawSha row)
    (steps : parseSteps routines shard rawSha row = .ok outcome)
    (step : prepareLine routines shard rawSha state line =
      .ok (recorded (counted state line 1) [outcome]))
    (later : Prepares routines shard rawSha lines (recorded (counted state line 1) [outcome])
      rows) :
    Prepares routines shard rawSha (line :: lines) state (row :: rows) := by
  unfold Prepares at later ⊢
  rw [List.foldlM_cons, step, List.flatten_cons]
  rcases later with ⟨stops, raised⟩ | ⟨allShort, quiet, outcomes, more, same, ran⟩
  · left
    refine ⟨stops.imp ?_ ?_, raised⟩
    · rintro ⟨other, member, long⟩
      exact ⟨other, List.mem_cons_of_mem line member, long⟩
    · rintro ⟨other, member, stopped⟩
      exact ⟨other, List.mem_cons_of_mem row member, stopped⟩
  · right
    refine ⟨?_, ?_, outcome :: outcomes, 1 + more, ?_, ?_⟩
    · simpa [short] using allShort
    · simpa [passes] using quiet
    · rw [List.map_cons, List.map_cons, steps, same]
    · rw [← recorded_recorded]
      exact ran

theorem prepares_row (full : rawSha ≠ []) (alone : physicalLines line = [line])
    (short : ¬ TooLong shard line) (visible : blankBytes line = false)
    (within : state.index + 1 ≤ shard.maxRows) {physicalLine : Nat}
    (later : ∀ outcome, Prepares routines shard rawSha lines
      (recorded (counted state line 1) [outcome]) rows) :
    Prepares routines shard rawSha (line :: lines) state
      ({ raw := line, physicalLine := physicalLine, ordinal := state.index + 1 } :: rows) := by
  have moved : Stops routines shard rawSha ⟨line, 1, state.index + 1⟩ ↔
      Stops routines shard rawSha ⟨line, physicalLine, state.index + 1⟩ :=
    @Stops.moved routines shard rawSha ⟨line, physicalLine, state.index + 1⟩ 1
  by_cases refused : Refused routines shard rawSha ⟨line, 1, state.index + 1⟩
  · exact prepares_stop (prepareLine_refused alone short visible within full refused)
      (moved.mp (Or.inl refused))
  · have clean : 0 ∉ line := fun null => refused (Or.inl null)
    by_cases unwritable : Unwritable routines shard rawSha ⟨line, 1, state.index + 1⟩
    · exact prepares_stop (prepareLine_unwritable alone short visible within full clean unwritable)
        (moved.mp (Or.inr unwritable))
    · have passes : ¬ Stops routines shard rawSha ⟨line, physicalLine, state.index + 1⟩ :=
        fun stops => (moved.mpr stops).elim refused unwritable
      obtain ⟨outcome, steps⟩ := not_raises_iff.mp fun raised => passes (Or.inl (Or.inr raised))
      have steps_alone : parseSteps routines shard rawSha ⟨line, 1, state.index + 1⟩ =
          .ok outcome := by
        rcases parseSteps_moved routines shard rawSha ⟨line, physicalLine, state.index + 1⟩ 1 with
          ⟨-, raised⟩ | same
        · exact absurd (Or.inl (Or.inr raised)) passes
        · exact same.trans steps
      apply (later outcome).record short passes steps
      apply prepareLine_recorded alone short visible within full clean steps_alone
      intro value member raised
      exact unwritable ⟨outcome, steps_alone, value, member, raised⟩

theorem prepareLines (full : rawSha ≠ []) (single : ∀ line ∈ lines, physicalLines line = [line])
    (physicalLine : Nat) :
    Prepares routines shard rawSha lines state (openRows shard state.index physicalLine lines) := by
  induction lines generalizing state physicalLine with
  | nil =>
    right
    refine ⟨by simp, by simp [openRows, numbered], [], 0, by simp [openRows, numbered], ?_⟩
    simp only [recorded, counted, List.flatten_nil, List.append_nil, List.map_nil, kept_nil,
      turnedAway_nil]
    rfl
  | cons line lines ih =>
    have rest : ∀ other ∈ lines, physicalLines other = [other] := fun other member =>
      single other (List.mem_cons_of_mem line member)
    have alone := single line List.mem_cons_self
    by_cases long : TooLong shard line
    · exact prepares_long long
    · by_cases empty : blankBytes line = true
      · have same : openRows shard state.index physicalLine (line :: lines) =
            openRows shard (counted state line 0).index (physicalLine + 1) lines := by
          rw [openRows, numbered, if_pos empty]
          rfl
        rw [same]
        exact (ih rest (physicalLine + 1)).read long (prepareLine_blank long empty)
      · have visible : blankBytes line = false := by simpa using empty
        by_cases past : shard.maxRows < state.index + 1
        · have same : openRows shard state.index physicalLine (line :: lines) =
              openRows shard (counted state line 1).index (physicalLine + 1) lines := by
            have closed : shard.maxRows - state.index = 0 := by omega
            have closed' : shard.maxRows - (counted state line 1).index = 0 := by
              show shard.maxRows - (state.index + 1) = 0
              omega
            rw [openRows, openRows, closed, closed', List.take_zero, List.take_zero]
          rw [same]
          exact (ih rest (physicalLine + 1)).read long (prepareLine_past long visible past)
        · have within : state.index + 1 ≤ shard.maxRows := by omega
          have same : openRows shard state.index physicalLine (line :: lines) =
              { raw := line, physicalLine := physicalLine, ordinal := state.index + 1 } ::
                openRows shard (state.index + 1) (physicalLine + 1) lines := by
            have more : shard.maxRows - state.index = shard.maxRows - (state.index + 1) + 1 := by
              omega
            rw [openRows, numbered, if_neg empty, more, List.take_succ_cons]
            rfl
          rw [same]
          apply prepares_row full alone long visible within
          intro outcome
          exact ih rest (physicalLine + 1)

end

section

variable (routines : Routines) (shard : Shard)

def DecisionRejects (row : Row) : Prop :=
  ∃ rejected, selectRow routines shard row = .ok (.inl rejected)

def ContentRejects (row : Row) : Prop :=
  ∃ passage reason, selectRow routines shard row = .ok (.inr passage) ∧
    passageExclusion routines shard passage = .ok (some reason)

variable {routines shard} {rawSha : Text} {row : Row} {rejected : Json}

theorem parseSteps_decision :
    parseSteps routines shard rawSha row = .ok (.inl rejected) ↔
      selectRow routines shard row = .ok (.inl rejected) := by
  unfold parseSteps bothSteps
  cases selectRow routines shard row with
  | error failure => simp
  | ok result =>
    cases result with
    | inl turned => simp
    | inr passage =>
      cases made : makeRecord routines shard rawSha passage with
      | error failure => simp [made, Except.map]
      | ok result => simp [made, Except.map]

theorem makeRecord_rejects {passage : Passage} :
    makeRecord routines shard rawSha passage = .ok (.inl rejected) ↔
      ∃ reason, passageExclusion routines shard passage = .ok (some reason) ∧
        rejected = rejection shard (natJson passage.ordinal) reason.text := by
  unfold makeRecord
  cases passageExclusion routines shard passage with
  | error failure =>
    constructor
    · intro made
      cases made
    · rintro ⟨reason, found, -⟩
      cases found
  | ok exclusion =>
    cases exclusion with
    | some reason =>
      constructor
      · intro made
        exact ⟨reason, rfl, (Sum.inl.inj (Except.ok.inj made)).symm⟩
      · rintro ⟨other, found, same⟩
        cases found
        rw [same]
        rfl
    | none =>
      constructor
      · intro made
        obtain ⟨exclusion, none_is, made⟩ := bind_eq_ok made
        cases none_is
        cases content : passage.content.str? with
        | none =>
          simp only [content] at made
          cases made
        | some rawContent =>
          simp only [content] at made
          obtain ⟨cleaned, -, made⟩ := bind_eq_ok made
          obtain ⟨rawContentSha, -, made⟩ := bind_eq_ok made
          obtain ⟨contentSha, -, made⟩ := bind_eq_ok made
          obtain ⟨document, -, made⟩ := bind_eq_ok made
          cases made
      · rintro ⟨reason, found, -⟩
        cases found

theorem parseSteps_content :
    parseSteps routines shard rawSha row = .ok (.inr (.inl rejected)) ↔
      ∃ passage reason, selectRow routines shard row = .ok (.inr passage) ∧
        passageExclusion routines shard passage = .ok (some reason) ∧
        rejected = rejection shard (natJson passage.ordinal) reason.text := by
  unfold parseSteps bothSteps
  cases selectRow routines shard row with
  | error failure => simp
  | ok result =>
    cases result with
    | inl turned => simp
    | inr passage =>
      have turned : (makeRecord routines shard rawSha passage).map Sum.inr =
          .ok (.inr (.inl rejected) : Json ⊕ (Json ⊕ (Json × Json))) ↔
            makeRecord routines shard rawSha passage = .ok (.inl rejected) := by
        cases makeRecord routines shard rawSha passage with
        | error failure => simp [Except.map]
        | ok result => simp [Except.map]
      rw [turned, makeRecord_rejects]
      simp

def OfDecision (shard : Shard) (rejected : Json) : Prop :=
  ∃ index rest, rejected = rejection shard index (text "record admission " ++ rest)

theorem selectRow_rejects (turned : selectRow routines shard row = .ok (.inl rejected)) :
    OfDecision shard rejected := by
  unfold selectRow at turned
  obtain ⟨value, -, turned⟩ := bind_eq_ok turned
  cases value with
  | dict item =>
    obtain ⟨decision, -, turned⟩ := bind_eq_ok turned
    split at turned
    · rename_i decided
      split at turned
      · cases turned
      · rename_i index found
        cases turned
        exact ⟨index, _, by rw [List.append_assoc, List.append_assoc]⟩
    · obtain ⟨metadata, -, turned⟩ := bind_eq_ok turned
      obtain ⟨qualified, -, turned⟩ := bind_eq_ok turned
      obtain ⟨content, -, turned⟩ := bind_eq_ok turned
      cases turned
  | _ => cases turned

theorem exclusion_not_decision (index : Json) (reason : Exclusion) :
    ¬ OfDecision shard (rejection shard index reason.text) := by
  rintro ⟨other, rest, same⟩
  simp only [rejection, Json.dict.injEq, List.cons.injEq, Prod.mk.injEq, Json.str.injEq] at same
  have reasons := same.2.2.2.1.2
  have start := congrArg List.head? reasons
  cases reason with
  | emptyOrNontext => cases start
  | secretOrPrivateIdentifier => cases start
  | unknownPageProvenance => cases start
  | excludedPlatformTermsOrPrivatePaste => cases start
  | unreviewedAcademicOrigin => cases start
  | insufficientContent => cases start

theorem rejections_ordered {rows : List Row} {outcomes : List (Json ⊕ (Json ⊕ (Json × Json)))}
    (steps : rows.map (parseSteps routines shard rawSha) = outcomes.map Except.ok) :
    turnedAway (outcomes.map oneLoop) = turnedAway outcomes ++ turnedAway (kept outcomes) ↔
      rows.Pairwise fun before after =>
        ¬ (ContentRejects routines shard before ∧ DecisionRejects routines shard after) := by
  have listed : ∀ outcome ∈ outcomes, ∃ row ∈ rows,
      parseSteps routines shard rawSha row = .ok outcome := by
    intro outcome member
    have inside : Except.ok outcome ∈ rows.map (parseSteps routines shard rawSha) := by
      rw [steps]
      exact List.mem_map_of_mem member
    exact List.mem_map.mp inside
  have atFirst : ∀ turned, .inl turned ∈ outcomes → OfDecision shard turned := by
    intro turned member
    obtain ⟨row, -, step⟩ := listed _ member
    exact selectRow_rejects (parseSteps_decision.mp step)
  have atSecond : ∀ turned, .inr (.inl turned) ∈ outcomes → ¬ OfDecision shard turned := by
    intro turned member
    obtain ⟨row, -, step⟩ := listed _ member
    obtain ⟨passage, reason, -, -, same⟩ := parseSteps_content.mp step
    rw [same]
    exact exclusion_not_decision _ reason
  have moved : outcomes.Pairwise (fun before after =>
      ¬ ((∃ turned, before = .inr (.inl turned)) ∧ ∃ turned, after = .inl turned)) ↔
        (outcomes.map Except.ok).Pairwise fun before after : Except Failure _ =>
          ¬ ((∃ turned, before = .ok (.inr (.inl turned))) ∧ ∃ turned, after = .ok (.inl turned)) := by
    rw [List.pairwise_map]
    simp
  rw [turnedAway_oneLoop atFirst atSecond, moved, ← steps, List.pairwise_map]
  apply List.Pairwise.iff
  intro before after
  simp only [parseSteps_decision, parseSteps_content, ContentRejects, DecisionRejects]
  apply not_congr
  apply and_congr_left
  intro _
  constructor
  · rintro ⟨-, passage, reason, selected, found, -⟩
    exact ⟨passage, reason, selected, found⟩
  · rintro ⟨passage, reason, selected, found⟩
    exact ⟨_, passage, reason, selected, found, rfl⟩

end

section

variable (routines : Routines) (shard : Shard)

def SameRecords (whole : List Json × Except Failure (List (Json × Json)))
    (prepared : Except Failure Prepared) : Prop :=
  match whole.2, prepared with
  | .ok rows, .ok shard =>
    shard = ⟨rows.map Prod.fst, rows.map Prod.snd, whole.1⟩
  | .error _, .error _ => True
  | _, _ => False

def selected (contents : Bytes) : List Row := records contents 1 shard.maxRows

def WholeRefuses (contents : Bytes) : Prop :=
  blankBytes contents = true ∨
    ∃ row ∈ (numbered 1 1 (physicalLines contents)).drop shard.maxRows, 0 ∈ row.raw

def RowsRefuse (file : VerifiedFile routines) : Prop :=
  (∃ line ∈ physicalLines file.contents, TooLong shard line) ∨
    ∃ row ∈ selected shard file.contents, Unwritable routines shard file.sha256 row

def DecisionsFirst (contents : Bytes) : Prop :=
  (selected shard contents).Pairwise fun before after =>
    ¬ (ContentRejects routines shard before ∧ DecisionRejects routines shard after)

variable {routines shard}

theorem null_mem {contents : Bytes} : 0 ∈ contents ↔
    (∃ row ∈ selected shard contents, 0 ∈ row.raw) ∨
      ∃ row ∈ (numbered 1 1 (physicalLines contents)).drop shard.maxRows, 0 ∈ row.raw := by
  have whole : 0 ∈ contents ↔ ∃ row ∈ numbered 1 1 (physicalLines contents), 0 ∈ row.raw := by
    conv_lhs => rw [← flatten_physicalLines contents, List.mem_flatten]
    constructor
    · rintro ⟨line, member, null⟩
      obtain ⟨row, inside, same⟩ := exists_numbered 1 1 member (not_blank_of_null null)
      exact ⟨row, inside, same ▸ null⟩
    · rintro ⟨row, inside, null⟩
      exact ⟨row.raw, (mem_numbered inside).1, null⟩
  rw [whole, selected, records, ← exists_or]
  apply exists_congr
  intro row
  rw [← or_and_right, ← List.mem_append, List.take_append_drop]

theorem parse_sha (file : VerifiedFile routines) :
    orElse none (text (routines.sha256 file.contents)) = file.sha256 := file.sha256_eq.symm

variable (shard) in
theorem whole_raises (file : VerifiedFile routines) :
    Raises (recordsForFile routines shard file.contents none 1).2 ↔
      WholeRefuses shard file.contents ∨
        ∃ row ∈ selected shard file.contents, Refused routines shard file.sha256 row := by
  unfold recordsForFile WholeRefuses
  rw [parse_sha]
  by_cases null : 0 ∈ file.contents
  · rw [if_pos null]
    refine ⟨fun _ => ?_, fun _ => raises_error _⟩
    rcases null_mem.mp null with ⟨row, member, here⟩ | later
    · exact Or.inr ⟨row, member, Or.inl here⟩
    · exact Or.inl (Or.inr later)
  · rw [if_neg null]
    have clean : ¬ ((∃ row ∈ selected shard file.contents, 0 ∈ row.raw) ∨
        ∃ row ∈ (numbered 1 1 (physicalLines file.contents)).drop shard.maxRows, 0 ∈ row.raw) :=
      mt null_mem.mpr null
    by_cases empty : blankBytes file.contents = true
    · rw [if_pos empty]
      exact ⟨fun _ => Or.inl (Or.inl empty), fun _ => raises_error _⟩
    · rw [if_neg empty, siftTwice_raises]
      constructor
      · rintro ⟨row, member, raised⟩
        exact Or.inr ⟨row, member, Or.inr raised⟩
      · rintro ((blank | later) | ⟨row, member, here | raised⟩)
        · exact absurd blank empty
        · exact absurd (Or.inr later) clean
        · exact absurd (Or.inl ⟨row, member, here⟩) clean
        · exact ⟨row, member, raised⟩

theorem whole_ok {file : VerifiedFile routines} {outcomes : List (Json ⊕ (Json ⊕ (Json × Json)))}
    (accepts : ¬ WholeRefuses shard file.contents)
    (passes : ¬ ∃ row ∈ selected shard file.contents, Refused routines shard file.sha256 row)
    (steps : (selected shard file.contents).map (parseSteps routines shard file.sha256) =
      outcomes.map Except.ok) :
    recordsForFile routines shard file.contents none 1 =
      (turnedAway outcomes ++ turnedAway (kept outcomes), .ok (kept (kept outcomes))) := by
  have clean : 0 ∉ file.contents := by
    intro null
    rcases null_mem.mp null with ⟨row, member, here⟩ | later
    · exact passes ⟨row, member, Or.inl here⟩
    · exact accepts (Or.inr later)
  rw [recordsForFile, if_neg clean, if_neg fun empty => accepts (Or.inl empty), parse_sha]
  exact siftTwice_ok steps

theorem prepareFile_eq (file : VerifiedFile routines) :
    prepareFile routines shard file = (do
      let state ← (physicalLines file.contents).foldlM
        (prepareLine routines shard file.sha256) startPreparation
      refuseIf (shard.recordAdmission.isSome ∧ text (routines.sha256 state.digested) ≠ file.sha256)
        .bytesDiffer
      refuseIf (state.inputBytes ≠ file.size) .sizeDiffers
      .ok state.toPrepared) := rfl

variable (shard) in
theorem prepareFile_cases (file : VerifiedFile routines) :
    ((RowsRefuse routines shard file ∨
          ∃ row ∈ selected shard file.contents, Refused routines shard file.sha256 row) ∧
        Raises (prepareFile routines shard file)) ∨
      (¬ RowsRefuse routines shard file ∧
        (¬ ∃ row ∈ selected shard file.contents, Refused routines shard file.sha256 row) ∧
        ∃ outcomes : List (Json ⊕ (Json ⊕ (Json × Json))),
          (selected shard file.contents).map (parseSteps routines shard file.sha256) =
            outcomes.map Except.ok ∧
          prepareFile routines shard file =
            .ok ⟨(kept (outcomes.map oneLoop)).map Prod.fst,
              (kept (outcomes.map oneLoop)).map Prod.snd, turnedAway (outcomes.map oneLoop)⟩) := by
  have ran : Prepares routines shard file.sha256 (physicalLines file.contents) startPreparation
      (selected shard file.contents) :=
    prepareLines file.full (fun line member => physicalLines_line member) 1
  rw [prepareFile_eq]
  rcases ran with ⟨stops, failure, raised⟩ | ⟨short, quiet, outcomes, count, steps, ran⟩
  · left
    rw [raised]
    refine ⟨?_, raises_error failure⟩
    rcases stops with long | ⟨row, member, refused | unwritable⟩
    · exact Or.inl (Or.inl long)
    · exact Or.inr ⟨row, member, refused⟩
    · exact Or.inl (Or.inr ⟨row, member, unwritable⟩)
  · right
    refine ⟨?_, ?_, outcomes, steps, ?_⟩
    · rintro (long | ⟨row, member, unwritable⟩)
      · exact short long
      · exact quiet ⟨row, member, Or.inr unwritable⟩
    · rintro ⟨row, member, refused⟩
      exact quiet ⟨row, member, Or.inl refused⟩
    · rw [ran, flatten_physicalLines]
      have digested : ¬ (shard.recordAdmission.isSome ∧
          text (routines.sha256 (recorded (counted startPreparation file.contents count)
            outcomes).digested) ≠ file.sha256) := by
        rintro ⟨-, differ⟩
        exact differ file.sha256_eq.symm
      have sized : ¬ ((recorded (counted startPreparation file.contents count)
          outcomes).inputBytes ≠ file.size) := by
        rw [file.size_eq]
        show ¬ (0 + file.contents.length ≠ file.contents.length)
        omega
      show (refuseIf _ _ >>= fun _ => _) = _
      rw [refuseIf_bind digested, refuseIf_bind sized]
      rfl

theorem shard_preparation (routines : Routines) (shard : Shard) (file : VerifiedFile routines) :
    SameRecords (recordsForFile routines shard file.contents none 1)
        (prepareFile routines shard file) ↔
      (∃ row ∈ selected shard file.contents, Refused routines shard file.sha256 row) ∨
        (WholeRefuses shard file.contents ∧ RowsRefuse routines shard file) ∨
        (¬ WholeRefuses shard file.contents ∧ ¬ RowsRefuse routines shard file ∧
          DecisionsFirst routines shard file.contents) := by
  have wholeRaises := whole_raises shard file
  unfold SameRecords
  rcases prepareFile_cases shard file with
    ⟨stops, failure, raised⟩ | ⟨writes, passes, outcomes, steps, prepared⟩
  · rw [raised]
    cases whole : (recordsForFile routines shard file.contents none 1).2 with
    | error other =>
      rw [whole] at wholeRaises
      have refuses := wholeRaises.mp (raises_error other)
      simp only [true_iff]
      rcases refuses with early | refused
      · rcases stops with late | refused
        · exact Or.inr (Or.inl ⟨early, late⟩)
        · exact Or.inl refused
      · exact Or.inl refused
    | ok rows =>
      rw [whole] at wholeRaises
      have quiet := mt wholeRaises.mpr (not_raises_ok rows)
      simp only [false_iff]
      rintro (refused | ⟨early, -⟩ | ⟨-, writes, -⟩)
      · exact quiet (Or.inr refused)
      · exact quiet (Or.inl early)
      · rcases stops with late | refused
        · exact writes late
        · exact quiet (Or.inr refused)
  · rw [prepared]
    by_cases early : WholeRefuses shard file.contents
    · obtain ⟨failure, raised⟩ := wholeRaises.mpr (Or.inl early)
      rw [raised]
      simp only [false_iff]
      rintro (refused | ⟨-, late⟩ | ⟨accepts, -⟩)
      · exact passes refused
      · exact writes late
      · exact accepts early
    · have whole := whole_ok early passes steps
      rw [whole]
      simp only [Prepared.mk.injEq, kept_oneLoop, true_and]
      rw [rejections_ordered steps]
      constructor
      · intro ordered
        exact Or.inr (Or.inr ⟨early, writes, ordered⟩)
      · rintro (refused | ⟨blank, -⟩ | ⟨-, -, ordered⟩)
        · exact absurd refused passes
        · exact absurd blank early
        · exact ordered

def emptyFileRoutines : Routines where
  unicode := ⟨id, id, fun _ => false, fun _ => false⟩
  sha256 _ := "e3b0c44298fc1c149afbf4c8996fb92427ae41e4649b934ca495991b7852b855"
  encode := id
  decode := some
  loads _ := .error (.malformed "Expecting value")
  canonical _ := .ok []
  digest _ := []
  validate := .ok
  secretOrPrivate _ := false
  urlHost _ := none
  provenance _ := .error (.raised .valueError)

def emptyFile : VerifiedFile emptyFileRoutines where
  contents := []
  sha256 := text (emptyFileRoutines.sha256 [])
  size := 0
  sha256_eq := rfl
  size_eq := List.length_nil.symm
  full := by decide

def webShard : Shard where
  sourceId := text "fineweb"
  schemaVersion := 3
  modality := text "text"
  revision := text "main"
  license := text "ODC-By-1.0"
  sourceSpdxExpression := some (text "ODC-By-1.0")
  domains := [text "web"]
  documentKind := text "prose"
  sourceFamily := text "web"
  textField := text "text"
  maxRows := 10
  qualification := none
  name := text "train/shard.jsonl"
  snapshotId := []
  fileRights := ⟨none, text "allowed", .dict []⟩
  recordAdmission := none
  normalizerVersion := .v1

theorem empty_shard_differs :
    ¬ SameRecords (recordsForFile emptyFileRoutines webShard emptyFile.contents none 1)
      (prepareFile emptyFileRoutines webShard emptyFile) := by
  intro same
  exact same

end

end SparseLab.Corpus.Records
