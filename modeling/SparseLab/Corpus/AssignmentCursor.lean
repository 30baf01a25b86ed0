import SparseLab.Corpus.SplitLookup

/-! The streaming join moves one cursor over the assignments beside the sorted documents. -/

namespace SparseLab.Corpus.SplitJoin

open Library Cleaning Records

section

variable {atMost : Json → Json → Except JoinFailure Bool} {failure : Option JoinFailure}

def taken (entry : Text × Split) : Assignment :=
  { documentId := .str entry.1, split := entry.2 }

theorem assignmentOf_eq_some {value : Json} {entry : Text × Split}
    (found : assignmentOf value = some entry) : value.hasKeys assignmentKeys = true ∧
      value.get (text "document_id") = some (.str entry.1) ∧
        (value.get (text "split")).bind Split.ofJson = some entry.2 := by
  unfold assignmentOf at found
  by_cases exact' : value.hasKeys assignmentKeys = true
  · rw [if_pos exact'] at found
    cases field : value.get (text "document_id") with
    | none =>
      rw [field] at found
      cases found
    | some identifier =>
      rw [field] at found
      cases identifier with
      | str identifier =>
        cases chosen : (value.get (text "split")).bind Split.ofJson with
        | none =>
          rw [chosen] at found
          cases found
        | some split =>
          rw [chosen] at found
          cases found
          exact ⟨exact', rfl, rfl⟩
      | _ => cases found
  · rw [if_neg exact'] at found
    cases found

variable (atMost) in
theorem acceptAssignment_entry {value : Json} {entry : Text × Split} {last : Option Text}
    (found : assignmentOf value = some entry) (less : ∀ identifier ∈ last, identifier < entry.1) :
    acceptAssignment atMost (last.map Json.str) value = .ok (taken entry) := by
  obtain ⟨exact', identifier, split⟩ := assignmentOf_eq_some found
  rw [acceptAssignment, if_pos exact', identifier, split]
  cases last with
  | none => rfl
  | some previous =>
    have early : ¬ entry.1 ≤ previous := not_le.mpr (less previous rfl)
    simp only [Option.map_some, notAfter, early, decide_false]
    rfl

theorem acceptAssignment_ok {values : List Json} {value : Json} (valid : ValidIds values)
    (member : value ∈ values) {last : Option Text} {next : Assignment}
    (accepted : acceptAssignment atMost (last.map Json.str) value = .ok next) :
    ∃ entry, assignmentOf value = some entry ∧ (∀ identifier ∈ last, identifier < entry.1) ∧
      next = taken entry := by
  by_cases exact' : value.hasKeys assignmentKeys = true
  · obtain ⟨identifier, field, -, -⟩ := valid value member exact'
    cases chosen : (value.get (text "split")).bind Split.ofJson with
    | none =>
      rw [acceptAssignment, if_pos exact', field, chosen] at accepted
      cases accepted
    | some split =>
      have found : assignmentOf value = some (identifier, split) := by
        rw [assignmentOf, if_pos exact', field, chosen]
        rfl
      have less : ∀ previous ∈ last, previous < identifier := by
        intro previous here
        by_contra late
        rw [acceptAssignment, if_pos exact', field, chosen, Option.mem_def.mp here] at accepted
        have after : identifier ≤ previous := not_lt.mp late
        simp only [Option.map_some, notAfter, after, decide_true] at accepted
        cases accepted
      refine ⟨(identifier, split), found, less, ?_⟩
      rw [acceptAssignment_entry atMost found less] at accepted
      exact (Except.ok.inj accepted).symm
  · rw [acceptAssignment, if_neg exact'] at accepted
    cases accepted

theorem ValidIds.later {value : Json} {values : List Json} (valid : ValidIds (value :: values)) :
    ValidIds values :=
  fun other inside => valid other (List.mem_cons_of_mem _ inside)

theorem drain_lists {values : List Json} (valid : ValidIds values) {seen count : Nat}
    {last : Option Text}
    (drained : drain atMost failure seen (last.map Json.str) values = .ok count) :
    ∃ entries, Lists values last entries := by
  induction values generalizing seen last with
  | nil => exact ⟨[], lists_nil.mpr rfl⟩
  | cons value values ih =>
    obtain ⟨next, accepted, rest⟩ := bind_eq_ok drained
    obtain ⟨entry, found, less, rfl⟩ := acceptAssignment_ok valid List.mem_cons_self accepted
    have rest : drain atMost failure (seen + 1) ((some entry.1).map Json.str) values =
        .ok count := rest
    obtain ⟨entries, lists⟩ := ih valid.later rest
    exact ⟨entry :: entries, lists_cons.mpr ⟨entry, entries, rfl, found, less, lists⟩⟩

theorem drain_eq {values : List Json} {seen : Nat} {last : Option Text}
    {entries : List (Text × Split)} (lists : Lists values last entries) :
    drain atMost failure seen (last.map Json.str) values =
      match failure with
      | some failure => .error failure
      | none => .ok (seen + entries.length) := by
  induction values generalizing seen last entries with
  | nil =>
    rw [lists_nil.mp lists]
    rfl
  | cons value values ih =>
    obtain ⟨entry, rest, rfl, found, less, later⟩ := lists_cons.mp lists
    have step := acceptAssignment_entry atMost found less
    rw [drain, step]
    have whole := @ih (seen + 1) (some entry.1) rest later
    rw [List.length_cons, ← Nat.add_assoc, Nat.add_right_comm]
    exact whole

end

section

variable {atMost : Json → Json → Except JoinFailure Bool} {failure : Option JoinFailure}

theorem behind_taken (current : Option (Text × Split)) (documentId : Text) :
    behind (current.map taken) documentId =
      .ok (current.all fun entry => entry.1 < documentId) := by
  cases current <;> rfl

def Reads (values : List Json) (last : Option Text) (cursor : Cursor) : Prop :=
  ∃ later, cursor.last = Option.map Json.str later ∧ ValidIds cursor.values ∧
    ∀ rest, Lists cursor.values later rest → ∃ entries, Lists values last entries

theorem advance_reads {values : List Json} (valid : ValidIds values) {documentId : Text}
    {current next : Option Assignment} {seen : Nat} {last : Option Text} {cursor : Cursor}
    (moved : advance atMost failure documentId current seen (last.map Json.str) values =
      .ok (next, cursor)) : Reads values last cursor := by
  induction values generalizing current seen last with
  | nil =>
    obtain ⟨late, passed, rest⟩ := bind_eq_ok moved
    cases late with
    | true => cases rest
    | false =>
      cases rest
      exact ⟨last, rfl, valid, fun rest lists => ⟨rest, lists⟩⟩
  | cons value values ih =>
    obtain ⟨late, passed, rest⟩ := bind_eq_ok moved
    cases late with
    | false =>
      cases rest
      exact ⟨last, rfl, valid, fun rest lists => ⟨rest, lists⟩⟩
    | true =>
      obtain ⟨assignment, accepted, rest⟩ := bind_eq_ok rest
      obtain ⟨entry, found, less, rfl⟩ := acceptAssignment_ok valid List.mem_cons_self accepted
      have rest : advance atMost failure documentId (some (taken entry)) (seen + 1)
          ((some entry.1).map Json.str) values = .ok (next, cursor) := rest
      obtain ⟨later, stands, remaining, reads⟩ := ih valid.later rest
      refine ⟨later, stands, remaining, fun rest lists => ?_⟩
      obtain ⟨entries, lists⟩ := reads rest lists
      exact ⟨entry :: entries, lists_cons.mpr ⟨entry, entries, rfl, found, less, lists⟩⟩

def pending (current : Option (Text × Split)) (entries : List (Text × Split)) :
    List (Text × Split) :=
  current.toList ++ entries

def reached (documentId : Text) (entries : List (Text × Split)) : List (Text × Split) :=
  entries.dropWhile fun entry => entry.1 < documentId

theorem reached_pending {current : Option (Text × Split)} {documentId : Text}
    (late : current.all (fun entry => entry.1 < documentId) = true)
    (entries : List (Text × Split)) :
    reached documentId (pending current entries) = reached documentId entries := by
  cases current with
  | none => rfl
  | some entry =>
    have late : decide (entry.1 < documentId) = true := late
    exact List.dropWhile_cons_of_pos late

theorem reached_current {current : Option (Text × Split)} {documentId : Text}
    (here : current.all (fun entry => entry.1 < documentId) = false)
    (entries : List (Text × Split)) :
    reached documentId (pending current entries) = pending current entries := by
  cases current with
  | none => cases here
  | some entry =>
    have here : ¬ decide (entry.1 < documentId) = true := by simpa using here
    exact List.dropWhile_cons_of_neg here

variable (atMost failure) in
theorem advance_reached {values : List Json} (documentId : Text)
    {current : Option (Text × Split)} {entries : List (Text × Split)}
    (lists : Lists values (current.map Prod.fst) entries) (seen : Nat) :
    match reached documentId (pending current entries) with
    | [] => ∃ failed, advance atMost failure documentId (current.map taken) seen
        ((current.map Prod.fst).map Json.str) values = .error failed
    | entry :: rest => ∃ cursor, advance atMost failure documentId (current.map taken) seen
        ((current.map Prod.fst).map Json.str) values = .ok (some (taken entry), cursor) ∧
          cursor.last = some (.str entry.1) ∧ Lists cursor.values (some entry.1) rest ∧
            cursor.seen + rest.length = seen + entries.length := by
  induction values generalizing current entries seen with
  | nil =>
    have empty := lists_nil.mp lists
    subst empty
    rw [advance, behind_taken]
    cases late : current.all (fun entry => entry.1 < documentId) with
    | true =>
      rw [reached_pending late]
      exact ⟨_, rfl⟩
    | false =>
      rw [reached_current late]
      cases current with
      | none => cases late
      | some entry => exact ⟨_, rfl, rfl, lists, rfl⟩
  | cons value values ih =>
    obtain ⟨entry, rest, rfl, found, less, later⟩ := lists_cons.mp lists
    rw [advance, behind_taken]
    cases late : current.all (fun entry => entry.1 < documentId) with
    | true =>
      rw [reached_pending late]
      have step := acceptAssignment_entry atMost found less
      have onward := @ih (some entry) rest later (seen + 1)
      change match reached documentId (entry :: rest) with
        | [] => _
        | _ :: _ => _ at onward
      cases ahead : reached documentId (entry :: rest) with
      | nil =>
        rw [ahead] at onward
        obtain ⟨failed, moved⟩ := onward
        refine ⟨failed, ?_⟩
        change (acceptAssignment atMost _ value >>= fun next => _) = _
        rw [step]
        exact moved
      | cons head tail =>
        rw [ahead] at onward
        obtain ⟨cursor, moved, last, remaining, counted⟩ := onward
        refine ⟨cursor, ?_, last, remaining, ?_⟩
        · change (acceptAssignment atMost _ value >>= fun next => _) = _
          rw [step]
          exact moved
        · rw [counted, List.length_cons]
          omega
    | false =>
      rw [reached_current late]
      cases current with
      | none => cases late
      | some current => exact ⟨_, rfl, rfl, lists, rfl⟩

end

section

variable {atMost : Json → Json → Except JoinFailure Bool} {failure : Option JoinFailure}

def Reference.withSplit (row : Reference) (split : Option Split) : Reference :=
  { row with split := split }

theorem joinRow_shape {state next : JoinState} {row : Reference}
    (joined : joinRow atMost failure state row = .ok next) :
    state.previous ≠ some row.documentId ∧ next.previous = some row.documentId ∧
      (∃ split, next.rows = state.rows ++ [row.withSplit (some split)] ∧
        next.current = some { documentId := .str row.documentId, split := split }) ∧
      advance atMost failure row.documentId state.current state.cursor.seen state.cursor.last
        state.cursor.values = .ok (next.current, next.cursor) := by
  obtain ⟨fresh, rest⟩ := refuseIf_bind_eq_ok.mp joined
  obtain ⟨⟨current, cursor⟩, moved, rest⟩ := bind_eq_ok rest
  cases current with
  | none => cases rest
  | some assignment =>
    obtain ⟨documentId, split⟩ := assignment
    cases documentId with
    | str identifier =>
      change (if identifier = row.documentId then _ else _) = _ at rest
      by_cases same : identifier = row.documentId
      · rw [if_pos same] at rest
        cases rest
        subst same
        exact ⟨fresh, rfl, ⟨split, rfl, rfl⟩, moved⟩
      · rw [if_neg same] at rest
        cases rest
    | _ => cases rest

theorem splitIn_reached {documentId low : Text} (ordered : low ≤ documentId)
    (entries : List (Text × Split)) :
    splitIn (reached low entries) documentId = splitIn entries documentId := by
  induction entries with
  | nil => rfl
  | cons entry entries ih =>
    unfold reached splitIn at *
    by_cases behind : entry.1 < low
    · have apart : entry.1 ≠ documentId := ne_of_lt (lt_of_lt_of_le behind ordered)
      rw [List.dropWhile_cons_of_pos (by simpa using behind), ih,
        List.find?_cons_of_neg (by simpa using apart)]
    · rw [List.dropWhile_cons_of_neg (by simpa using behind)]

theorem splitIn_head {documentId : Text} {entries rest : List (Text × Split)}
    {entry : Text × Split} (head : reached documentId entries = entry :: rest)
    (same : entry.1 = documentId) : splitIn entries documentId = some entry.2 := by
  rw [← splitIn_reached (le_refl documentId), head, splitIn,
    List.find?_cons_of_pos (by simpa using same)]
  rfl

theorem head_of_splitIn {documentId : Text} {entries : List (Text × Split)} {split : Split}
    (ordered : (entries.map Prod.fst).Pairwise (· < ·))
    (found : splitIn entries documentId = some split) :
    ∃ rest, reached documentId entries = (documentId, split) :: rest := by
  induction entries with
  | nil => cases found
  | cons entry entries ih =>
    rw [List.map_cons, List.pairwise_cons] at ordered
    unfold reached
    by_cases behind : entry.1 < documentId
    · rw [List.dropWhile_cons_of_pos (by simpa using behind)]
      apply ih ordered.2
      rwa [splitIn, List.find?_cons_of_neg (by simpa using ne_of_lt behind)] at found
    · rw [List.dropWhile_cons_of_neg (by simpa using behind)]
      by_cases same : entry.1 = documentId
      · rw [splitIn, List.find?_cons_of_pos (by simpa using same)] at found
        refine ⟨entries, ?_⟩
        rw [← same, ← Option.some.inj found]
      · rw [splitIn, List.find?_cons_of_neg (by simpa using same)] at found
        have inside : documentId ∈ entries.map Prod.fst := by
          by_contra absent
          have missing : splitIn entries documentId = none := splitIn_none.mpr absent
          rw [splitIn, found] at missing
          cases missing
        exact absurd (ordered.1 documentId inside) behind

/-- The state of the join in front of these assignments, of `total` in the file. -/
def Stands (state : JoinState) (entries : List (Text × Split)) (total : Nat) : Prop :=
  ∃ current later, entries = pending current later ∧ state.current = Option.map taken current ∧
    state.cursor.last = (current.map Prod.fst).map Json.str ∧
      Lists state.cursor.values (current.map Prod.fst) later ∧
        state.cursor.seen + later.length = total

theorem Stands.ordered {state : JoinState} {entries : List (Text × Split)} {total : Nat}
    (stands : Stands state entries total) : (entries.map Prod.fst).Pairwise (· < ·) := by
  obtain ⟨current, later, rfl, -, -, lists, -⟩ := stands
  have chain := List.isChain_iff_pairwise.mp lists.2
  cases current <;> exact chain

theorem joinRow_splitIn {state next : JoinState} {entries : List (Text × Split)} {total : Nat}
    {row : Reference} (stands : Stands state entries total)
    (joined : joinRow atMost failure state row = .ok next) :
    ∃ split, splitIn entries row.documentId = some split ∧
      next.rows = state.rows ++ [row.withSplit (some split)] ∧
        Stands next (reached row.documentId entries) total := by
  obtain ⟨-, -, ⟨split, rows, named⟩, moved⟩ := joinRow_shape joined
  obtain ⟨current, later, rfl, here, last, lists, counted⟩ := stands
  have onward := advance_reached atMost failure row.documentId lists state.cursor.seen
  rw [here, last] at moved
  cases ahead : reached row.documentId (pending current later) with
  | nil =>
    rw [ahead] at onward
    obtain ⟨failed, stopped⟩ := onward
    rw [stopped] at moved
    cases moved
  | cons entry rest =>
    rw [ahead] at onward
    obtain ⟨cursor, passed, behind, remaining, seen⟩ := onward
    rw [passed] at moved
    injection moved with both
    injection both with first second
    rw [named] at first
    have identifier : entry.1 = row.documentId := by
      injection Option.some.inj first with identifier
      injection identifier
    have chosen : entry.2 = split := by
      injection Option.some.inj first
    refine ⟨split, ?_, rows, some entry, rest, rfl, ?_, ?_, ?_, ?_⟩
    · rw [splitIn_head ahead identifier, chosen]
    · rw [named, ← first]
      rfl
    · rw [← second]
      exact behind
    · rw [← second]
      exact remaining
    · rw [← second, seen, counted]

variable (atMost failure) in
theorem joinRow_found {state : JoinState} {entries : List (Text × Split)} {total : Nat}
    {row : Reference} (stands : Stands state entries total)
    (fresh : state.previous ≠ some row.documentId)
    (found : (splitIn entries row.documentId).isSome) :
    ∃ next, joinRow atMost failure state row = .ok next := by
  obtain ⟨split, found⟩ := Option.isSome_iff_exists.mp found
  obtain ⟨rest, ahead⟩ := head_of_splitIn stands.ordered found
  obtain ⟨current, later, rfl, here, last, lists, counted⟩ := stands
  have onward := advance_reached atMost failure row.documentId lists state.cursor.seen
  rw [ahead] at onward
  obtain ⟨cursor, moved, -⟩ := onward
  let next : JoinState :=
    { rows := state.rows ++ [row.withSplit (some split)]
      previous := some row.documentId
      current := some (taken (row.documentId, split))
      cursor := cursor
      families := addFamily state.families row.sourceFamily split
      ids := state.ids ++ row.documentId }
  refine ⟨next, ?_⟩
  rw [joinRow, refuseIf_bind fresh, here, last, moved]
  exact if_pos rfl

end

section

variable {atMost : Json → Json → Except JoinFailure Bool} {failure : Option JoinFailure}

theorem joinRows_shape {rows : List Reference} {state final : JoinState}
    (sorted : (state.previous.toList ++ rows.map Reference.documentId).Pairwise (· ≤ ·))
    (joined : rows.foldlM (joinRow atMost failure) state = .ok final) :
    (state.previous.toList ++ rows.map Reference.documentId).Pairwise (· < ·) ∧
      ∃ later, final.rows = state.rows ++ later ∧
        List.Forall₂ (fun row bound => ∃ split, bound = row.withSplit (some split)) rows later := by
  induction rows generalizing state with
  | nil =>
    cases joined
    refine ⟨?_, [], (List.append_nil _).symm, List.Forall₂.nil⟩
    cases final.previous with
    | none => exact List.Pairwise.nil
    | some previous => exact List.pairwise_singleton _ _
  | cons row rows ih =>
    obtain ⟨next, step, rest⟩ := bind_eq_ok joined
    obtain ⟨fresh, previous, ⟨split, added, -⟩, -⟩ := joinRow_shape step
    have onward : (next.previous.toList ++ rows.map Reference.documentId).Pairwise (· ≤ ·) := by
      rw [previous]
      exact (List.pairwise_append.mp sorted).2.1
    obtain ⟨strict, later, whole, each⟩ := ih onward rest
    rw [previous] at strict
    have strict : (row.documentId :: rows.map Reference.documentId).Pairwise (· < ·) := strict
    refine ⟨?_, row.withSplit (some split) :: later, ?_, List.Forall₂.cons ⟨split, rfl⟩ each⟩
    · cases earlier : state.previous with
      | none => exact strict
      | some earlierId =>
        rw [earlier] at sorted fresh
        have below : earlierId < row.documentId := by
          apply lt_of_le_of_ne
          · exact (List.pairwise_cons.mp sorted).1 _ List.mem_cons_self
          · exact fun same => fresh (congrArg some same)
        refine List.Pairwise.cons ?_ strict
        intro documentId member
        rcases List.mem_cons.mp member with rfl | inside
        · exact below
        · exact lt_trans below ((List.pairwise_cons.mp strict).1 _ inside)
    · rw [whole, added, List.append_assoc]
      rfl

theorem joinRows_reads {rows : List Reference} {state final : JoinState} {last : Option Text}
    (valid : ValidIds state.cursor.values) (stands : state.cursor.last = last.map Json.str)
    (joined : rows.foldlM (joinRow atMost failure) state = .ok final) :
    Reads state.cursor.values last final.cursor := by
  induction rows generalizing state last with
  | nil =>
    cases joined
    exact ⟨last, stands, valid, fun rest lists => ⟨rest, lists⟩⟩
  | cons row rows ih =>
    obtain ⟨next, step, rest⟩ := bind_eq_ok joined
    obtain ⟨-, -, -, moved⟩ := joinRow_shape step
    rw [stands] at moved
    obtain ⟨middle, reached, remaining, before⟩ := advance_reads valid moved
    obtain ⟨later, final', unread, after⟩ := ih remaining reached rest
    refine ⟨later, final', unread, fun rest lists => ?_⟩
    obtain ⟨entries, lists⟩ := after rest lists
    exact before entries lists

theorem joinRows_splits {rows : List Reference} {state final : JoinState}
    {entries : List (Text × Split)} {total : Nat} (stands : Stands state entries total)
    (ordered : (rows.map Reference.documentId).Pairwise (· ≤ ·))
    (joined : rows.foldlM (joinRow atMost failure) state = .ok final) :
    (∀ row ∈ rows, (splitIn entries row.documentId).isSome) ∧
      final.rows = state.rows ++
        rows.map (fun row => row.withSplit (splitIn entries row.documentId)) ∧
      ∃ remaining, Stands final remaining total := by
  induction rows generalizing state entries with
  | nil =>
    cases joined
    refine ⟨?_, (List.append_nil _).symm, entries, stands⟩
    intro row member
    cases member
  | cons row rows ih =>
    obtain ⟨next, step, rest⟩ := bind_eq_ok joined
    obtain ⟨split, found, added, onward⟩ := joinRow_splitIn stands step
    rw [List.map_cons, List.pairwise_cons] at ordered
    obtain ⟨later, whole, remaining⟩ := ih onward ordered.2 rest
    have same : ∀ other ∈ rows, splitIn (reached row.documentId entries) other.documentId =
        splitIn entries other.documentId := fun other member =>
      splitIn_reached (ordered.1 _ (List.mem_map_of_mem member)) entries
    refine ⟨?_, ?_, remaining⟩
    · intro other member
      rcases List.mem_cons.mp member with rfl | inside
      · rw [found]
        rfl
      · rw [← same other inside]
        exact later other inside
    · have bound : rows.map (fun other => other.withSplit
            (splitIn (reached row.documentId entries) other.documentId)) =
          rows.map fun other => other.withSplit (splitIn entries other.documentId) := by
        apply List.map_congr_left
        intro other member
        rw [same other member]
      rw [whole, added, List.append_assoc, List.map_cons, found, bound]
      rfl

variable (atMost failure) in
theorem joinRows_found {rows : List Reference} {state : JoinState} {entries : List (Text × Split)}
    {total : Nat} (stands : Stands state entries total)
    (ordered : (state.previous.toList ++ rows.map Reference.documentId).Pairwise (· < ·))
    (found : ∀ row ∈ rows, (splitIn entries row.documentId).isSome) :
    ∃ final, rows.foldlM (joinRow atMost failure) state = .ok final := by
  induction rows generalizing state entries with
  | nil => exact ⟨state, rfl⟩
  | cons row rows ih =>
    have fresh : state.previous ≠ some row.documentId := by
      intro same
      rw [same] at ordered
      exact lt_irrefl _ ((List.pairwise_cons.mp ordered).1 _ List.mem_cons_self)
    obtain ⟨next, step⟩ := joinRow_found atMost failure stands fresh
      (found row List.mem_cons_self)
    obtain ⟨split, -, -, onward⟩ := joinRow_splitIn stands step
    obtain ⟨-, previous, -, -⟩ := joinRow_shape step
    have later : (row.documentId :: rows.map Reference.documentId).Pairwise (· < ·) :=
      (List.pairwise_append.mp ordered).2.1
    have strict : (next.previous.toList ++ rows.map Reference.documentId).Pairwise (· < ·) := by
      rw [previous]
      exact later
    obtain ⟨final, rest⟩ := ih onward strict fun other member => by
      have above := (List.pairwise_cons.mp later).1 _ (List.mem_map_of_mem member)
      rw [splitIn_reached (le_of_lt above)]
      exact found other (List.mem_cons_of_mem _ member)
    refine ⟨final, ?_⟩
    rw [List.foldlM_cons, step]
    exact rest

end

section

variable {atMost : Json → Json → Except JoinFailure Bool} {assignments : Reading}
  {expectedRows : Nat} {rows : List Reference} {assigned : Assigned}

theorem assign_eq_ok (joined : assign atMost assignments expectedRows rows = .ok assigned) :
    ∃ state seen, rows.foldlM (joinRow atMost (assignments.failure.map JoinFailure.reading))
        { rows := [], previous := none, current := none
          cursor := { values := assignments.values, seen := 0, last := none }
          families := [], ids := [] } = .ok state ∧
      drain atMost (assignments.failure.map JoinFailure.reading) state.cursor.seen state.cursor.last state.cursor.values =
        .ok seen ∧ seen = expectedRows ∧ assigned.rows = state.rows := by
  obtain ⟨state, steps, rest⟩ := bind_eq_ok joined
  obtain ⟨seen, drained, rest⟩ := bind_eq_ok rest
  obtain ⟨counted, same⟩ := refuseIf_bind_eq_ok.mp rest
  exact ⟨state, seen, steps, drained, not_not.mp counted, by rw [← Except.ok.inj same]⟩

theorem assign_shape (sorted : (rows.map Reference.documentId).Pairwise (· ≤ ·))
    (joined : assign atMost assignments expectedRows rows = .ok assigned) :
    (rows.map Reference.documentId).Pairwise (· < ·) ∧
      List.Forall₂ (fun row bound => ∃ split, bound = row.withSplit (some split)) rows
        assigned.rows := by
  obtain ⟨state, -, steps, -, -, whole⟩ := assign_eq_ok joined
  obtain ⟨strict, later, added, each⟩ := joinRows_shape (by exact sorted) steps
  refine ⟨strict, ?_⟩
  rw [whole, added]
  exact each

theorem assign_lists (valid : ValidIds assignments.values)
    (joined : assign atMost assignments expectedRows rows = .ok assigned) :
    ∃ entries, Lists assignments.values none entries := by
  obtain ⟨state, seen, steps, drained, -, -⟩ := assign_eq_ok joined
  have start : (none : Option Json) = (none : Option Text).map Json.str := rfl
  obtain ⟨later, last, unread, reads⟩ := joinRows_reads valid start steps
  rw [last] at drained
  obtain ⟨rest, lists⟩ := drain_lists unread drained
  exact reads rest lists

theorem stands_start {entries : List (Text × Split)}
    (lists : Lists assignments.values none entries) :
    Stands
      { rows := [], previous := none, current := none
        cursor := { values := assignments.values, seen := 0, last := none }
        families := [], ids := [] } entries entries.length :=
  ⟨none, entries, rfl, rfl, rfl, lists, Nat.zero_add _⟩

theorem Stands.drain {state : JoinState} {entries : List (Text × Split)} {total : Nat}
    (stands : Stands state entries total) :
    drain atMost (assignments.failure.map JoinFailure.reading) state.cursor.seen state.cursor.last state.cursor.values =
      match assignments.failure with
      | some failure => .error (.reading failure)
      | none => .ok total := by
  obtain ⟨current, later, -, -, last, lists, counted⟩ := stands
  rw [last, drain_eq lists, counted]
  cases assignments.failure <;> rfl

theorem assign_splits {entries : List (Text × Split)}
    (sorted : (rows.map Reference.documentId).Pairwise (· ≤ ·))
    (lists : Lists assignments.values none entries)
    (joined : assign atMost assignments expectedRows rows = .ok assigned) :
    assignments.failure = none ∧ entries.length = expectedRows ∧
      (∀ row ∈ rows, (splitIn entries row.documentId).isSome) ∧
        assigned.rows = rows.map fun row => row.withSplit (splitIn entries row.documentId) := by
  obtain ⟨state, seen, steps, drained, counted, whole⟩ := assign_eq_ok joined
  obtain ⟨found, added, remaining, stands⟩ := joinRows_splits (stands_start lists) sorted steps
  rw [stands.drain] at drained
  cases complete : assignments.failure with
  | some failure =>
    rw [complete] at drained
    cases drained
  | none =>
    rw [complete] at drained
    refine ⟨rfl, ?_, found, ?_⟩
    · rw [← counted]
      exact Except.ok.inj drained
    · rw [whole, added]
      rfl

variable (atMost) in
theorem assign_found {entries : List (Text × Split)}
    (ordered : (rows.map Reference.documentId).Pairwise (· < ·))
    (lists : Lists assignments.values none entries) (complete : assignments.failure = none)
    (counted : entries.length = expectedRows)
    (found : ∀ row ∈ rows, (splitIn entries row.documentId).isSome) :
    ∃ assigned, assign atMost assignments expectedRows rows = .ok assigned := by
  have start := stands_start lists
  obtain ⟨state, steps⟩ := joinRows_found atMost (assignments.failure.map JoinFailure.reading) start
    (by exact ordered) found
  obtain ⟨-, -, remaining, stands⟩ := joinRows_splits start
    (ordered.imp fun less => le_of_lt less) steps
  have drained : drain atMost (assignments.failure.map JoinFailure.reading) state.cursor.seen state.cursor.last
      state.cursor.values = .ok entries.length := by
    rw [stands.drain, complete]
  refine ⟨{ rows := state.rows, ids := state.ids, documents := state.rows.length
            familySplits := familySplits state.families }, ?_⟩
  rw [assign, steps]
  change (drain atMost (assignments.failure.map JoinFailure.reading) _ _ _ >>= fun seen => _) = _
  rw [drained]
  exact refuseIf_bind (not_not.mpr counted)

end

end SparseLab.Corpus.SplitJoin
