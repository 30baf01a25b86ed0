import SparseLab.Corpus.SplitAssignments
import SparseLab.Library.Excerpts

/-! The lookup of frozen assignments finds the split of every identifier it was built from. -/

namespace SparseLab.Corpus.SplitJoin

open Library Cleaning Records

section

def assignmentOf (value : Json) : Option (Text × Split) :=
  if value.hasKeys assignmentKeys then
    match (value.get (text "document_id")).bind Json.str?,
        (value.get (text "split")).bind Split.ofJson with
    | some identifier, some split => some (identifier, split)
    | _, _ => none
  else none

def ValidIds (values : List Json) : Prop :=
  ∀ value ∈ values, value.hasKeys assignmentKeys = true →
    ∃ identifier, value.get (text "document_id") = some (.str identifier) ∧ identifier ≠ [] ∧
      encodable identifier = true

def Lists (values : List Json) (last : Option Text) (entries : List (Text × Split)) : Prop :=
  values.map assignmentOf = entries.map some ∧
    (last.toList ++ entries.map Prod.fst).IsChain (· < ·)

theorem lists_nil {last : Option Text} {entries : List (Text × Split)} :
    Lists [] last entries ↔ entries = [] := by
  constructor
  · rintro ⟨same, -⟩
    simpa using same.symm
  · rintro rfl
    refine ⟨rfl, ?_⟩
    cases last with
    | none => exact List.isChain_nil
    | some identifier => exact List.isChain_singleton identifier

theorem lists_cons {value : Json} {values : List Json} {last : Option Text}
    {entries : List (Text × Split)} :
    Lists (value :: values) last entries ↔ ∃ entry rest, entries = entry :: rest ∧
      assignmentOf value = some entry ∧ (∀ identifier ∈ last, identifier < entry.1) ∧
        Lists values (some entry.1) rest := by
  constructor
  · rintro ⟨same, chain⟩
    cases entries with
    | nil => cases same
    | cons entry rest =>
      rw [List.map_cons, List.map_cons] at same
      injection same with first later
      refine ⟨entry, rest, rfl, first, ?_, later, ?_⟩
      · intro identifier inside
        rw [Option.mem_def.mp inside] at chain
        exact (List.isChain_cons_cons.mp chain).1
      · cases last with
        | none => exact chain
        | some identifier => exact (List.isChain_cons_cons.mp chain).2
  · rintro ⟨entry, rest, rfl, first, less, later, chain⟩
    refine ⟨by rw [List.map_cons, List.map_cons, first, later], ?_⟩
    cases last with
    | none => exact chain
    | some identifier => exact List.isChain_cons_cons.mpr ⟨less identifier rfl, chain⟩

theorem Lists.ordered {values : List Json} {entries : List (Text × Split)}
    (lists : Lists values none entries) : (entries.map Prod.fst).Pairwise (· < ·) :=
  List.isChain_iff_pairwise.mp lists.2

def splitIn (entries : List (Text × Split)) (documentId : Text) : Option Split :=
  (entries.find? fun entry => entry.1 = documentId).map Prod.snd

end

section

def LookupBuilder.add (state : LookupBuilder) (entry : Text × Split) : LookupBuilder :=
  { keys := state.keys ++ utf8 entry.1
    offsets := state.offsets ++ [state.position]
    splits := state.splits ++ [Split.all.idxOf entry.2]
    count := state.count + 1
    previous := some entry.1
    position := state.position + (utf8 entry.1).length }

theorem addAssignment_ok {state next : LookupBuilder} {value : Json} {values : List Json}
    (valid : ValidIds values) (member : value ∈ values) :
    addAssignment state value = .ok next ↔ ∃ entry, assignmentOf value = some entry ∧
      (∀ identifier ∈ state.previous, identifier < entry.1) ∧ next = state.add entry := by
  unfold addAssignment assignmentOf
  by_cases exact' : value.hasKeys assignmentKeys = true
  · obtain ⟨identifier, found, nonempty, written⟩ := valid value member exact'
    rw [if_pos exact', if_pos exact', found]
    cases chosen : (value.get (text "split")).bind Split.ofJson with
    | none => simp [Json.str?]
    | some split =>
      simp only [Option.bind_some, Json.str?]
      have ordered : (state.previous.any fun previous => decide (identifier ≤ previous)) = true ↔
          ¬ ∀ previous ∈ state.previous, previous < identifier := by
        cases state.previous with
        | none => simp
        | some previous => simp
      by_cases unordered : identifier = [] ∨
          (state.previous.any fun previous => decide (identifier ≤ previous)) = true
      · rw [refuseIf_raises unordered]
        have late : ¬ ∀ previous ∈ state.previous, previous < identifier :=
          ordered.mp (unordered.resolve_left nonempty)
        constructor
        · intro raised
          cases raised
        · rintro ⟨entry, same, early, -⟩
          cases same
          exact absurd early late
      · rw [refuseIf_bind unordered, refuseIf_bind (by simp [written])]
        have early : ∀ previous ∈ state.previous, previous < identifier := by
          by_contra late
          exact unordered (Or.inr (ordered.mpr late))
        constructor
        · intro same
          exact ⟨(identifier, split), rfl, early, (Except.ok.inj same).symm⟩
        · rintro ⟨entry, same, -, rfl⟩
          cases same
          rfl
  · rw [if_neg exact', if_neg exact']
    simp

theorem addAssignments_ok {values : List Json} (valid : ValidIds values)
    {state next : LookupBuilder} : values.foldlM addAssignment state = .ok next ↔
      ∃ entries, Lists values state.previous entries ∧
        next = entries.foldl LookupBuilder.add state := by
  induction values generalizing state with
  | nil =>
    constructor
    · intro same
      exact ⟨[], lists_nil.mpr rfl, (Except.ok.inj same).symm⟩
    · rintro ⟨entries, lists, rfl⟩
      rw [lists_nil.mp lists]
      rfl
  | cons value values ih =>
    have later : ValidIds values := fun other inside => valid other (List.mem_cons_of_mem _ inside)
    rw [List.foldlM_cons]
    constructor
    · intro same
      obtain ⟨middle, step, rest⟩ := bind_eq_ok same
      obtain ⟨entry, found, less, rfl⟩ := (addAssignment_ok valid List.mem_cons_self).mp step
      obtain ⟨entries, lists, rfl⟩ := (ih later).mp rest
      exact ⟨entry :: entries, lists_cons.mpr ⟨entry, entries, rfl, found, less, lists⟩, rfl⟩
    · rintro ⟨entries, lists, rfl⟩
      obtain ⟨entry, rest, rfl, found, less, lists⟩ := lists_cons.mp lists
      have step := (addAssignment_ok valid List.mem_cons_self).mpr ⟨entry, found, less, rfl⟩
      rw [step]
      exact (ih later).mpr ⟨rest, lists, rfl⟩

def entryKeys (entries : List (Text × Split)) : List Bytes :=
  entries.map fun entry => utf8 entry.1

def entryOffsets (entries : List (Text × Split)) (count : Nat) : List Nat :=
  (List.range count).map fun index => ((entryKeys entries).take index).flatten.length

def indexOf (entries : List (Text × Split)) : AssignmentLookup where
  keys := (entryKeys entries).flatten
  offsets := entryOffsets entries (entries.length + 1)
  splits := entries.map fun entry => Split.all.idxOf entry.2
  count := entries.length

structure Indexed (entries : List (Text × Split)) (state : LookupBuilder) : Prop where
  keys : state.keys = (entryKeys entries).flatten
  offsets : state.offsets = entryOffsets entries entries.length
  splits : state.splits = entries.map fun entry => Split.all.idxOf entry.2
  count : state.count = entries.length
  position : state.position = (entryKeys entries).flatten.length

theorem entryOffsets_append (entries later : List (Text × Split)) {count : Nat}
    (within : count ≤ entries.length + 1) :
    entryOffsets (entries ++ later) count = entryOffsets entries count := by
  apply List.map_congr_left
  intro index member
  have low : index < count := List.mem_range.mp member
  rw [entryKeys, List.map_append, List.take_append_of_le_length, entryKeys]
  rw [List.length_map]
  omega

theorem entryOffsets_succ (entries : List (Text × Split)) :
    entryOffsets entries (entries.length + 1) =
      entryOffsets entries entries.length ++ [(entryKeys entries).flatten.length] := by
  have all : (entryKeys entries).take entries.length = entryKeys entries := by
    apply List.take_of_length_le
    simp [entryKeys]
  rw [entryOffsets, List.range_succ, List.map_append, List.map_singleton, all, entryOffsets]

theorem Indexed.add {entries : List (Text × Split)} {state : LookupBuilder}
    (written : Indexed entries state) (entry : Text × Split) :
    Indexed (entries ++ [entry]) (state.add entry) := by
  have keys : (entryKeys (entries ++ [entry])).flatten =
      (entryKeys entries).flatten ++ utf8 entry.1 := by
    simp [entryKeys]
  constructor
  · rw [keys, ← written.keys]
    rfl
  · rw [List.length_append, List.length_singleton, entryOffsets_append _ _ (Nat.le_refl _),
      entryOffsets_succ, ← written.offsets, ← written.position]
    rfl
  · rw [List.map_append, ← written.splits]
    rfl
  · rw [List.length_append, ← written.count]
    rfl
  · rw [keys, List.length_append, ← written.position]
    rfl

theorem Indexed.foldl {entries later : List (Text × Split)} {state : LookupBuilder}
    (written : Indexed entries state) :
    Indexed (entries ++ later) (later.foldl LookupBuilder.add state) := by
  induction later generalizing entries state with
  | nil =>
    rw [List.append_nil]
    exact written
  | cons entry later ih =>
    rw [List.append_cons]
    exact ih (written.add entry)

theorem indexed_start : Indexed [] startLookup :=
  ⟨rfl, rfl, rfl, rfl, rfl⟩

theorem Indexed.finish {entries : List (Text × Split)} {state : LookupBuilder}
    (written : Indexed entries state) :
    { state.toAssignmentLookup with offsets := state.offsets ++ [state.position] } =
      indexOf entries := by
  rw [indexOf, entryOffsets_succ, ← written.offsets, ← written.position, ← written.keys,
    ← written.splits, ← written.count]

theorem create_ok {assignments : Reading} (valid : ValidIds assignments.values) {rows : Nat}
    {lookup : AssignmentLookup} : AssignmentLookup.create assignments rows = .ok lookup ↔
      ∃ entries, Lists assignments.values none entries ∧ assignments.failure = none ∧
        entries.length = rows ∧ lookup = indexOf entries := by
  constructor
  · intro same
    obtain ⟨state, steps, rest⟩ := bind_eq_ok same
    obtain ⟨entries, lists, rfl⟩ := (addAssignments_ok valid).mp steps
    have written : Indexed entries (entries.foldl LookupBuilder.add startLookup) :=
      indexed_start.foldl
    cases failure : assignments.failure with
    | some failure =>
      rw [failure] at rest
      cases rest
    | none =>
      rw [failure] at rest
      obtain ⟨counted, same⟩ := refuseIf_bind_eq_ok.mp rest
      refine ⟨entries, lists, rfl, ?_, ?_⟩
      · rw [← written.count]
        exact not_not.mp counted
      · rw [← written.finish]
        exact (Except.ok.inj same).symm
  · rintro ⟨entries, lists, complete, counted, rfl⟩
    have written : Indexed entries (entries.foldl LookupBuilder.add startLookup) :=
      indexed_start.foldl
    have steps : assignments.values.foldlM addAssignment startLookup = .ok _ :=
      (addAssignments_ok valid).mpr ⟨entries, lists, rfl⟩
    rw [AssignmentLookup.create, steps, complete]
    refine refuseIf_bind_eq_ok.mpr ⟨?_, congrArg Except.ok written.finish⟩
    rw [written.count]
    exact not_not.mpr counted

theorem addAssignment_valid {state next : LookupBuilder} {value : Json}
    (added : addAssignment state value = .ok next) :
    ∃ identifier, value.get (text "document_id") = some (.str identifier) ∧ identifier ≠ [] ∧
      encodable identifier = true := by
  unfold addAssignment at added
  split at added
  · cases field : value.get (text "document_id") with
    | none =>
      rw [field] at added
      cases added
    | some identifier =>
      rw [field] at added
      cases identifier with
      | str identifier =>
        cases chosen : (value.get (text "split")).bind Split.ofJson with
        | none =>
          rw [chosen] at added
          cases added
        | some split =>
          rw [chosen] at added
          obtain ⟨ordered, rest⟩ := refuseIf_bind_eq_ok.mp added
          obtain ⟨written, -⟩ := refuseIf_bind_eq_ok.mp rest
          exact ⟨identifier, rfl, fun empty => ordered (Or.inl empty), by simpa using written⟩
      | _ => cases added
  · cases added

theorem create_valid {assignments : Reading} {rows : Nat} {lookup : AssignmentLookup}
    (created : AssignmentLookup.create assignments rows = .ok lookup) :
    ValidIds assignments.values := by
  obtain ⟨state, steps, -⟩ := bind_eq_ok created
  have each : ∀ (values : List Json) (state next : LookupBuilder),
      values.foldlM addAssignment state = .ok next → ValidIds values := by
    intro values
    induction values with
    | nil =>
      intro state next _ value member
      cases member
    | cons first values ih =>
      intro state next steps value member _
      obtain ⟨middle, step, rest⟩ := bind_eq_ok steps
      rcases List.mem_cons.mp member with rfl | later
      · exact addAssignment_valid step
      · exact ih middle next rest value later ‹_›
  exact each _ _ _ steps

end

section

theorem key_indexOf {entries : List (Text × Split)} {entry : Text × Split} {index : Nat}
    (here : entries[index]? = some entry) : (indexOf entries).key index = utf8 entry.1 := by
  have inside : index < entries.length := (List.getElem?_eq_some_iff.mp here).1
  have offset : ∀ place, place ≤ entries.length → (indexOf entries).offsets.getD place 0 =
      ((entryKeys entries).take place).flatten.length := by
    intro place within
    have found : (List.range (entries.length + 1))[place]? = some place := by
      rw [List.getElem?_range (by omega)]
    rw [indexOf, entryOffsets, List.getD_eq_getElem?_getD, List.getElem?_map, found]
    rfl
  have found : (entryKeys entries)[index]? = some (utf8 entry.1) := by
    rw [entryKeys, List.getElem?_map, here]
    rfl
  rw [AssignmentLookup.key, offset index (by omega), offset (index + 1) (by omega)]
  exact slice_flatten found

theorem splitIn_some {entries : List (Text × Split)}
    (ordered : (entries.map Prod.fst).Pairwise (· < ·)) {entry : Text × Split}
    (member : entry ∈ entries) : splitIn entries entry.1 = some entry.2 := by
  unfold splitIn
  induction entries with
  | nil => cases member
  | cons first entries ih =>
    rw [List.map_cons, List.pairwise_cons] at ordered
    rcases List.mem_cons.mp member with rfl | later
    · rw [List.find?_cons_of_pos (by simp)]
      rfl
    · have less := ordered.1 entry.1 (List.mem_map_of_mem later)
      rw [List.find?_cons_of_neg (by simpa using ne_of_lt less)]
      exact ih ordered.2 later

theorem splitIn_none {entries : List (Text × Split)} {documentId : Text} :
    splitIn entries documentId = none ↔ documentId ∉ entries.map Prod.fst := by
  unfold splitIn
  rw [Option.map_eq_none_iff, List.find?_eq_none]
  constructor
  · intro apart member
    obtain ⟨entry, inside, same⟩ := List.mem_map.mp member
    exact apart entry inside (by simpa using same)
  · intro absent entry inside
    have apart : entry.1 ≠ documentId := fun same =>
      absent (same ▸ List.mem_map_of_mem inside)
    simpa using apart

theorem getItem_indexOf {entries : List (Text × Split)}
    (ordered : (entries.map Prod.fst).Pairwise (· < ·)) {key : Text}
    (written : encodable key = true) : (indexOf entries).getItem key =
      match splitIn entries key with
      | some split => .ok split
      | none => .error .absent := by
  let cut := keysBelow (entries.map Prod.fst) key
  have within : cut ≤ entries.length := by
    simpa using keysBelow_le (entries.map Prod.fst) key
  have searched : bisect (fun index => (indexOf entries).key index < utf8 key) 0
      (indexOf entries).count = cut := by
    apply bisect_eq
    · intro index _ inside
      have inside : index < entries.length := inside
      have here : entries[index]? = some entries[index] := List.getElem?_eq_getElem inside
      have listed : (entries.map Prod.fst)[index]? = some entries[index].1 := by
        rw [List.getElem?_map, here]
        rfl
      rw [decide_eq_true_iff, key_indexOf here, utf8_lt_iff, below_iff ordered listed]
    · exact Nat.zero_le cut
    · exact within
  rw [AssignmentLookup.getItem, refuseIf_bind (by simp [written]), searched]
  dsimp only
  cases found : entries[cut]? with
  | none =>
    have past : cut = (indexOf entries).count := by
      change cut = entries.length
      have past := List.getElem?_eq_none_iff.mp found
      omega
    have missing : splitIn entries key = none := by
      rw [splitIn_none]
      intro member
      have here := (key_at_cut ordered).mpr member
      have here : (entries.map Prod.fst)[cut]? = some key := here
      rw [List.getElem?_map, found] at here
      cases here
    rw [if_pos (Or.inl past), missing]
  | some entry =>
    have inside : cut < entries.length := (List.getElem?_eq_some_iff.mp found).1
    have listed : (entries.map Prod.fst)[cut]? = some entry.1 := by
      rw [List.getElem?_map, found]
      rfl
    by_cases same : entry.1 = key
    · have here : ¬ (cut = (indexOf entries).count ∨ (indexOf entries).key cut ≠ utf8 key) := by
        rw [key_indexOf found, same]
        simp only [ne_eq, not_true_eq_false, or_false]
        exact ne_of_lt inside
      have place : (indexOf entries).splits.getD cut 0 = Split.all.idxOf entry.2 := by
        rw [indexOf, List.getD_eq_getElem?_getD, List.getElem?_map, found]
        rfl
      have listed : Split.all[Split.all.idxOf entry.2]? = some entry.2 := by
        cases entry.2 <;> rfl
      rw [if_neg here, place, listed, ← same,
        splitIn_some ordered (List.mem_of_getElem? found)]
    · have missing : splitIn entries key = none := by
        rw [splitIn_none]
        intro member
        have here : (entries.map Prod.fst)[cut]? = some key := (key_at_cut ordered).mpr member
        rw [listed] at here
        exact same (Option.some.inj here)
      have differs : (indexOf entries).key cut ≠ utf8 key := by
        rw [key_indexOf found]
        exact fun equal => same (utf8_inj.mp equal)
      rw [if_pos (Or.inr differs), missing]

theorem splitOf_indexOf {entries : List (Text × Split)}
    (ordered : (entries.map Prod.fst).Pairwise (· < ·)) {documentId : Text}
    (nonempty : documentId ≠ []) (written : encodable documentId = true) :
    splitOf (indexOf entries) documentId =
      match splitIn entries documentId with
      | some split => .ok split
      | none => .error .missingAssignment := by
  have keys : [documentId].filter (fun key => key ≠ []) = [documentId] := by
    simp [nonempty]
  have found : (indexOf entries).find documentId = .ok (splitIn entries documentId) := by
    rw [AssignmentLookup.find, getItem_indexOf ordered written]
    cases splitIn entries documentId <;> rfl
  rw [splitOf, keys, List.mapM_cons, found]
  cases splitIn entries documentId <;> rfl

end

end SparseLab.Corpus.SplitJoin
