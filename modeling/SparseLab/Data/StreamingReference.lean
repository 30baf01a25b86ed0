import SparseLab.Data.ChunkReopening
import SparseLab.Data.Streaming

/-! The meaning of a streaming collection: documents encoded one by one, each with an EOS. -/

namespace SparseLab.Data

open Library

structure Scan where
  remaining : Nat
  tokens : Nat

def Source.prepend (texts : List String) (source : Source) : Source :=
  texts.foldr Source.document source

namespace Preparation

section

variable (preparation : Preparation) (split : Split) (eos : Int) (capped : Bool)

def capRecord (record : Record) : Except String Nat :=
  if capped then SplitChunks.recordBytes preparation.settings split record else .ok 0

def admitDocument (scan : Scan) (text : String) : Except String (Record × Scan) :=
  if text = "" then
    .ok (none, scan)
  else if text.utf8ByteSize > preparation.batchSourceBytes then
    .error "source document exceeds tokenizer_batch_source_bytes"
  else do
    let values ← preparation.streamingValues eos (preparation.encode text) text
    if scan.tokens + (values .ids).length > preparation.maxTokens split then
      .error "token cap would truncate selected story"
    else
      let _ ← preparation.capRecord split capped (some values)
      pure (some values, {
        remaining := scan.remaining - 1
        tokens := scan.tokens + (values .ids).length })

def selectFrom (scan : Scan) : Source → Except String (List Record)
  | .finished =>
    if scan.remaining = 0 then .ok [] else .error "source has fewer documents than required"
  | .failed reason => if scan.remaining = 0 then .ok [] else .error reason
  | .document text rest =>
    if scan.remaining = 0 then
      .ok []
    else do
      let (record, scan) ← preparation.admitDocument split eos capped scan text
      let records ← selectFrom scan rest
      pure (record :: records)

def admitted (scan : Scan) : Source → List Record
  | .finished | .failed _ => []
  | .document text rest =>
    if scan.remaining = 0 then
      []
    else
      match preparation.admitDocument split eos capped scan text with
      | .error _ => []
      | .ok (record, scan) => record :: admitted scan rest

def start : Scan where
  remaining := preparation.selectedDocuments split
  tokens := 0

def selected : Except String (List Record) :=
  preparation.selectFrom split eos capped (preparation.start split) (preparation.source split)

def selectable : List Record :=
  preparation.admitted split eos capped (preparation.start split) (preparation.source split)

def reference : Except String SplitChunks.Finished :=
  match preparation.eos with
  | none => .error "tokenizer has no <eos> special token"
  | some eos => (preparation.selected split eos capped).map (finishedOf preparation.settings)

end

variable {preparation : Preparation} {split : Split} {eos : Int} {capped : Bool}
  {scan later : Scan} {text : String} {texts : List String} {ahead : Source}
  {records : List Record} {record : Record}

theorem reference_ok {finished : SplitChunks.Finished} (token : preparation.eos = some eos) :
    preparation.reference split capped = .ok finished ↔ ∃ records,
      preparation.selected split eos capped = .ok records ∧
        finished = finishedOf preparation.settings records := by
  simp only [reference, token]
  cases preparation.selected split eos capped with
  | error failure => simp [Except.map]
  | ok records => simp [Except.map, eq_comm]

def recordOf (preparation : Preparation) (eos : Int) (text : String) : Except String Record :=
  if text = "" then
    .ok none
  else
    (preparation.streamingValues eos (preparation.encode text) text).map some

structure Admits (preparation : Preparation) (split : Split) (eos : Int) (capped : Bool)
    (scan later : Scan) (text : String) (record : Record) : Prop where
  made : preparation.recordOf eos text = .ok record
  retained : (tally [record]).retainedDocuments = if text = "" then 0 else 1
  allowed : ∃ bytes, preparation.capRecord split capped record = .ok bytes
  remaining : later.remaining = scan.remaining - (tally [record]).retainedDocuments
  tokens : later.tokens = scan.tokens + (tally [record]).outputTokens
  within : scan.tokens ≤ preparation.maxTokens split → later.tokens ≤ preparation.maxTokens split

theorem admits_of_ok
    (returned : preparation.admitDocument split eos capped scan text = .ok (record, later)) :
    Admits preparation split eos capped scan later text record := by
  rw [admitDocument] at returned
  by_cases empty : text = ""
  · rw [if_pos empty] at returned
    obtain ⟨rfl, rfl⟩ := Prod.mk.inj (Except.ok.inj returned)
    have allowed : ∃ bytes, preparation.capRecord split capped none = .ok bytes := by
      cases capped <;> exact ⟨0, rfl⟩
    exact ⟨if_pos empty, (if_pos empty).symm, allowed, rfl, rfl, id⟩
  · rw [if_neg empty] at returned
    split at returned
    · cases returned
    · obtain ⟨values, made, rest⟩ := bind_eq_ok returned
      split at rest
      · cases rest
      · rename_i within
        obtain ⟨bytes, allowed, same⟩ := bind_eq_ok rest
        obtain ⟨rfl, rfl⟩ := Prod.mk.inj (Except.ok.inj same)
        refine ⟨?_, ?_, ⟨bytes, allowed⟩, ?_, ?_, fun _ => Nat.not_lt.mp within⟩
        · rw [recordOf, if_neg empty, made]
          rfl
        · rw [if_neg empty]
          rfl
        · rfl
        · simp [tally]

theorem admit_empty : preparation.admitDocument split eos capped scan "" = .ok (none, scan) :=
  if_pos rfl

theorem admit_small (nonempty : text ≠ "")
    (small : text.utf8ByteSize ≤ preparation.batchSourceBytes) :
    preparation.admitDocument split eos capped scan text = (do
      let values ← preparation.streamingValues eos (preparation.encode text) text
      if scan.tokens + (values .ids).length > preparation.maxTokens split then
        .error "token cap would truncate selected story"
      else do
        let _ ← preparation.capRecord split capped (some values)
        pure (some values, ⟨scan.remaining - 1, scan.tokens + (values .ids).length⟩)) := by
  rw [admitDocument, if_neg nonempty, if_neg (Nat.not_lt.mpr small)]

structure Reached (preparation : Preparation) (split : Split) (eos : Int) (capped : Bool)
    (records : List Record) (scan : Scan) (ahead : Source) : Prop where
  selected : preparation.selected split eos capped =
    (preparation.selectFrom split eos capped scan ahead).map (records ++ ·)
  selectable : preparation.selectable split eos capped =
    records ++ preparation.admitted split eos capped scan ahead
  tokens : scan.tokens = (tally records).outputTokens
  remaining : scan.remaining + (tally records).retainedDocuments =
    preparation.selectedDocuments split
  within : scan.tokens ≤ preparation.maxTokens split

def Refused (preparation : Preparation) (split : Split) (eos : Int) (capped : Bool) : Prop :=
  ∃ failure, preparation.selected split eos capped = .error failure

theorem Reached.start : Reached preparation split eos capped [] (preparation.start split)
    (preparation.source split) := by
  refine ⟨?_, rfl, rfl, rfl, Nat.zero_le _⟩
  rw [Preparation.selected]
  cases preparation.selectFrom split eos capped (preparation.start split)
    (preparation.source split) <;> rfl

theorem Reached.within_selectable
    (reached : Reached preparation split eos capped records scan ahead) :
    records <+: preparation.selectable split eos capped := by
  rw [reached.selectable]
  exact List.prefix_append _ _

theorem Reached.next (reached : Reached preparation split eos capped records scan
      (.document text ahead)) (wanted : 0 < scan.remaining)
    (returned : preparation.admitDocument split eos capped scan text = .ok (record, later)) :
    Reached preparation split eos capped (records ++ [record]) later ahead := by
  have admits := admits_of_ok returned
  have some : scan.remaining ≠ 0 := Nat.ne_of_gt wanted
  have single : (tally [record]).retainedDocuments ≤ 1 := by
    cases record <;> simp [tally]
  refine ⟨?_, ?_, ?_, ?_, admits.within reached.within⟩
  · rw [reached.selected, selectFrom, if_neg some, returned]
    simp only [bind, Except.bind]
    cases preparation.selectFrom split eos capped later ahead with
    | error failure => rfl
    | ok others => simp [Except.map, pure, Except.pure]
  · rw [reached.selectable, admitted, if_neg some, returned]
    simp
  · rw [tally_append, admits.tokens, reached.tokens]
    rfl
  · rw [tally_append, admits.remaining, ← reached.remaining]
    simp only [Counters.add]
    omega

theorem Reached.refused (reached : Reached preparation split eos capped records scan
      (.document text ahead)) (wanted : 0 < scan.remaining) {failure : String}
    (returned : preparation.admitDocument split eos capped scan text = .error failure) :
    Refused preparation split eos capped := by
  refine ⟨failure, ?_⟩
  rw [reached.selected, selectFrom, if_neg (Nat.ne_of_gt wanted), returned]
  rfl

theorem Reached.complete (reached : Reached preparation split eos capped records scan ahead)
    (enough : scan.remaining = 0) : preparation.selected split eos capped = .ok records := by
  have nothing : preparation.selectFrom split eos capped scan ahead = .ok [] := by
    cases ahead <;> rw [selectFrom, if_pos enough]
  rw [reached.selected, nothing]
  simp [Except.map]

theorem Reached.finished (reached : Reached preparation split eos capped records scan .finished)
    (wanted : 0 < scan.remaining) :
    Refused preparation split eos capped := by
  refine ⟨"source has fewer documents than required", ?_⟩
  rw [reached.selected, selectFrom, if_neg (Nat.ne_of_gt wanted)]
  rfl

theorem Reached.failed {reason : String}
    (reached : Reached preparation split eos capped records scan (.failed reason))
    (wanted : 0 < scan.remaining) :
    Refused preparation split eos capped := by
  refine ⟨reason, ?_⟩
  rw [reached.selected, selectFrom, if_neg (Nat.ne_of_gt wanted)]
  rfl

theorem Reached.skip {held : List Record}
    (reached : Reached preparation split eos capped records scan ahead)
    (within : held <+: preparation.admitted split eos capped scan ahead) :
    ∃ next rest, skipRecovered held.length ahead = .ok rest ∧
      Reached preparation split eos capped (records ++ held) next rest := by
  induction held generalizing records scan ahead with
  | nil => exact ⟨scan, ahead, rfl, by rwa [List.append_nil]⟩
  | cons record held ih =>
    cases ahead with
    | finished => simp [admitted] at within
    | failed reason => simp [admitted] at within
    | document text rest =>
      rw [admitted] at within
      split at within
      · simp at within
      · rename_i some
        split at within
        · simp at within
        · rename_i found next returned
          rw [List.cons_prefix_cons] at within
          obtain ⟨rfl, within⟩ := within
          have later := reached.next (Nat.pos_of_ne_zero some) returned
          obtain ⟨last, behind, skipped, reaches⟩ := ih later within
          exact ⟨last, behind, skipped, by rwa [List.append_assoc] at reaches⟩

def Wanted : Nat → List String → Prop
  | _, [] => True
  | remaining, text :: rest =>
    0 < remaining ∧ Wanted (remaining - if text = "" then 0 else 1) rest

def documents (texts : List String) : Nat :=
  (texts.filter (· ≠ "")).length

@[simp] theorem documents_cons :
    documents (text :: texts) = (if text = "" then 0 else 1) + documents texts := by
  by_cases empty : text = "" <;> simp [documents, empty, Nat.add_comm]

theorem documents_append (first second : List String) :
    documents (first ++ second) = documents first + documents second := by
  rw [documents, List.filter_append, List.length_append]
  rfl

theorem wanted_append {remaining : Nat} {first second : List String} :
    Wanted remaining (first ++ second) ↔
      Wanted remaining first ∧ Wanted (remaining - documents first) second := by
  induction first generalizing remaining with
  | nil => simp [Wanted, documents]
  | cons text first ih =>
    rw [List.cons_append, Wanted, Wanted, ih, documents_cons, Nat.sub_sub, and_assoc]

theorem Reached.through
    (reached : Reached preparation split eos capped records scan (Source.prepend texts ahead))
    (wanted : Wanted scan.remaining texts) :
    Refused preparation split eos capped ∨ ∃ found later,
      texts.mapM (preparation.recordOf eos) = .ok found ∧ (∀ text ∈ texts, ∃ record,
        preparation.recordOf eos text = .ok record ∧
          ∃ bytes, preparation.capRecord split capped record = .ok bytes) ∧
        Reached preparation split eos capped (records ++ found) later ahead ∧
        later.remaining + documents texts = scan.remaining := by
  induction texts generalizing records scan with
  | nil => exact .inr ⟨[], scan, rfl, List.forall_mem_nil _, by rwa [List.append_nil], rfl⟩
  | cons text texts ih =>
    obtain ⟨positive, others⟩ := wanted
    cases returned : preparation.admitDocument split eos capped scan text with
    | error failure => exact .inl (reached.refused positive returned)
    | ok pair =>
      obtain ⟨record, next⟩ := pair
      have admits := admits_of_ok returned
      have remaining := admits.remaining
      rw [admits.retained] at remaining
      rw [← remaining] at others
      rcases ih (reached.next positive returned) others with
        refused | ⟨found, later, made, allowed, reaches, left⟩
      · exact .inl refused
      · refine .inr ⟨record :: found, later, ?_, ?_, by simpa using reaches, ?_⟩
        · rw [List.mapM_cons, admits.made, made]
          rfl
        · exact List.forall_mem_cons.mpr ⟨⟨record, admits.made, admits.allowed⟩, allowed⟩
        · rw [documents_cons]
          have one : (if text = "" then 0 else 1) ≤ 1 := by split <;> simp
          omega

theorem admit_made (small : text.utf8ByteSize ≤ preparation.batchSourceBytes)
    (made : preparation.recordOf eos text = .ok record)
    (allowed : ∃ bytes, preparation.capRecord split capped record = .ok bytes)
    (fits : scan.tokens + (tally [record]).outputTokens ≤ preparation.maxTokens split) :
    ∃ later, preparation.admitDocument split eos capped scan text = .ok (record, later) := by
  by_cases empty : text = ""
  · subst empty
    obtain rfl := Except.ok.inj made
    exact ⟨scan, admit_empty⟩
  · rw [recordOf, if_neg empty] at made
    rw [admit_small empty small]
    cases values : preparation.streamingValues eos (preparation.encode text) text with
    | error failure =>
      rw [values] at made
      cases made
    | ok found =>
      rw [values] at made
      obtain rfl := Except.ok.inj made
      obtain ⟨bytes, accepted⟩ := allowed
      have within : ¬ scan.tokens + (found .ids).length > preparation.maxTokens split := by
        simpa [tally] using fits
      simp only [bind, Except.bind, if_neg within, accepted]
      exact ⟨_, rfl⟩

theorem Reached.admits {found : List Record}
    (reached : Reached preparation split eos capped records scan (Source.prepend texts ahead))
    (wanted : Wanted scan.remaining texts)
    (small : ∀ text ∈ texts, text.utf8ByteSize ≤ preparation.batchSourceBytes)
    (made : texts.mapM (preparation.recordOf eos) = .ok found)
    (allowed : ∀ record ∈ found, ∃ bytes, preparation.capRecord split capped record = .ok bytes)
    (fits : scan.tokens + (tally found).outputTokens ≤ preparation.maxTokens split) :
    ∃ later, Reached preparation split eos capped (records ++ found) later ahead ∧
      later.remaining + documents texts = scan.remaining := by
  induction texts generalizing records scan found with
  | nil =>
    rw [List.mapM_nil] at made
    obtain rfl := Except.ok.inj made
    exact ⟨scan, by rwa [List.append_nil], rfl⟩
  | cons text texts ih =>
    obtain ⟨positive, others⟩ := wanted
    rw [List.mapM_cons] at made
    obtain ⟨record, first, rest⟩ := bind_eq_ok made
    obtain ⟨more, later, same⟩ := bind_eq_ok rest
    obtain rfl := Except.ok.inj same
    have parts : tally (record :: more) = (tally [record]).add (tally more) :=
      tally_append [record] more
    rw [parts] at fits
    have sum : ((tally [record]).add (tally more)).outputTokens =
      (tally [record]).outputTokens + (tally more).outputTokens := rfl
    obtain ⟨next, returned⟩ := admit_made (small text List.mem_cons_self) first
      (allowed record List.mem_cons_self) (by omega : scan.tokens +
        (tally [record]).outputTokens ≤ preparation.maxTokens split)
    have admits := admits_of_ok returned
    have remaining := admits.remaining
    rw [admits.retained] at remaining
    rw [← remaining] at others
    obtain ⟨last, reaches, left⟩ := ih (reached.next positive returned) others
      (fun other member => small other (List.mem_cons_of_mem _ member)) later
      (fun other member => allowed other (List.mem_cons_of_mem _ member))
      (by rw [admits.tokens]; omega)
    refine ⟨last, by simpa using reaches, ?_⟩
    rw [documents_cons]
    have one : (if text = "" then 0 else 1) ≤ 1 := by split <;> simp
    omega

end Preparation

end SparseLab.Data
