import Mathlib.Data.List.Induction
import Mathlib.Data.List.TakeWhile
import SparseLab.Corpus.SplitStages

/-! The records that a process finds are all records in the order they were written in. -/

namespace SparseLab.Corpus

open Library

section

variable {sequence first second : Nat} {digest other : String}

theorem completionName_listed : isCompletion (completionName sequence digest) = true := by
  unfold isCompletion completionName
  rw [Bool.and_eq_true, List.isPrefixOf_iff_prefix, List.isSuffixOf_iff_suffix]
  refine ⟨List.prefix_append _ _, ?_⟩
  exact ⟨"completion-".toList ++ (zeroPadded 6 sequence ++ ('-' :: digest.toList)), by simp⟩

theorem scratchName_unlisted (name : List Char) (uuid : Uuid) :
    isCompletion (scratchName name uuid) = false := by
  unfold isCompletion
  rw [Bool.and_eq_false_iff]
  refine Or.inr (eq_false_of_ne_true fun suffix => ?_)
  rw [List.isSuffixOf_iff_suffix] at suffix
  obtain ⟨before, same⟩ := suffix
  obtain ⟨digits, last⟩ : ∃ digits, Nat.toDigits 16 uuid = digits ++ [Nat.digitChar (uuid % 16)] := by
    rw [Nat.toDigits_eq_if (by decide)]
    split
    next small => exact ⟨[], by rw [Nat.mod_eq_of_lt small]; rfl⟩
    next => exact ⟨_, rfl⟩
  rw [scratchName, last, ← List.append_assoc] at same
  have ends : before ++ ".json".toList = (before ++ ".jso".toList) ++ ['n'] := by simp
  rw [ends] at same
  have digit := (List.append_inj' same rfl).2
  have never : ∀ value : Fin 16, Nat.digitChar value ≠ 'n' := by decide
  exact never ⟨uuid % 16, Nat.mod_lt _ (by decide)⟩ (List.cons.inj digit).1.symm

def sortableRecords : Nat := 10 ^ 6

theorem completionName_lt (smaller : first < second) (narrow : second < sortableRecords) :
    completionName first digest < completionName second other := by
  have digits : zeroPadded 6 first < zeroPadded 6 second := zeroPadded_lt (by decide) smaller narrow
  have widths : (zeroPadded 6 first).length = (zeroPadded 6 second).length := by
    rw [zeroPadded_of_lt (by decide) narrow,
      zeroPadded_of_lt (by decide) (Nat.lt_trans smaller narrow), length_fixedDigits,
      length_fixedDigits]
  unfold completionName
  exact List.append_left_lt (append_lt_append widths digits _ _)

theorem completionName_overflow :
    completionName sortableRecords digest < completionName (sortableRecords - 1) other := by
  unfold completionName
  exact List.append_left_lt (zeroPadded_million_lt _ _)

end

section

variable {ι Stamp Data : Type}

def tip (previous : Option String) (chain : List (Completion ι Stamp Data)) : Option String :=
  chain.foldl (fun _ event => some event.sha256) previous

def Linked (digest : Record ι Stamp Data → String) (identity : String) :
    Option String → List (Completion ι Stamp Data) → Prop
  | _, [] => True
  | previous, event :: rest =>
    (event.sha256 = digest event.record ∧ event.record.previous = previous ∧
      event.record.request = identity) ∧ Linked digest identity (some event.sha256) rest

variable {digest : Record ι Stamp Data → String} {identity : String}
  {chain rest : List (Completion ι Stamp Data)} {event : Completion ι Stamp Data}

theorem tip_concat {previous : Option String} :
    tip previous (chain ++ [event]) = some event.sha256 := by
  rw [tip, List.foldl_append]
  rfl

theorem Linked.append {previous : Option String} (linked : Linked digest identity previous chain)
    (continued : Linked digest identity (tip previous chain) rest) :
    Linked digest identity previous (chain ++ rest) := by
  induction chain generalizing previous with
  | nil => exact continued
  | cons event chain ih => exact ⟨linked.1, ih linked.2 continued⟩

/-- The files of the records, by their numbers from `start` on. -/
def recordFiles : (start : Nat) → List (Completion ι Stamp Data) → List (Entry ι Stamp Data)
  | _, [] => []
  | start, event :: rest =>
    { name := completionName start event.sha256, completion := some event } ::
      recordFiles (start + 1) rest

theorem recordFiles_append (start : Nat) :
    recordFiles start (chain ++ rest) =
      recordFiles start chain ++ recordFiles (start + chain.length) rest := by
  induction chain generalizing start with
  | nil => rfl
  | cons event chain ih =>
    rw [List.cons_append, recordFiles, recordFiles, ih, List.cons_append, List.length_cons]
    congr 3
    omega

theorem recordFiles_length (start : Nat) (chain : List (Completion ι Stamp Data)) :
    (recordFiles start chain).length = chain.length := by
  induction chain generalizing start with
  | nil => rfl
  | cons event chain ih => rw [recordFiles, List.length_cons, ih, List.length_cons]

theorem recordFiles_names (start : Nat) {file : Entry ι Stamp Data}
    (member : file ∈ recordFiles start chain) : ∃ sequence sha256, start ≤ sequence ∧
      sequence < start + chain.length ∧ file.name = completionName sequence sha256 := by
  induction chain generalizing start with
  | nil => cases member
  | cons event chain ih =>
    rw [List.length_cons]
    obtain rfl | member := List.mem_cons.mp member
    · exact ⟨start, event.sha256, le_rfl, by omega, rfl⟩
    · obtain ⟨sequence, sha256, after, before, named⟩ := ih (start + 1) member
      exact ⟨sequence, sha256, by omega, by omega, named⟩

theorem recordFiles_sorted (chain : List (Completion ι Stamp Data)) (start : Nat)
    (narrow : start + chain.length ≤ sortableRecords) :
    (recordFiles start chain).Pairwise fun first second => first.name ≤ second.name := by
  induction chain generalizing start with
  | nil => exact List.Pairwise.nil
  | cons event chain ih =>
    rw [List.length_cons] at narrow
    refine List.Pairwise.cons (fun file member => ?_) (ih (start + 1) (by omega))
    obtain ⟨sequence, sha256, after, before, named⟩ := recordFiles_names (start + 1) member
    have below : sequence < sortableRecords := by omega
    rw [named]
    exact le_of_lt (completionName_lt after below)

end

section

variable {ι Stamp Data : Type} [DecidableEq ι]

def replay (chain : List (Completion ι Stamp Data)) : List (ι × Result ι Stamp Data) :=
  chain.foldl (fun completed event =>
    completed.takeWhile (·.1 ≠ event.record.phase) ++ [(event.record.phase, event.record.result)]) []

variable {chain : List (Completion ι Stamp Data)} {event : Completion ι Stamp Data}

theorem replay_concat : replay (chain ++ [event]) =
    (replay chain).takeWhile (·.1 ≠ event.record.phase) ++
      [(event.record.phase, event.record.result)] := by
  rw [replay, List.foldl_append]
  rfl

theorem replay_recorded {earlier later : List (ι × Result ι Stamp Data)}
    {entry : ι × Result ι Stamp Data} (remembered : replay chain = earlier ++ entry :: later) :
    ∃ before event after, chain = before ++ event :: after ∧
      (event.record.phase, event.record.result) = entry ∧
        ∀ next ∈ after, next.record.phase ∉ (earlier ++ [entry]).map Prod.fst := by
  induction chain using List.reverseRecOn generalizing later with
  | nil => simp [replay] at remembered
  | append_singleton chain event ih =>
    rw [replay_concat] at remembered
    obtain rfl | ⟨later, last, rfl⟩ := List.eq_nil_or_concat later
    · obtain ⟨_, same⟩ := List.append_inj' remembered rfl
      exact ⟨chain, event, [], rfl, (List.cons.inj same).1, fun _ member =>
        absurd member List.not_mem_nil⟩
    · have split : earlier ++ entry :: (later ++ [last]) = (earlier ++ entry :: later) ++ [last] := by
        simp
      rw [List.concat_eq_append, split] at remembered
      obtain ⟨kept, _⟩ := List.append_inj' remembered rfl
      have whole : replay chain = earlier ++ entry :: (later ++
          (replay chain).dropWhile (·.1 ≠ event.record.phase)) := by
        have both : (replay chain).takeWhile (·.1 ≠ event.record.phase) ++
            (replay chain).dropWhile (·.1 ≠ event.record.phase) = replay chain :=
          List.takeWhile_append_dropWhile
        rw [kept, List.append_assoc, List.cons_append] at both
        exact both.symm
      obtain ⟨before, found, after, rfl, same, apart⟩ := ih whole
      refine ⟨before, found, after ++ [event], by simp, same, fun next member => ?_⟩
      obtain member | member := List.mem_append.mp member
      · exact apart next member
      · rw [List.mem_singleton.mp member]
        intro taken
        obtain ⟨other, known, named⟩ := List.mem_map.mp taken
        have inside : other ∈ (replay (before ++ found :: after)).takeWhile
            (·.1 ≠ event.record.phase) := by
          rw [kept]
          obtain known | known := List.mem_append.mp known
          · exact List.mem_append_left _ known
          · rw [List.mem_singleton.mp known]
            exact List.mem_append_right _ List.mem_cons_self
        exact absurd named (by simpa using List.mem_takeWhile_imp inside)

section

variable [DecidableEq Stamp] [DecidableEq Data] {digest : Record ι Stamp Data → String}
  {identity : String} {disk : Disk ι Stamp Data}

theorem accept_ok {memory : Memory ι Stamp Data} (trusts : String → Bool) (name : List Char)
    (sealed : event.sha256 = digest event.record)
    (follows : event.record.previous = memory.previous)
    (requested : event.record.request = identity) :
    ∃ memory', accept digest identity disk trusts memory { name, completion := some event } =
        .ok memory' ∧
      memory'.completed = memory.completed.takeWhile (·.1 ≠ event.record.phase) ++
        [(event.record.phase, event.record.result)] ∧
      memory'.previous = some event.sha256 ∧ memory'.sequence = memory.sequence + 1 ∧
        memory'.reused = memory.reused := by
  have intact : ¬ (event.sha256 ≠ digest event.record ∨ event.record.previous ≠ memory.previous) := by
    rintro (broken | broken)
    · exact broken sealed
    · exact broken follows
  unfold accept
  dsimp only
  refine ⟨_, (refuseIf_bind intact).trans (refuseIf_bind (not_not.mpr requested)), rfl, ?_, rfl, rfl⟩
  rw [sealed]

theorem accept_fold (disk : Disk ι Stamp Data) (trusts : String → Bool) (start : Nat)
    (memory : Memory ι Stamp Data) (linked : Linked digest identity memory.previous chain) :
    ∃ memory', (recordFiles start chain).foldlM (accept digest identity disk trusts) memory =
        .ok memory' ∧
      memory'.completed = chain.foldl (fun completed event =>
        completed.takeWhile (·.1 ≠ event.record.phase) ++
          [(event.record.phase, event.record.result)]) memory.completed ∧
      memory'.previous = tip memory.previous chain ∧
      memory'.sequence = memory.sequence + chain.length ∧ memory'.reused = memory.reused := by
  induction chain generalizing start memory with
  | nil => exact ⟨memory, rfl, rfl, rfl, rfl, rfl⟩
  | cons event chain ih =>
    obtain ⟨⟨sealed, follows, requested⟩, linked⟩ := linked
    obtain ⟨next, accepted, completed, previous, sequence, reused⟩ :=
      accept_ok trusts (completionName start event.sha256) sealed follows requested
    rw [← previous] at linked
    obtain ⟨last, folded, completed', previous', sequence', reused'⟩ := ih (start + 1) next linked
    refine ⟨last, ?_, ?_, ?_, ?_, reused'.trans reused⟩
    · rw [recordFiles, List.foldlM_cons, accepted]
      exact folded
    · rw [completed', completed]
      rfl
    · rw [previous', previous]
      rfl
    · rw [sequence', sequence, List.length_cons]
      omega

theorem load_chain (listed : disk.listed = recordFiles 0 chain)
    (linked : Linked digest identity none chain) (narrow : chain.length ≤ sortableRecords)
    (trusts : String → Bool) : ∃ memory, load digest identity disk trusts = .ok memory ∧
      memory.completed = replay chain ∧ memory.previous = tip none chain ∧
        memory.sequence = chain.length ∧ memory.reused = [] := by
  have sorted := recordFiles_sorted chain 0 (by omega)
  obtain ⟨memory, folded, completed, previous, sequence, reused⟩ :=
    accept_fold disk trusts 0 {} linked
  refine ⟨memory, ?_, completed, previous, ?_, reused⟩
  · rw [load, listed, sorted.insertionSort_eq]
    exact folded
  · rw [sequence]
    exact Nat.zero_add _

end

end

end SparseLab.Corpus
