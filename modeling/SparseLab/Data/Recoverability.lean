import SparseLab.Data.CrashConsistency
import SparseLab.Data.PublishedRecovery

/-! Which directories a later run accepts. -/

namespace SparseLab.Data

open Library

variable {settings : Settings} {disk : Disk} {groups : Split → List (List Record)}
  {actions : Actions} {ledgers : Split → SplitChunks} {split : Split} {session : Session}
  {journal : Journal}

section

structure Overfull (settings : Settings) (disk : Disk) : Prop where
  marker : disk.read (.entry .root .staging) = some (.owner settings.owner none) ∨
    ∃ cleanup, disk.read (.entry .root .staging) =
        some (.owner settings.owner (some cleanup)) ∧
      ∃ entry ∈ cleanup.files, ownedFilename settings entry.1 = false
  chunks : ∃ split groups, sortableChunks < groups.length ∧
    Recoverable settings .root split disk groups ∧
      ∀ index part, disk.read (.entry .root (.chunk split index part)) ≠ none →
        index < groups.length

theorem finishCleanup_refuses {cleanup : Cleanup} {entry : Name × FileProof}
    (member : entry ∈ cleanup.files) (wide : ownedFilename settings entry.1 = false) (cold : Bool) :
    finishCleanup settings disk cleanup cold = .error "invalid owned cleanup filename" := by
  have refused : ((cleanup.files.map Prod.fst).mergeSort fun first second =>
      first.chars ≤ second.chars).any (fun name => !ownedFilename settings name) = true := by
    rw [List.any_eq_true]
    exact ⟨entry.1, List.mem_mergeSort.mpr (List.mem_map_of_mem member), by simp [wide]⟩
  simp only [finishCleanup, refused, ↓reduceIte]

theorem cleanupFiles_mem {ledger : SplitChunks} {index : Nat} {receipts : List Receipt}
    {files : List (Name × FileProof)}
    (returned : cleanupFiles settings disk ledger index receipts = .ok files) {offset : Nat}
    (inside : offset < receipts.length) :
    ∃ proof, (.chunk ledger.split (index + offset) .receipt, proof) ∈ files := by
  induction receipts generalizing index offset files with
  | nil => exact absurd inside (Nat.not_lt_zero _)
  | cons payload receipts ih =>
    obtain ⟨file, _, rest⟩ := bind_eq_ok returned
    obtain ⟨later, laterEq, same⟩ := bind_eq_ok rest
    obtain rfl := Except.ok.inj same
    cases offset with
    | zero => exact ⟨_, List.mem_cons_self⟩
    | succ offset =>
      obtain ⟨proof, member⟩ := ih laterEq (Nat.lt_of_succ_lt_succ inside)
      have shifted : index + 1 + offset = index + (offset + 1) := by omega
      rw [shifted] at member
      exact ⟨proof, List.mem_append_right _ member⟩

theorem cleanupReceipt_mem {cleanup : Cleanup}
    (returned : cleanupReceipt settings disk ledgers = .ok cleanup)
    (own : (ledgers split).split = split) {index : Nat}
    (inside : index < (ledgers split).sealedReceipts.length) :
    ∃ proof, (.chunk split index .receipt, proof) ∈ cleanup.files := by
  obtain ⟨marker, _, rest⟩ := bind_eq_ok returned
  split at rest
  · cases rest
  · split at rest
    · cases rest
    · split at rest
      · cases rest
      · split at rest
        · cases rest
        · obtain ⟨train, trainEq, rest⟩ := bind_eq_ok rest
          obtain ⟨validation, validationEq, rest⟩ := bind_eq_ok rest
          obtain ⟨signature, _, rest⟩ := bind_eq_ok rest
          obtain rfl := Except.ok.inj rest
          cases split with
          | train =>
            obtain ⟨proof, member⟩ := cleanupFiles_mem trainEq inside
            rw [own, Nat.zero_add] at member
            exact ⟨proof, List.mem_append_left _ member⟩
          | validation =>
            obtain ⟨proof, member⟩ := cleanupFiles_mem validationEq inside
            rw [own, Nat.zero_add] at member
            exact ⟨proof, List.mem_append_right _ member⟩

section

variable (overfull : Overfull settings disk)

include overfull

theorem Overfull.chunks_frame (only : ∀ action ∈ actions, ∀ path ∈ action.paths,
      path = .entry .root .stagingTmp ∨ path = .entry .root .staging) :
    ∃ split groups, sortableChunks < groups.length ∧
      Recoverable settings .root split (disk.performAll actions) groups ∧
        ∀ index part, (disk.performAll actions).read (.entry .root (.chunk split index part)) ≠
          none → index < groups.length := by
  obtain ⟨split, groups, many, recoverable, clean⟩ := overfull.chunks
  have apart : ∀ action ∈ actions, ∀ index part,
      Path.entry .root (.chunk split index part) ∉ action.paths := by
    intro action member index part inside
    rcases only action member _ inside with same | same <;> simp at same
  refine ⟨split, groups, many, recoverable.performAll ?_, ?_⟩
  · intro action member path inside index part same
    rw [same] at inside
    exact absurd inside (apart action member index part)
  · intro index part present
    rw [Volume.read_performAll_other] at present
    · exact clean index part present
    · intro action member
      exact apart action member index part

theorem Overfull.commit_cut {cleanup : Cleanup}
    {entry : Name × FileProof} (member : entry ∈ cleanup.files)
    (wide : ownedFilename settings entry.1 = false) (cut : Nat) :
    Overfull settings (disk.performAll ((commitCleanup settings cleanup).take cut)) := by
  let file : File := .owner settings.owner (some cleanup)
  let temporary : Path := .entry .root .stagingTmp
  let target : Path := .entry .root .staging
  let setup : Actions := [.unlink temporary, .write temporary .torn, .write temporary file]
  have shape : commitCleanup settings cleanup = setup ++ [.rename temporary target] := rfl
  have only : ∀ action ∈ setup, action.paths = [temporary] := by
    intro action found
    simp only [setup, List.mem_cons, List.not_mem_nil, or_false] at found
    rcases found with rfl | rfl | rfl <;> rfl
  have touched : ∀ action ∈ setup ++ [.rename temporary target], ∀ path ∈ action.paths,
      path = temporary ∨ path = target := by
    intro action found path inside
    rcases List.mem_append.mp found with before | last
    · rw [only action before] at inside
      exact .inl (List.mem_singleton.mp inside)
    · rw [List.mem_singleton.mp last] at inside
      simpa [Action.paths] using inside
  have early : ∀ count, Overfull settings (disk.performAll (setup.take count)) := by
    intro count
    refine ⟨?_, overfull.chunks_frame ?_⟩
    · rw [Volume.read_performAll_other]
      · exact overfull.marker
      · intro action found inside
        rw [only action (List.mem_of_mem_take found)] at inside
        simp [temporary] at inside
    · intro action found
      exact touched action (List.mem_append_left _ (List.mem_of_mem_take found))
  rw [shape]
  rcases Volume.cut_append disk setup [.rename temporary target] cut with inside | ⟨rest, later⟩
  · rw [inside]
    exact early cut
  · rw [later]
    cases rest with
    | zero =>
      have whole := early setup.length
      rwa [List.take_length] at whole
    | succ rest =>
      rw [List.take_succ_cons, List.take_nil, ← Volume.performAll_append]
      refine ⟨.inr ⟨cleanup, ?_, entry, member, wide⟩, overfull.chunks_frame touched⟩
      rw [Volume.performAll_append]
      have written : (disk.performAll setup).read temporary = some file :=
        Volume.read_write_self _ _ _
      exact Volume.read_rename_target _ written target

theorem Overfull.cleanupPublished (own : (ledgers split).split = split)
    (many : sortableChunks < (ledgers split).sealedReceipts.length) :
    (∃ failure, (cleanupPublished settings disk ledgers).result = .error failure) ∧
      ∀ cut, Overfull settings
        (disk.performAll ((cleanupPublished settings disk ledgers).actions.take cut)) := by
  rw [Data.cleanupPublished]
  split
  · refine ⟨⟨_, rfl⟩, ?_⟩
    intro cut
    rw [List.take_nil]
    exact overfull
  · rename_i cleanup returned
    obtain ⟨proof, member⟩ := cleanupReceipt_mem returned own many
    have wide : ownedFilename settings (.chunk split sortableChunks .receipt) = false := by
      have digits : (zeroPadded 6 sortableChunks).length ≠ 6 := by
        rw [Ne, length_zeroPadded_eq (by decide)]
        exact Nat.lt_irrefl _
      simp [ownedFilename, digits]
    simp only [finishCleanup_refuses member wide]
    exact ⟨⟨_, rfl⟩, overfull.commit_cut member wide⟩

theorem Overfull.recovers : (∃ failure, (recoverPublished settings disk).result = .error failure) ∧
      ∀ cut, Overfull settings
        (disk.performAll ((recoverPublished settings disk).actions.take cut)) := by
  have idle : ∀ failure : String, (∃ found, ({ actions := [], result := .error failure } :
      Attempt).result = .error found) ∧ ∀ cut, Overfull settings (disk.performAll
        (({ actions := [], result := .error failure } : Attempt).actions.take cut)) := by
    intro failure
    refine ⟨⟨_, rfl⟩, ?_⟩
    intro cut
    rw [List.take_nil]
    exact overfull
  rcases overfull.marker with marker | ⟨cleanup, marker, entry, member, wide⟩
  · simp only [recoverPublished, readOwner, marker, ne_eq, not_true_eq_false, ↓reduceIte]
    split
    · exact idle _
    · rename_i ledgers opened
      split
      · exact idle _
      · obtain ⟨split, groups, many, recoverable, clean⟩ := overfull.chunks
        have openEq := openSplit_eq recoverable clean
        have ledger : openSplit settings disk .root split = .ok (ledgers split) := by
          obtain ⟨train, trainEq, rest⟩ := bind_eq_ok opened
          obtain ⟨validation, validationEq, same⟩ := bind_eq_ok rest
          obtain rfl := Except.ok.inj same
          cases split with
          | train => exact trainEq
          | validation => exact validationEq
        rw [openEq] at ledger
        have ledgerEq := Except.ok.inj ledger
        have own : (ledgers split).split = split := by rw [← ledgerEq]
        apply overfull.cleanupPublished own
        · rw [← ledgerEq, length_receiptsOf, List.length_take]
          have million : sortableChunks < 1000000000 := by norm_num [sortableChunks]
          omega
  · simp only [recoverPublished, readOwner, marker, ne_eq, not_true_eq_false, ↓reduceIte,
      finishCleanup_refuses member wide]
    split
    · exact idle _
    · exact idle _

end

end

section

theorem Live.published {pending : Split → List Record} {seqLen : Nat}
    {results : Split → SplitChunks.Finished} (live : Live settings session journal groups pending)
    (publish : session.publish seqLen = .ok results) (scratch : Data.works session.disk = []) :
    Published settings (session.disk.performAll (storeManifest settings results)) groups ∧
      Agrees settings groups session.ledgers := by
  have finished : ∀ split, session.results split = some (results split) ∧
      seqLen + 1 ≤ (results split).stats.outputTokens := by
    rw [Session.publish] at publish
    split at publish
    · rename_i train validation trainEq validationEq
      split at publish
      · cases publish
      · rename_i enough
        obtain rfl := Except.ok.inj publish
        rw [not_or, Nat.not_lt, Nat.not_lt] at enough
        intro split
        cases split with
        | train => exact ⟨trainEq, enough.1⟩
        | validation => exact ⟨validationEq, enough.2⟩
    · cases publish
  have completed : ∀ split, pending split = [] ∧
      Completed settings session.disk split (groups split).flatten (results split) := by
    intro split
    obtain ⟨empty, completed⟩ := live.results split _ (finished split).1
    rw [live.records, empty, List.append_nil] at completed
    exact ⟨empty, completed⟩
  have manifest : manifestOf settings results = manifestFor settings groups := by
    have same : results = fun split => finishedOf settings (groups split).flatten :=
      funext fun split => (completed split).2.finished
    rw [manifestFor, ← same]
  have only : ∀ action ∈ storeManifest settings results,
      action.paths = [.entry .root .manifest] := by
    intro action member
    simp only [storeManifest, storeFile, List.mem_cons, List.not_mem_nil, or_false] at member
    rcases member with rfl | rfl <;> rfl
  have apart : ∀ path, path ≠ .entry .root .manifest →
      (session.disk.performAll (storeManifest settings results)).read path =
        session.disk.read path := by
    intro path different
    apply Volume.read_performAll_other
    intro action member inside
    rw [only action member] at inside
    exact different (List.mem_singleton.mp inside)
  have valid : ∀ split, ∀ group ∈ groups split, ValidGroup settings group :=
    fun split => (live.tracks split).valid
  refine ⟨⟨⟨?_, ?_, ?_, valid, ?_, ?_⟩, ?_, ?_⟩, live.split, ?_, ?_, ?_⟩
  · rw [← manifest]
    exact Volume.read_write_self _ _ _
  · intro split array member
    rw [apart _ (by simp)]
    exact (completed split).2.final array member
  · intro split array member
    have records : ∀ record ∈ (groups split).flatten, ValidRecord settings record := by
      intro record inside
      obtain ⟨group, found, member⟩ := List.mem_flatten.mp inside
      exact (valid split group found).valid record member
    have tokens := (finished split).2
    rw [(completed split).2.finished] at tokens
    rw [length_rawOf settings records member]
    exact Nat.ne_of_gt (Nat.lt_of_lt_of_le (Nat.succ_pos _) tokens)
  · intro name present
    by_cases written : name = .manifest
    · subst written
      exact .inr (.inl (by simp [keptNames]))
    · rw [apart _ (by simpa using written)] at present
      rcases live.holds.others name present with ⟨split, index, part, rfl⟩ | other
      · have tracks := live.tracks split
        have parts := tracks.parts index part
        rw [live.place, live.split] at parts
        rcases parts present with ⟨inside, kept⟩ | ⟨_, some, _⟩
        · exact .inr (.inr (mem_ownedNames.mpr ⟨split, index, part, rfl, inside, kept⟩))
        · exact absurd (completed split).1 some
      · cases name with
        | staging => exact .inr (.inl (by simp [keptNames]))
        | manifest => exact absurd rfl written
        | manifestTmp => exact absurd live.manifestTmp present
        | final split array =>
          refine .inr (.inl (List.mem_append_right _ ?_))
          exact mem_finalNames.mpr ⟨split, array, other, rfl⟩
        | finalTmp split array =>
          exact absurd ((completed split).2.temporary array other) present
        | stagingTmp | chunk | other => exact absurd other id
  · rw [works_eq_nil]
    intro path outside
    rw [apart]
    · exact works_eq_nil.mp scratch path outside
    · intro same
      rw [same] at outside
      exact outside rfl
  · rw [apart _ (by simp)]
    exact live.holds.marker
  · intro split
    have stored := (live.holds.splits split).stored
    refine ⟨?_, ?_⟩
    · intro index inside
      rw [apart _ (by simp)]
      exact stored.receipt index inside
    · intro index inside array member
      rw [apart _ (by simp)]
      exact stored.raw index inside array member
  · intro split
    rw [(live.tracks split).receipts, live.split]
  · intro split
    rw [(live.tracks split).counted, (completed split).1]
    rfl
  · intro split
    exact (live.tracks split).state

end

section

def resume (settings : Settings) (disk : Disk) (published : Bool) : Except String Unit :=
  if published then
    match disk.read (.entry .root .staging) with
    | none => .ok ()
    | some _ => (recoverPublished settings disk).result
  else do
    let _ ← Session.openAt settings disk
    pure ()

def Archived (settings : Settings) : Situation → Prop
  | .stopped disk true => Overfull settings disk ∨
      ∃ groups, (∀ split, (groups split).length ≤ sortableChunks) ∧ Shelved settings disk groups
  | _ => True

theorem archived_cleanup (published : Published settings disk groups)
    (agrees : Agrees settings groups ledgers) (cut : Nat) :
    Archived settings (.stopped (disk.performAll
      ((cleanupPublished settings disk ledgers).actions.take cut)) true) := by
  by_cases bounded : ∀ split, (groups split).length ≤ sortableChunks
  · exact .inr ⟨groups, bounded, (published.cleanupPublished_ok agrees bounded).2 cut⟩
  · obtain ⟨split, many⟩ := not_forall.mp bounded
    obtain ⟨recoverable, clean⟩ := published.recoverable split
    have overfull : Overfull settings disk :=
      ⟨.inl published.marker, split, groups split, Nat.lt_of_not_le many, recoverable, clean⟩
    refine .inl ((overfull.cleanupPublished (agrees.split split) ?_).2 cut)
    rw [agrees.receipts, length_receiptsOf]
    exact Nat.lt_of_not_le many

theorem Archived.recovered (archived : Archived settings (.stopped disk true)) (cut : Nat) :
    Archived settings (.stopped (disk.performAll
      ((recoverPublished settings disk).actions.take cut)) true) := by
  rcases archived with overfull | ⟨groups, bounded, shelved⟩
  · exact .inl (overfull.recovers.2 cut)
  · by_cases marker : disk.read (.entry .root .staging) = none
    · have idle : (recoverPublished settings disk).actions = [] := by
        simp only [recoverPublished, readOwner, marker]
      rw [idle, List.take_nil]
      exact .inr ⟨groups, bounded, shelved⟩
    · exact .inr ⟨groups, bounded, (shelved.recovers bounded marker).2 cut⟩

theorem Course.archived {situation : Situation} (course : Course settings situation journal) :
    Archived settings situation := by
  induction course with
  | published cut course publish scratch _ =>
    obtain ⟨groups, pending, live⟩ := course.sound
    obtain ⟨published, agrees⟩ := live.published publish scratch
    exact archived_cleanup published agrees cut
  | recovered cut _ ih => exact ih.recovered cut
  | _ => trivial

theorem receiptCount_le {count : Nat} (inside : ∀ index part,
      disk.read (.entry .root (.chunk split index part)) ≠ none → index < count) :
    receiptCount disk split ≤ count := by
  have expected : ((names disk .root).filter (isReceipt split)) ⊆ expectedReceipts split count := by
    intro name member
    obtain ⟨listed, receipt⟩ := List.mem_filter.mp member
    cases name with
    | chunk owner index part =>
      cases part <;> simp only [isReceipt, Bool.false_eq_true, decide_eq_true_eq] at receipt
      subst receipt
      exact List.mem_map.mpr ⟨index, List.mem_range.mpr (inside _ _ (mem_names.mp listed)), rfl⟩
    | _ => simp [isReceipt] at receipt
  have few := (List.subperm_of_subset ((nodup_names disk .root).filter _) expected).length_le
  rwa [expectedReceipts, List.length_map, List.length_range] at few

theorem Prepared.receiptCount_le (prepared : Prepared settings disk groups) (split : Split) :
    receiptCount disk split ≤ (groups split).length := by
  apply Data.receiptCount_le
  intro index part present
  obtain ⟨other, found, foundPart, same, inside, _⟩ :=
    mem_ownedNames.mp (owned_of_inventory (prepared.inventory _ present))
  injection same with sameSplit sameIndex _
  subst sameSplit sameIndex
  exact inside

/-- Whatever crashes leave of a preparation is accepted by the next run exactly when its identity
was published, once its directory was created, and no split has over a million chunks. -/
theorem recoverability {published : Bool}
    (course : Course settings (.stopped disk published) journal) :
    resume settings disk published = .ok () ↔
      (published = false → disk.read (.directory .root) ≠ none →
        disk.read (.entry .root .staging) ≠ none) ∧
      ∀ split, receiptCount disk split ≤ sortableChunks := by
  cases published with
  | false =>
    have opens : ∀ {actions session}, Session.openAt settings disk = .ok (actions, session) →
        resume settings disk false = .ok () := by
      intro actions session opened
      simp only [resume, Bool.false_eq_true, ↓reduceIte, opened, bind, Except.bind]
      rfl
    have constructed : resume settings disk false = .ok () →
        ∃ actions, construct settings disk = .ok actions := by
      intro resumed
      simp only [resume, Bool.false_eq_true, ↓reduceIte] at resumed
      obtain ⟨_, opened, _⟩ := bind_eq_ok resumed
      obtain ⟨actions, constructed, _⟩ := bind_eq_ok opened
      exact ⟨actions, constructed⟩
    rcases course.sound with empty | unmarked | ⟨groups, holds, _⟩
    · obtain ⟨actions, constructs, _⟩ := constructs_new settings empty
      obtain ⟨session, opened, _⟩ := constructs.opens fun _ => Nat.zero_le _
      refine iff_of_true (opens opened) ⟨fun _ present => absurd (empty _) present, ?_⟩
      intro split
      have none : receiptCount disk split ≤ 0 :=
        receiptCount_le fun _ _ present => absurd (empty _) present
      omega
    · apply iff_of_false
      · intro resumed
        obtain ⟨actions, constructed⟩ := constructed resumed
        rw [unmarked.construct_error] at constructed
        cases constructed
      · intro conditions
        refine conditions.1 rfl ?_ unmarked.marker
        rw [unmarked.root]
        exact Option.some_ne_none _
    · have marked : disk.read (.entry .root .staging) ≠ none := by
        rw [holds.marker]
        exact Option.some_ne_none _
      have counts := counts_eq holds
      constructor
      · intro resumed
        obtain ⟨actions, constructed⟩ := constructed resumed
        refine ⟨fun _ _ => marked, ?_⟩
        rw [counts]
        exact holds.bounded constructed
      · intro conditions
        have bounded := conditions.2
        rw [counts] at bounded
        obtain ⟨actions, constructs, _⟩ := holds.constructs bounded
        obtain ⟨session, opened, _⟩ := constructs.opens bounded
        exact opens opened
  | true =>
    rcases course.archived with overfull | ⟨groups, bounded, shelved⟩
    · obtain ⟨split, groups, many, recoverable, _⟩ := overfull.chunks
      apply iff_of_false
      · obtain ⟨⟨failure, refused⟩, _⟩ := overfull.recovers
        intro resumed
        rcases overfull.marker with marker | ⟨_, marker, _⟩ <;>
          simp only [resume, ↓reduceIte, marker, refused] at resumed <;>
          cases resumed
      · intro conditions
        have few := conditions.2 split
        rw [receiptCount_eq recoverable] at few
        omega
    · apply iff_of_true
      · by_cases marker : disk.read (.entry .root .staging) = none
        · simp only [resume, ↓reduceIte, marker]
        · obtain ⟨file, present⟩ := Option.ne_none_iff_exists'.mp marker
          simp only [resume, ↓reduceIte, present]
          exact (shelved.recovers bounded marker).1
      · refine ⟨fun staging => Bool.noConfusion staging, ?_⟩
        intro split
        have prepared : Prepared settings disk groups := by
          rcases shelved with published | cleaning | cleaned
          · exact published.toPrepared
          · exact cleaning.toPrepared
          · exact cleaned.toPrepared
        exact Nat.le_trans (prepared.receiptCount_le split) (bounded split)

theorem created_unmarked : ∃ actions, construct tokenSettings ∅ = .ok actions ∧
    Unmarked (Volume.performAll ∅ (actions.take 1)) := by
  have empty : ∀ path : Path, (∅ : Disk).read path = none := fun path => AList.lookup_empty path
  have created := holds_createDirectory tokenSettings empty
  obtain ⟨inspected, inspectEq, _⟩ := created.inspect fun _ => Nat.zero_le _
  refine ⟨createDirectory .root tokenSettings.owner ++ inspected, ?_, ?_⟩
  · simp only [construct, empty, inspectEq, bind, Except.bind, pure, Except.pure]
  · have first : (createDirectory .root tokenSettings.owner ++ inspected).take 1 =
        [.write (.directory .root) .directory] := rfl
    rw [first]
    refine ⟨Volume.read_write_self _ _ _, ?_⟩
    rw [Volume.read_performAll_other]
    · exact empty _
    · intro action member inside
      rw [List.mem_singleton.mp member] at inside
      simp [Action.paths] at inside

theorem recoverability_fails_in_creation :
    ∃ actions, construct tokenSettings ∅ = .ok actions ∧
      resume tokenSettings (Volume.performAll ∅ (actions.take 1)) false =
        .error "No such file or directory: staging.json" := by
  obtain ⟨actions, constructed, unmarked⟩ := created_unmarked
  refine ⟨actions, constructed, ?_⟩
  simp only [resume, Bool.false_eq_true, ↓reduceIte, Session.openAt, unmarked.construct_error,
    bind, Except.bind]

theorem recoverability_at_the_first_stream :
    ∃ opening session appending after,
      Session.openAt tokenSettings ∅ = .ok (opening, session) ∧
      session.perform tokenSettings (.append .train 1 none) = .ok (appending, after) ∧
      resume tokenSettings (session.disk.performAll (appending.take 1)) false = .ok () := by
  obtain ⟨opening, session, opened, live, reached⟩ := openAt_empty tokenSettings
  have performed := reached.append
  have holds := reached.holds_openStreams live 1
  have course := Course.crash 1 (.opened .absent opened) performed
  refine ⟨opening, session, _, _, opened, performed, (recoverability course).mpr ⟨?_, ?_⟩⟩
  · intro _ _
    rw [holds.marker]
    exact Option.some_ne_none _
  · intro split
    rw [counts_eq holds]
    exact Nat.zero_le _

end

end SparseLab.Data
