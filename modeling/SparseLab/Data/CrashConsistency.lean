import SparseLab.Data.SessionReopening

/-! A process continues after exactly the sealed chunks, wherever the one before was stopped. -/

namespace SparseLab.Data

open Library

variable {settings : Settings} {session after : Session} {journal : Journal} {disk : Disk}
  {groups : Split → List (List Record)} {actions : Actions}

def Sound (settings : Settings) : Situation → Journal → Prop
  | .stopped disk false, journal => (∀ path, disk.read path = none) ∨ Unmarked disk ∨
      ∃ groups, Holds settings disk groups ∧
        ∀ split, (groups split).flatten <+: journal.records split
  | .stopped _ true, _ => True
  | .running session, journal => ∃ groups pending, Live settings session journal groups pending

theorem Holds.bounded (holds : Holds settings disk groups)
    (constructed : construct settings disk = .ok actions) (split : Split) :
    (groups split).length ≤ sortableChunks := by
  by_contra many
  obtain ⟨receipt, refused⟩ := holds.construct_refuses (Nat.lt_of_not_le many)
  rw [refused] at constructed
  cases constructed

section

variable (sound : Sound settings (.stopped disk false) journal)

include sound

theorem Sound.openingCrash (constructed : construct settings disk = .ok actions) (cut : Nat) :
    Sound settings (.stopped (disk.performAll (actions.take cut)) false) journal := by
  rcases sound with empty | unmarked | ⟨groups, holds, within⟩
  · obtain ⟨found, constructs, cuts⟩ := constructs_new settings empty
    rw [constructs.returned] at constructed
    obtain rfl := Except.ok.inj constructed
    rcases cuts cut with same | unmarked | holds
    · exact .inl same
    · exact .inr (.inl unmarked)
    · exact .inr (.inr ⟨_, holds, fun _ => List.nil_prefix⟩)
  · rw [unmarked.construct_error] at constructed
    cases constructed
  · obtain ⟨found, constructs, cuts⟩ := holds.constructs (holds.bounded constructed)
    rw [constructs.returned] at constructed
    obtain rfl := Except.ok.inj constructed
    exact .inr (.inr ⟨groups, cuts cut, within⟩)

theorem Sound.begins (opened : Session.openAt settings disk = .ok (actions, session)) :
    ∃ groups, Live settings session (journal.reopened session) groups (fun _ => []) ∧
      ∀ path : Path, path.place ≠ .root → session.disk.read path = none := by
  obtain ⟨found, constructed, _⟩ := bind_eq_ok opened
  rcases sound with empty | unmarked | ⟨groups, holds, within⟩
  · obtain ⟨found, constructs, _⟩ := constructs_new settings empty
    obtain ⟨same, openEq, place, _, live⟩ := constructs.opens fun _ => Nat.zero_le _
    rw [openEq] at opened
    obtain ⟨_, rfl⟩ := Prod.mk.inj (Except.ok.inj opened)
    rw [place]
    exact ⟨_, live journal fun _ => List.nil_prefix, constructs.clean.works⟩
  · rw [unmarked.construct_error] at constructed
    cases constructed
  · have bounded := holds.bounded constructed
    obtain ⟨found, constructs, _⟩ := holds.constructs bounded
    obtain ⟨same, openEq, place, _, live⟩ := constructs.opens bounded
    rw [openEq] at opened
    obtain ⟨_, rfl⟩ := Prod.mk.inj (Except.ok.inj opened)
    rw [place]
    exact ⟨_, live journal within, constructs.clean.works⟩

theorem Sound.opened (opened : Session.openAt settings disk = .ok (actions, session)) :
    Sound settings (.running session) (journal.reopened session) := by
  obtain ⟨groups, live, _⟩ := sound.begins opened
  exact ⟨groups, _, live⟩

end

theorem prefix_flatten {first second : List (List Record)} (within : first <+: second) :
    first.flatten <+: second.flatten := by
  obtain ⟨rest, rfl⟩ := within
  rw [List.flatten_append]
  exact List.prefix_append _ _

theorem Holds.manifestCrash (holds : Holds settings disk groups)
    (results : Split → SplitChunks.Finished) (cut : Nat) :
    Holds settings (disk.performAll ((storeManifest settings results).take cut)) groups := by
  apply holds.removable
  intro action member path touched
  simp only [storeManifest, storeFile, List.mem_cons, List.not_mem_nil, or_false] at member
  rcases member with rfl | rfl <;>
    rw [List.mem_singleton.mp touched] <;>
    exact removable_other trivial (by simp)

theorem Course.sound {situation : Situation} (course : Course settings situation journal) :
    Sound settings situation journal := by
  induction course with
  | absent => exact .inl fun path => AList.lookup_empty path
  | openingCrash cut _ constructed ih => exact ih.openingCrash constructed cut
  | opened _ opened ih => exact ih.opened opened
  | performed _ performed ih =>
    obtain ⟨groups, pending, live⟩ := ih
    obtain ⟨groups', pending', advanced, _⟩ := live.perform performed
    exact ⟨groups', pending', advanced⟩
  | crash cut _ performed ih =>
    obtain ⟨groups, pending, live⟩ := ih
    obtain ⟨groups', pending', advanced, _, cuts⟩ := live.perform performed
    obtain ⟨kept, between, holds⟩ := cuts cut
    refine .inr (.inr ⟨kept, holds, ?_⟩)
    intro split
    rw [advanced.records]
    exact (prefix_flatten (between split).2).trans (List.prefix_append _ _)
  | manifestCrash cut _ _ ih =>
    obtain ⟨groups, pending, live⟩ := ih
    refine .inr (.inr ⟨groups, live.holds.manifestCrash _ cut, ?_⟩)
    intro split
    rw [live.records]
    exact List.prefix_append _ _
  | published | recovered => trivial

structure ResumesSplit (settings : Settings) (split : Split) (sealedBefore : Nat)
    (records : List Record) (crashed : Disk) (reopened : Session) : Prop where
  sealedStay : sealedBefore ≤ (reopened.ledgers split).state.acquiredDocuments
  within : (reopened.ledgers split).state.acquiredDocuments ≤ records.length
  receipts : (reopened.ledgers split).sealedReceipts.length = receiptCount crashed split
  stored : ∀ index (inside : index < (reopened.ledgers split).sealedReceipts.length),
    crashed.read (.entry .root (.chunk split index .receipt)) =
      some (.receipt ((reopened.ledgers split).sealedReceipts.get ⟨index, inside⟩))
  state : (reopened.ledgers split).state =
    tally (records.take (reopened.ledgers split).state.acquiredDocuments)
  pending : (reopened.ledgers split).pending = {} ∧ (reopened.ledgers split).streams = none
  partials : ∀ index part, reopened.disk.read (.entry .root (.chunk split index part)) ≠ none →
    index < receiptCount crashed split
  rest : ∀ more, reopened.collect settings split more = Session.uninterrupted settings split
    (records.take (reopened.ledgers split).state.acquiredDocuments ++ more)

/-- A process that continues after a crash, where `records` were appended before it. -/
structure Resumes (settings : Settings) (sealedBefore : Split → Nat)
    (records : Split → List Record) (crashed : Disk) (reopened : Session) : Prop where
  splits : ∀ split, ResumesSplit settings split (sealedBefore split) (records split) crashed reopened
  works : ∀ split sequence, reopened.works split sequence = none
  scratch : ∀ path : Path, path.place ≠ .root → reopened.disk.read path = none

/-- After a crash inside any operation, the ledger opens as the sealed prefix of the appended
records, and goes on as if uninterrupted, exactly when no split has over a million chunks. -/
theorem crash_consistency {operation : Operation} (course : Course settings (.running session) journal)
    (performed : session.perform settings operation = .ok (actions, after)) (cut : Nat) :
    (∃ opening reopened,
      Session.openAt settings (session.disk.performAll (actions.take cut)) =
        .ok (opening, reopened) ∧
      Resumes settings (fun split => (session.ledgers split).state.acquiredDocuments)
        (journal.after operation).records (session.disk.performAll (actions.take cut)) reopened) ↔
      ∀ split, receiptCount (session.disk.performAll (actions.take cut)) split ≤
        sortableChunks := by
  obtain ⟨groups, pending, live⟩ := course.sound
  obtain ⟨groups', pending', advanced, _, cuts⟩ := live.perform performed
  obtain ⟨kept, between, holds⟩ := cuts cut
  have counts := counts_eq holds
  constructor
  · rintro ⟨opening, reopened, opened, _⟩ split
    obtain ⟨found, constructed, _⟩ := bind_eq_ok opened
    rw [counts]
    exact holds.bounded constructed split
  · intro bounded
    rw [counts] at bounded
    obtain ⟨opening, constructs, _⟩ := holds.constructs bounded
    obtain ⟨reopened, opened, disk, works, lives⟩ := constructs.opens bounded
    have within : ∀ split, (kept split).flatten <+: (journal.after operation).records split := by
      intro split
      rw [advanced.records]
      exact (prefix_flatten (between split).2).trans (List.prefix_append _ _)
    have resumed := lives (journal.after operation) within
    refine ⟨opening, reopened, opened, ?_, works, ?_⟩
    · intro split
      have tracks := resumed.tracks split
      have before := live.tracks split
      have acquired : (reopened.ledgers split).state.acquiredDocuments =
          (kept split).flatten.length := by
        rw [tracks.state, tally_acquired]
      have taken : ((journal.after operation).records split).take
          (reopened.ledgers split).state.acquiredDocuments = (kept split).flatten := by
        rw [acquired]
        exact (List.prefix_iff_eq_take.mp (within split)).symm
      have receipts : (reopened.ledgers split).sealedReceipts.length = (kept split).length := by
        rw [tracks.receipts, length_receiptsOf]
      refine ⟨?_, ?_, ?_, ?_, ?_, ⟨?_, ?_⟩, ?_, ?_⟩
      · rw [acquired, before.state, tally_acquired]
        exact (prefix_flatten (between split).1).length_le
      · rw [acquired]
        exact (within split).length_le
      · rw [receipts, counts]
      · intro index inside
        rw [receipts] at inside
        rw [(holds.splits split).stored.receipt index inside]
        simp only [tracks.receipts, resumed.split, receiptsOf, List.get_eq_getElem,
          List.getElem_map, List.getElem_range]
      · rw [taken]
        exact tracks.state
      · exact tracks.counted
      · exact tracks.streams
      · intro index part present
        rw [disk] at present
        rw [counts]
        exact constructs.clean.chunks split index part present
      · intro more
        have valid : ∀ record ∈ (kept split).flatten, ValidRecord settings record := by
          intro record member
          obtain ⟨group, inside, found⟩ := List.mem_flatten.mp member
          exact ((holds.splits split).valid group inside).valid record found
        rw [resumed.collect, uninterrupted_eq, taken, expectedCollection_append valid,
          List.nil_append]
        simp only [Journal.reopened, taken]
    · intro path outside
      rw [disk]
      exact constructs.clean.works path outside

section

def zeroDigest : Sha256 :=
  ⟨String.ofList (List.replicate 64 '0'), by rw [String.length_ofList, List.length_replicate]⟩

def tokenSettings : Settings where
  cacheIdentity := "cache"
  binding := "source"
  arrays := [.ids]
  itemsize := fun _ => 4
  sha256 := fun _ => zeroDigest
  signManifest := fun _ => zeroDigest
  documentSize := fun _ => 0
  arraysNodup := by simp
  idsMem := by simp
  itemsizePos := by simp
  recordLimitPos := by simp
  rawByteLimitPos := by simp

def skippedChunk (index : Nat) : List Operation :=
  [.append .train (index + 1) none, .sealChunk .train]

def skippedChunks (count : Nat) : List Operation :=
  (List.range count).flatMap skippedChunk

structure AtChunk (settings : Settings) (session : Session) (count : Nat) : Prop where
  live : ∃ journal groups pending, Live settings session journal groups pending
  sealed : (session.ledgers .train).sealedReceipts.length = count
  pending : (session.ledgers .train).pending.acquiredDocuments = 0
  acquired : (session.ledgers .train).state.acquiredDocuments = count

theorem sealChunk_sealed {chunks sealed' : SplitChunks}
    (returned : chunks.sealChunk settings = .ok (actions, sealed'))
    (some : chunks.pending.acquiredDocuments ≠ 0) :
    sealed'.sealedReceipts.length = chunks.sealedReceipts.length + 1 ∧ sealed'.pending = {} ∧
      sealed'.state.acquiredDocuments =
        chunks.state.acquiredDocuments + chunks.pending.acquiredDocuments := by
  rw [SplitChunks.sealChunk, if_neg some] at returned
  obtain ⟨_, _, rest⟩ := bind_eq_ok returned
  obtain ⟨_, rfl⟩ := Prod.mk.inj (Except.ok.inj rest)
  exact ⟨by rw [SplitChunks.sealedWith, List.length_append, List.length_singleton], rfl, rfl⟩

theorem AtChunk.append {count : Nat} (reached : AtChunk settings session count) :
    session.perform settings (.append .train (count + 1) none) = .ok
      ((session.ledgers .train).openStreams settings, session.withLedger .train
        ((session.ledgers .train).openStreams settings)
        ((session.ledgers .train).withRecord none) none) := by
  have valid : ValidRecord settings none := ⟨by simp, by rw [byteSize_none]; exact Nat.zero_le _⟩
  have roomy : ¬ (session.ledgers .train).full settings (byteSize settings [none]) :=
    fun full => full.1 reached.pending
  have contiguous : ¬ count + 1 ≠ (session.ledgers .train).state.acquiredDocuments +
      (session.ledgers .train).pending.acquiredDocuments + 1 := by
    rw [reached.acquired, reached.pending]
    exact not_not_intro rfl
  simp only [Session.perform, SplitChunks.appendRecord, if_neg contiguous,
    recordBytes_valid settings valid, bind, Except.bind, if_neg roomy]
  rfl

theorem AtChunk.next {count : Nat} (reached : AtChunk settings session count) :
    ∃ next, session.performEach settings (skippedChunk count) = .ok next ∧
      AtChunk settings next (count + 1) := by
  obtain ⟨journal, groups, pending, live⟩ := reached.live
  have appended := reached.append
  generalize middleEq : session.withLedger .train ((session.ledgers .train).openStreams settings)
    ((session.ledgers .train).withRecord none) none = middle at appended
  obtain ⟨groups', pending', middleLive, _⟩ := live.perform appended
  obtain ⟨sealing, ledger, _, sealEq, _⟩ := (middleLive.tracks .train).sealRest
  have sealedEq : middle.perform settings (.sealChunk .train) =
      .ok (sealing, middle.withLedger .train sealing ledger none) := by
    simp only [Session.perform, sealEq, bind, Except.bind, pure, Except.pure]
  obtain ⟨groups'', pending'', nextLive, _⟩ := middleLive.perform sealedEq
  have ledgerEq : middle.ledgers .train = (session.ledgers .train).withRecord none := by
    rw [← middleEq, Session.withLedger_self]
  have counted : ((session.ledgers .train).withRecord none).pending.acquiredDocuments = 1 := by
    simp only [SplitChunks.withRecord, SplitChunks.countRecord, reached.pending]
  rw [ledgerEq] at sealEq
  obtain ⟨receipts, nothing, acquired⟩ := sealChunk_sealed sealEq (by rw [counted]; decide)
  refine ⟨_, ?_, ⟨_, _, _, nextLive⟩, ?_, ?_, ?_⟩
  · simp only [skippedChunk, Session.performEach, appended, sealedEq, bind, Except.bind]
  · rw [Session.withLedger_self, receipts]
    exact congrArg (· + 1) reached.sealed
  · rw [Session.withLedger_self, nothing]
  · rw [Session.withLedger_self, acquired, counted]
    exact congrArg (· + 1) reached.acquired

theorem AtChunk.skippedChunks (reached : AtChunk settings session 0) (count : Nat) :
    ∃ next, session.performEach settings (Data.skippedChunks count) = .ok next ∧
      AtChunk settings next count := by
  induction count with
  | zero => exact ⟨session, rfl, reached⟩
  | succ count ih =>
    obtain ⟨middle, earlier, atChunk⟩ := ih
    obtain ⟨next, last, atNext⟩ := atChunk.next
    refine ⟨next, ?_, atNext⟩
    rw [Data.skippedChunks, List.range_succ, List.flatMap_append, Session.performEach_append]
    rw [Data.skippedChunks] at earlier
    rw [earlier, List.flatMap_singleton]
    exact last

variable (settings) in
theorem openAt_empty : ∃ opening session, Session.openAt settings ∅ = .ok (opening, session) ∧
    Live settings session {} (fun _ => []) (fun _ => []) ∧ AtChunk settings session 0 := by
  obtain ⟨opening, session, opened, live⟩ := openAt_new settings
  have tracks := live.tracks .train
  refine ⟨opening, session, opened, live, ⟨_, _, _, live⟩, ?_, ?_, ?_⟩
  · rw [tracks.receipts, length_receiptsOf]
    rfl
  · rw [tracks.counted]
    rfl
  · rw [tracks.state]
    rfl

theorem crash_consistency_fails_at_a_million_chunks :
    ∃ opening session stopped, ∃ receipt : String,
      Session.openAt tokenSettings ∅ = .ok (opening, session) ∧
      session.performEach tokenSettings (skippedChunks 1000001) = .ok stopped ∧
      Session.openAt tokenSettings stopped.disk =
        .error s!"noncontiguous sealed staging chunk: {receipt}" := by
  obtain ⟨opening, session, opened, _, reached⟩ := openAt_empty tokenSettings
  obtain ⟨stopped, performed, atChunk⟩ := reached.skippedChunks 1000001
  obtain ⟨journal, groups, pending, stoppedLive⟩ := atChunk.live
  have many : sortableChunks < (groups .train).length := by
    have count := atChunk.sealed
    rw [(stoppedLive.tracks .train).receipts, length_receiptsOf] at count
    rw [count]
    norm_num [sortableChunks]
  obtain ⟨receipt, refused⟩ := stoppedLive.holds.construct_refuses many
  refine ⟨opening, session, stopped, receipt, opened, performed, ?_⟩
  simp only [Session.openAt, refused, bind, Except.bind]

theorem AtChunk.holds_openStreams {pending : Split → List Record}
    (live : Live settings session journal (fun _ => []) pending)
    (reached : AtChunk settings session 0) (cut : Nat) :
    Holds settings (session.disk.performAll
      (((session.ledgers .train).openStreams settings).take cut)) fun _ => [] := by
  apply live.holds.removable
  intro action member path touched
  obtain ⟨array, inside, same⟩ := paths_openStreams member touched
  rw [same, SplitChunks.chunkPath, live.place, live.split, reached.sealed]
  exact removable_loose inside

theorem crash_consistency_at_the_first_stream :
    ∃ opening session appending after reopening reopened,
      Session.openAt tokenSettings ∅ = .ok (opening, session) ∧
      session.perform tokenSettings (.append .train 1 none) = .ok (appending, after) ∧
      Session.openAt tokenSettings (session.disk.performAll (appending.take 1)) =
        .ok (reopening, reopened) ∧
      Resumes tokenSettings (fun split => (session.ledgers split).state.acquiredDocuments)
        (Journal.append {} .train [none]).records (session.disk.performAll (appending.take 1))
        reopened := by
  obtain ⟨opening, session, opened, live, reached⟩ := openAt_empty tokenSettings
  have performed := reached.append
  have course : Course tokenSettings (.running session) (Journal.reopened {} session) :=
    .opened .absent opened
  have fresh : Journal.reopened {} session = {} := by
    simp [Journal.reopened]
  rw [fresh] at course
  have holds := reached.holds_openStreams live 1
  obtain ⟨reopening, reopened, reopenEq, resumes⟩ :=
    (crash_consistency course performed 1).mpr fun split => by
      rw [counts_eq holds]
      exact Nat.zero_le _
  exact ⟨opening, session, _, _, reopening, reopened, opened, performed, reopenEq, resumes⟩

end

end SparseLab.Data
