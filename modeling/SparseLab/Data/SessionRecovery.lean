import SparseLab.Data.StagingRecovery
import SparseLab.Data.StagingSessions

/-! What every operation of a process preserves, and what it leaves where it is stopped. -/

namespace SparseLab.Data

open Library

structure WorkDone (settings : Settings) (disk : Disk) (split : Split) (sequence : Nat)
    (work : SplitChunks) (batch : List Record) : Prop where
  place : work.place = .work split sequence
  marker : disk.read (.entry (.work split sequence) .staging) =
    some (.owner (.work settings.owner split sequence) none)
  tracks : ∃ groups, Tracks settings disk work groups [] ∧ groups.flatten = batch
  split : work.split = split

structure Completed (settings : Settings) (disk : Disk) (split : Split) (records : List Record)
    (finished : SplitChunks.Finished) : Prop where
  finished : finished = finishedOf settings records
  final : ∀ array ∈ settings.arrays,
    disk.read (.entry .root (.final split array)) = some (.array array (rawOf records array))
  temporary : ∀ array ∈ settings.arrays, disk.read (.entry .root (.finalTmp split array)) = none

structure Live (settings : Settings) (session : Session) (journal : Journal)
    (groups : Split → List (List Record)) (pending : Split → List Record) : Prop where
  holds : Holds settings session.disk groups
  place : ∀ split, (session.ledgers split).place = .root
  split : ∀ split, (session.ledgers split).split = split
  tracks : ∀ split, Tracks settings session.disk (session.ledgers split) (groups split)
    (pending split)
  records : ∀ split, journal.records split = (groups split).flatten ++ pending split
  works : ∀ split sequence work, session.works split sequence = some work →
    WorkDone settings session.disk split sequence work (journal.batches split sequence)
  results : ∀ split finished, session.results split = some finished → pending split = [] ∧
    Completed settings session.disk split (journal.records split) finished
  manifest : session.disk.read (.entry .root .manifest) = none
  manifestTmp : session.disk.read (.entry .root .manifestTmp) = none

def Touches (settings : Settings) (split : Split) (scratch : Option Nat) (path : Path) : Prop :=
  (∃ index part, path = .entry .root (.chunk split index part)) ∨
    (∃ array ∈ settings.arrays,
      path = .entry .root (.final split array) ∨ path = .entry .root (.finalTmp split array)) ∨
    ∃ sequence, scratch = some sequence ∧ (path = .directory (.work split sequence) ∨
      ∃ name, path = .entry (.work split sequence) name ∧ discardable settings name = true)

variable {settings : Settings} {split : Split} {scratch : Option Nat} {path : Path}

theorem Touches.ordinary (touches : Touches settings split scratch path) :
    Ordinary settings path := by
  rcases touches with ⟨index, part, rfl⟩ | ⟨array, member, rfl | rfl⟩ |
    ⟨sequence, _, rfl | ⟨name, rfl, owned⟩⟩
  · exact ⟨by simp, .inl ⟨_, _, _, rfl⟩⟩
  · exact ⟨by simp, .inr member⟩
  · exact ⟨by simp, .inr member⟩
  · exact Place.noConfusion
  · exact owned

theorem Touches.manifest (touches : Touches settings split scratch path) :
    path ≠ .entry .root .manifest ∧ path ≠ .entry .root .manifestTmp := by
  rcases touches with ⟨index, part, rfl⟩ | ⟨array, member, rfl | rfl⟩ |
    ⟨sequence, _, rfl | ⟨name, rfl, owned⟩⟩ <;>
    simp

theorem Touches.work {other : Split} {sequence : Nat}
    (touches : Touches settings split scratch path) (inside : path.place = .work other sequence) :
    other = split ∧ scratch = some sequence := by
  rcases touches with ⟨index, part, rfl⟩ | ⟨array, member, rfl | rfl⟩ |
    ⟨found, same, rfl | ⟨name, rfl, owned⟩⟩
  · cases inside
  · cases inside
  · cases inside
  · injection inside with sameSplit sameSequence
    exact ⟨sameSplit.symm, by rw [same, sameSequence]⟩
  · injection inside with sameSplit sameSequence
    exact ⟨sameSplit.symm, by rw [same, sameSequence]⟩

theorem Touches.other {other : Split} (different : other ≠ split)
    (touches : Touches settings split scratch path) :
    (∀ index part, path ≠ .entry .root (.chunk other index part)) ∧
      ∀ array, path ≠ .entry .root (.final other array) ∧
        path ≠ .entry .root (.finalTmp other array) := by
  rcases touches with ⟨index, part, rfl⟩ | ⟨array, member, rfl | rfl⟩ |
    ⟨sequence, _, rfl | ⟨name, rfl, owned⟩⟩ <;>
    simp [different.symm]

variable {session after : Session} {journal journal' : Journal} {actions : Actions}
  {groups kept : Split → List (List Record)} {pending : Split → List Record}
  {work : SplitChunks} {batch : List Record} {sequence : Nat} {disk : Disk}

theorem WorkDone.frame (done : WorkDone settings disk split sequence work batch)
    (apart : ∀ action ∈ actions, ∀ path ∈ action.paths, path.place ≠ .work split sequence) :
    WorkDone settings (disk.performAll actions) split sequence work batch := by
  have same : ∀ name, (disk.performAll actions).read (.entry (.work split sequence) name) =
      disk.read (.entry (.work split sequence) name) := by
    intro name
    apply Volume.read_performAll_other
    intro action member touched
    exact apart action member _ touched rfl
  obtain ⟨groups, tracks, flat⟩ := done.tracks
  refine ⟨done.place, (same _).trans done.marker, ⟨groups, tracks.frame ?_, flat⟩, done.split⟩
  intro index part
  rw [SplitChunks.chunkPath, done.place]
  exact same _

theorem Completed.frame {records : List Record} {finished : SplitChunks.Finished}
    (completed : Completed settings disk split records finished)
    (apart : ∀ action ∈ actions, ∀ path ∈ action.paths, ∀ array,
      path ≠ .entry .root (.final split array) ∧ path ≠ .entry .root (.finalTmp split array)) :
    Completed settings (disk.performAll actions) split records finished := by
  refine ⟨completed.finished, ?_, ?_⟩
  · intro array member
    rw [Volume.read_performAll_other]
    · exact completed.final array member
    · intro action inside touched
      exact (apart action inside _ touched array).1 rfl
  · intro array member
    rw [Volume.read_performAll_other]
    · exact completed.temporary array member
    · intro action inside touched
      exact (apart action inside _ touched array).2 rfl

def Advances (settings : Settings) (session : Session) (groups : Split → List (List Record))
    (actions : Actions) (after : Session) (journal : Journal) : Prop :=
  ∃ groups' pending', Live settings after journal groups' pending' ∧
    (∀ split, groups split <+: groups' split) ∧
    ∀ cut, ∃ kept, (∀ split, groups split <+: kept split ∧ kept split <+: groups' split) ∧
      Holds settings (session.disk.performAll (actions.take cut)) kept

variable (scratch) in
theorem Live.advance (live : Live settings session journal groups pending) {ledger : SplitChunks}
    {newGroups : List (List Record)} {newPending : List Record}
    (extended : Extends settings session.disk (session.ledgers split) (groups split) actions ledger
      newGroups newPending)
    (touches : ∀ action ∈ actions, ∀ path ∈ action.paths, Touches settings split scratch path)
    (disk : after.disk = session.disk.performAll actions)
    (ledgers : after.ledgers = Function.update session.ledgers split ledger)
    (records : journal'.records =
      Function.update journal.records split (newGroups.flatten ++ newPending))
    (works : ∀ other sequence work, after.works other sequence = some work →
      (session.works other sequence = some work ∧ ¬ (other = split ∧ scratch = some sequence) ∧
        journal'.batches other sequence = journal.batches other sequence) ∨
      WorkDone settings after.disk other sequence work (journal'.batches other sequence))
    (results : ∀ other, other ≠ split → after.results other = session.results other)
    (completed : ∀ finished, after.results split = some finished → newPending = [] ∧
      Completed settings after.disk split (newGroups.flatten ++ newPending) finished) :
    Advances settings session groups actions after journal' := by
  have other : ∀ other, other ≠ split →
      Extends settings session.disk (session.ledgers other) (groups other) actions
        (session.ledgers other) (groups other) (pending other) := by
    intro other different
    apply (live.tracks other).elsewhere
    intro action member path touched index part same
    rw [SplitChunks.chunkPath, live.place, live.split] at same
    exact ((touches action member path touched).other different).1 index part same
  have ordinary : ∀ action ∈ actions, ∀ path ∈ action.paths, Ordinary settings path :=
    fun action member path touched => (touches action member path touched).ordinary
  have tracks : ∀ other, Tracks settings after.disk (after.ledgers other)
      (Function.update groups split newGroups other)
      (Function.update pending split newPending other) := by
    intro found
    rw [disk, ledgers]
    by_cases same : found = split
    · subst same
      simp only [Function.update_self]
      exact extended.tracks
    · simp only [Function.update_of_ne same]
      exact (other found same).tracks
  have place : ∀ other, (after.ledgers other).place = .root := by
    intro found
    rw [ledgers]
    by_cases same : found = split
    · subst same
      rw [Function.update_self, extended.place, live.place]
    · rw [Function.update_of_ne same, live.place]
  have splits : ∀ other, (after.ledgers other).split = other := by
    intro found
    rw [ledgers]
    by_cases same : found = split
    · subst same
      rw [Function.update_self, extended.split, live.split]
    · rw [Function.update_of_ne same, live.split]
  refine ⟨Function.update groups split newGroups, Function.update pending split newPending,
    ⟨?_, place, splits, tracks, ?_, ?_, ?_, ?_, ?_⟩, ?_, ?_⟩
  · rw [disk]
    apply live.holds.of_splits ordinary
    intro found
    have recoverable := (tracks found).recoverable
    rwa [place, splits, disk] at recoverable
  · intro found
    rw [records]
    by_cases same : found = split
    · subst same
      simp only [Function.update_self]
    · simp only [Function.update_of_ne same]
      exact live.records found
  · intro found sequence work present
    rcases works found sequence work present with ⟨earlier, apart, batches⟩ | done
    · rw [disk, batches]
      apply (live.works found sequence work earlier).frame
      intro action member path touched inside
      exact apart ((touches action member path touched).work inside)
    · exact done
  · intro found finished present
    rw [records]
    by_cases same : found = split
    · subst same
      simp only [Function.update_self]
      exact completed finished present
    · rw [results found same] at present
      obtain ⟨empty, earlier⟩ := live.results found finished present
      simp only [Function.update_of_ne same]
      refine ⟨empty, ?_⟩
      rw [disk]
      apply earlier.frame
      intro action member path touched
      exact ((touches action member path touched).other same).2
  · rw [disk, Volume.read_performAll_other]
    · exact live.manifest
    · intro action member touched
      exact (touches action member _ touched).manifest.1 rfl
  · rw [disk, Volume.read_performAll_other]
    · exact live.manifestTmp
    · intro action member touched
      exact (touches action member _ touched).manifest.2 rfl
  · intro found
    by_cases same : found = split
    · subst same
      rw [Function.update_self]
      exact extended.grows
    · exact (Function.update_of_ne same _ _) ▸ List.prefix_rfl
  · intro cut
    obtain ⟨part, before, within, recoverable⟩ := extended.cuts cut
    refine ⟨Function.update groups split part, ?_, ?_⟩
    · intro found
      by_cases same : found = split
      · subst same
        simp only [Function.update_self]
        exact ⟨before, within⟩
      · simp only [Function.update_of_ne same]
        exact ⟨List.prefix_refl _, List.prefix_refl _⟩
    · apply live.holds.of_splits
      · intro action member
        exact ordinary action (List.mem_of_mem_take member)
      · intro found
        by_cases same : found = split
        · subst same
          rw [Function.update_self]
          rwa [live.place, live.split] at recoverable
        · rw [Function.update_of_ne same]
          obtain ⟨part, before, within, recoverable⟩ := (other found same).cuts cut
          rw [live.place, live.split] at recoverable
          rwa [← within.eq_of_length_le before.length_le]

section

theorem appendRecord_ok {chunks : SplitChunks} {acquiredIndex : Nat} {record : Record}
    {result : Actions × SplitChunks}
    (returned : chunks.appendRecord settings acquiredIndex record = .ok result) :
    acquiredIndex = chunks.state.acquiredDocuments + chunks.pending.acquiredDocuments + 1 ∧
      ValidRecord settings record := by
  rw [SplitChunks.appendRecord] at returned
  split at returned
  · cases returned
  · rename_i contiguous
    refine ⟨not_not.mp contiguous, ?_⟩
    obtain ⟨bytes, checked, _⟩ := bind_eq_ok returned
    have spec := recordBytes_spec settings chunks.split record
    rw [checked] at spec
    exact spec.1

theorem appendAll_ok {chunks : SplitChunks} {records : List Record} {result : Actions × SplitChunks}
    (returned : chunks.appendAll settings records = .ok result) :
    ∀ record ∈ records, ValidRecord settings record := by
  induction records generalizing chunks result with
  | nil => simp
  | cons record records ih =>
    obtain ⟨first, appended, rest⟩ := bind_eq_ok returned
    obtain ⟨more, later, _⟩ := bind_eq_ok rest
    intro other member
    rcases List.mem_cons.mp member with same | inside
    · rw [same]
      exact (appendRecord_ok appended).2
    · exact ih later other inside

theorem writeWork_ok {result : Actions × SplitChunks}
    (returned : SplitChunks.writeWork settings disk split sequence batch = .ok result) :
    occupied disk (.work split sequence) = false ∧
      ∀ record ∈ batch, ValidRecord settings record := by
  rw [SplitChunks.writeWork] at returned
  split at returned
  · cases returned
  · rename_i free
    refine ⟨Bool.eq_false_iff.mpr free, ?_⟩
    obtain ⟨first, appended, _⟩ := bind_eq_ok returned
    exact appendAll_ok appended

theorem adopt_ok {chunks : SplitChunks} {firstAcquiredIndex : Nat} {result : Actions × SplitChunks}
    (returned : SplitChunks.adopt settings disk chunks work firstAcquiredIndex = .ok result) :
    chunks.pending.acquiredDocuments = 0 ∧
      firstAcquiredIndex = chunks.state.acquiredDocuments + 1 := by
  obtain ⟨accepted, checked, rest⟩ := bind_eq_ok returned
  split at rest
  · rename_i holds
    subst holds
    rw [SplitChunks.adoptable] at checked
    split at checked
    · cases checked
    · obtain ⟨marker, _, conditions⟩ := bind_eq_ok checked
      have all := of_decide_eq_true (Except.ok.inj conditions)
      exact ⟨all.1, all.2.2.2.2.2⟩
  · cases rest

theorem withWork_none {other : Split} {number : Nat} {done : SplitChunks}
    (present : (session.withWork split sequence actions none).works other number = some done) :
    session.works other number = some done ∧ ¬ (other = split ∧ some sequence = some number) := by
  by_cases sameSplit : other = split
  · subst sameSplit
    by_cases sameNumber : number = sequence
    · subst sameNumber
      simp [Session.withWork] at present
    · simp only [Session.withWork, Function.update_self,
        Function.update_of_ne sameNumber] at present
      refine ⟨present, ?_⟩
      rintro ⟨_, same⟩
      exact sameNumber (Option.some.inj same).symm
  · simp only [Session.withWork, Function.update_of_ne sameSplit] at present
    exact ⟨present, fun same => sameSplit same.1⟩

variable (live : Live settings session journal groups pending)

include live

theorem Live.append {acquiredIndex : Nat} {record : Record}
    (performed : session.perform settings (.append split acquiredIndex record) =
      .ok (actions, after)) :
    Advances settings session groups actions after (journal.append split [record]) := by
  obtain ⟨⟨found, ledger⟩, appended, same⟩ := bind_eq_ok performed
  obtain ⟨rfl, rfl⟩ := Prod.mk.inj (Except.ok.inj same)
  obtain ⟨contiguous, valid⟩ := appendRecord_ok appended
  have tracks := live.tracks split
  obtain ⟨made, made', newGroups, newPending, appendEq, extended, chunkLocal, records⟩ :=
    tracks.appendRecord valid
  rw [contiguous, tracks.state, tracks.counted, tally_acquired, tally_acquired, appendEq]
    at appended
  obtain ⟨rfl, rfl⟩ := Prod.mk.inj (Except.ok.inj appended)
  apply live.advance none extended
  · intro action member path touched
    obtain ⟨index, part, same, _⟩ := chunkLocal action member path touched
    rw [SplitChunks.chunkPath, live.place, live.split] at same
    exact .inl ⟨index, part, same⟩
  · rfl
  · rfl
  · rw [records, ← live.records]
    rfl
  · intro other sequence work present
    exact .inl ⟨present, by simp, rfl⟩
  · intro other different
    exact Function.update_of_ne different _ _
  · intro finished present
    simp [Session.withLedger] at present

theorem Live.sealChunk
    (performed : session.perform settings (.sealChunk split) = .ok (actions, after)) :
    Advances settings session groups actions after journal := by
  obtain ⟨⟨found, ledger⟩, returned, same⟩ := bind_eq_ok performed
  obtain ⟨rfl, rfl⟩ := Prod.mk.inj (Except.ok.inj same)
  obtain ⟨made, made', newGroups, sealEq, extended, chunkLocal, records⟩ :=
    (live.tracks split).sealRest
  rw [sealEq] at returned
  obtain ⟨rfl, rfl⟩ := Prod.mk.inj (Except.ok.inj returned)
  apply live.advance none extended
  · intro action member path touched
    obtain ⟨index, part, same, _⟩ := chunkLocal action member path touched
    rw [SplitChunks.chunkPath, live.place, live.split] at same
    exact .inl ⟨index, part, same⟩
  · rfl
  · rfl
  · rw [records, ← live.records, List.append_nil, Function.update_eq_self]
  · intro other sequence work present
    exact .inl ⟨present, by simp, rfl⟩
  · intro other different
    exact Function.update_of_ne different _ _
  · intro finished present
    simp [Session.withLedger] at present

theorem Live.finish
    (performed : session.perform settings (.finish split) = .ok (actions, after)) :
    Advances settings session groups actions after journal := by
  obtain ⟨⟨found, ledger, finished⟩, returned, same⟩ := bind_eq_ok performed
  obtain ⟨rfl, rfl⟩ := Prod.mk.inj (Except.ok.inj same)
  obtain ⟨made, made', newGroups, finishEq, extended, paths, records, stored⟩ :=
    (live.tracks split).finish
  rw [finishEq] at returned
  obtain ⟨rfl, rest⟩ := Prod.mk.inj (Except.ok.inj returned)
  obtain ⟨rfl, rfl⟩ := Prod.mk.inj rest
  rw [live.place, live.split] at stored
  apply live.advance none extended
  · intro action member path touched
    rcases paths action member path touched with ⟨index, part, same⟩ | final
    · rw [SplitChunks.chunkPath, live.place, live.split] at same
      exact .inl ⟨index, part, same⟩
    · rw [live.place, live.split] at final
      exact .inr (.inl final)
  · rfl
  · rfl
  · rw [records, ← live.records, List.append_nil, Function.update_eq_self]
  · intro other sequence work present
    exact .inl ⟨present, by simp, rfl⟩
  · intro other different
    exact Function.update_of_ne different _ _
  · intro finished present
    simp only [Session.withLedger, Function.update_self] at present
    refine ⟨rfl, ?_⟩
    rw [List.append_nil, records]
    refine ⟨(Option.some.inj present).symm, ?_, ?_⟩
    · intro array member
      exact (stored array member).1
    · intro array member
      exact (stored array member).2

theorem Live.beside
    (paths : ∀ action ∈ actions, ∀ path ∈ action.paths,
      path = .directory (.work split sequence) ∨
        ∃ name, path = .entry (.work split sequence) name ∧ discardable settings name = true) :
    Extends settings session.disk (session.ledgers split) (groups split) actions
        (session.ledgers split) (groups split) (pending split) ∧
      ∀ action ∈ actions, ∀ path ∈ action.paths,
        Touches settings split (some sequence) path := by
  constructor
  · apply (live.tracks split).elsewhere
    intro action member path touched index part same
    rw [SplitChunks.chunkPath, live.place] at same
    rcases paths action member path touched with directory | ⟨name, entry, _⟩
    · rw [directory] at same
      cases same
    · rw [entry] at same
      injection same with samePlace
      cases samePlace
  · intro action member path touched
    exact .inr (.inr ⟨sequence, rfl, paths action member path touched⟩)

theorem Live.writeWork
    (performed : session.perform settings (.work split sequence batch) = .ok (actions, after)) :
    Advances settings session groups actions after
      (journal.after (.work split sequence batch)) := by
  obtain ⟨⟨found, work⟩, returned, same⟩ := bind_eq_ok performed
  obtain ⟨rfl, rfl⟩ := Prod.mk.inj (Except.ok.inj same)
  obtain ⟨free, valid⟩ := writeWork_ok returned
  obtain ⟨made, made', workGroups, workEq, tracks, flat, place, workSplit, marker, paths⟩ :=
    writeWork_spec free valid
  rw [workEq] at returned
  obtain ⟨rfl, rfl⟩ := Prod.mk.inj (Except.ok.inj returned)
  obtain ⟨extended, touches⟩ := live.beside paths
  apply live.advance _ extended touches
  · rfl
  · rw [Function.update_eq_self]
    rfl
  · rw [← live.records, Function.update_eq_self]
    rfl
  · intro other number done present
    by_cases same : other = split ∧ number = sequence
    · obtain ⟨rfl, rfl⟩ := same
      simp only [Session.withWork, Function.update_self, Option.some.injEq] at present
      subst present
      refine .inr ⟨place, marker, ⟨workGroups, tracks, ?_⟩, workSplit⟩
      simp only [Journal.after, Function.update_self]
      exact flat
    · refine .inl ⟨?_, ?_, ?_⟩
      · by_cases sameSplit : other = split
        · subst sameSplit
          have different : number ≠ sequence := fun sameNumber => same ⟨rfl, sameNumber⟩
          simpa only [Session.withWork, Function.update_self,
            Function.update_of_ne different] using present
        · simpa only [Session.withWork, Function.update_of_ne sameSplit] using present
      · rintro ⟨sameSplit, sameSequence⟩
        exact same ⟨sameSplit, (Option.some.inj sameSequence).symm⟩
      · by_cases sameSplit : other = split
        · subst sameSplit
          have different : number ≠ sequence := fun sameNumber => same ⟨rfl, sameNumber⟩
          simp only [Journal.after, Function.update_self, Function.update_of_ne different]
        · simp only [Journal.after, Function.update_of_ne sameSplit]
  · intro other different
    exact Function.update_of_ne different _ _
  · intro finished present
    simp [Session.withWork] at present

theorem Live.abandon {progress : Nat}
    (performed : session.perform settings (.abandon split sequence batch progress) =
      .ok (actions, after)) :
    Advances settings session groups actions after journal := by
  obtain ⟨⟨found, work⟩, returned, same⟩ := bind_eq_ok performed
  obtain ⟨rfl, rfl⟩ := Prod.mk.inj (Except.ok.inj same)
  obtain ⟨free, valid⟩ := writeWork_ok returned
  obtain ⟨made, made', workGroups, workEq, _, _, _, _, _, paths⟩ := writeWork_spec free valid
  rw [workEq] at returned
  obtain ⟨rfl, rfl⟩ := Prod.mk.inj (Except.ok.inj returned)
  have started : ∀ action ∈ made.take progress, _ := fun action member =>
    paths action (List.mem_of_mem_take member)
  obtain ⟨extended, touches⟩ := live.beside started
  apply live.advance _ extended touches
  · rfl
  · rw [Function.update_eq_self]
    rfl
  · rw [← live.records, Function.update_eq_self]
  · intro other number done present
    obtain ⟨earlier, apart⟩ := withWork_none present
    exact .inl ⟨earlier, apart, rfl⟩
  · intro other different
    exact Function.update_of_ne different _ _
  · intro finished present
    simp [Session.withWork] at present

theorem Live.adopt {firstAcquiredIndex : Nat}
    (performed : session.perform settings (.adopt split sequence firstAcquiredIndex) =
      .ok (actions, after)) :
    Advances settings session groups actions after
      (journal.append split (journal.batches split sequence)) := by
  simp only [Session.perform] at performed
  split at performed
  · cases performed
  · rename_i work present
    obtain ⟨⟨found, ledger⟩, returned, same⟩ := bind_eq_ok performed
    obtain ⟨rfl, rfl⟩ := Prod.mk.inj (Except.ok.inj same)
    obtain ⟨nothing, contiguous⟩ := adopt_ok returned
    have tracks := live.tracks split
    have empty : pending split = [] := by
      rw [tracks.counted, tally_acquired] at nothing
      exact List.length_eq_zero_iff.mp nothing
    have done := live.works split sequence work present
    obtain ⟨workGroups, workTracks, flat⟩ := done.tracks
    rw [empty] at tracks
    obtain ⟨made, made', adoptEq, extended, paths, _⟩ := tracks.adopt workTracks
      (done.place.trans (by rw [live.split])) (live.place split)
      (done.split.trans (live.split split).symm)
      (by rw [done.place, live.split]; exact done.marker)
      (by rw [done.place]; exact live.holds.works split sequence)
    rw [contiguous, tracks.state, tally_acquired, adoptEq] at returned
    obtain ⟨rfl, rfl⟩ := Prod.mk.inj (Except.ok.inj returned)
    apply live.advance (some sequence) extended
    · intro action member path touched
      rcases paths action member path touched with ⟨index, part, same⟩ | directory |
        ⟨name, entry, owned⟩
      · rw [SplitChunks.chunkPath, live.place, live.split] at same
        exact .inl ⟨index, part, same⟩
      · rw [done.place] at directory
        exact .inr (.inr ⟨sequence, rfl, .inl directory⟩)
      · rw [done.place] at entry
        exact .inr (.inr ⟨sequence, rfl, .inr ⟨name, entry, owned⟩⟩)
    · rfl
    · rfl
    · rw [List.append_nil, List.flatten_append, flat]
      simp only [Journal.append, live.records, empty, List.append_nil]
    · intro other number done present
      obtain ⟨earlier, apart⟩ := withWork_none present
      exact .inl ⟨earlier, apart, rfl⟩
    · intro other different
      simp only [Session.withWork, Session.withLedger, Function.update_of_ne different]
    · intro finished present
      simp [Session.withWork] at present

theorem Live.perform {operation : Operation}
    (performed : session.perform settings operation = .ok (actions, after)) :
    Advances settings session groups actions after (journal.after operation) := by
  cases operation with
  | append split acquiredIndex record => exact live.append performed
  | sealChunk split => exact live.sealChunk performed
  | finish split => exact live.finish performed
  | work split sequence batch => exact live.writeWork performed
  | abandon split sequence batch progress => exact live.abandon performed
  | adopt split sequence firstAcquiredIndex => exact live.adopt performed

end

end SparseLab.Data
