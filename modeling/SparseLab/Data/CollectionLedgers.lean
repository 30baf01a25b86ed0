import SparseLab.Data.SessionReopening
import SparseLab.Data.StreamingWorkers

/-! What a collection does to its process: which operations succeed, and what they append. -/

namespace SparseLab.Data

open Library

variable {settings : Settings} {allowed : Split → List Record} {session : Session}
  {start journal : Journal} {ledger : Ledger} {split : Split} {operation : Operation}
  {actions : Actions} {after : Session} {disk : Disk} {place : Place}

def Journal.afterAll (journal : Journal) (operations : List Operation) : Journal :=
  operations.foldl Journal.after journal

theorem Journal.afterAll_append (journal : Journal) (operations : List Operation)
    (operation : Operation) : journal.afterAll (operations ++ [operation]) =
      (journal.afterAll operations).after operation := by
  rw [Journal.afterAll, List.foldl_append]
  rfl

@[simp] theorem records_append_self (journal : Journal) (split : Split) (records : List Record) :
    (journal.append split records).records split = journal.records split ++ records := by
  simp [Journal.append]

theorem records_append_other (journal : Journal) {records : List Record} {other : Split}
    (different : other ≠ split) :
    (journal.append split records).records other = journal.records other := by
  simp [Journal.append, different]

structure Kept (settings : Settings) (allowed : Split → List Record) (session : Session)
    (start : Journal) (ledger : Ledger) (journal : Journal) : Prop where
  performed : session.performEach settings ledger.log = .ok ledger.session
  recorded : start.afterAll ledger.log = journal
  within : ∀ count split, (start.afterAll (ledger.log.take count)).records split <+: allowed split
  live : ∃ groups pending, Live settings ledger.session journal groups pending

theorem Kept.begin {groups : Split → List (List Record)} {pending : Split → List Record}
    (live : Live settings session start groups pending)
    (within : ∀ split, start.records split <+: allowed split) :
    Kept settings allowed session start { session } start := by
  refine ⟨rfl, rfl, fun count split => ?_, groups, pending, live⟩
  rw [List.take_nil]
  exact within split

section

variable (kept : Kept settings allowed session start ledger journal)

include kept

theorem Kept.step (performed : ledger.session.perform settings operation = .ok (actions, after))
    (within : ∀ split, (journal.after operation).records split <+: allowed split) :
    ledger.perform settings operation = .ok { session := after, log := ledger.log ++ [operation] } ∧
      Kept settings allowed session start { session := after, log := ledger.log ++ [operation] }
        (journal.after operation) := by
  obtain ⟨groups, pending, live⟩ := kept.live
  obtain ⟨groups', pending', advanced, _⟩ := live.perform performed
  constructor
  · rw [Ledger.perform, performed]
    rfl
  · refine ⟨?_, ?_, ?_, groups', pending', advanced⟩
    · rw [Session.performEach_append, kept.performed]
      change (ledger.session.perform settings operation >>= fun result => _) = _
      rw [performed]
      rfl
    · rw [Journal.afterAll_append, kept.recorded]
    · intro count other
      rcases Nat.lt_or_ge ledger.log.length count with whole | part
      · rw [List.take_of_length_le (by rw [List.length_append]; exact whole),
          Journal.afterAll_append, kept.recorded]
        exact within other
      · rw [List.take_append_of_le_length part]
        exact kept.within count other

theorem Kept.permitted (split : Split) :
    journal.records split <+: allowed split := by
  have whole := kept.within ledger.log.length split
  rwa [List.take_length, kept.recorded] at whole

theorem Kept.extend
    {records : List Record} (within : journal.records split ++ records <+: allowed split)
    (other : Split) : (journal.append split records).records other <+: allowed other := by
  by_cases same : other = split
  · subst same
    rwa [records_append_self]
  · rw [records_append_other journal same]
    exact kept.permitted other

end

def Vacant (disk : Disk) (place : Place) : Prop :=
  ∀ path : Path, path.place = place → disk.read path = none

theorem Vacant.not_occupied (vacant : Vacant disk place) : occupied disk place = false := by
  rw [Bool.eq_false_iff, occupied, Ne, List.any_eq_true]
  rintro ⟨path, member, same⟩
  have present : disk.read path ≠ none := by
    rw [← AList.mem_keys, ← AList.lookup_isSome] at member
    exact Option.isSome_iff_ne_none.mp member
  exact present (vacant path (of_decide_eq_true same))

theorem Vacant.performAll (vacant : Vacant disk place)
    (apart : ∀ action ∈ actions, ∀ path ∈ action.paths, path.place ≠ place) :
    Vacant (disk.performAll actions) place := by
  intro path inside
  rw [Volume.read_performAll_other]
  · exact vacant path inside
  · intro action member touched
    exact apart action member path touched inside

def Settled (session : Session) (split : Split) : Prop :=
  (session.ledgers split).pending.acquiredDocuments = 0

structure Beside (before after : Session) (split : Split) (sequence : Nat) : Prop where
  works : ∀ other number, (other, number) ≠ (split, sequence) →
    after.works other number = before.works other number
  vacant : ∀ other number, (other, number) ≠ (split, sequence) →
    Vacant before.disk (.work other number) → Vacant after.disk (.work other number)
  ledgers : ∀ other, other ≠ split → after.ledgers other = before.ledgers other

structure Aside (before after : Session) (split : Split) : Prop where
  vacant : ∀ other number, Vacant before.disk (.work other number) →
    Vacant after.disk (.work other number)
  ledgers : ∀ other, other ≠ split → after.ledgers other = before.ledgers other

structure Ready (session : Session) (split : Split) : Prop where
  settled : Settled session split
  vacant : ∀ number, Vacant session.disk (.work split number)

theorem Ready.aside {before : Session} {other : Split} (ready : Ready before other)
    (different : other ≠ split) (aside : Aside before after split) : Ready after other := by
  constructor
  · rw [Settled, aside.ledgers other different]
    exact ready.settled
  · exact fun number => aside.vacant other number (ready.vacant number)

theorem Ready.beside {before : Session} {other : Split} {sequence : Nat} (ready : Ready before other)
    (different : other ≠ split) (beside : Beside before after split sequence) :
    Ready after other := by
  constructor
  · rw [Settled, beside.ledgers other different]
    exact ready.settled
  · intro number
    exact beside.vacant other number (fun same => different (Prod.mk.inj same).1)
      (ready.vacant number)

theorem Kept.append (kept : Kept settings allowed session start ledger journal) {record : Record}
    (valid : ValidRecord settings record)
    (within : journal.records split ++ [record] <+: allowed split) :
    ∃ after, ledger.perform settings
        (.append split ((journal.records split).length + 1) record) = .ok after ∧
      Kept settings allowed session start after (journal.append split [record]) ∧
      Aside ledger.session after.session split := by
  obtain ⟨groups, pending, live⟩ := kept.live
  obtain ⟨actions, chunks, _, _, appended, _, paths, _⟩ := (live.tracks split).appendRecord valid
  have index : (journal.records split).length + 1 =
      (groups split).flatten.length + (pending split).length + 1 := by
    rw [live.records, List.length_append]
  have performed : ledger.session.perform settings
      (.append split ((journal.records split).length + 1) record) =
        .ok (actions, ledger.session.withLedger split actions chunks none) := by
    simp only [Session.perform, index, appended, bind, Except.bind]
    rfl
  obtain ⟨returned, keeps⟩ := kept.step performed (kept.extend within)
  refine ⟨_, returned, keeps, ?_, fun _ different => Function.update_of_ne different _ _⟩
  intro other number vacant
  apply vacant.performAll
  intro action member path touched inside
  obtain ⟨index, part, rfl, _⟩ := paths action member path touched
  simp only [SplitChunks.chunkPath, Path.place, live.place] at inside
  cases inside

theorem append_refused {record : Record} {index : Nat} (invalid : ¬ ValidRecord settings record) :
    ∃ failure, ledger.perform settings (.append split index record) = .error failure := by
  cases performed : ledger.perform settings (.append split index record) with
  | error failure => exact ⟨failure, rfl⟩
  | ok after =>
    obtain ⟨⟨actions, session⟩, returned, _⟩ := bind_eq_ok performed
    obtain ⟨⟨_, chunks⟩, appended, _⟩ := bind_eq_ok returned
    exact absurd (appendRecord_ok appended).2 invalid

theorem works_withWork {other : Split} {number sequence : Nat} {work : Option SplitChunks}
    (different : (other, number) ≠ (split, sequence)) :
    (session.withWork split sequence actions work).works other number =
      session.works other number := by
  by_cases same : other = split
  · subst same
    have apart : number ≠ sequence := fun equal => different (by rw [equal])
    simp only [Session.withWork, Function.update_self, Function.update_of_ne apart]
  · simp only [Session.withWork, Function.update_of_ne same]

theorem Kept.work (kept : Kept settings allowed session start ledger journal) {sequence : Nat}
    {batch : List Record} (vacant : Vacant ledger.session.disk (.work split sequence))
    (valid : ∀ record ∈ batch, ValidRecord settings record) :
    ∃ after work, ledger.perform settings (.work split sequence batch) = .ok after ∧
      Kept settings allowed session start after (journal.after (.work split sequence batch)) ∧
      after.session.works split sequence = some work ∧
      (Settled ledger.session split → Settled after.session split) ∧
      Beside ledger.session after.session split sequence := by
  obtain ⟨actions, work, _, written, _, _, _, _, _, paths⟩ :=
    writeWork_spec vacant.not_occupied valid
  have performed : ledger.session.perform settings (.work split sequence batch) =
      .ok (actions, ledger.session.withWork split sequence actions (some work)) := by
    simp only [Session.perform, written, bind, Except.bind]
    rfl
  obtain ⟨returned, keeps⟩ := kept.step performed kept.permitted
  refine ⟨_, work, returned, keeps, by simp [Session.withWork], id, ?_, ?_, fun _ _ => rfl⟩
  · exact fun other number different => works_withWork different
  · intro other number different vacant
    apply vacant.performAll
    intro action member path touched inside
    rcases paths action member path touched with rfl | ⟨name, rfl, _⟩
    · cases inside
      exact different rfl
    · cases inside
      exact different rfl

theorem work_refused {sequence : Nat} {batch : List Record}
    (invalid : ¬ ∀ record ∈ batch, ValidRecord settings record) :
    ∃ failure, ledger.perform settings (.work split sequence batch) = .error failure := by
  cases performed : ledger.perform settings (.work split sequence batch) with
  | error failure => exact ⟨failure, rfl⟩
  | ok after =>
    obtain ⟨⟨actions, session⟩, returned, _⟩ := bind_eq_ok performed
    obtain ⟨result, written, _⟩ := bind_eq_ok returned
    exact absurd (writeWork_ok written).2 invalid

section

variable (kept : Kept settings allowed session start ledger journal)

include kept

theorem Kept.works_none {number : Nat} (vacant : Vacant ledger.session.disk (.work split number)) :
    ledger.session.works split number = none := by
  obtain ⟨groups, pending, live⟩ := kept.live
  by_contra present
  obtain ⟨work, found⟩ := Option.ne_none_iff_exists'.mp present
  have marker := (live.works split number work found).marker
  rw [vacant _ rfl] at marker
  cases marker

theorem Kept.batch {sequence : Nat}
    {work : SplitChunks} (present : ledger.session.works split sequence = some work) :
    work.state = tally (journal.batches split sequence) ∧
      ∀ record ∈ journal.batches split sequence, ValidRecord settings record := by
  obtain ⟨groups, pending, live⟩ := kept.live
  obtain ⟨workGroups, tracks, flat⟩ := (live.works split sequence work present).tracks
  rw [tracks.state, ← flat]
  refine ⟨rfl, fun record member => ?_⟩
  obtain ⟨group, inside, found⟩ := List.mem_flatten.mp member
  exact (tracks.valid group inside).valid record found

theorem Kept.state (settled : Settled ledger.session split) :
    (ledger.session.ledgers split).state = tally (journal.records split) := by
  obtain ⟨groups, pending, live⟩ := kept.live
  have tracks := live.tracks split
  have empty : pending split = [] := by
    rw [Settled, tracks.counted, tally_acquired] at settled
    exact List.length_eq_zero_iff.mp settled
  rw [tracks.state, live.records, empty, List.append_nil]

theorem Kept.adopt {sequence : Nat}
    {work : SplitChunks} (present : ledger.session.works split sequence = some work)
    (settled : Settled ledger.session split)
    (within : journal.records split ++ journal.batches split sequence <+: allowed split) :
    ∃ after, ledger.perform settings
        (.adopt split sequence ((journal.records split).length + 1)) = .ok after ∧
      Kept settings allowed session start after
        (journal.append split (journal.batches split sequence)) ∧
      Settled after.session split ∧ Beside ledger.session after.session split sequence := by
  have counted := kept.state settled
  obtain ⟨groups, pending, live⟩ := kept.live
  have tracks := live.tracks split
  have empty : pending split = [] := by
    rw [Settled, tracks.counted, tally_acquired] at settled
    exact List.length_eq_zero_iff.mp settled
  rw [empty] at tracks
  have done := live.works split sequence work present
  obtain ⟨workGroups, workTracks, flat⟩ := done.tracks
  obtain ⟨actions, chunks, adopted, extended, paths, _⟩ := tracks.adopt workTracks
    (done.place.trans (by rw [live.split])) (live.place split)
    (done.split.trans (live.split split).symm)
    (by rw [done.place, live.split]; exact done.marker)
    (by rw [done.place]; exact live.holds.works split sequence)
  have index : (journal.records split).length = (groups split).flatten.length := by
    rw [live.records, empty, List.append_nil]
  have performed : ledger.session.perform settings
      (.adopt split sequence ((journal.records split).length + 1)) =
        .ok (actions, (ledger.session.withLedger split actions chunks none).withWork split sequence
          [] none) := by
    simp only [Session.perform, present, index, adopted, bind, Except.bind]
    rfl
  obtain ⟨returned, keeps⟩ := kept.step performed (kept.extend within)
  refine ⟨_, returned, keeps, ?_, ?_, ?_, fun _ different => Function.update_of_ne different _ _⟩
  · change (Function.update ledger.session.ledgers split chunks split).pending.acquiredDocuments = 0
    rw [Function.update_self, extended.tracks.counted]
    rfl
  · exact fun other number different => works_withWork different
  · intro other number different vacant
    change Vacant (ledger.session.disk.performAll actions) _
    apply vacant.performAll
    intro action member path touched inside
    rcases paths action member path touched with ⟨index, part, rfl⟩ | rfl | ⟨name, rfl, _⟩
    · rw [SplitChunks.chunkPath, live.place] at inside
      cases inside
    · rw [done.place] at inside
      cases inside
      exact different rfl
    · rw [done.place] at inside
      cases inside
      exact different rfl

theorem Kept.finish (split : Split) :
    ∃ after, ledger.finish settings split =
        .ok (after, finishedOf settings (journal.records split)) ∧
      Kept settings allowed session start after journal ∧
      Aside ledger.session after.session split := by
  obtain ⟨groups, pending, live⟩ := kept.live
  obtain ⟨actions, chunks, _, finished, _, paths, _⟩ := (live.tracks split).finish
  rw [← live.records] at finished
  have performed : ledger.session.perform settings (.finish split) =
      .ok (actions, ledger.session.withLedger split actions chunks
        (some (finishedOf settings (journal.records split)))) := by
    simp only [Session.perform, finished, bind, Except.bind]
    rfl
  obtain ⟨returned, keeps⟩ := kept.step performed kept.permitted
  refine ⟨_, ?_, keeps, ?_, fun _ different => Function.update_of_ne different _ _⟩
  · simp only [Ledger.finish, finished, returned, bind, Except.bind]
    rfl
  · intro other number vacant
    apply vacant.performAll
    intro action member path touched inside
    rcases paths action member path touched with ⟨index, part, rfl⟩ |
      ⟨array, _, rfl | rfl⟩ <;>
    · simp only [SplitChunks.chunkPath, Path.place, live.place] at inside
      cases inside

end

end SparseLab.Data
