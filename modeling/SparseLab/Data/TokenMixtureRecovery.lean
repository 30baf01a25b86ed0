import SparseLab.Data.CrashConsistency
import SparseLab.Data.TokenMixture

/-! The mixture's ledger after any interruption holds the records of the first rows. -/

namespace SparseLab.Data

open Library

namespace TokenMixture

variable {mixture : TokenMixture} {special : SpecialTokens} {scan reached : RowScan}
  {lines : List Line} {rows : List TokenRow} {held ahead : List Record}
  {session : Session} {journal : Journal} {groups : Split → List (List Record)}
  {pending : Split → List Record} {disk : Disk}

section

def selections (mixture : TokenMixture) (special : SpecialTokens) :
    RowScan → List Line → List Packed
  | _, [] => []
  | scan, line :: lines =>
    match mixture.readRow special scan line with
    | .error _ => []
    | .ok row =>
      mixture.selectRow special scan row :: selections mixture special (scan.next row) lines

def rowRecords (mixture : TokenMixture) (special : SpecialTokens) (scan : RowScan)
    (lines : List Line) : List Record :=
  (mixture.selections special scan lines).map Packed.record

theorem selections_take (count : Nat) :
    mixture.selections special scan (lines.take count) =
      (mixture.selections special scan lines).take count := by
  induction lines generalizing scan count with
  | nil => simp [selections]
  | cons line lines ih =>
    cases count with
    | zero => simp [selections]
    | succ count =>
      simp only [List.take_succ_cons, selections]
      cases mixture.readRow special scan line with
      | error failure => simp
      | ok row => simp only [ih, List.take_succ_cons]

def expectedRows (mixture : TokenMixture) (special : SpecialTokens) :
    RowScan → List Record → List Line → Except String (List Record × RowScan)
  | scan, held, [] => .ok (held, scan)
  | scan, held, line :: lines => do
      let row ← mixture.readRow special scan line
      let _ ← SplitChunks.recordBytes mixture.settings .train
        (Packed.record (mixture.selectRow special scan row))
      expectedRows mixture special (scan.next row)
        (held ++ [Packed.record (mixture.selectRow special scan row)]) lines

theorem expectedRows_ok {all : List Record}
    (returned : mixture.expectedRows special scan held lines = .ok (all, reached)) :
    all = held ++ mixture.rowRecords special scan lines ∧
      (∃ rows, mixture.readRows special scan lines = .ok (reached, rows)) ∧
      ∀ more, mixture.selections special scan (lines ++ more) =
        mixture.selections special scan lines ++ mixture.selections special reached more := by
  induction lines generalizing scan held with
  | nil =>
    obtain ⟨rfl, rfl⟩ := Prod.mk.inj (Except.ok.inj returned)
    exact ⟨by simp [rowRecords, selections], ⟨[], rfl⟩, fun more => rfl⟩
  | cons line lines ih =>
    obtain ⟨row, first, rest⟩ := bind_eq_ok returned
    obtain ⟨bytes, _, later⟩ := bind_eq_ok rest
    obtain ⟨records, ⟨rows, readEq⟩, appended⟩ := ih later
    refine ⟨?_, ⟨row :: rows, ?_⟩, ?_⟩
    · rw [records]
      simp only [rowRecords, selections, first, List.map_cons, List.append_assoc,
        List.singleton_append]
    · simp only [readRows, first, readEq, bind, Except.bind, pure, Except.pure]
    · intro more
      simp only [List.cons_append, selections, first, appended]

theorem selections_stream (readEq : mixture.readRows special scan lines = .ok (reached, rows))
    (whole : reached.records = mixture.records) (some : lines ≠ []) :
    (mixture.selections special scan lines).flatMap Packed.ids =
        (if scan.records = 0 then [special.bos] else []) ++ scheduled rows ++
          List.replicate (mixture.paddedTargets - mixture.targetCount) special.pad ∧
      (mixture.selections special scan lines).flatMap Packed.supervision =
        (if scan.records = 0 then [false] else []) ++
          List.replicate (scheduled rows).length true ++
          List.replicate (mixture.paddedTargets - mixture.targetCount) false := by
  induction lines generalizing scan rows with
  | nil => exact absurd rfl some
  | cons line lines ih =>
    obtain ⟨row, first, rest⟩ := bind_eq_ok readEq
    obtain ⟨⟨found, later⟩, laterEq, same⟩ := bind_eq_ok rest
    obtain ⟨rfl, rfl⟩ := Prod.mk.inj (Except.ok.inj same)
    have counted := (readRows_ok laterEq).records
    rw [RowScan.next_records, (readRows_ok laterEq).lengths] at counted
    simp only [selections, first, List.flatMap_cons, selectRow]
    by_cases last : lines = []
    · subst last
      obtain ⟨_, rfl⟩ := Prod.mk.inj (Except.ok.inj laterEq)
      have atEnd : scan.records + 1 = mixture.records := by
        rw [← whole, counted]
        rfl
      simp [selections, atEnd, scheduled]
    · obtain ⟨ids, supervision⟩ := ih laterEq last
      have more := List.length_pos_iff.mpr last
      have inside : scan.records + 1 ≠ mixture.records := by omega
      have started : (scan.next row).records ≠ 0 := by
        rw [RowScan.next_records]
        omega
      rw [if_neg started, List.nil_append] at ids supervision
      have joined : scheduled (row :: later) = row.tokenIds ++ scheduled later := by
        rw [scheduled, List.flatMap_cons]
        rfl
      rw [ids, supervision, joined, List.length_append, List.replicate_add]
      simp only [inside, ↓reduceIte, List.replicate_zero, List.append_nil, List.append_assoc,
        and_self]

end

section

theorem appendRows_spec (live : Live mixture.settings session journal groups pending)
    (records : journal.records .train = held ++ ahead) (counted : scan.records = held.length)
    (frontier : ahead ≠ [] →
      (session.ledgers .train).state.acquiredDocuments = (held ++ ahead).length)
    (within : ahead <+: mixture.rowRecords special scan lines) :
    match mixture.expectedRows special scan held lines with
    | .error failure => mixture.appendRows special session scan lines = .error failure
    | .ok (all, reached) => ∃ after,
        mixture.appendRows special session scan lines = .ok (after, reached) ∧
        ∃ journal' groups' pending', Live mixture.settings after journal' groups' pending' ∧
          journal'.records = Function.update journal.records .train all := by
  induction lines generalizing session journal groups pending scan held ahead with
  | nil =>
    have nothing : ahead = [] := List.prefix_nil.mp within
    rw [nothing, List.append_nil] at records
    refine ⟨session, rfl, journal, groups, pending, live, ?_⟩
    rw [← records, Function.update_eq_self]
  | cons line lines ih =>
    simp only [expectedRows, appendRows, bind, Except.bind]
    cases read : mixture.readRow special scan line with
    | error failure => rfl
    | ok row =>
      have tracks := live.tracks .train
      have committed : (session.ledgers .train).state.acquiredDocuments =
          (groups .train).flatten.length := by
        rw [tracks.state, tally_acquired]
      have split := live.records .train
      cases ahead with
      | cons record ahead =>
        have same : mixture.rowRecords special scan (line :: lines) =
            Packed.record (mixture.selectRow special scan row) ::
              mixture.rowRecords special (scan.next row) lines := by
          simp only [rowRecords, selections, read, List.map_cons]
        rw [same, List.cons_prefix_cons] at within
        obtain ⟨rfl, within⟩ := within
        have acquired := frontier (by simp)
        have lengths := congrArg List.length (records.symm.trans split)
        have empty : pending .train = [] := by
          rw [@List.length_append _ _ (pending .train)] at lengths
          apply List.length_eq_zero_iff.mp
          omega
        have valid : ValidRecord mixture.settings
            (Packed.record (mixture.selectRow special scan row)) := by
          rw [empty, List.append_nil] at split
          have member : Packed.record (mixture.selectRow special scan row) ∈
              (groups .train).flatten := by
            rw [← split, records]
            exact List.mem_append_right _ List.mem_cons_self
          obtain ⟨group, inside, found⟩ := List.mem_flatten.mp member
          exact (tracks.valid group inside).valid _ found
        have skipped : ¬ (session.ledgers .train).state.acquiredDocuments ≤ scan.records := by
          rw [acquired, counted, List.length_append, List.length_cons]
          omega
        simp only [recordBytes_valid mixture.settings valid, if_neg skipped]
        apply ih live
        · rw [records, List.append_assoc, List.singleton_append]
        · rw [RowScan.next_records, counted, List.length_append, List.length_singleton]
        · intro _
          rw [acquired, List.append_assoc, List.singleton_append]
        · exact within
      | nil =>
        rw [List.append_nil] at records
        have lengths := congrArg List.length (records.symm.trans split)
        rw [List.length_append] at lengths
        have reaches : (session.ledgers .train).state.acquiredDocuments ≤ scan.records := by
          omega
        have index : scan.records + 1 =
            (groups .train).flatten.length + (pending .train).length + 1 := by
          omega
        have spec := recordBytes_spec mixture.settings .train
          (Packed.record (mixture.selectRow special scan row))
        simp only [if_pos reaches, Session.perform]
        cases checked : SplitChunks.recordBytes mixture.settings .train
            (Packed.record (mixture.selectRow special scan row)) with
        | error failure =>
          have refused : (session.ledgers .train).appendRecord mixture.settings
              (scan.records + 1) (Packed.record (mixture.selectRow special scan row)) =
                .error failure := by
            have contiguous : ¬ scan.records + 1 ≠
                (session.ledgers .train).state.acquiredDocuments +
                  (session.ledgers .train).pending.acquiredDocuments + 1 := by
              rw [tracks.state, tracks.counted, tally_acquired, tally_acquired]
              exact not_not_intro index
            rw [SplitChunks.appendRecord, if_neg contiguous, live.split, checked]
            rfl
          simp only [refused, bind, Except.bind]
        | ok bytes =>
          rw [checked] at spec
          obtain ⟨actions, ledger, _, _, appendEq, _⟩ := tracks.appendRecord spec.1
          rw [← index] at appendEq
          have performed : session.perform mixture.settings (.append .train
              (scan.records + 1) (Packed.record (mixture.selectRow special scan row))) =
                .ok (actions, session.withLedger .train actions ledger none) := by
            simp only [Session.perform, appendEq, bind, Except.bind, pure, Except.pure]
          obtain ⟨groups', pending', advanced, _⟩ := live.perform performed
          simp only [appendEq, bind, Except.bind, pure, Except.pure]
          have appended : (journal.after (.append .train (scan.records + 1)
              (Packed.record (mixture.selectRow special scan row)))).records =
                Function.update journal.records .train
                  (held ++ [Packed.record (mixture.selectRow special scan row)]) := by
            rw [← records]
            rfl
          have later := @ih (scan.next row) _ [] _ _ _ _ advanced
            (by rw [appended, Function.update_self, List.append_nil])
            (by rw [RowScan.next_records, counted, List.length_append,
              List.length_singleton])
            (fun some => absurd rfl some) List.nil_prefix
          rw [appended] at later
          simp only [Function.update_idem] at later
          exact later

def expectedArrays (mixture : TokenMixture) (lines : List Line) : Except String Packed := do
  let special ← mixture.specialTokens
  let (records, scan) ← mixture.expectedRows special {} [] lines
  mixture.checkTotals scan lines
  pure {
    ids := rawOf records .ids
    supervision := (rawOf records .supervision).map (· ≠ 0) }

theorem collectChunks_eq (known : mixture.specialTokens = .ok special)
    (live : Live mixture.settings session journal groups pending)
    (frontier : journal.records .train ≠ [] →
      (session.ledgers .train).state.acquiredDocuments = (journal.records .train).length)
    (within : journal.records .train <+: mixture.rowRecords special {} lines) :
    mixture.collectChunks session lines = mixture.expectedArrays lines := by
  have spec := appendRows_spec live (List.nil_append _).symm rfl frontier within
  simp only [collectChunks, expectedArrays, known, bind, Except.bind]
  split at spec
  · rename_i failure expected
    simp only [expected, spec]
  · rename_i all reached expected
    obtain ⟨after, appended, journal', groups', pending', advanced, records⟩ := spec
    simp only [expected, appended]
    cases mixture.checkTotals reached lines with
    | error failure => rfl
    | ok checked =>
      obtain ⟨actions, ledger, _, finishEq, _⟩ := (advanced.tracks .train).finish
      have performed : after.perform mixture.settings (.finish .train) =
          .ok (actions, after.withLedger .train actions ledger (some (finishedOf
            mixture.settings ((groups' .train).flatten ++ pending' .train)))) := by
        simp only [Session.perform, finishEq, bind, Except.bind, pure, Except.pure]
      obtain ⟨_, _, finished, _⟩ := advanced.perform performed
      obtain ⟨_, completed⟩ := finished.results .train (finishedOf mixture.settings
        ((groups' .train).flatten ++ pending' .train)) (by simp)
      have ids := completed.final .ids (by simp [settings])
      have supervision := completed.final .supervision (by simp [settings])
      simp only [Journal.after, records, Function.update_self] at ids supervision
      simp only [performed, loadArray, ids, supervision, pure, Except.pure]

end

section

def wholeJournal (mixture : TokenMixture) (special : SpecialTokens) (lines : List Line) : Journal :=
  Journal.append {} .train (mixture.rowRecords special {} lines)

theorem opened_prefix {opening : Actions}
    (sound : Sound mixture.settings (.stopped disk false) (mixture.wholeJournal special lines))
    (opened : Session.openAt mixture.settings disk = .ok (opening, session)) :
    ∃ journal groups pending, Live mixture.settings session journal groups pending ∧
      journal.records .train = (mixture.rowRecords special {} lines).take
        (session.ledgers .train).state.acquiredDocuments ∧
      (journal.records .train).length = (session.ledgers .train).state.acquiredDocuments ∧
      journal.records .validation = [] := by
  obtain ⟨groups, pending, live⟩ := sound.opened opened
  have records : ((mixture.wholeJournal special lines).reopened session).records .train =
      (mixture.rowRecords special {} lines).take
        (session.ledgers .train).state.acquiredDocuments := by
    simp [Journal.reopened, wholeJournal, Journal.append]
  refine ⟨_, groups, pending, live, records, ?_, ?_⟩
  · have acquired : (session.ledgers .train).state.acquiredDocuments =
        (groups .train).flatten.length := by
      rw [(live.tracks .train).state, tally_acquired]
    have lengths := congrArg List.length (live.records .train)
    have most := congrArg List.length records
    rw [List.length_append] at lengths
    rw [List.length_take] at most
    omega
  · simp [Journal.reopened, wholeJournal, Journal.append]

theorem reaches_prefix {opening : Actions} {after : Session} {count : Nat}
    (sound : Sound mixture.settings (.stopped disk false) (mixture.wholeJournal special lines))
    (opened : Session.openAt mixture.settings disk = .ok (opening, session))
    (uncommitted : (session.ledgers .train).state.acquiredDocuments ≤ count)
    (appended : mixture.appendRows special session {} (lines.take count) = .ok (after, reached)) :
    ∃ journal groups pending, Live mixture.settings after journal groups pending ∧
      journal.records .train = mixture.rowRecords special {} (lines.take count) ∧
      journal.records .validation = [] ∧
      ∀ more, mixture.rowRecords special {} (lines.take count ++ more) =
        mixture.rowRecords special {} (lines.take count) ++
          mixture.rowRecords special reached more := by
  obtain ⟨journal, groups, pending, live, records, exactly, others⟩ := opened_prefix sound opened
  have within : journal.records .train <+: mixture.rowRecords special {} (lines.take count) := by
    rw [records, rowRecords, rowRecords, selections_take, ← List.map_take]
    exact (List.take_prefix_take_left uncommitted).map _
  have spec := appendRows_spec live (List.nil_append _).symm rfl (fun _ => exactly.symm) within
  split at spec
  · rw [appended] at spec
    cases spec
  · rename_i all scan expected
    obtain ⟨next, appendEq, journal', groups', pending', advanced, all⟩ := spec
    rw [appended] at appendEq
    obtain ⟨rfl, rfl⟩ := Prod.mk.inj (Except.ok.inj appendEq)
    obtain ⟨allEq, _, selected⟩ := expectedRows_ok expected
    refine ⟨journal', groups', pending', advanced, ?_, ?_, ?_⟩
    · rw [all, Function.update_self, allEq, List.nil_append]
    · rw [all, Function.update_of_ne (by simp), others]
    · intro more
      rw [rowRecords, selected, List.map_append]
      rfl

theorem sound_of_prefix {kept : Split → List (List Record)}
    (holds : Holds mixture.settings disk kept)
    (train : (kept .train).flatten <+: mixture.rowRecords special {} lines)
    (validation : (kept .validation).flatten = []) :
    Sound mixture.settings (.stopped disk false) (mixture.wholeJournal special lines) := by
  refine .inr (.inr ⟨kept, holds, ?_⟩)
  intro split
  cases split with
  | train => simpa [wholeJournal, Journal.append] using train
  | validation =>
    rw [validation]
    exact List.nil_prefix

theorem interrupted_sound (interrupted : mixture.Interrupted special lines disk) :
    Sound mixture.settings (.stopped disk false) (mixture.wholeJournal special lines) := by
  induction interrupted with
  | absent => exact .inl fun path => AList.lookup_empty path
  | opening cut _ constructed ih => exact ih.openingCrash constructed cut
  | @appending disk opening session count reached scan line row actions after cut _ opened
      uncommitted appended found read performed ih =>
      obtain ⟨journal, groups, pending, live, records, others, extended⟩ :=
        reaches_prefix ih opened uncommitted appended
      obtain ⟨groups', pending', advanced, _, cuts⟩ := live.perform performed
      obtain ⟨kept, between, holds⟩ := cuts cut
      have train := advanced.records .train
      have validation := advanced.records .validation
      simp only [Journal.after, Journal.append, Function.update_self, ne_eq, reduceCtorEq,
        not_false_eq_true, Function.update_of_ne, records, others] at train validation
      have next : mixture.rowRecords special {} (lines.take (count + 1)) =
          (groups' .train).flatten ++ pending' .train := by
        rw [List.take_add_one, found, Option.toList_some, extended, ← train]
        simp only [rowRecords, selections, read, List.map_cons, List.map_nil]
      apply sound_of_prefix holds
      · apply (prefix_flatten (between .train).2).trans
        apply (List.prefix_append _ _).trans
        rw [← next, rowRecords, selections_take]
        exact (List.take_prefix _ _).map _
      · have none := (List.append_eq_nil_iff.mp validation.symm).1
        have within := prefix_flatten (between .validation).2
        rw [none] at within
        exact List.prefix_nil.mp within
  | @finishing disk opening session reached scan actions after cut _ opened appended performed ih =>
    obtain ⟨journal, groups, pending, live, records, exactly, others⟩ := opened_prefix ih opened
    have whole : lines.take (max lines.length
        (session.ledgers .train).state.acquiredDocuments) = lines :=
      List.take_of_length_le (Nat.le_max_left _ _)
    rw [← whole] at appended
    obtain ⟨journal', groups', pending', reaches, records', others', _⟩ :=
      reaches_prefix ih opened (Nat.le_max_right _ _) appended
    rw [whole] at records'
    obtain ⟨after', pending'', advanced, _, cuts⟩ := reaches.perform performed
    have train := advanced.records .train
    have validation := advanced.records .validation
    simp only [Journal.after, records', others'] at train validation
    have sound : ∀ disk kept, Holds mixture.settings disk kept →
        (∀ split, kept split <+: after' split) →
        Sound mixture.settings (.stopped disk false) (mixture.wholeJournal special lines) := by
      intro disk kept holds within
      apply sound_of_prefix holds
      · rw [train]
        exact (prefix_flatten (within .train)).trans (List.prefix_append _ _)
      · have none := (List.append_eq_nil_iff.mp validation.symm).1
        have inside := prefix_flatten (within .validation)
        rw [none] at inside
        exact List.prefix_nil.mp inside
    rcases Volume.cut_append reached.disk actions mixture.moveArrays cut with same | ⟨rest, same⟩
    · obtain ⟨kept, between, holds⟩ := cuts cut
      rw [same]
      exact sound _ kept holds fun split => (between split).2
    · obtain ⟨kept, between, holds⟩ := cuts actions.length
      rw [List.take_length] at holds
      rw [same]
      refine sound _ kept (holds.removable ?_ rest) fun split => (between split).2
      intro action member path touched
      obtain ⟨array, inside, rfl⟩ := List.mem_map.mp member
      rw [List.mem_singleton.mp touched]
      exact removable_other inside (by simp)

end

section

def PacksRows (mixture : TokenMixture) (lines : List Line) (packed : Packed) : Prop :=
  ∃ rows dataset, lines.mapM mixture.decode = .ok rows ∧
    (scheduled rows).length = mixture.targetCount ∧
    TokenBlockDataset.init packed.ids mixture.seqLen mixture.seqLenPos none
      (some packed.supervision) none = .ok dataset ∧
    ReadsBack mixture.seqLen (scheduled rows) packed dataset

theorem checkTotals_ok (checked : mixture.checkTotals scan lines = .ok ()) :
    scan.cursor = mixture.targetCount + 1 ∧ scan.records = mixture.records := by
  rw [checkTotals] at checked
  split at checked
  · cases checked
  · rename_i accepted
    simp only [not_or, not_not] at accepted
    exact ⟨accepted.1, accepted.2.1⟩

theorem packsRows_stream (readEq : mixture.readRows special {} lines = .ok (reached, rows))
    (checked : mixture.checkTotals reached lines = .ok ()) :
    mixture.PacksRows lines (mixture.stream special (scheduled rows)) := by
  have read := readRows_ok readEq
  have nonneg : ∀ value ∈ scheduled rows, 0 ≤ value := by
    intro value member
    obtain ⟨row, inside, found⟩ := List.mem_flatMap.mp member
    exact ((read.valid row inside).inVocabulary value found).1
  have count : (scheduled rows).length = mixture.targetCount := by
    have total := (checkTotals_ok checked).1
    rw [read.cursor] at total
    change 1 + (scheduled rows).length = _ at total
    omega
  obtain ⟨dataset, made, reads⟩ := readsBack_stream special nonneg count
  exact ⟨rows, dataset, read.decoded, count, made, reads⟩

theorem collectDirect_eq (known : mixture.specialTokens = .ok special)
    (readEq : mixture.readRows special {} lines = .ok (reached, rows))
    (checked : mixture.checkTotals reached lines = .ok ()) :
    mixture.collectDirect lines = .ok (mixture.stream special (scheduled rows)) := by
  simp only [collectDirect, known, packRows_eq, readEq, checked, bind, Except.bind, pure,
    Except.pure, stream, List.cons_append, List.nil_append]

theorem rawOf_records (packed : List Packed) :
    rawOf (packed.map Packed.record) .ids = packed.flatMap Packed.ids ∧
      (rawOf (packed.map Packed.record) .supervision).map (fun value => decide (value ≠ 0)) =
        packed.flatMap Packed.supervision := by
  have truth : ∀ mask : List Bool,
      (mask.map boolValue).map (fun value => decide (value ≠ 0)) = mask := by
    intro mask
    rw [List.map_map]
    conv_rhs => rw [← List.map_id mask]
    apply List.map_congr_left
    intro kept _
    cases kept <;> rfl
  constructor
  · rw [rawOf, List.flatMap_map]
    rfl
  · rw [rawOf, List.flatMap_map, List.map_flatMap]
    apply List.flatMap_congr
    intro selected _
    exact truth selected.supervision

theorem packsRows_nil (nothing : mixture.targetCount = 0) :
    mixture.PacksRows [] { ids := [], supervision := [] } := by
  obtain ⟨dataset, made, ids, _, masked⟩ := init_ok { ids := [], supervision := [] }
    mixture.seqLenPos rfl
  have empty : dataset.length = 0 := by
    rw [TokenBlockDataset.length, TokenBlockDataset.blockIndices, TokenBlockDataset.candidates, ids]
    simp
  have outside : ∀ index : Fin dataset.length, False := by
    intro index
    exact Nat.not_lt_zero _ (Nat.lt_of_lt_of_eq index.isLt empty)
  refine ⟨[], dataset, rfl, nothing.symm, made, ?_, ?_, ?_, ?_, by simp⟩
  · rw [TokenBlockDataset.supervised_targets masked]
    simp [TokenBlockDataset.maskedLabels, slice, supervised, scheduled]
  · exact fun index => (outside index).elim
  · exact fun index => (outside index).elim
  · exact fun index => (outside index).elim

theorem expectedArrays_ok {packed : Packed} (returned : mixture.expectedArrays lines = .ok packed) :
    mixture.PacksRows lines packed ∧ (lines ≠ [] → mixture.collectDirect lines = .ok packed) := by
  obtain ⟨special, known, rest⟩ := bind_eq_ok returned
  obtain ⟨⟨records, reached⟩, expected, rest⟩ := bind_eq_ok rest
  obtain ⟨⟨⟩, checked, same⟩ := bind_eq_ok rest
  obtain rfl := Except.ok.inj same
  obtain ⟨recordsEq, ⟨rows, readEq⟩, _⟩ := expectedRows_ok expected
  rw [List.nil_append] at recordsEq
  obtain ⟨ids, supervision⟩ := rawOf_records (mixture.selections special {} lines)
  rw [← rowRecords, ← recordsEq] at ids supervision
  rw [ids, supervision]
  by_cases empty : lines = []
  · subst empty
    obtain ⟨rfl, _⟩ := Prod.mk.inj (Except.ok.inj readEq)
    refine ⟨packsRows_nil ?_, fun some => absurd rfl some⟩
    have total := (checkTotals_ok checked).1
    change 1 = mixture.targetCount + 1 at total
    omega
  · obtain ⟨allIds, allSupervision⟩ :=
      selections_stream readEq (checkTotals_ok checked).2 empty
    rw [allIds, allSupervision]
    exact ⟨packsRows_stream readEq checked, fun _ => collectDirect_eq known readEq checked⟩

theorem uninterrupted_eq : mixture.uninterrupted lines = mixture.expectedArrays lines := by
  obtain ⟨opening, session, opened, live, _⟩ := openAt_empty mixture.settings
  simp only [uninterrupted, opened, bind, Except.bind]
  cases known : mixture.specialTokens with
  | error failure => simp only [collectChunks, expectedArrays, known, bind, Except.bind]
  | ok special => exact collectChunks_eq known live (fun some => absurd rfl some) List.nil_prefix

end

end TokenMixture

end SparseLab.Data
