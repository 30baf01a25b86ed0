import SparseLab.Data.SerialCollection
import SparseLab.Library.Selections

/-! The parallel collection agrees with the reference, in whatever order workers complete. -/

namespace SparseLab.Data

open Library

def queuedTexts (items : List Item) : List String :=
  (items.map Item.batch).flatten

def Coordinator.texts (coordinator : Coordinator) : List String :=
  queuedTexts coordinator.pending ++ coordinator.batch

namespace Preparation

variable {preparation : Preparation} {split : Split} {eos : Int} {batchDocuments : Nat}
  {workers : Workers} {session : Session} {start base journal : Journal} {ledger : Ledger}
  {coordinator : Coordinator} {item : Item} {items : List Item} {scan : Scan} {ahead : Source}
  {unread : Nat} {text : String} {waits : Split → Prop}

theorem pairEncodings_eq (texts : List String) :
    preparation.pairEncodings eos texts ((texts.filter (· ≠ "")).map preparation.encode) =
      texts.mapM (preparation.recordOf eos) := by
  induction texts with
  | nil => rfl
  | cons text texts ih =>
    rw [List.mapM_cons, ← ih, recordOf]
    by_cases empty : text = ""
    · subst empty
      rfl
    · rw [List.filter_cons_of_pos (by simpa using empty), List.map_cons, pairEncodings,
        if_neg empty, if_neg empty]
      cases preparation.streamingValues eos (preparation.encode text) text <;> rfl

theorem workRecords_eq (pending rest : List String) (pendingBytes : Nat) :
    preparation.workRecords eos batchDocuments pending pendingBytes rest =
      (pending ++ rest).mapM (preparation.recordOf eos) := by
  induction rest generalizing pending pendingBytes with
  | nil => rw [workRecords, encodePending, pairEncodings_eq, List.append_nil]
  | cons text rest ih =>
    rw [workRecords]
    by_cases full : pending ≠ [] ∧ (pending.length = batchDocuments ∨
        pendingBytes + text.utf8ByteSize > preparation.batchSourceBytes)
    · rw [if_pos full, encodePending, pairEncodings_eq, ih]
      exact List.mapM_append.symm
    · rw [if_neg full, ih, List.append_assoc]
      rfl

def uppers (texts : List String) : Nat :=
  (texts.map upperTokens).sum

def Queued : Nat → List Item → Prop
  | _, [] => True
  | first, item :: items =>
    (item.first = first ∧ item.upper = uppers item.batch) ∧ Queued (first + item.batch.length) items

theorem queued_append {first : Nat} : Queued first (items ++ [item]) ↔
    Queued first items ∧ item.first = first + (queuedTexts items).length ∧
      item.upper = uppers item.batch := by
  induction items generalizing first with
  | nil => simp [Queued, queuedTexts]
  | cons other items ih =>
    rw [List.cons_append, Queued, Queued, ih]
    simp only [queuedTexts, List.map_cons, List.flatten_cons, List.length_append, and_assoc,
      Nat.add_assoc]

structure Coordinated (preparation : Preparation) (split : Split) (eos : Int) (workers : Workers)
    (session : Session) (start base : Journal) (waits : Split → Prop) (coordinator : Coordinator)
    (journal : Journal) (scan : Scan) (ahead : Source) (unread : Nat) : Prop where
  kept : Kept preparation.settings (preparation.selectable · eos true) session start
    coordinator.ledger journal
  others : ∀ other, other ≠ split → journal.records other = base.records other
  settled : Settled coordinator.ledger.session split
  reached : Reached preparation split eos true (journal.records split) scan
    (Source.prepend coordinator.texts ahead)
  small : ∀ text ∈ coordinator.texts, text.utf8ByteSize ≤ preparation.batchSourceBytes
  wanted : Wanted scan.remaining coordinator.texts
  left : scan.remaining = documents coordinator.texts + unread
  acquired : coordinator.acquired = (journal.records split).length + coordinator.texts.length
  selected : coordinator.selected + unread = preparation.selectedDocuments split
  queued : Queued ((journal.records split).length + 1) coordinator.pending
  batchUpper : coordinator.batchUpper = uppers coordinator.batch
  sequences : (coordinator.pending.map Item.sequence).Nodup
  earlier : ∀ item ∈ coordinator.pending, item.sequence < coordinator.sequence
  slots : coordinator.free.length + coordinator.pending.length = workers.count
  made : ∀ item ∈ coordinator.pending,
    (coordinator.ledger.session.works split item.sequence).isSome →
      item.batch.mapM (preparation.recordOf eos) = .ok (journal.batches split item.sequence)
  vacant : ∀ number, coordinator.ledger.session.works split number = none →
    (coordinator.sequence ≤ number ∨ ∃ item ∈ coordinator.pending, item.sequence = number) →
      Vacant coordinator.ledger.session.disk (.work split number)
  fresh : ∀ number, coordinator.sequence ≤ number →
    coordinator.ledger.session.works split number = none
  refused : coordinator.cancelled = true ∨ coordinator.failed ≠ [] →
    Refused preparation split eos true
  ready : ∀ other, other ≠ split → waits other → Ready coordinator.ledger.session other

theorem Coordinated.clear
    (coordinated : Coordinated preparation split eos workers session start base waits coordinator journal
      scan ahead unread) :
    Refused preparation split eos true ∨ ∀ text ∈ coordinator.texts, ∃ record,
      preparation.recordOf eos text = .ok record ∧ ValidRecord preparation.settings record := by
  rcases coordinated.reached.through coordinated.wanted with refused | ⟨_, _, _, allowed, _⟩
  · exact .inl refused
  · right
    intro text member
    obtain ⟨record, made, checked⟩ := allowed text member
    exact ⟨record, made, capRecord_valid.mp checked⟩

theorem mapM_each {texts : List String} (each : ∀ text ∈ texts, ∃ record,
      preparation.recordOf eos text = .ok record ∧ ValidRecord preparation.settings record) :
    ∃ records, texts.mapM (preparation.recordOf eos) = .ok records ∧
      ∀ record ∈ records, ValidRecord preparation.settings record := by
  induction texts with
  | nil => exact ⟨[], rfl, List.forall_mem_nil _⟩
  | cons text texts ih =>
    obtain ⟨⟨record, made, valid⟩, others⟩ := List.forall_mem_cons.mp each
    obtain ⟨records, rest, all⟩ := ih others
    refine ⟨record :: records, ?_, List.forall_mem_cons.mpr ⟨valid, all⟩⟩
    rw [List.mapM_cons, made, rest]
    rfl

theorem batch_subset (member : item ∈ coordinator.pending) :
    ∀ text ∈ item.batch, text ∈ coordinator.texts := by
  intro text inside
  apply List.mem_append_left
  exact List.mem_flatten.mpr ⟨item.batch, List.mem_map_of_mem member, inside⟩

theorem batches_work (journal : Journal) (split : Split) (sequence : Nat) (batch : List Record)
    {other : Split} {number : Nat} (different : (other, number) ≠ (split, sequence)) :
    (journal.after (.work split sequence batch)).batches other number =
      journal.batches other number := by
  by_cases same : other = split
  · subst same
    have apart : number ≠ sequence := fun equal => different (by rw [equal])
    simp only [Journal.after, Function.update_self, Function.update_of_ne apart]
  · simp only [Journal.after, Function.update_of_ne same]

theorem Coordinated.worked {after : Ledger} {work : SplitChunks} {records : List Record}
    (coordinated : Coordinated preparation split eos workers session start base waits coordinator journal
      scan ahead unread) (member : item ∈ coordinator.pending)
    (made : item.batch.mapM (preparation.recordOf eos) = .ok records)
    (kept : Kept preparation.settings (preparation.selectable · eos true) session start after
      (journal.after (.work split item.sequence records)))
    (present : after.session.works split item.sequence = some work)
    (settled : Settled after.session split)
    (beside : Beside coordinator.ledger.session after.session split item.sequence) :
    Coordinated preparation split eos workers session start base waits
      { coordinator with ledger := after } (journal.after (.work split item.sequence records)) scan
      ahead unread := by
  have apart {number : Nat} (different : number ≠ item.sequence) :
      (split, number) ≠ (split, item.sequence) := fun same => different (Prod.mk.inj same).2
  refine { coordinated with kept, settled, made := ?_, vacant := ?_, fresh := ?_, ready := ?_ }
  · intro other inside done
    by_cases same : other.sequence = item.sequence
    · obtain rfl := List.inj_on_of_nodup_map coordinated.sequences inside member same
      rw [made]
      simp [Journal.after]
    · rw [batches_work _ _ _ _ (apart same)]
      exact coordinated.made other inside (by rwa [beside.works split _ (apart same)] at done)
  · intro number none where_
    have different : number ≠ item.sequence := by
      rintro rfl
      rw [present] at none
      cases none
    rw [beside.works split _ (apart different)] at none
    exact beside.vacant split _ (apart different) (coordinated.vacant number none where_)
  · intro number later
    have different : number ≠ item.sequence := by
      have earlier := coordinated.earlier item member
      change coordinator.sequence ≤ number at later
      omega
    rw [beside.works split _ (apart different)]
    exact coordinated.fresh number later
  · intro other different ready
    exact (coordinated.ready other different ready).beside different beside

section

variable (batchDocuments)
  (coordinated : Coordinated preparation split eos workers session start base waits coordinator
    journal scan ahead unread)

include coordinated

theorem Coordinated.write (member : item ∈ coordinator.pending)
    (absent : coordinator.ledger.session.works split item.sequence = none) :
    (Refused preparation split eos true ∧ ∃ failure,
      preparation.writeItem split eos batchDocuments coordinator.ledger item = .error failure) ∨
      ∃ after journal',
        preparation.writeItem split eos batchDocuments coordinator.ledger item = .ok after ∧
        Coordinated preparation split eos workers session start base waits
          { coordinator with ledger := after } journal' scan ahead unread ∧
        journal'.records = journal.records ∧ (after.session.works split item.sequence).isSome := by
  have vacant := coordinated.vacant item.sequence absent (.inr ⟨item, member, rfl⟩)
  rw [writeItem, workRecords_eq]
  change _ ∨ ∃ after journal', item.batch.mapM (preparation.recordOf eos) >>= _ = _ ∧ _
  rcases coordinated.clear with refused | clear
  · cases made : item.batch.mapM (preparation.recordOf eos) with
    | error failure => exact .inl ⟨refused, failure, by rw [List.nil_append, made]; rfl⟩
    | ok records =>
      by_cases valid : ∀ record ∈ records, ValidRecord preparation.settings record
      · obtain ⟨after, work, performed, kept, present, settles, beside⟩ :=
          coordinated.kept.work vacant valid
        have worked := coordinated.worked member made kept present
          (settles coordinated.settled) beside
        exact .inr ⟨after, _, performed, worked, rfl, by rw [present]; rfl⟩
      · obtain ⟨failure, raised⟩ : ∃ failure, coordinator.ledger.perform preparation.settings
            (.work split item.sequence records) = .error failure := work_refused valid
        exact .inl ⟨refused, failure, by rw [List.nil_append, made]; exact raised⟩
  · obtain ⟨records, made, valid⟩ :=
      mapM_each fun text inside => clear text (batch_subset member text inside)
    obtain ⟨after, work, performed, kept, present, settles, beside⟩ :=
      coordinated.kept.work vacant valid
    have worked := coordinated.worked member made kept present (settles coordinated.settled) beside
    refine .inr ⟨after, _, ?_, worked, rfl, by rw [present]; rfl⟩
    rw [made]
    exact performed

theorem Coordinated.complete (member : item ∈ coordinator.pending) :
    ∃ ledger failed cancelled journal',
      preparation.complete split eos batchDocuments coordinator item =
        { coordinator with ledger, failed, cancelled } ∧
      Coordinated preparation split eos workers session start base waits
        { coordinator with ledger, failed, cancelled } journal' scan ahead unread ∧
      journal'.records = journal.records ∧
      ((ledger.session.works split item.sequence).isSome ∨ Refused preparation split eos true) := by
  rw [Preparation.complete]
  by_cases done : (coordinator.ledger.session.works split item.sequence).isSome ∨
      item.sequence ∈ coordinator.failed
  · rw [if_pos done]
    refine ⟨coordinator.ledger, coordinator.failed, coordinator.cancelled, journal, rfl,
      coordinated, rfl, done.imp_right fun failed => ?_⟩
    exact coordinated.refused (.inr (List.ne_nil_of_mem failed))
  · rw [if_neg done]
    obtain ⟨absent, _⟩ := not_or.mp done
    have none : coordinator.ledger.session.works split item.sequence = none := by simpa using absent
    rcases coordinated.write batchDocuments member none with ⟨refused, failure, raised⟩ |
      ⟨after, journal', written, worked, same, present⟩
    · rw [raised]
      exact ⟨coordinator.ledger, _, _, journal, rfl,
        { coordinated with refused := fun _ => refused }, rfl, .inr refused⟩
    · rw [written]
      exact ⟨after, coordinator.failed, coordinator.cancelled, journal', rfl, worked, same,
        .inl present⟩

theorem Coordinated.completes (order : List Nat) :
    ∃ ledger failed cancelled journal',
      order.foldl (fun coordinator sequence =>
          match coordinator.pending.find? (·.sequence = sequence) with
          | some item => preparation.complete split eos batchDocuments coordinator item
          | none => coordinator) coordinator =
        { coordinator with ledger, failed, cancelled } ∧
      Coordinated preparation split eos workers session start base waits
        { coordinator with ledger, failed, cancelled } journal' scan ahead unread ∧
      journal'.records = journal.records := by
  induction order generalizing coordinator journal with
  | nil => exact ⟨_, _, _, journal, rfl, coordinated, rfl⟩
  | cons sequence order ih =>
    rw [List.foldl_cons]
    cases found : coordinator.pending.find? (·.sequence = sequence) with
    | none => exact ih coordinated
    | some item =>
      obtain ⟨ledger, failed, cancelled, middle, completed, goes, same, _⟩ :=
        coordinated.complete batchDocuments (List.mem_of_find?_eq_some found)
      dsimp only
      rw [completed]
      obtain ⟨ledger', failed', cancelled', last, folded, ends, equal⟩ := ih goes
      exact ⟨ledger', failed', cancelled', last, folded, ends, equal.trans same⟩

theorem Coordinated.settle :
    ∃ ledger failed cancelled looks journal',
      preparation.settle split eos batchDocuments workers coordinator =
        { coordinator with ledger, failed, cancelled, looks } ∧
      Coordinated preparation split eos workers session start base waits
        { coordinator with ledger, failed, cancelled, looks } journal' scan ahead unread ∧
      journal'.records = journal.records := by
  have looked : Coordinated preparation split eos workers session start base waits
      { coordinator with looks := coordinator.looks + 1 } journal scan ahead unread :=
    { coordinated with }
  obtain ⟨ledger, failed, cancelled, journal', folded, goes, same⟩ :=
    looked.completes batchDocuments (workers.order coordinator.looks)
  exact ⟨ledger, failed, cancelled, _, journal', folded, goes, same⟩

end

def Bounded (preparation : Preparation) : Prop :=
  ∀ text, (preparation.encode text).length ≤ text.utf8ByteSize

theorem Coordinated.breaks
    (coordinated : Coordinated preparation split eos workers session start base waits coordinator journal
      scan ahead unread) (refused : Bounded preparation → Refused preparation split eos true)
    (reason : String) :
    Fails preparation split eos true (Bounded preparation)
      (Holding preparation split eos session start base waits) (reason, coordinator.ledger) :=
  ⟨refused, _, journal, coordinated.kept, rfl, coordinated.others, coordinated.ready⟩

theorem streamingValues_ids {encoded : List Int} {values : ArrayName → List Int}
    (made : preparation.streamingValues eos encoded text = .ok values) :
    values .ids = encoded ++ [eos] := by
  rw [streamingValues] at made
  split at made
  · obtain rfl := Except.ok.inj made
    rfl
  · obtain ⟨pieces, _, rest⟩ := bind_eq_ok made
    obtain ⟨found, _, same⟩ := bind_eq_ok rest
    obtain rfl := Except.ok.inj same
    rfl

theorem tokens_le_uppers (bounded : Bounded preparation) {texts : List String}
    {records : List Record} (made : texts.mapM (preparation.recordOf eos) = .ok records) :
    (tally records).outputTokens ≤ uppers texts := by
  rw [mapM_eq_ok] at made
  induction made with
  | nil => exact Nat.le_refl 0
  | @cons text record texts others first _ more =>
    have parts : tally (record :: others) = (tally [record]).add (tally others) :=
      tally_append [record] others
    have one : (tally [record]).outputTokens ≤ upperTokens text := by
      rw [recordOf] at first
      by_cases empty : text = ""
      · rw [if_pos empty] at first
        obtain rfl := Except.ok.inj first
        exact Nat.zero_le _
      · rw [if_neg empty] at first
        cases values : preparation.streamingValues eos (preparation.encode text) text with
        | error failure =>
          rw [values] at first
          cases first
        | ok found =>
          rw [values] at first
          obtain rfl := Except.ok.inj first
          have size := bounded text
          simp only [tally, List.map_cons, List.map_nil, Option.elim_some,
            streamingValues_ids values, List.length_append, List.length_singleton,
            List.sum_cons, List.sum_nil, upperTokens, if_neg empty]
          omega
    rw [parts, uppers, List.map_cons, List.sum_cons]
    change (tally [record]).outputTokens + (tally others).outputTokens ≤ _
    rw [uppers] at more
    omega

theorem prepend_append (first second : List String) (ahead : Source) :
    Source.prepend (first ++ second) ahead =
      Source.prepend first (Source.prepend second ahead) :=
  List.foldr_append

theorem Coordinated.front
    (coordinated : Coordinated preparation split eos workers session start base waits coordinator journal
      scan ahead unread) (queue : coordinator.pending = item :: items) :
    coordinator.texts = item.batch ++ (queuedTexts items ++ coordinator.batch) ∧
      Reached preparation split eos true (journal.records split) scan (Source.prepend item.batch
        (Source.prepend (queuedTexts items ++ coordinator.batch) ahead)) ∧
      Wanted scan.remaining item.batch ∧
      Wanted (scan.remaining - documents item.batch) (queuedTexts items ++ coordinator.batch) := by
  have texts : coordinator.texts = item.batch ++ (queuedTexts items ++ coordinator.batch) := by
    rw [Coordinator.texts, queue, queuedTexts, List.map_cons, List.flatten_cons, List.append_assoc]
    rfl
  have reached := coordinated.reached
  have wanted := coordinated.wanted
  rw [texts, prepend_append] at reached
  rw [texts, wanted_append] at wanted
  exact ⟨texts, reached, wanted⟩

theorem Coordinated.adopted {work : SplitChunks}
    (coordinated : Coordinated preparation split eos workers session start base waits coordinator journal
      scan ahead unread) (queue : coordinator.pending = item :: items)
    (present : coordinator.ledger.session.works split item.sequence = some work)
    (fits : scan.tokens + work.state.outputTokens ≤ preparation.maxTokens split) :
    ∃ after journal' later,
      coordinator.ledger.perform preparation.settings (.adopt split item.sequence item.first) =
        .ok after ∧
      Coordinated preparation split eos workers session start base waits
        { coordinator with
          ledger := after
          pending := items
          reserved := coordinator.reserved - item.upper
          free := coordinator.free ++ [item.slot] } journal' later ahead unread := by
  have member : item ∈ coordinator.pending := by rw [queue]; exact List.mem_cons_self
  have made := coordinated.made item member (by rw [present]; rfl)
  obtain ⟨state, valid⟩ := coordinated.kept.batch present
  obtain ⟨records, same⟩ : ∃ records, journal.batches split item.sequence = records := ⟨_, rfl⟩
  rw [same] at made state valid
  rw [state] at fits
  obtain ⟨texts, reached, wanted⟩ := coordinated.front queue
  have small := coordinated.small
  have left := coordinated.left
  have acquired := coordinated.acquired
  rw [texts] at small left acquired
  rw [documents_append] at left
  rw [List.length_append] at acquired
  obtain ⟨later, reaches, remaining⟩ := reached.admits wanted.1
    (fun text inside => small text (List.mem_append_left _ inside)) made
    (fun record inside => capRecord_valid.mpr (valid record inside)) fits
  have queued := coordinated.queued
  rw [queue] at queued
  obtain ⟨⟨first, _⟩, queued⟩ := queued
  have length : records.length = item.batch.length := (mapM_eq_ok.mp made).length_eq.symm
  have sequences := coordinated.sequences
  rw [queue, List.map_cons, List.nodup_cons] at sequences
  obtain ⟨after, performed, kept, settled, beside⟩ := coordinated.kept.adopt present
    coordinated.settled (by rw [same]; exact reaches.within_selectable)
  have apart {number : Nat} (different : number ≠ item.sequence) :
      (split, number) ≠ (split, item.sequence) := fun equal => different (Prod.mk.inj equal).2
  have inside {other : Item} (behind : other ∈ items) : other ∈ coordinator.pending := by
    rw [queue]
    exact List.mem_cons_of_mem _ behind
  have distinct {other : Item} (behind : other ∈ items) : other.sequence ≠ item.sequence :=
    fun equal => sequences.1 (equal ▸ List.mem_map_of_mem behind)
  have sooner := coordinated.earlier item member
  rw [← first] at performed
  rw [same] at kept
  refine ⟨after, _, later, performed, { coordinated with
    kept, settled, others := ?_, reached := ?_, small := ?_, wanted := ?_, left := ?_
    acquired := ?_, queued := ?_, sequences := sequences.2, earlier := ?_, slots := ?_, made := ?_
    vacant := ?_, fresh := ?_, ready := ?_ }⟩
  · intro other different
    rw [records_append_other journal different, coordinated.others other different]
  · rw [records_append_self]
    exact reaches
  · exact fun text behind => small text (List.mem_append_right _ behind)
  · have rest : later.remaining = scan.remaining - documents item.batch := by omega
    rw [rest]
    exact wanted.2
  · change later.remaining = documents (queuedTexts items ++ coordinator.batch) + unread
    omega
  · rw [records_append_self, List.length_append, length]
    change coordinator.acquired = _ + (queuedTexts items ++ coordinator.batch).length
    omega
  · rw [records_append_self, List.length_append, length]
    rwa [Nat.add_right_comm]
  · exact fun other behind => coordinated.earlier other (inside behind)
  · have slots := coordinated.slots
    rw [queue, List.length_cons] at slots
    change (coordinator.free ++ [item.slot]).length + items.length = _
    rw [List.length_append, List.length_singleton]
    omega
  · intro other behind done
    rw [beside.works split _ (apart (distinct behind))] at done
    exact coordinated.made other (inside behind) done
  · intro number none place
    have different : number ≠ item.sequence := by
      rcases place with late | ⟨other, behind, rfl⟩
      · change coordinator.sequence ≤ number at late
        omega
      · exact distinct behind
    rw [beside.works split _ (apart different)] at none
    apply beside.vacant split _ (apart different)
    apply coordinated.vacant number none
    exact place.imp_right fun ⟨other, behind, equal⟩ => ⟨other, inside behind, equal⟩
  · intro number late
    have different : number ≠ item.sequence := by
      change coordinator.sequence ≤ number at late
      omega
    rw [beside.works split _ (apart different)]
    exact coordinated.fresh number late
  · intro other different ready
    exact (coordinated.ready other different ready).beside different beside

def Coordinates (preparation : Preparation) (split : Split) (eos : Int) (workers : Workers)
    (session : Session) (start base : Journal) (waits : Split → Prop) (ahead : Source)
    (unread : Nat) (also : Coordinator → Prop) (result : Except (String × Ledger) Coordinator) : Prop :=
  Outcome (fun after => also after ∧ ∃ journal scan, Coordinated preparation split eos workers
      session start base waits after journal scan ahead unread)
    (Fails preparation split eos true (Bounded preparation)
      (Holding preparation split eos session start base waits)) result

section

variable (coordinated : Coordinated preparation split eos workers session start base waits coordinator
  journal scan ahead unread)

include coordinated

theorem Coordinated.first (queue : coordinator.pending = item :: items)
    (present : (coordinator.ledger.session.works split item.sequence).isSome ∨
      Refused preparation split eos true) :
    Coordinates preparation split eos workers session start base waits ahead unread
      (fun after => after.pending = items ∧ after.batch = coordinator.batch ∧
        after.batchUpper = coordinator.batchUpper ∧ after.free ≠ [])
      (match coordinator.ledger.session.works split item.sequence with
        | none => .error ("preparation workers cancelled", coordinator.ledger)
        | some work =>
          if work.state.outputTokens > item.upper then
            .error ("tokenizer violated the UTF-8 output reservation", coordinator.ledger)
          else if outputTokens split coordinator + work.state.outputTokens >
              preparation.maxTokens split then
            .error ("token cap would truncate selected story", coordinator.ledger)
          else do
            let ledger ← (coordinator.ledger.perform preparation.settings
              (.adopt split item.sequence item.first)).mapError (·, coordinator.ledger)
            pure { coordinator with
              ledger
              pending := items
              reserved := coordinator.reserved - item.upper
              free := coordinator.free ++ [item.slot] }) := by
  have member : item ∈ coordinator.pending := by rw [queue]; exact List.mem_cons_self
  cases found : coordinator.ledger.session.works split item.sequence with
  | none =>
    rw [found] at present
    exact coordinated.breaks (fun _ => present.resolve_left (by simp)) _
  | some work =>
    have made := coordinated.made item member (by rw [found]; rfl)
    obtain ⟨state, valid⟩ := coordinated.kept.batch found
    have queued := coordinated.queued
    rw [queue] at queued
    obtain ⟨⟨_, upper⟩, _⟩ := queued
    apply Outcome.ite
    · intro beyond
      refine coordinated.breaks (fun bounded => ?_) _
      have bound := tokens_le_uppers bounded made
      rw [state, upper] at beyond
      omega
    · intro _
      have tokens : outputTokens split coordinator = scan.tokens := by
        rw [outputTokens, coordinated.kept.state coordinated.settled, coordinated.reached.tokens]
      rw [tokens]
      apply Outcome.ite
      · intro beyond
        refine coordinated.breaks (fun _ => ?_) _
        obtain ⟨_, reached, wanted, _⟩ := coordinated.front queue
        rcases reached.through wanted with refused | ⟨records, later, same, _, reaches, _⟩
        · exact refused
        · rw [made] at same
          obtain rfl := Except.ok.inj same
          have within := reaches.within
          rw [reaches.tokens, tally_append] at within
          have sum := coordinated.reached.tokens
          simp only [Counters.add] at within
          rw [state] at beyond
          omega
      · intro within
        obtain ⟨after, journal', later, performed, adopted⟩ :=
          coordinated.adopted queue found (Nat.not_lt.mp within)
        rw [performed]
        exact ⟨⟨rfl, rfl, rfl, by simp⟩, journal', later, adopted⟩

theorem Coordinated.drain (queue : coordinator.pending = item :: items) :
    Coordinates preparation split eos workers session start base waits ahead unread
      (fun after => after.pending = items ∧ after.batch = coordinator.batch ∧
        after.batchUpper = coordinator.batchUpper ∧ after.free ≠ [])
      (preparation.drain split eos batchDocuments workers coordinator) := by
  have member : item ∈ coordinator.pending := by rw [queue]; exact List.mem_cons_self
  obtain ⟨ledger, failed, cancelled, looks, journal', settled, goes, _⟩ :=
    coordinated.settle batchDocuments
  cases coordinator with
  | mk first acquired selected pending free batch batchBytes batchUpper reserved sequence
      failures stopped seen =>
      dsimp only at queue
      subst queue
      rw [Preparation.drain, settled]
      dsimp only
      by_cases stops : cancelled = true
      · rw [if_pos stops]
        exact goes.first rfl (.inr (goes.refused (.inl stops)))
      · rw [if_neg stops]
        obtain ⟨ledger', failed', cancelled', last, completed, ends, _, present⟩ :=
          goes.complete batchDocuments member
        rw [completed]
        exact ends.first rfl present

theorem Coordinated.drainWhile (condition : Coordinator → Bool) (count : Nat) :
    Coordinates preparation split eos workers session start base waits ahead unread
      (fun after => after.batch = coordinator.batch ∧
        after.batchUpper = coordinator.batchUpper ∧
        ((∀ state, condition state = true) → coordinator.pending.length ≤ count →
          after.pending = []))
      (preparation.drainWhile split eos batchDocuments workers condition count coordinator) := by
  induction count generalizing coordinator journal scan with
  | zero =>
    refine ⟨⟨rfl, rfl, fun _ none => ?_⟩, journal, scan, coordinated⟩
    exact List.length_eq_zero_iff.mp (Nat.le_zero.mp none)
  | succ count ih =>
    rw [Preparation.drainWhile]
    apply Outcome.ite
    · rintro ⟨some, _⟩
      obtain ⟨item, items, queue⟩ := List.exists_cons_of_ne_nil some
      apply (coordinated.drain queue).bind
      rintro after ⟨⟨pending, batch, upper, _⟩, journal', later, goes⟩
      apply (ih goes).mono
      rintro last ⟨⟨lastBatch, lastUpper, emptied⟩, goes'⟩
      refine ⟨⟨lastBatch.trans batch, lastUpper.trans upper, fun always few => ?_⟩, goes'⟩
      apply emptied always
      rw [queue, List.length_cons] at few
      rw [pending]
      omega
    · intro stops
      refine ⟨⟨rfl, rfl, fun always _ => ?_⟩, journal, scan, coordinated⟩
      by_contra some
      exact stops ⟨some, always coordinator⟩

theorem Coordinated.assign (slot : coordinator.free ≠ []) :
    Coordinates preparation split eos workers session start base waits ahead unread
      (fun after => after.batch = []) (Preparation.assign coordinator) := by
  obtain ⟨number, free, slots⟩ := List.exists_cons_of_ne_nil slot
  have counted := coordinated.slots
  have acquired := coordinated.acquired
  rw [slots, List.length_cons] at counted
  rw [Coordinator.texts, List.length_append] at acquired
  rw [Preparation.assign, slots]
  let item : Item := {
    sequence := coordinator.sequence
    slot := number
    upper := coordinator.batchUpper
    first := coordinator.acquired - coordinator.batch.length + 1
    batch := coordinator.batch }
  have texts : queuedTexts (coordinator.pending ++ [item]) ++ [] = coordinator.texts := by
    simp [queuedTexts, Coordinator.texts, item]
  have absent := coordinated.fresh coordinator.sequence (Nat.le_refl _)
  refine ⟨rfl, journal, scan, { coordinated with
    reached := ?_, small := ?_, wanted := ?_, left := ?_, acquired := ?_, queued := ?_
    batchUpper := rfl, sequences := ?_, earlier := ?_, slots := ?_, made := ?_, vacant := ?_
    fresh := ?_ }⟩
  · change Reached _ _ _ _ _ _ (Source.prepend (queuedTexts (coordinator.pending ++ [item]) ++ []) _)
    rw [texts]
    exact coordinated.reached
  · change ∀ text ∈ queuedTexts (coordinator.pending ++ [item]) ++ [], _
    rw [texts]
    exact coordinated.small
  · change Wanted _ (queuedTexts (coordinator.pending ++ [item]) ++ [])
    rw [texts]
    exact coordinated.wanted
  · change _ = documents (queuedTexts (coordinator.pending ++ [item]) ++ []) + _
    rw [texts]
    exact coordinated.left
  · change _ = _ + (queuedTexts (coordinator.pending ++ [item]) ++ []).length
    rw [texts]
    exact coordinated.acquired
  · refine queued_append.mpr ⟨coordinated.queued, ?_, coordinated.batchUpper⟩
    change coordinator.acquired - coordinator.batch.length + 1 = _
    omega
  · exact nodup_map_concat coordinated.sequences fun before member =>
      Nat.ne_of_lt (coordinated.earlier before member)
  · intro other inside
    rcases List.mem_append.mp inside with old | new
    · exact Nat.lt_succ_of_lt (coordinated.earlier other old)
    · rw [List.mem_singleton.mp new]
      exact Nat.lt_succ_self _
  · change free.length + (coordinator.pending ++ [item]).length = _
    rw [List.length_append, List.length_singleton]
    omega
  · intro other inside done
    rcases List.mem_append.mp inside with old | new
    · exact coordinated.made other old done
    · rw [List.mem_singleton.mp new] at done
      change (coordinator.ledger.session.works split coordinator.sequence).isSome at done
      rw [absent] at done
      cases done
  · intro sequence none place
    apply coordinated.vacant sequence none
    rcases place with late | ⟨other, inside, equal⟩
    · exact .inl (Nat.le_of_succ_le late)
    · rcases List.mem_append.mp inside with old | new
      · exact .inr ⟨other, old, equal⟩
      · rw [List.mem_singleton.mp new] at equal
        exact .inl (Nat.le_of_eq equal)
  · exact fun sequence late => coordinated.fresh sequence (Nat.le_of_succ_le late)

theorem Coordinated.submit :
    Coordinates preparation split eos workers session start base waits ahead unread
      (fun after => after.batch = [])
      (preparation.submit split eos batchDocuments workers coordinator) := by
  unfold Preparation.submit
  apply Outcome.ite
  · exact fun empty => ⟨empty, journal, scan, coordinated⟩
  · intro _
    apply Outcome.ite
    · intro none
      have slots := coordinated.slots
      have positive := workers.countPos
      have some : coordinator.pending ≠ [] := by
        intro empty
        rw [none, empty] at slots
        exact absurd slots (Nat.ne_of_lt positive)
      obtain ⟨item, items, queue⟩ := List.exists_cons_of_ne_nil some
      apply (coordinated.drain queue).bind
      rintro after ⟨⟨_, _, _, slot⟩, journal', later, goes⟩
      exact goes.assign slot
    · exact coordinated.assign

theorem Coordinated.submitWhen {condition : Prop} [Decidable condition] :
    Coordinates preparation split eos workers session start base waits ahead unread (fun _ => True)
      (preparation.submitWhen split eos batchDocuments workers condition coordinator) := by
  unfold Preparation.submitWhen
  apply Outcome.ite
  · intro _
    apply coordinated.submit.mono
    rintro after ⟨_, goes⟩
    exact ⟨trivial, goes⟩
  · exact fun _ => ⟨trivial, journal, scan, coordinated⟩

theorem Coordinated.submitFull :
    Coordinates preparation split eos workers session start base waits ahead unread (fun _ => True)
      (preparation.submitFull split eos batchDocuments workers coordinator) := by
  unfold Preparation.submitFull
  apply Outcome.ite
  · intro _
    apply coordinated.submit.bind
    rintro after ⟨_, journal', later, goes⟩
    apply Outcome.ite
    · intro _
      apply (goes.drainWhile _ _).mono
      rintro last ⟨_, ends⟩
      exact ⟨trivial, ends⟩
    · exact fun _ => ⟨trivial, journal', later, goes⟩
  · exact fun _ => ⟨trivial, journal, scan, coordinated⟩

end

theorem Coordinated.extend (small : text.utf8ByteSize ≤ preparation.batchSourceBytes)
    (some : 0 < unread)
    (coordinated : Coordinated preparation split eos workers session start base waits coordinator
      journal scan (.document text ahead) unread) :
    Coordinated preparation split eos workers session start base waits
      (Preparation.extend coordinator text) journal scan ahead
      (unread - if text = "" then 0 else 1) := by
  have texts : (Preparation.extend coordinator text).texts = coordinator.texts ++ [text] :=
    (List.append_assoc _ _ _).symm
  have left := coordinated.left
  have one : (if text = "" then 0 else 1) ≤ 1 := by split <;> simp
  have counted : documents [text] = if text = "" then 0 else 1 := documents_cons
  refine { coordinated with
    reached := ?_, small := ?_, wanted := ?_, left := ?_, acquired := ?_, selected := ?_
    batchUpper := ?_ }
  · rw [texts, prepend_append]
    exact coordinated.reached
  · rw [texts]
    intro other member
    rcases List.mem_append.mp member with old | new
    · exact coordinated.small other old
    · rw [List.mem_singleton.mp new]
      exact small
  · rw [texts, wanted_append]
    exact ⟨coordinated.wanted, by omega, trivial⟩
  · rw [texts, documents_append, counted]
    omega
  · rw [texts, List.length_append, List.length_singleton]
    change coordinator.acquired + 1 = _
    rw [coordinated.acquired]
    omega
  · change coordinator.selected + _ + _ = _
    have selected := coordinated.selected
    omega
  · change coordinator.batchUpper + upperTokens text = _
    rw [coordinated.batchUpper]
    change uppers coordinator.batch + _ = uppers (coordinator.batch ++ [text])
    simp [uppers]

theorem Coordinated.refuses
    (coordinated : Coordinated preparation split eos workers session start base waits coordinator
      journal scan ahead unread)
    (behind : ∀ {records later}, Reached preparation split eos true records later ahead →
      later.remaining = unread → Refused preparation split eos true) (reason : String) :
    Fails preparation split eos true (Bounded preparation)
      (Holding preparation split eos session start base waits) (reason, coordinator.ledger) := by
  refine coordinated.breaks (fun _ => ?_) reason
  rcases coordinated.reached.through coordinated.wanted with refused | ⟨_, later, _, _, reached, left⟩
  · exact refused
  · have whole := coordinated.left
    exact behind reached (by omega)

theorem Coordinated.conclude
    (coordinated : Coordinated preparation split eos workers session start base waits coordinator
      journal scan ahead unread) (ended : unread = 0 ∨ ahead = .finished) :
    Collects preparation split eos true (Bounded preparation)
      (Holding preparation split eos session start base waits)
      (preparation.concludeParallel split eos batchDocuments workers coordinator) := by
  apply coordinated.submit.bind
  rintro after ⟨emptied, journal', later, goes⟩
  apply (goes.drainWhile (fun _ => true) _).bind
  rintro last ⟨⟨batch, _, drained⟩, journal'', final, ends⟩
  have none : last.texts = [] := by
    rw [Coordinator.texts, drained (fun _ => rfl) (Nat.le_refl _), batch, emptied]
    rfl
  have reached := ends.reached
  have left := ends.left
  have nothing : documents ([] : List String) = 0 := rfl
  rw [none] at reached left
  rw [nothing, Nat.zero_add] at left
  have selected := reached.remaining
  rw [ends.kept.state ends.settled]
  apply Outcome.ite
  · intro short
    apply ends.refuses
    intro records _ reaches same
    rcases ended with all | stops
    · omega
    · subst stops
      exact reaches.finished (by omega)
  · intro enough
    obtain ⟨stored, finished, kept, aside⟩ := ends.kept.finish split
    rw [finished]
    refine ⟨_, ⟨journal'', kept, rfl, ends.others, ?_⟩, reached.complete (by omega), rfl⟩
    exact fun other different waiting => (ends.ready other different waiting).aside different aside

theorem Coordinated.enter (some : 0 < unread)
    (coordinated : Coordinated preparation split eos workers session start base waits coordinator
      journal scan (.document text ahead) unread) :
    Coordinates preparation split eos workers session start base waits ahead
      (unread - if text = "" then 0 else 1) (fun _ => True)
      (preparation.admitParallel split eos batchDocuments workers coordinator text) := by
  unfold Preparation.admitParallel
  apply Outcome.ite
  · intro large
    apply coordinated.refuses
    intro records later reached same
    have nonempty : text ≠ "" := by
      rintro rfl
      exact absurd large (Nat.not_lt_zero _)
    apply reached.refused (by omega)
    rw [admitDocument, if_neg nonempty, if_pos large]
  · intro small
    apply coordinated.submitWhen.bind
    rintro after ⟨_, journal', later, goes⟩
    apply (goes.drainWhile _ _).bind
    rintro last ⟨_, journal'', final, ends⟩
    exact (ends.extend (Nat.not_lt.mp small) some).submitFull

theorem Coordinated.collect
    (coordinated : Coordinated preparation split eos workers session start base waits coordinator
      journal scan ahead unread) :
    Collects preparation split eos true (Bounded preparation)
      (Holding preparation split eos session start base waits)
      (preparation.collectParallelFrom split eos batchDocuments workers coordinator ahead) := by
  induction ahead generalizing coordinator journal scan unread with
  | finished =>
    rw [collectParallelFrom]
    apply Outcome.ite
    · intro _
      obtain ⟨ledger, failed, cancelled, looks, journal', settled, goes, _⟩ :=
        coordinated.settle batchDocuments
      rw [settled]
      apply Outcome.ite
      · exact fun stopped => goes.breaks (fun _ => goes.refused (.inl stopped)) _
      · exact fun _ => goes.conclude (.inr rfl)
    · exact fun _ => coordinated.conclude (.inr rfl)
  | failed reason =>
    rw [collectParallelFrom]
    have selected := coordinated.selected
    apply Outcome.ite
    · intro more
      obtain ⟨ledger, failed, cancelled, looks, journal', settled, goes, _⟩ :=
        coordinated.settle batchDocuments
      rw [settled]
      apply Outcome.ite
      · exact fun stopped => goes.breaks (fun _ => goes.refused (.inl stopped)) _
      · intro _
        apply goes.refuses
        intro records later reached same
        exact reached.failed (by omega)
    · exact fun enough => coordinated.conclude (.inl (by omega))
  | document text rest ih =>
    rw [collectParallelFrom]
    have selected := coordinated.selected
    apply Outcome.ite
    · intro more
      obtain ⟨ledger, failed, cancelled, looks, journal', settled, goes, _⟩ :=
        coordinated.settle batchDocuments
      rw [settled]
      apply Outcome.ite
      · exact fun stopped => goes.breaks (fun _ => goes.refused (.inl stopped)) _
      · intro _
        apply (goes.enter (by omega)).bind
        rintro after ⟨_, journal'', later, ends⟩
        exact ih ends
    · exact fun enough => coordinated.conclude (.inl (by omega))

theorem collectParallelStream_collects
    (kept : Kept preparation.settings (preparation.selectable · eos true) session start ledger
      journal) (token : preparation.eos = some eos) (ready : Ready ledger.session split)
    (others : ∀ other, other ≠ split → waits other → Ready ledger.session other) :
    Collects preparation split eos true (Bounded preparation)
      (Holding preparation split eos session start journal waits)
      (preparation.collectParallelStream split batchDocuments workers ledger) := by
  obtain ⟨scan, rest, skipped, reached⟩ := Reached.start.skip (kept.permitted split)
  rw [List.nil_append] at reached
  have remaining := reached.remaining
  rw [collectParallelStream, token]
  have acquired : (tally (journal.records split)).acquiredDocuments =
    (journal.records split).length := rfl
  simp only [kept.state ready.settled, acquired, skipped, Except.mapError, bind, Except.bind]
  have coordinated : Coordinated preparation split eos workers session start journal waits
      { ledger
        acquired := (journal.records split).length
        selected := (tally (journal.records split)).retainedDocuments
        free := List.range workers.count } journal scan rest scan.remaining :=
    { kept, settled := ready.settled, reached
      others := fun _ _ => rfl
      small := List.forall_mem_nil _
      wanted := trivial
      left := (Nat.zero_add _).symm
      acquired := rfl
      selected := by rw [Nat.add_comm]; exact remaining
      queued := trivial
      batchUpper := rfl
      sequences := List.nodup_nil
      earlier := List.forall_mem_nil _
      slots := List.length_range
      made := List.forall_mem_nil _
      vacant := fun number _ _ => ready.vacant number
      fresh := fun number _ => kept.works_none (ready.vacant number)
      refused := by simp
      ready := others }
  exact coordinated.collect

def Sure (preparation : Preparation) (shape : Shape) : Prop :=
  shape.workers = none ∨ Bounded preparation

variable (split) in
theorem collectSplit_collects {shape : Shape}
    (kept : Kept preparation.settings (preparation.selectable · eos true) session start ledger
      journal) (token : preparation.eos = some eos) (ready : Ready ledger.session split)
    (others : ∀ other, other ≠ split → waits other → Ready ledger.session other) :
    Collects preparation split eos true (Sure preparation shape)
      (Holding preparation split eos session start journal waits)
      (preparation.collectSplit shape split ledger) := by
  unfold collectSplit
  cases mode : shape.workers with
  | none => exact collectStreaming_collects kept token ready.settled others
  | some workers =>
    apply (collectParallelStream_collects kept token ready others).mono_error
    rintro failure ⟨refused, held⟩
    refine ⟨fun sure => refused (sure.resolve_left ?_), held⟩
    rw [mode]
    exact Option.some_ne_none workers

theorem collectSplits_collects {shape : Shape}
    (kept : Kept preparation.settings (preparation.selectable · eos true) session start { session }
      start) (token : preparation.eos = some eos) (ready : ∀ split, Ready session split) :
    Outcome (fun (ledger, results) => ∃ journal, Kept preparation.settings
        (preparation.selectable · eos true) session start ledger journal ∧ ∀ split,
          preparation.selected split eos true = .ok (journal.records split) ∧
            results split = finishedOf preparation.settings (journal.records split))
      (fun failure => (Sure preparation shape → ∃ split, Refused preparation split eos true) ∧
        ∃ journal, Kept preparation.settings (preparation.selectable · eos true) session start
          failure.2 journal)
      (preparation.collectSplits shape { session }) := by
  have train : Collects preparation .train eos true (Sure preparation shape)
      (Holding preparation .train eos session start start fun _ => True)
      (preparation.collectSplit shape .train { session }) :=
    collectSplit_collects .train kept token (ready .train) fun other _ _ => ready other
  apply (train.mono_error ?_).bind
  · rintro ⟨ledger, first⟩ ⟨_, ⟨journal, keeps, rfl, others, waiting⟩, selected, rfl⟩
    have validation : Collects preparation .validation eos true (Sure preparation shape)
        (Holding preparation .validation eos session start journal fun _ => False)
        (preparation.collectSplit shape .validation ledger) :=
      collectSplit_collects .validation keeps token (waiting .validation (by decide) trivial)
        fun _ _ none => none.elim
    apply (validation.mono_error ?_).bind
    · rintro ⟨last, second⟩ ⟨_, ⟨journal', keeps', rfl, others', _⟩, selected', rfl⟩
      refine ⟨journal', keeps', fun split => ?_⟩
      cases split
      · rw [others' .train (by decide)]
        exact ⟨selected, rfl⟩
      · exact ⟨selected', rfl⟩
    · rintro failure ⟨refused, _, journal', keeps', _⟩
      exact ⟨fun sure => ⟨_, refused sure⟩, journal', keeps'⟩
  · rintro failure ⟨refused, _, journal, keeps, _⟩
    exact ⟨fun sure => ⟨_, refused sure⟩, journal, keeps⟩

end Preparation

end SparseLab.Data
