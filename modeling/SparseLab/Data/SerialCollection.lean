import SparseLab.Data.CollectionLedgers
import SparseLab.Data.StreamingReference

/-! The serial collection agrees with the reference, however documents are batched. -/

namespace SparseLab.Data

open Library

namespace Preparation

variable {σ : Type} {preparation : Preparation} {split : Split} {eos : Int} {capped : Bool}
  {sink : Sink σ} {holds : σ → List Record → Prop} {scan later : Scan} {texts : List String}
  {text : String} {ahead : Source} {records : List Record} {batchDocuments unread extra : Nat}
  {state : Collecting σ} {sure : Prop}

structure Keeps (preparation : Preparation) (split : Split) (eos : Int) (capped : Bool)
    (sink : Sink σ) (holds : σ → List Record → Prop) : Prop where
  append : ∀ {store records} (values : ArrayName → List Int), holds store records →
    records ++ [some values] <+: preparation.selectable split eos capped →
    (∃ bytes, preparation.capRecord split capped (some values) = .ok bytes) →
    ∃ after, sink.append store (records.length + 1) (some values) = .ok after ∧
      holds after (records ++ [some values])
  refuse : ∀ {store records failure} (values : ArrayName → List Int), holds store records →
    preparation.capRecord split capped (some values) = .error failure →
    ∃ failure, sink.append store (records.length + 1) (some values) = .error failure
  skip : ∀ {store records}, sink.chunked = true → holds store records →
    records ++ [none] <+: preparation.selectable split eos capped →
    ∃ after, sink.append store (records.length + 1) none = .ok after ∧
      holds after (records ++ [none])
  pass : ∀ {store records}, sink.chunked = false → holds store records →
    holds store (records ++ [none])
  finish : ∀ {store records}, holds store records →
    ∃ after, sink.finish store (tally records) =
      .ok (after, finishedOf preparation.settings records) ∧ holds after records

def statsOf (records : List Record) (texts : List String) (extra : Nat) : Counters :=
  { tally records with
    acquiredDocuments := records.length + texts.length + extra
    skippedDocuments := (tally records).skippedDocuments + texts.count "" }

theorem statsOf_nil (records : List Record) : statsOf records [] 0 = tally records := rfl

theorem statsOf_skip (records : List Record) (texts : List String) (extra : Nat) :
    statsOf (records ++ [none]) texts extra = statsOf records ("" :: texts) extra := by
  simp only [statsOf, tally_append, Counters.add, List.length_append, List.length_cons,
    List.length_nil, List.count_cons_self, Counters.mk.injEq]
  simp [tally]
  omega

theorem statsOf_text (nonempty : text ≠ "") (values : ArrayName → List Int) :
    statsOf (records ++ [some values]) texts extra =
      { statsOf records (text :: texts) extra with
        retainedDocuments := (statsOf records (text :: texts) extra).retainedDocuments + 1
        outputTokens := (statsOf records (text :: texts) extra).outputTokens +
          (values .ids).length } := by
  simp only [statsOf, tally_append, Counters.add, List.length_append, List.length_cons,
    List.length_nil, List.count_cons_of_ne nonempty, Counters.mk.injEq]
  simp [tally]
  omega

structure Scanned (preparation : Preparation) (split : Split) (eos : Int) (capped : Bool)
    (sink : Sink σ) (holds : σ → List Record → Prop) (state : Collecting σ)
    (records : List Record) (scan : Scan) (texts : List String) (ahead : Source)
    (unread extra : Nat) : Prop where
  held : holds state.store records
  reached : Reached preparation split eos capped records scan (Source.prepend texts ahead)
  stats : state.stats = statsOf records texts extra
  plain : ∀ text ∈ texts, text.utf8ByteSize ≤ preparation.batchSourceBytes ∧
    (text = "" → sink.chunked = false)
  wanted : Wanted scan.remaining texts
  unread : scan.remaining = documents texts + unread

def waiting (first : Nat) (texts : List String) : List (String × Nat) :=
  (texts.zipIdx first).filter fun entry => entry.1 ≠ ""

theorem waiting_skip (first : Nat) : waiting first ("" :: texts) = waiting (first + 1) texts := by
  simp [waiting, List.zipIdx_cons]

theorem waiting_text (nonempty : text ≠ "") (first : Nat) :
    waiting first (text :: texts) = (text, first) :: waiting (first + 1) texts := by
  simp [waiting, List.zipIdx_cons, nonempty]

theorem waiting_append (nonempty : text ≠ "") (first : Nat) :
    waiting first (texts ++ [text]) = waiting first texts ++ [(text, first + texts.length)] := by
  simp [waiting, List.zipIdx_append, nonempty, List.zipIdx_cons]

theorem length_waiting (first : Nat) : (waiting first texts).length = documents texts := by
  induction texts generalizing first with
  | nil => rfl
  | cons text texts ih =>
    by_cases empty : text = ""
    · subst empty
      rw [waiting_skip, ih, documents_cons, if_pos rfl, Nat.zero_add]
    · rw [waiting_text empty, List.length_cons, ih, documents_cons, if_neg empty, Nat.add_comm]

def Fails (preparation : Preparation) (split : Split) (eos : Int) (capped : Bool) (sure : Prop)
    (holds : σ → List Record → Prop) (failure : String × σ) : Prop :=
  (sure → Refused preparation split eos capped) ∧ ∃ records, holds failure.2 records

variable (keeps : Keeps preparation split eos capped sink holds)

include keeps

/-- One document of `flush`. -/
theorem flushEach_cons (nonempty : text ≠ "")
    (scanned : Scanned preparation split eos capped sink holds state records scan (text :: texts)
      ahead unread extra) (rest : List ((String × Nat) × List Int)) :
    (∃ failure, Fails preparation split eos capped sure holds failure ∧
      preparation.flushEach sink split eos state
        (((text, records.length + 1), preparation.encode text) :: rest) = .error failure) ∨
      ∃ record later state', Scanned preparation split eos capped sink holds state'
          (records ++ [record]) later texts ahead unread extra ∧
        preparation.flushEach sink split eos state
          (((text, records.length + 1), preparation.encode text) :: rest) =
            preparation.flushEach sink split eos state' rest := by
  obtain ⟨positive, others⟩ := scanned.wanted
  have tokens : state.stats.outputTokens = scan.tokens := by
    rw [scanned.stats, scanned.reached.tokens]
    rfl
  have admitting := @admit_small preparation split eos capped scan text nonempty
    (scanned.plain text List.mem_cons_self).1
  have fails (failure : String)
      (refused : preparation.admitDocument split eos capped scan text = .error failure)
      (reason : String) : Fails preparation split eos capped sure holds (reason, state.store) :=
    ⟨fun _ => scanned.reached.refused positive refused, records, scanned.held⟩
  cases made : preparation.streamingValues eos (preparation.encode text) text with
  | error failure =>
    left
    simp only [made, bind, Except.bind] at admitting
    refine ⟨_, fails _ admitting failure, ?_⟩
    simp only [flushEach, made, Except.mapError, bind, Except.bind]
  | ok values =>
    simp only [made, bind, Except.bind] at admitting
    by_cases beyond : scan.tokens + (values .ids).length > preparation.maxTokens split
    · left
      rw [if_pos beyond] at admitting
      refine ⟨_, fails _ admitting "token cap would truncate selected story", ?_⟩
      simp only [flushEach, made, tokens, Except.mapError, bind, Except.bind, if_pos beyond]
    · rw [if_neg beyond] at admitting
      cases checked : preparation.capRecord split capped (some values) with
      | ok bytes =>
        right
        simp only [checked] at admitting
        have reached := scanned.reached.next positive admitting
        obtain ⟨after, stored, held⟩ :=
          keeps.append values scanned.held reached.within_selectable ⟨bytes, checked⟩
        have stats := scanned.stats
        have unread := scanned.unread
        rw [if_neg nonempty] at others
        rw [documents_cons, if_neg nonempty] at unread
        refine ⟨some values, _, { state with
          store := after
          stats := { state.stats with
            retainedDocuments := state.stats.retainedDocuments + 1
            outputTokens := state.stats.outputTokens + (values .ids).length } },
          ⟨held, reached, ?_, ?_, others, ?_⟩, ?_⟩
        · rw [statsOf_text nonempty, stats]
        · exact fun other member => scanned.plain other (List.mem_cons_of_mem _ member)
        · change scan.remaining - 1 = _
          omega
        · simp only [flushEach, made, tokens, stored, Except.mapError, bind, Except.bind,
            if_neg beyond]
      | error failure =>
        left
        simp only [checked] at admitting
        obtain ⟨reason, refused⟩ := keeps.refuse values scanned.held checked
        refine ⟨_, fails _ admitting reason, ?_⟩
        simp only [flushEach, made, tokens, refused, Except.mapError, bind, Except.bind,
          if_neg beyond]

variable (sure) in
theorem flushEach_follows
    (scanned : Scanned preparation split eos capped sink holds state records scan texts ahead
      unread extra) :
    Outcome (fun after => ∃ found later,
        Scanned preparation split eos capped sink holds after found later [] ahead unread extra ∧
          found.length = records.length + texts.length ∧ after.pending = [])
      (Fails preparation split eos capped sure holds)
      (preparation.flushEach sink split eos state ((waiting (records.length + 1) texts).zip
        (((waiting (records.length + 1) texts).map Prod.fst).map preparation.encode))) := by
  induction texts generalizing records state scan with
  | nil =>
    refine ⟨records, scan, ?_, rfl, rfl⟩
    exact ⟨scanned.held, scanned.reached, scanned.stats, scanned.plain, scanned.wanted,
      scanned.unread⟩
  | cons text texts ih =>
    have longer (record : Record) : (records ++ [record]).length = records.length + 1 := by simp
    by_cases empty : text = ""
    · subst empty
      obtain ⟨positive, others⟩ := scanned.wanted
      have unread := scanned.unread
      rw [documents_cons, if_pos rfl, Nat.zero_add] at unread
      have next : Scanned preparation split eos capped sink holds state (records ++ [none]) scan
          texts ahead _ extra :=
        { held := keeps.pass ((scanned.plain "" List.mem_cons_self).2 rfl) scanned.held
          reached := scanned.reached.next positive admit_empty
          stats := by rw [statsOf_skip, scanned.stats]
          plain := fun other member => scanned.plain other (List.mem_cons_of_mem _ member)
          wanted := others
          unread }
      have rest := ih next
      rw [longer] at rest
      rw [waiting_skip]
      apply rest.mono
      rintro after ⟨found, last, scans, length, emptied⟩
      refine ⟨found, last, scans, ?_, emptied⟩
      rw [length, List.length_cons]
      omega
    · rw [waiting_text empty]
      rcases flushEach_cons keeps empty scanned _ with ⟨failure, fails, raised⟩ |
        ⟨record, next, middle, follows, same⟩
      · change Outcome _ _ (preparation.flushEach sink split eos state
          (((text, records.length + 1), preparation.encode text) :: _))
        rw [raised]
        exact fails
      · have rest := ih follows
        rw [longer] at rest
        change Outcome _ _ (preparation.flushEach sink split eos state
          (((text, records.length + 1), preparation.encode text) :: _))
        rw [same]
        apply rest.mono
        rintro after ⟨found, last, scans, length, emptied⟩
        refine ⟨found, last, scans, ?_, emptied⟩
        rw [length, List.length_cons]
        omega

structure Following (preparation : Preparation) (split : Split) (eos : Int) (capped : Bool)
    (sink : Sink σ) (holds : σ → List Record → Prop) (state : Collecting σ) (texts : List String)
    (ahead : Source) (unread extra : Nat) (records : List Record) : Prop where
  scanned : ∃ scan, Scanned preparation split eos capped sink holds state records scan texts ahead
    unread extra
  pending : state.pending = waiting (records.length + 1) texts

def Goes (preparation : Preparation) (split : Split) (eos : Int) (capped : Bool) (sure : Prop)
    (sink : Sink σ) (holds : σ → List Record → Prop) (ahead : Source) (unread extra : Nat)
    (result : Except (String × σ) (Collecting σ)) : Prop :=
  Outcome (fun after => ∃ texts records,
      Following preparation split eos capped sink holds after texts ahead unread extra records)
    (Fails preparation split eos capped sure holds) result

theorem Following.flush
    (following : Following preparation split eos capped sink holds state texts ahead unread extra
      records) :
    Outcome (fun after => ∃ records,
        Following preparation split eos capped sink holds after [] ahead unread extra records)
      (Fails preparation split eos capped sure holds) (preparation.flush sink split eos state) := by
  obtain ⟨scan, scanned⟩ := following.scanned
  have flushed := flushEach_follows sure keeps scanned
  rw [← following.pending] at flushed
  unfold Preparation.flush
  apply Outcome.ite
  · intro empty
    rw [empty] at flushed
    obtain ⟨found, later, scans, _, _⟩ := flushed
    exact ⟨found, ⟨later, scans.held, scans.reached, scans.stats, scans.plain, scans.wanted,
      scans.unread⟩, empty⟩
  · intro _
    apply flushed.mono
    rintro after ⟨found, later, scans, _, emptied⟩
    exact ⟨found, ⟨later, scans⟩, emptied⟩

theorem Following.flushWhen {condition : Prop} [Decidable condition]
    (following : Following preparation split eos capped sink holds state texts ahead unread extra
      records) :
    Goes preparation split eos capped sure sink holds ahead unread extra
      (preparation.flushWhen sink split eos condition state) := by
  unfold Preparation.flushWhen
  apply Outcome.ite
  · intro _
    apply (following.flush keeps).mono
    rintro after ⟨found, follows⟩
    exact ⟨[], found, follows⟩
  · intro _
    exact ⟨texts, records, following⟩

omit keeps in
theorem Following.through
    (following : Following preparation split eos capped sink holds state texts ahead unread extra
      records) :
    Refused preparation split eos capped ∨ ∃ found later,
      Reached preparation split eos capped found later ahead ∧ later.remaining = unread := by
  obtain ⟨scan, scanned⟩ := following.scanned
  have wanted := scanned.unread
  rcases scanned.reached.through scanned.wanted with refused | ⟨found, later, _, _, reached, left⟩
  · exact .inl refused
  · exact .inr ⟨_, later, reached, by omega⟩

omit keeps in
theorem Following.fails
    (following : Following preparation split eos capped sink holds state texts ahead unread extra
      records) (refused : Refused preparation split eos capped) (reason : String) :
    Fails preparation split eos capped sure holds (reason, state.store) := by
  obtain ⟨scan, scanned⟩ := following.scanned
  exact ⟨fun _ => refused, records, scanned.held⟩

omit keeps in
theorem Following.push (nonempty : text ≠ "")
    (small : text.utf8ByteSize ≤ preparation.batchSourceBytes)
    (following : Following preparation split eos capped sink holds state texts
      (.document text ahead) (unread + 1) 1 records) :
    Following preparation split eos capped sink holds (push state text) (texts ++ [text]) ahead
      unread 0 records := by
  obtain ⟨scan, scanned⟩ := following.scanned
  have left := scanned.unread
  refine ⟨⟨scan, scanned.held, ?_, ?_, ?_, ?_, ?_⟩, ?_⟩
  · have reached := scanned.reached
    rwa [Source.prepend, List.foldr_append]
  · change state.stats = _
    rw [scanned.stats]
    simp [statsOf, nonempty]
    omega
  · intro other member
    rcases List.mem_append.mp member with old | new
    · exact scanned.plain other old
    · rw [List.mem_singleton.mp new]
      exact ⟨small, fun empty => absurd empty nonempty⟩
  · exact wanted_append.mpr ⟨scanned.wanted, by omega, trivial⟩
  · rw [left, documents_append, documents_cons, if_neg nonempty]
    change _ = documents texts + (1 + 0) + unread
    omega
  · rw [waiting_append nonempty, Preparation.push, following.pending, scanned.stats]
    simp only [statsOf]
    congr 3
    omega

theorem Following.skipEmpty
    (following : Following preparation split eos capped sink holds state texts
      (.document "" ahead) (unread + 1) 1 records) :
    Goes preparation split eos capped sure sink holds ahead (unread + 1) 0
      (preparation.skipEmpty sink split eos state) := by
  unfold Preparation.skipEmpty
  apply Outcome.ite
  · intro chunked
    apply (following.flush keeps).bind
    rintro after ⟨found, follows⟩
    obtain ⟨scan, scanned⟩ := follows.scanned
    have left := scanned.unread
    have acquired : after.stats.acquiredDocuments = found.length + 1 := by
      rw [scanned.stats]
      rfl
    have reached := scanned.reached.next (by rw [left]; omega) admit_empty
    obtain ⟨store, appended, held⟩ :=
      keeps.skip chunked scanned.held reached.within_selectable
    rw [← acquired] at appended
    rw [appended]
    refine ⟨[], found ++ [none], ⟨scan, held, reached, ?_, scanned.plain, scanned.wanted, left⟩, ?_⟩
    · change ({ after.stats with
        skippedDocuments := after.stats.skippedDocuments + 1 } : Counters) = _
      rw [statsOf_skip, scanned.stats]
      simp [statsOf]
    · exact follows.pending
  · intro unchunked
    obtain ⟨scan, scanned⟩ := following.scanned
    have left := scanned.unread
    refine ⟨texts ++ [""], records, ⟨scan, scanned.held, ?_, ?_, ?_, ?_, ?_⟩, ?_⟩
    · have reached := scanned.reached
      rwa [Source.prepend, List.foldr_append]
    · change ({ state.stats with
        skippedDocuments := state.stats.skippedDocuments + 1 } : Counters) = _
      rw [scanned.stats]
      simp [statsOf]
      omega
    · intro other member
      rcases List.mem_append.mp member with old | new
      · exact scanned.plain other old
      · rw [List.mem_singleton.mp new]
        exact ⟨Nat.zero_le _, fun _ => Bool.eq_false_iff.mpr unchunked⟩
    · exact wanted_append.mpr ⟨scanned.wanted, by omega, trivial⟩
    · rw [left, documents_append]
      rfl
    · change state.pending = _
      rw [following.pending, waiting, waiting, List.zipIdx_append]
      simp [List.zipIdx_cons]

variable (batchDocuments) in
theorem Following.acquire
    (following : Following preparation split eos capped sink holds state texts
      (.document text ahead) (unread + 1) 1 records) :
    ∃ unread, Goes preparation split eos capped sure sink holds ahead unread 0
      (preparation.acquire sink split eos batchDocuments state text) := by
  by_cases empty : text = ""
  · subst empty
    refine ⟨unread + 1, ?_⟩
    rw [Preparation.acquire, if_pos rfl]
    exact following.skipEmpty keeps
  · refine ⟨unread, ?_⟩
    rw [Preparation.acquire, if_neg empty]
    apply Outcome.ite
    · intro large
      refine following.fails ?_ _
      rcases following.through with refused | ⟨found, later, reached, left⟩
      · exact refused
      · apply reached.refused (by omega)
        rw [admitDocument, if_neg empty, if_pos large]
    · intro small
      apply (following.flushWhen keeps).bind
      rintro after ⟨texts', found, follows⟩
      exact (follows.push empty (Nat.not_lt.mp small)).flushWhen keeps

def Collects (preparation : Preparation) (split : Split) (eos : Int) (capped : Bool) (sure : Prop)
    (holds : σ → List Record → Prop) (result : Except (String × σ) (σ × SplitChunks.Finished)) :
    Prop :=
  Outcome (fun (store, finished) => ∃ records, holds store records ∧
      preparation.selected split eos capped = .ok records ∧
      finished = finishedOf preparation.settings records)
    (Fails preparation split eos capped sure holds) result

theorem Following.conclude
    (following : Following preparation split eos capped sink holds state texts ahead unread 0
      records) (ended : unread = 0 ∨ ahead = .finished) :
    Collects preparation split eos capped sure holds (preparation.conclude sink split eos state) := by
  apply (following.flush keeps).bind
  rintro after ⟨found, follows⟩
  obtain ⟨scan, scanned⟩ := follows.scanned
  have left := scanned.unread
  have selected := scanned.reached.remaining
  have stats := scanned.stats
  rw [statsOf_nil] at stats
  have none : documents ([] : List String) = 0 := rfl
  rw [none, Nat.zero_add] at left
  rw [stats]
  apply Outcome.ite
  · intro short
    refine follows.fails ?_ _
    rcases ended with all | ended
    · omega
    · subst ended
      exact scanned.reached.finished (by omega)
  · intro enough
    obtain ⟨store, finished, held⟩ := keeps.finish scanned.held
    rw [finished]
    exact ⟨found, held, scanned.reached.complete (by omega), rfl⟩

omit keeps in
theorem Following.wants
    (following : Following preparation split eos capped sink holds state texts ahead unread extra
      records) :
    state.stats.retainedDocuments + state.pending.length < preparation.selectedDocuments split ↔
      0 < unread := by
  obtain ⟨scan, scanned⟩ := following.scanned
  have selected := scanned.reached.remaining
  have left := scanned.unread
  have retained : state.stats.retainedDocuments = (tally records).retainedDocuments := by
    rw [scanned.stats]
    rfl
  rw [following.pending, length_waiting, retained]
  omega

omit keeps in
theorem Following.count
    (following : Following preparation split eos capped sink holds state texts ahead unread 0
      records) :
    Following preparation split eos capped sink holds (countAcquired state) texts ahead unread 1
      records := by
  obtain ⟨scan, scanned⟩ := following.scanned
  refine ⟨⟨scan, scanned.held, scanned.reached, ?_, scanned.plain, scanned.wanted,
    scanned.unread⟩, following.pending⟩
  rw [countAcquired, scanned.stats]
  rfl

theorem Following.collect
    (following : Following preparation split eos capped sink holds state texts ahead unread 0
      records) :
    Collects preparation split eos capped sure holds
      (preparation.collectFrom sink split eos batchDocuments state ahead) := by
  induction ahead generalizing state texts unread records with
  | finished =>
    rw [collectFrom]
    apply Outcome.ite
    · intro _
      apply (following.flushWhen keeps).bind
      rintro after ⟨texts', found, follows⟩
      exact follows.conclude keeps (.inr rfl)
    · intro _
      exact following.conclude keeps (.inr rfl)
  | failed reason =>
    rw [collectFrom]
    apply Outcome.ite
    · intro more
      have positive := following.wants.mp more
      apply (following.flushWhen keeps).bind
      rintro after ⟨texts', found, follows⟩
      refine follows.fails ?_ _
      rcases follows.through with refused | ⟨_, later, reached, left⟩
      · exact refused
      · exact reached.failed (by omega)
    · intro enough
      have none := mt following.wants.mpr enough
      exact following.conclude keeps (.inl (by omega))
  | document text rest ih =>
    rw [collectFrom]
    apply Outcome.ite
    · intro more
      apply (following.flushWhen keeps).bind
      rintro after ⟨texts', found, follows⟩
      obtain ⟨further, same⟩ := Nat.exists_eq_add_of_lt (following.wants.mp more)
      rw [Nat.zero_add] at same
      subst same
      obtain ⟨left, acquires⟩ := follows.count.acquire batchDocuments keeps
      apply acquires.bind
      rintro last ⟨texts'', found', going⟩
      exact ih going
    · intro enough
      have none := mt following.wants.mpr enough
      exact following.conclude keeps (.inl (by omega))

theorem collectFrom_collects {store : σ} (held : holds store records)
    (reached : Reached preparation split eos capped records scan ahead) :
    Collects preparation split eos capped sure holds (preparation.collectFrom sink split eos
      batchDocuments { store, stats := tally records } ahead) := by
  have following : Following preparation split eos capped sink holds
      { store, stats := tally records } [] ahead scan.remaining 0 records := by
    refine ⟨⟨scan, held, reached, rfl, List.forall_mem_nil _, trivial, ?_⟩, rfl⟩
    exact (Nat.zero_add _).symm
  exact following.collect keeps

omit keeps

section

variable {session : Session} {start base journal : Journal} {ledger : Ledger}
  {waits : Split → Prop}

def Holding (preparation : Preparation) (split : Split) (eos : Int) (session : Session)
    (start base : Journal) (waits : Split → Prop) (ledger : Ledger) (records : List Record) : Prop :=
  ∃ journal, Kept preparation.settings (preparation.selectable · eos true) session start ledger
      journal ∧ journal.records split = records ∧
    (∀ other, other ≠ split → journal.records other = base.records other) ∧
    ∀ other, other ≠ split → waits other → Ready ledger.session other

theorem capRecord_valid {record : Record} :
    (∃ bytes, preparation.capRecord split true record = .ok bytes) ↔
      ValidRecord preparation.settings record := by
  constructor
  · rintro ⟨bytes, checked⟩
    have spec := recordBytes_spec preparation.settings split record
    have same : SplitChunks.recordBytes preparation.settings split record = .ok bytes := checked
    rw [same] at spec
    exact spec.1
  · intro valid
    exact ⟨_, recordBytes_valid preparation.settings valid split⟩

theorem chunks_keeps : Keeps preparation split eos true (preparation.chunks split)
    (Holding preparation split eos session start base waits) := by
  have stores {ledger : Ledger} {records : List Record} {record : Record}
      (valid : ValidRecord preparation.settings record)
      (held : Holding preparation split eos session start base waits ledger records)
      (within : records ++ [record] <+: preparation.selectable split eos true) :
      ∃ after, (preparation.chunks split).append ledger (records.length + 1) record = .ok after ∧
        Holding preparation split eos session start base waits after (records ++ [record]) := by
    obtain ⟨journal, kept, rfl, others, ready⟩ := held
    obtain ⟨after, appended, keeps, aside⟩ := kept.append valid within
    refine ⟨after, appended, journal.append split [record], keeps, records_append_self _ _ _, ?_, ?_⟩
    · intro other different
      rw [records_append_other journal different, others other different]
    · exact fun other different waiting => (ready other different waiting).aside different aside
  refine ⟨?_, ?_, ?_, ?_, ?_⟩
  · exact fun values held within allowed => stores (capRecord_valid.mp allowed) held within
  · intro ledger records failure values _ checked
    apply append_refused
    intro valid
    obtain ⟨bytes, accepted⟩ := capRecord_valid.mpr valid
    rw [checked] at accepted
    cases accepted
  · intro ledger records _ held within
    have nothing : ValidRecord preparation.settings none :=
      ⟨by simp, by rw [byteSize_none]; exact Nat.zero_le _⟩
    exact stores nothing held within
  · intro ledger records unchunked
    cases unchunked
  · rintro ledger records ⟨journal, kept, rfl, others, ready⟩
    obtain ⟨after, finished, keeps, aside⟩ := kept.finish split
    exact ⟨after, finished, journal, keeps, rfl, others, fun other different waiting =>
      (ready other different waiting).aside different aside⟩

theorem collectStreaming_collects
    (kept : Kept preparation.settings (preparation.selectable · eos true) session start ledger
      journal) (token : preparation.eos = some eos) (settled : Settled ledger.session split)
    (ready : ∀ other, other ≠ split → waits other → Ready ledger.session other) :
    Collects preparation split eos true sure
      (Holding preparation split eos session start journal waits)
      (preparation.collectStreaming split batchDocuments ledger) := by
  obtain ⟨scan, rest, skipped, reached⟩ := Reached.start.skip (kept.permitted split)
  rw [List.nil_append] at reached
  rw [collectStreaming, token]
  have acquired : (tally (journal.records split)).acquiredDocuments =
    (journal.records split).length := rfl
  simp only [kept.state settled, acquired, skipped, Except.mapError, bind, Except.bind]
  exact collectFrom_collects chunks_keeps ⟨journal, kept, rfl, fun _ _ => rfl, ready⟩ reached

end

section

def Spooled (arrays : ArrayName → List Int) (records : List Record) : Prop :=
  arrays = rawOf records

theorem Spooled.write {arrays : ArrayName → List Int} (held : Spooled arrays records)
    (record : Record) : Spooled (SplitChunks.writeRecord (some arrays) record) (records ++ [record]) := by
  funext array
  rw [rawOf_append, held]
  cases record <;> simp [SplitChunks.writeRecord, rawOf]

theorem spools_keeps : Keeps preparation split eos false preparation.spools Spooled := by
  refine ⟨?_, ?_, ?_, ?_, ?_⟩
  · exact fun values held _ _ => ⟨_, rfl, held.write (some values)⟩
  · intro arrays records failure values _ checked
    cases checked
  · intro arrays records chunked
    cases chunked
  · intro arrays records _ held
    have same : SplitChunks.writeRecord (some arrays) none = arrays := by
      funext array
      exact List.append_nil _
    have stored := held.write none
    rwa [same] at stored
  · intro arrays records held
    refine ⟨arrays, ?_, held⟩
    rw [held]
    rfl

theorem collectSpooled_reference (split : Split) (batchDocuments : Nat) :
    Outcome (fun finished => preparation.reference split false = .ok finished)
      (fun _ => ∃ failure, preparation.reference split false = .error failure)
      (preparation.collectSpooled split batchDocuments) := by
  cases token : preparation.eos with
  | none =>
    rw [collectSpooled, token]
    exact ⟨_, by rw [Preparation.reference, token]⟩
  | some eos =>
    have collects : Collects preparation split eos false True Spooled
        (preparation.collectFrom preparation.spools split eos batchDocuments
          { store := fun _ => [], stats := {} } (preparation.source split)) :=
      collectFrom_collects spools_keeps rfl Reached.start
    simp only [collectSpooled, Preparation.reference, token]
    cases collected : preparation.collectFrom preparation.spools split eos batchDocuments
        { store := fun _ => [], stats := {} } (preparation.source split) with
    | error failure =>
      rw [collected] at collects
      obtain ⟨reason, refused⟩ := collects.1 trivial
      exact ⟨reason, by rw [refused]; rfl⟩
    | ok result =>
      rw [collected] at collects
      obtain ⟨records, _, selected, same⟩ := collects
      change Except.map _ _ = .ok result.2
      rw [selected, same]
      rfl

end

end Preparation

end SparseLab.Data
