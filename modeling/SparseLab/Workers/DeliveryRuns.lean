import SparseLab.Workers.Deliveries

/-! Runs of all processes that touch the deliveries. -/

namespace SparseLab.Workers.Deliveries

open Library

variable {root root' : Root} {process : Nat} {program : Program} {next : Option Program}

def Same (first second : Delivery) : Prop :=
  first.attemptId = second.attemptId ∧ first.instanceId = second.instanceId ∧
    first.specDigest = second.specDigest

def Program.Locked : Program → Prop
  | .launch _ | .reconciling .. | .marking .. | .observing .. => False
  | _ => True

structure Root.Kept (root : Root) : Prop where
  named : ∀ attemptId record, root.records.lookup attemptId = some record →
    record.attemptId = attemptId
  issued : ∀ attemptId ∈ root.executed, ∃ record,
    root.records.lookup attemptId = some record ∧ record.state ≠ .prepared
  once : root.executed.Nodup

def Stands (root : Root) (record : Delivery) : Prop :=
  ∃ current, root.records.lookup record.attemptId = some current ∧ Same record current

def Knows (root : Root) : Program → Prop
  | .recordWrite call => root.records.lookup call.attemptId = none
  | .asking call existing | .writing call existing =>
    existing.attemptId = call.attemptId ∧ Stands root existing ∧
      call.attemptId ∉ root.executed
  | .executing call =>
    (∃ current, root.records.lookup call.attemptId = some current ∧
      current.state ≠ .prepared) ∧ call.attemptId ∉ root.executed
  | .observing record _ => Stands root record
  | _ => True

def onceInvariant : Protocol.Invariant Root Program where
  shared := Root.Kept
  fits root process program :=
    (program.Locked → root.controller = some process) ∧ Knows root program

def Undisturbed (root : Root) : Program → Prop
  | .writing call _ => ∀ record ∈ root.records.lookup call.attemptId, record.state = .prepared
  | .observing record false =>
    ∀ current ∈ root.records.lookup record.attemptId, current.state ≠ .observedTerminal
  | _ => True

inductive Effect (process : Nat) (root : Root) (program : Program) (root' : Root) : Prop
  | kept (records : root'.records = root.records) (executed : root'.executed = root.executed)
  | created (call : Call) (time : Int) (stood : program = .recordWrite call)
      (absent : root.records.lookup call.attemptId = none)
      (locked : root.controller = some process)
      (records : root'.records = root.records.insert call.attemptId (preparedRecord call time))
      (executed : root'.executed = root.executed)
  | advanced (current record : Delivery)
      (found : root.records.lookup record.attemptId = some current)
      (same : Same record current) (further : record.state ≠ .prepared)
      (forward : Undisturbed root program → current.state.rank ≤ record.state.rank)
      (records : root'.records = root.records.insert record.attemptId record)
      (executed : root'.executed = root.executed)
  | ran (call : Call) (current : Delivery)
      (found : root.records.lookup call.attemptId = some current)
      (further : current.state ≠ .prepared) (fresh : call.attemptId ∉ root.executed)
      (locked : root.controller = some process) (records : root'.records = root.records)
      (executed : root'.executed = root.executed ++ [call.attemptId])

theorem release_other {other : Nat} (different : other ≠ process)
    (held : root.controller = some other) : (root.release process).controller = some other := by
  have apart : root.controller ≠ some process := by
    rw [held]
    exact fun same => different (Option.some.inj same)
  rw [Root.release]
  exact (if_neg apart).trans held

theorem Turn.controller (turn : Turn process root program root' next) {other : Nat}
    (different : other ≠ process) (held : root.controller = some other) :
    root'.controller = some other := by
  cases turn with
  | begin call free => rw [free] at held; cases held
  | execute call => exact release_other different held
  | observe record terminal => exact release_other different held
  | leave => exact release_other different held
  | _ => exact held

theorem observed_ne (terminal : Bool) : observed terminal ≠ .prepared := by
  cases terminal <;> decide

theorem rank_observed {state : DeliveryState} (terminal : Bool)
    (running : terminal = false → state ≠ .observedTerminal) :
    state.rank ≤ (observed terminal).rank := by
  cases terminal <;> cases state <;> simp_all [observed, DeliveryState.rank]

theorem Turn.effect (turn : Turn process root program root' next)
    (fits : onceInvariant.fits root process program) :
    Effect process root program root' := by
  obtain ⟨locked, knows⟩ := fits
  cases turn with
  | recordWritten call time => exact .created call time rfl knows (locked trivial) rfl rfl
  | written call existing time =>
    obtain ⟨named, ⟨current, found, same⟩, _⟩ := knows
    refine .advanced current { existing with state := .issued, issuedAt := time } found same
      (show DeliveryState.issued ≠ .prepared by decide) (fun undisturbed => ?_) rfl rfl
    rw [named] at found
    rw [undisturbed current found]
    exact Nat.zero_le _
  | execute call =>
    obtain ⟨⟨current, found, further⟩, fresh⟩ := knows
    exact .ran call current found further fresh (locked trivial) rfl rfl
  | observe record terminal =>
    obtain ⟨current, found, same⟩ := knows
    refine .advanced current { record with state := observed terminal } found same
      (observed_ne terminal) (fun undisturbed => ?_) rfl rfl
    exact rank_observed terminal fun running => by
      subst running
      exact undisturbed current found
  | _ => exact .kept rfl rfl

section

variable {attemptId : String} {record : Delivery}

theorem lookup_insert (records : AList fun _ : String => Delivery) (key : String)
    (record : Delivery) (attemptId : String) :
    (records.insert key record).lookup attemptId =
      if attemptId = key then some record else records.lookup attemptId := by
  by_cases same : attemptId = key
  · subst same
    rw [AList.lookup_insert, if_pos rfl]
  · rw [AList.lookup_insert_ne same, if_neg same]

theorem Effect.stands (effect : Effect process root program root')
    (stands : Stands root record) : Stands root' record := by
  obtain ⟨current, found, same⟩ := stands
  cases effect with
  | kept records executed => exact ⟨current, by rw [records, found], same⟩
  | created call time stood absent locked records executed =>
    refine ⟨current, ?_, same⟩
    rw [records, lookup_insert, if_neg, found]
    rintro equal
    rw [equal, absent] at found
    cases found
  | advanced earlier written foundEarlier sameEarlier further forward records executed =>
    by_cases equal : record.attemptId = written.attemptId
    · rw [equal, foundEarlier] at found
      obtain rfl := Option.some.inj found
      refine ⟨written, by rw [records, lookup_insert, if_pos equal], equal, ?_, ?_⟩
      · exact same.2.1.trans sameEarlier.2.1.symm
      · exact same.2.2.trans sameEarlier.2.2.symm
    · exact ⟨current, by rw [records, lookup_insert, if_neg equal, found], same⟩
  | ran call earlier foundEarlier further fresh locked records executed =>
    exact ⟨current, by rw [records, found], same⟩

theorem Effect.further (effect : Effect process root program root')
    (issued : ∃ current, root.records.lookup attemptId = some current ∧
      current.state ≠ .prepared) :
    ∃ current, root'.records.lookup attemptId = some current ∧ current.state ≠ .prepared := by
  obtain ⟨current, found, state⟩ := issued
  cases effect with
  | kept records executed => exact ⟨current, by rw [records, found], state⟩
  | created call time stood absent locked records executed =>
    refine ⟨current, ?_, state⟩
    rw [records, lookup_insert, if_neg, found]
    rintro rfl
    rw [absent] at found
    cases found
  | advanced earlier written foundEarlier sameEarlier further forward records executed =>
    by_cases equal : attemptId = written.attemptId
    · exact ⟨written, by rw [records, lookup_insert, if_pos equal], further⟩
    · exact ⟨current, by rw [records, lookup_insert, if_neg equal, found], state⟩
  | ran call earlier foundEarlier further fresh locked records executed =>
    exact ⟨current, by rw [records, found], state⟩

end

theorem Effect.locked (effect : Effect process root program root')
    (free : root.controller ≠ some process) :
    root'.executed = root.executed ∧
      ∀ attemptId, root.records.lookup attemptId = none →
        root'.records.lookup attemptId = none := by
  cases effect with
  | kept records executed => exact ⟨executed, fun attemptId absent => by rw [records, absent]⟩
  | created call time stood absent locked records executed => exact absurd locked free
  | advanced current record found same further forward records executed =>
    refine ⟨executed, fun attemptId absent => ?_⟩
    rw [records, lookup_insert, if_neg, absent]
    rintro rfl
    rw [found] at absent
    cases absent
  | ran call current found further fresh locked records executed => exact absurd locked free

theorem Effect.kept' (effect : Effect process root program root') (kept : root.Kept) :
    root'.Kept := by
  have issued : ∀ attemptId ∈ root.executed, ∃ record,
      root'.records.lookup attemptId = some record ∧ record.state ≠ .prepared :=
    fun attemptId member => effect.further (kept.issued attemptId member)
  cases effect with
  | kept records executed =>
    constructor
    · rw [records]
      exact kept.named
    · rw [executed]
      exact issued
    · rw [executed]
      exact kept.once
  | created call time stood absent locked records executed =>
    constructor
    · intro attemptId record found
      rw [records, lookup_insert] at found
      split at found
      next same =>
        obtain rfl := Option.some.inj found
        exact same.symm
      next => exact kept.named attemptId record found
    · rw [executed]
      exact issued
    · rw [executed]
      exact kept.once
  | advanced current written foundCurrent same further forward records executed =>
    constructor
    · intro attemptId record found
      rw [records, lookup_insert] at found
      split at found
      next same =>
        obtain rfl := Option.some.inj found
        exact same.symm
      next => exact kept.named attemptId record found
    · rw [executed]
      exact issued
    · rw [executed]
      exact kept.once
  | ran call current found further fresh locked records executed =>
    constructor
    · rw [records]
      exact kept.named
    · intro attemptId member
      rw [executed] at member
      rcases List.mem_append.mp member with earlier | new
      · exact issued attemptId earlier
      · obtain rfl := List.mem_singleton.mp new
        exact ⟨current, by rw [records, found], further⟩
    · rw [executed]
      exact kept.once.append (List.nodup_singleton _) (by simpa using fresh)

theorem Stands.refl {attemptId : String} {record : Delivery} (kept : root.Kept)
    (found : root.records.lookup attemptId = some record) : Stands root record := by
  have named := kept.named attemptId record found
  exact ⟨record, by rw [named, found], rfl, rfl, rfl⟩

theorem Root.Kept.unexecuted (kept : root.Kept) {attemptId : String} {record : Delivery}
    (found : root.records.lookup attemptId = some record) (prepared : record.state = .prepared) :
    attemptId ∉ root.executed := by
  intro member
  obtain ⟨current, foundCurrent, further⟩ := kept.issued attemptId member
  rw [found] at foundCurrent
  obtain rfl := Option.some.inj foundCurrent
  exact further prepared

theorem Turn.knows (turn : Turn process root program root' next) (kept : root.Kept)
    (fits : onceInvariant.fits root process program) {program' : Program}
    (continues : next = some program') : onceInvariant.fits root' process program' := by
  obtain ⟨locked, knows⟩ := fits
  cases turn with
  | begin call free =>
    cases continues
    exact ⟨fun _ => rfl, trivial⟩
  | recordNew call absent =>
    cases continues
    exact ⟨fun _ => locked trivial, absent⟩
  | issue call existing found agrees prepared =>
    cases continues
    exact ⟨fun _ => locked trivial, kept.named _ _ found, .refl kept found,
      kept.unexecuted found prepared⟩
  | asked call existing =>
    cases continues
    exact ⟨fun _ => locked trivial, knows⟩
  | written call existing time =>
    cases continues
    refine ⟨fun _ => locked trivial, ⟨{ existing with state := .issued, issuedAt := time }, ?_,
      by simp⟩, knows.2.2⟩
    rw [Root.write_records, lookup_insert, if_pos knows.1.symm]
  | mark attemptId terminal record found open' =>
    cases continues
    exact ⟨False.elim, .refl kept found⟩
  | prepareFurther call terminal =>
    cases continues
    exact ⟨False.elim, trivial⟩
  | reconcile attemptId specDigest terminal delivery found same =>
    cases continues
    exact ⟨False.elim, trivial⟩
  | execute call => cases continues
  | observe record terminal => cases continues
  | leave => cases continues
  | _ =>
    cases continues
    exact ⟨fun _ => locked trivial, trivial⟩

theorem Effect.stable (effect : Effect process root program root') {other : Nat}
    {program' : Program} (different : other ≠ process)
    (lock : root.controller = some other → root'.controller = some other)
    (fits : onceInvariant.fits root other program') :
    onceInvariant.fits root' other program' := by
  obtain ⟨locked, knows⟩ := fits
  refine ⟨fun holds => lock (locked holds), ?_⟩
  have free : program'.Locked → root.controller ≠ some process := by
    intro holds held
    rw [locked holds] at held
    exact different (Option.some.inj held)
  cases program' with
  | recordWrite call => exact (effect.locked (free trivial)).2 _ knows
  | asking call existing =>
    rw [Knows, (effect.locked (free trivial)).1]
    exact ⟨knows.1, effect.stands knows.2.1, knows.2.2⟩
  | writing call existing =>
    rw [Knows, (effect.locked (free trivial)).1]
    exact ⟨knows.1, effect.stands knows.2.1, knows.2.2⟩
  | executing call =>
    rw [Knows, (effect.locked (free trivial)).1]
    exact ⟨effect.further knows.1, knows.2⟩
  | observing record terminal => exact effect.stands knows
  | _ => trivial

theorem effect_release (root : Root) (process : Nat) (program : Program) :
    Effect process root program (root.release process) :=
  .kept rfl rfl

theorem preserves_once : Protocol.Preserves protocol onceInvariant where
  start _ _ _ starts _ := by
    cases starts with
    | launch call => exact ⟨False.elim, trivial⟩
    | reconcile attemptId specDigest terminal => exact ⟨False.elim, trivial⟩
  crash root process kept := ⟨kept.named, kept.issued, kept.once⟩
  crashed root process _ program different _ fits :=
    (effect_release root process program).stable different
      (fun held => release_other different held) fits
  turn _ _ _ _ _ turn kept fits :=
    ⟨(Turn.effect turn fits).kept' kept, fun _ continues => Turn.knows turn kept fits continues⟩
  stable _ _ _ _ _ turn _ fits _ _ different knows :=
    (Turn.effect turn fits).stable different (Turn.controller turn different) knows

theorem idle_good : Protocol.Good onceInvariant idle where
  shared := {
    named := by
      intro attemptId record found
      rw [idle, Root.empty, AList.lookup_empty] at found
      cases found
    issued := by
      intro attemptId member
      cases member
    once := List.nodup_nil }
  fits := by
    intro process program running
    cases running

theorem executed_once {threads : Threads Root Program} (run : protocol.Run idle threads) :
    threads.shared.executed.Nodup :=
  (preserves_once.run idle_good run).shared.once

def Single (root : Root) : Prop :=
  ∀ first second record record', root.records.lookup first = some record →
    root.records.lookup second = some record' → record.Unfinished → record'.Unfinished →
      record.instanceId = record'.instanceId → first = second

def Advances (root root' : Root) : Prop :=
  ∀ attemptId record, root.records.lookup attemptId = some record →
    ∃ record', root'.records.lookup attemptId = some record' ∧ Same record record' ∧
      record.state.rank ≤ record'.state.rank

def Clear (root : Root) (call : Call) (rest : List String) : Prop :=
  ∀ attemptId record, root.records.lookup attemptId = some record → attemptId ∉ rest →
    Passes call record

def Scanned (root : Root) : Program → Prop
  | .recording call rest => Clear root call rest
  | .recorded call | .recordWrite call => Clear root call []
  | _ => True

def singleInvariant : Protocol.Invariant Root Program where
  shared root := root.Kept ∧ Single root
  fits root process program := onceInvariant.fits root process program ∧ Scanned root program

theorem Same.refl (record : Delivery) : Same record record := ⟨rfl, rfl, rfl⟩

theorem Same.trans {first second third : Delivery} (earlier : Same first second)
    (later : Same second third) : Same first third :=
  ⟨earlier.1.trans later.1, earlier.2.1.trans later.2.1, earlier.2.2.trans later.2.2⟩

theorem Same.symm {first second : Delivery} (same : Same first second) : Same second first :=
  ⟨same.1.symm, same.2.1.symm, same.2.2.symm⟩

theorem Advances.refl (root : Root) : Advances root root :=
  fun _ record found => ⟨record, found, .refl record, le_rfl⟩

theorem Advances.trans {first second third : Root} (earlier : Advances first second)
    (later : Advances second third) : Advances first third := by
  intro attemptId record found
  obtain ⟨middle, foundMiddle, same, rank⟩ := earlier attemptId record found
  obtain ⟨last, foundLast, same', rank'⟩ := later attemptId middle foundMiddle
  exact ⟨last, foundLast, same.trans same', le_trans rank rank'⟩

theorem rank_lt_iff (state : DeliveryState) :
    state.rank < 3 ↔ state ≠ .observedTerminal := by
  cases state <;> decide

theorem Delivery.Unfinished.before {record record' : Delivery} (open' : record'.Unfinished)
    (rank : record.state.rank ≤ record'.state.rank) : record.Unfinished := by
  have below := (rank_lt_iff record'.state).mpr open'
  exact (rank_lt_iff record.state).mp (by omega)

theorem Effect.advances (effect : Effect process root program root')
    (undisturbed : Undisturbed root program) : Advances root root' := by
  intro attemptId record found
  cases effect with
  | kept records executed => exact ⟨record, by rw [records, found], .refl record, le_rfl⟩
  | created call time stood absent locked records executed =>
    refine ⟨record, ?_, .refl record, le_rfl⟩
    rw [records, lookup_insert, if_neg, found]
    rintro rfl
    rw [absent] at found
    cases found
  | advanced current written foundCurrent same further forward records executed =>
    by_cases equal : attemptId = written.attemptId
    · rw [equal, foundCurrent] at found
      obtain rfl := Option.some.inj found
      exact ⟨written, by rw [records, lookup_insert, if_pos equal], same.symm,
        forward undisturbed⟩
    · exact ⟨record, by rw [records, lookup_insert, if_neg equal, found], .refl record, le_rfl⟩
  | ran call current foundCurrent further fresh locked records executed =>
    exact ⟨record, by rw [records, found], .refl record, le_rfl⟩

theorem Effect.origin (effect : Effect process root program root')
    (undisturbed : Undisturbed root program) {attemptId : String} {record : Delivery}
    (found : root'.records.lookup attemptId = some record) :
    (∃ earlier, root.records.lookup attemptId = some earlier ∧ Same earlier record ∧
      earlier.state.rank ≤ record.state.rank) ∨
    ∃ call time, program = .recordWrite call ∧ root.records.lookup attemptId = none ∧
      attemptId = call.attemptId ∧ record = preparedRecord call time := by
  cases effect with
  | kept records executed =>
    rw [records] at found
    exact .inl ⟨record, found, .refl record, le_rfl⟩
  | created call time stood absent locked records executed =>
    rw [records, lookup_insert] at found
    split at found
    next equal =>
      obtain rfl := Option.some.inj found
      exact .inr ⟨call, time, stood, by rw [equal, absent], equal, rfl⟩
    next => exact .inl ⟨record, found, .refl record, le_rfl⟩
  | advanced current written foundCurrent same further forward records executed =>
    rw [records, lookup_insert] at found
    split at found
    next equal =>
      obtain rfl := Option.some.inj found
      exact .inl ⟨current, by rw [equal, foundCurrent], same.symm, forward undisturbed⟩
    next => exact .inl ⟨record, found, .refl record, le_rfl⟩
  | ran call current foundCurrent further fresh locked records executed =>
    rw [records] at found
    exact .inl ⟨record, found, .refl record, le_rfl⟩

theorem Passes.later {call : Call} {record record' : Delivery} (passes : Passes call record)
    (same : Same record record') (rank : record.state.rank ≤ record'.state.rank) :
    Passes call record' := by
  obtain own | other | finished := passes
  · exact .inl (same.1 ▸ own)
  · exact .inr (.inl (same.2.1 ▸ other))
  · exact .inr (.inr fun open' => finished (open'.before rank))

theorem Effect.clear (effect : Effect process root program root')
    (undisturbed : Undisturbed root program) (idle : ∀ call, program ≠ .recordWrite call)
    {call : Call} {rest : List String} (clear : Clear root call rest) :
    Clear root' call rest := by
  intro attemptId record found unread
  obtain ⟨earlier, foundEarlier, same, rank⟩ | ⟨written, time, stood, _⟩ :=
    effect.origin undisturbed found
  · exact (clear attemptId earlier foundEarlier unread).later same rank
  · exact absurd stood (idle written)

theorem Effect.single (effect : Effect process root program root') (kept : root.Kept)
    (undisturbed : Undisturbed root program) (scanned : Scanned root program)
    (single : Single root) : Single root' := by
  have created : ∀ call time, program = .recordWrite call → ∀ attemptId earlier record,
      root.records.lookup attemptId = some earlier → Same earlier record →
      earlier.state.rank ≤ record.state.rank → record.Unfinished →
      record.instanceId = (preparedRecord call time).instanceId → attemptId = call.attemptId := by
    intro call time stood attemptId earlier record found same rank open' place
    rw [stood] at scanned
    obtain own | other | finished := (scanned attemptId earlier found List.not_mem_nil).later
      same rank
    · rw [← kept.named attemptId earlier found, same.1, own]
    · exact absurd place other
    · exact absurd open' finished
  intro first second record record' found found' open' open'' place
  obtain ⟨earlier, foundEarlier, same, rank⟩ | ⟨call, time, stood, absent, equal, rfl⟩ :=
      effect.origin undisturbed found
  · obtain ⟨earlier', foundEarlier', same', rank'⟩ | ⟨call, time, stood, absent, equal, rfl⟩ :=
      effect.origin undisturbed found'
    · exact single first second earlier earlier' foundEarlier foundEarlier'
        (open'.before rank) (open''.before rank')
        (same.2.1.trans (place.trans same'.2.1.symm))
    · rw [equal]
      exact created call time stood first earlier record foundEarlier same rank open' place
  · obtain ⟨earlier', foundEarlier', same', rank'⟩ | ⟨call', time', stood', _, equal', _⟩ :=
      effect.origin undisturbed found'
    · rw [equal]
      exact (created call time stood second earlier' record' foundEarlier' same' rank' open''
        place.symm).symm
    · rw [equal, equal']
      rw [stood] at stood'
      cases stood'
      rfl

theorem Clear.read {call : Call} {candidate : String} {rest : List String} {other : Delivery}
    (clear : Clear root call (candidate :: rest))
    (found : root.records.lookup candidate = some other) (passes : Passes call other) :
    Clear root call rest := by
  intro attemptId record stored unread
  by_cases same : attemptId = candidate
  · subst same
    rw [found] at stored
    obtain rfl := Option.some.inj stored
    exact passes
  · exact clear attemptId record stored (by simp [same, unread])

theorem clear_keys (root : Root) (call : Call) : Clear root call root.records.keys := by
  intro attemptId record found unread
  have member : attemptId ∈ root.records := AList.lookup_isSome.mp (by rw [found]; rfl)
  exact absurd (AList.mem_keys.mp member) unread

theorem Turn.scanned (turn : Turn process root program root' next)
    (scanned : Scanned root program) {program' : Program}
    (continues : next = some program') : Scanned root' program' := by
  cases turn with
  | prepare call =>
    cases continues
    exact clear_keys root call
  | record call candidate rest other found passes =>
    cases continues
    exact Clear.read scanned found passes
  | recordChecked call =>
    cases continues
    exact scanned
  | recordNew call absent =>
    cases continues
    exact scanned
  | execute call => cases continues
  | observe record terminal => cases continues
  | leave => cases continues
  | _ =>
    cases continues
    trivial

theorem Effect.scanned (effect : Effect process root program root')
    (undisturbed : Undisturbed root program) {program' : Program}
    (idle : program'.Locked → ∀ call, program ≠ .recordWrite call)
    (scanned : Scanned root program') : Scanned root' program' := by
  cases program' with
  | recording call rest => exact effect.clear undisturbed (idle trivial) scanned
  | recorded call => exact effect.clear undisturbed (idle trivial) scanned
  | recordWrite call => exact effect.clear undisturbed (idle trivial) scanned
  | _ => trivial

theorem preserves_single :
    Protocol.Preserves (protocol.within Undisturbed) singleInvariant where
  start shared process program starts kept :=
    ⟨preserves_once.start shared process program starts kept.1, by cases starts <;> trivial⟩
  crash root process kept := ⟨preserves_once.crash root process kept.1, kept.2⟩
  crashed root process other program different kept fits := by
    refine ⟨preserves_once.crashed root process other program different kept.1 fits.1, ?_⟩
    have scanned := fits.2
    cases program <;> exact scanned
  turn process root program root' next turned kept fits := by
    obtain ⟨undisturbed, turn⟩ := turned
    have effect := Turn.effect turn fits.1
    refine ⟨⟨effect.kept' kept.1, effect.single kept.1 undisturbed fits.2 kept.2⟩, ?_⟩
    intro program' continues
    exact ⟨Turn.knows turn kept.1 fits.1 continues, Turn.scanned turn fits.2 continues⟩
  stable process root program root' next turned kept fits other program' different knows := by
    obtain ⟨undisturbed, turn⟩ := turned
    refine ⟨preserves_once.stable process root program root' next turn kept.1 fits.1 other
      program' different knows.1, ?_⟩
    refine (Turn.effect turn fits.1).scanned undisturbed ?_ knows.2
    rintro locked call rfl
    have own := fits.1.1 trivial
    rw [knows.1.1 locked] at own
    exact different (Option.some.inj own)

theorem idle_single : Protocol.Good singleInvariant idle where
  shared := ⟨idle_good.shared, by
    intro first second record record' found
    rw [idle, Root.empty, AList.lookup_empty] at found
    cases found⟩
  fits := by
    intro process program running
    cases running

theorem advances_within {before after : Threads Root Program}
    (good : Protocol.Good singleInvariant before)
    (run : (protocol.within Undisturbed).Run before after) :
    Advances before.shared after.shared :=
  preserves_single.related Advances.refl (fun _ _ _ => Advances.trans)
    (fun _ _ _ _ _ turned _ fits => (Turn.effect turned.2 fits.1).advances turned.1)
    (fun root process => (effect_release root process (.marking "" true)).advances trivial)
    good run

theorem Advances.finished {attemptId : String} {record : Delivery}
    (advances : Advances root root') (found : root.records.lookup attemptId = some record)
    (terminal : record.state = .observedTerminal) :
    ∃ record', root'.records.lookup attemptId = some record' ∧
      record'.state = .observedTerminal := by
  obtain ⟨record', found', _, rank⟩ := advances attemptId record found
  refine ⟨record', found', ?_⟩
  by_contra open'
  have below := (rank_lt_iff record'.state).mpr open'
  rw [terminal] at rank
  exact absurd rank (Nat.not_le.mpr below)

section

def overtakenCall : Call := ⟨"attempt", "gpu", "spec"⟩

def overtakenRecord : Delivery := preparedRecord overtakenCall 0

def askedRoot : Root :=
  { Root.empty.write overtakenRecord with
    controller := some 0
    slots := Function.update (fun _ => none) "gpu" (some 0) }

def cancelledRoot : Root :=
  (askedRoot.write { overtakenRecord with state := .observedTerminal }).release 1

def reissuedRoot : Root :=
  cancelledRoot.write { overtakenRecord with state := .issued, issuedAt := 1 }

theorem asked_turns : (protocol.within Undisturbed).Turns 0 Root.empty (.launch overtakenCall)
    askedRoot (some (.writing overtakenCall overtakenRecord)) :=
  .step ⟨trivial, .begin _ _ rfl⟩ <|
  .step ⟨trivial, .looked _ _⟩ <|
  .step ⟨trivial, .launchNew _ _ rfl⟩ <|
  .step ⟨trivial, .prepare _ _⟩ <|
  .step ⟨trivial, .recordChecked _ _⟩ <|
  .step ⟨trivial, .recordNew _ _ rfl⟩ <|
  .step ⟨trivial, .recordWritten _ _ 0⟩ <|
  .step ⟨trivial, .rereadPrepared _ _ overtakenRecord (by decide) rfl⟩ <|
  .step ⟨trivial, .lock _ _ rfl⟩ <|
  .step ⟨trivial, .check _ _ _ _ overtakenRecord (by decide) (by decide)⟩ <|
  .step ⟨trivial, .checked _ _⟩ <|
  .step ⟨trivial, .issue _ _ overtakenRecord (by decide) (by decide) rfl⟩ <|
  .last ⟨trivial, .asked _ _ _⟩

theorem cancelled_turns : (protocol.within Undisturbed).Turns 1 askedRoot
    (.reconciling "attempt" "spec" true) cancelledRoot none :=
  .step ⟨trivial, .reconcile _ _ _ _ overtakenRecord (by decide) rfl⟩ <|
  .step ⟨trivial, .mark _ _ _ overtakenRecord (by decide) (by decide)⟩ <|
  .last ⟨trivial, .observe _ _ _⟩

theorem asked_run : ∃ programs, (protocol.within Undisturbed).Run idle ⟨askedRoot, programs, [0]⟩ ∧
    programs 0 = some (.writing overtakenCall overtakenRecord) := by
  have idle : (protocol.within Undisturbed).Run idle idle := .refl _
  have launched := idle.start 0 (.launch overtakenCall) List.not_mem_nil (.launch _)
  exact ⟨_, launched.turns rfl asked_turns, Function.update_self ..⟩

theorem cancelled_run {programs : Nat → Option Program}
    (writes : programs 0 = some (.writing overtakenCall overtakenRecord)) :
    ∃ programs', (protocol.within Undisturbed).Run ⟨askedRoot, programs, [0]⟩
      ⟨cancelledRoot, programs', [1, 0]⟩ ∧
      programs' 0 = some (.writing overtakenCall overtakenRecord) := by
  have asked : (protocol.within Undisturbed).Run ⟨askedRoot, programs, [0]⟩
      ⟨askedRoot, programs, [0]⟩ := .refl _
  have cancelled := asked.start 1 (.reconciling "attempt" "spec" true) (by decide)
    (.reconcile ..)
  refine ⟨_, cancelled.turns (Function.update_self ..) cancelled_turns, ?_⟩
  rw [Function.update_of_ne (by decide), Function.update_of_ne (by decide), writes]

end

end SparseLab.Workers.Deliveries
