import SparseLab.Corpus.TransportSteps
import SparseLab.Library.Rearrangements

/-! The transport ledger stays valid over every run of its operations. -/

namespace SparseLab.Corpus

open Library TransportLedger

variable {Stamp : Type}

theorem modify_split {α : Type} {values : List α} {place : Nat} {value : α}
    (found : values[place]? = some value) :
    ∃ before after, values = before ++ value :: after ∧
      ∀ change : α → α, values.modify place change = before ++ change value :: after := by
  obtain ⟨inside, rfl⟩ := List.getElem?_eq_some_iff.mp found
  refine ⟨values.take place, values.drop (place + 1), ?_, fun change => ?_⟩
  · rw [List.getElem_cons_drop, List.take_append_drop]
  · exact List.modify_eq_take_cons_drop inside

section

variable {α : Type} {related : α → α → Prop} {change : α → α}

theorem related_map (each : ∀ value, related value (change value)) (values : List α) :
    List.Forall₂ related values (values.map change) :=
  List.forall₂_map_right_iff.mpr (List.forall₂_same.mpr fun value _ => each value)

theorem related_amend (same : ∀ value, related value value) {values : List α} {place : Nat} {value : α}
    (found : values[place]? = some value) (here : related value (change value)) :
    List.Forall₂ related values (values.modify place change) := by
  obtain ⟨before, after, rfl, changed⟩ := modify_split found
  have kept : ∀ others : List α, List.Forall₂ related others others :=
    fun others => List.forall₂_same.mpr fun other _ => same other
  rw [changed]
  exact List.rel_append (kept before) (List.Forall₂.cons here (kept after))

end

section

variable {olds news : List (Transfer Stamp)}

section

variable (item : Transfer Stamp)

include item

@[simp] theorem interrupt_key : (interrupt item).key = item.key := by
  unfold interrupt
  split <;> rfl

@[simp] theorem interrupt_reserved : (interrupt item).reserved = item.reserved := by
  unfold interrupt
  split <;> rfl

@[simp] theorem interrupt_actual : (interrupt item).actual = item.actual := by
  unfold interrupt
  split <;> rfl

@[simp] theorem interrupt_resources : (interrupt item).resources = item.resources := by
  unfold interrupt
  split <;> rfl

theorem interrupt_status : (interrupt item).status = item.status ∨ item.status = .started := by
  unfold interrupt
  by_cases started : item.status = .started
  · exact Or.inr started
  · rw [if_neg started]
    exact Or.inl rfl

theorem interrupt_not_started : (interrupt item).status ≠ .started := by
  unfold interrupt
  by_cases started : item.status = .started
  · simp [started]
  · rwa [if_neg started]

end

def Advances (old new : Transfer Stamp) : Prop :=
  new.key = old.key ∧ (new.status = old.status ∨ old.status = .started)

theorem advances_refl (item : Transfer Stamp) : Advances item item := ⟨rfl, Or.inl rfl⟩

theorem advances_interrupt (item : Transfer Stamp) : Advances item (interrupt item) :=
  ⟨interrupt_key item, interrupt_status item⟩

theorem advanced_refl (olds : List (Transfer Stamp)) : List.Forall₂ Advances olds olds :=
  List.forall₂_same.mpr fun item _ => advances_refl item

theorem advanced_keys (advanced : List.Forall₂ Advances olds news) :
    news.map (·.key) = olds.map (·.key) := by
  induction advanced with
  | nil => rfl
  | cons here rest ih => rw [List.map_cons, List.map_cons, here.1, ih]

def interruptKey (key : Text) (item : Transfer Stamp) : Transfer Stamp :=
  if item.key = key then interrupt item else item

theorem advances_interruptKey (key : Text) (item : Transfer Stamp) :
    Advances item (interruptKey key item) := by
  unfold interruptKey
  split
  · exact advances_interrupt item
  · exact advances_refl item

def Precedes (earlier later : Transfer Stamp) : Prop :=
  earlier.key = later.key → earlier.status ≠ .started ∧ earlier.status ≠ .failed

theorem precedes_advanced {old new later later' : Transfer Stamp} (precedes : Precedes old later)
    (here : Advances old new) (there : Advances later later') : Precedes new later' := by
  intro same
  have ended := precedes (by rw [← here.1, ← there.1, same])
  rcases here.2 with kept | started
  · rwa [kept]
  · exact absurd started ended.1

theorem pairwise_advanced (ordered : olds.Pairwise Precedes)
    (advanced : List.Forall₂ Advances olds news) : news.Pairwise Precedes := by
  induction advanced with
  | nil => exact List.Pairwise.nil
  | cons here rest ih =>
    obtain ⟨first, ordered⟩ := List.pairwise_cons.mp ordered
    refine List.Pairwise.cons ?_ (ih ordered)
    intro later member
    obtain ⟨old, oldMember, there⟩ := forall₂_right rest member
    exact precedes_advanced (first old oldMember) here there

def reservations (state : TransportLedger Stamp) (key : Text) : Nat :=
  (state.transfers.map (·.key)).count key

theorem prior_length (state : TransportLedger Stamp) (key : Text) :
    (state.prior key).length = reservations state key := by
  rw [prior, reservations, List.count_eq_countP, List.countP_map, List.countP_eq_length_filter]
  congr 1
  apply List.filter_congr
  intro item member
  exact (beq_eq_decide item.key key).symm

def Weighs (old new : Transfer Stamp) : Prop :=
  new.reserved = old.reserved ∧ new.actual = old.actual ∧ new.resources = old.resources

theorem weighs_refl (item : Transfer Stamp) : Weighs item item := ⟨rfl, rfl, rfl⟩

theorem weighs_interrupt (item : Transfer Stamp) : Weighs item (interrupt item) :=
  ⟨interrupt_reserved item, interrupt_actual item, interrupt_resources item⟩

theorem weighs_interruptKey (key : Text) (item : Transfer Stamp) :
    Weighs item (interruptKey key item) := by
  unfold interruptKey
  split
  · exact weighs_interrupt item
  · exact weighs_refl item

theorem weighed_sums (weighed : List.Forall₂ Weighs olds news) :
    (news.map (·.reserved)).sum = (olds.map (·.reserved)).sum ∧
      (news.map (·.actual)).sum = (olds.map (·.actual)).sum := by
  induction weighed with
  | nil => exact ⟨rfl, rfl⟩
  | cons here rest ih => simp only [List.map_cons, List.sum_cons, ih, here.1, here.2.1, and_self]

theorem sum_bounds {items : List (Transfer Stamp)}
    (each : ∀ item ∈ items, 0 ≤ item.actual ∧ item.actual ≤ item.reserved) :
    0 ≤ (items.map (·.actual)).sum ∧
      (items.map (·.actual)).sum ≤ (items.map (·.reserved)).sum := by
  induction items with
  | nil => exact ⟨Int.le_refl 0, Int.le_refl 0⟩
  | cons item items ih =>
    have rest := ih fun later member => each later (List.mem_cons_of_mem _ member)
    have here := each item List.mem_cons_self
    simp only [List.map_cons, List.sum_cons]
    omega

end

section

variable [LinearOrder Stamp] {policy : TransportPolicy Stamp}
  {canonicalDigest : TransportLedger Stamp → HexDigest} {clock : Clock Stamp}
  {state written : TransportLedger Stamp} {operation : TransportOperation Stamp}

def sourceReservation : TransportOperation Stamp → Int
  | .reserveTransfer _ _ size _ => size
  | _ => 0

def metadataReservation : TransportOperation Stamp → Int
  | .reserveMetadata amount => amount
  | _ => 0

section

variable (step : Step policy canonicalDigest clock state operation written)

include step

theorem step_charges :
    written.sourceCharged = state.sourceCharged + sourceReservation operation ∧
      written.metadataCharged = state.metadataCharged + metadataReservation operation := by
  cases step <;> simp [sourceReservation, metadataReservation, reserve, amend]

theorem step_nonnegative :
    0 ≤ sourceReservation operation ∧ 0 ≤ metadataReservation operation := by
  cases step with
  | reserved admitted checked =>
    exact ⟨(checkCombined_ok.mp (checkTransfer_ok.mp checked).1).1, Int.le_refl 0⟩
  | reservedMetadata admitted checked room =>
    exact ⟨Int.le_refl 0, (checkCombined_ok.mp checked).1⟩
  | _ => exact ⟨Int.le_refl 0, Int.le_refl 0⟩

theorem step_transfers :
    List.Forall₂ Advances state.transfers written.transfers ∨
    ∃ sourceId path size retry, operation = .reserveTransfer sourceId path size retry ∧
      state.checkTransfer policy (transferKey sourceId path) size retry = .ok () ∧
      written = state.reserve clock (transferKey sourceId path) size := by
  cases step with
  | reserved admitted checked => exact Or.inr ⟨_, _, _, _, rfl, checked, rfl⟩
  | charged admitted found started room => exact Or.inl (related_amend advances_refl found ⟨rfl, Or.inl rfl⟩)
  | finished admitted found started => exact Or.inl (related_amend advances_refl found ⟨rfl, Or.inr started⟩)
  | measured admitted found valid => exact Or.inl (related_amend advances_refl found ⟨rfl, Or.inl rfl⟩)
  | released admitted gated unreleased evidence bound approved stops =>
    refine Or.inl ?_
    dsimp only
    split
    · exact advanced_refl _
    · exact related_map advances_interrupt _
  | reservedMetadata => exact Or.inl (advanced_refl _)
  | chargedMetadata => exact Or.inl (advanced_refl _)
  | failed => exact Or.inl (advanced_refl _)
  | observedTime => exact Or.inl (advanced_refl _)
  | observedNetwork => exact Or.inl (advanced_refl _)
  | observedStorage => exact Or.inl (advanced_refl _)

theorem step_createdAt :
    written.createdAt = state.createdAt := by
  cases step <;> rfl

theorem step_network
    (enforced : written.observesNetwork = false) : state.observesNetwork = false := by
  cases step with
  | observedNetwork => cases enforced
  | _ => exact enforced

theorem step_precedes
    (ordered : state.transfers.Pairwise Precedes) : written.transfers.Pairwise Precedes := by
  rcases step_transfers step with advanced | ⟨sourceId, path, size, retry, -, checked, rfl⟩
  · exact pairwise_advanced ordered advanced
  · have advanced := related_map (advances_interruptKey (transferKey sourceId path))
      state.transfers
    refine List.pairwise_append.mpr ⟨pairwise_advanced ordered advanced,
      List.pairwise_singleton _ _, ?_⟩
    intro earlier member new newMember same
    obtain ⟨old, oldMember, rfl⟩ := List.mem_map.mp member
    rw [List.mem_singleton.mp newMember] at same
    have key : old.key = transferKey sourceId path :=
      (advances_interruptKey _ old).1.symm.trans same
    have open_key := (checkTransfer_ok.mp checked).2.1 old
      (List.mem_filter.mpr ⟨oldMember, by simpa using key⟩)
    simp only [terminal, Bool.or_eq_false_iff, decide_eq_false_iff_not] at open_key
    rw [if_pos key]
    refine ⟨interrupt_not_started old, ?_⟩
    intro failed
    unfold interrupt at failed
    by_cases started : old.status = .started
    · rw [if_pos started] at failed
      cases failed
    · rw [if_neg started] at failed
      exact open_key.1 failed

end

def WithinRetries (policy : TransportPolicy Stamp) (state : TransportLedger Stamp) : Prop :=
  state.observesNetwork = false → ∀ key : Text,
    (reservations state key : Int) ≤ policy.limits.maxRetriesPerShard + 1

theorem step_retries (step : Step policy canonicalDigest clock state operation written)
    (within : WithinRetries policy state) : WithinRetries policy written := by
  intro enforced key
  have before := step_network step enforced
  rcases step_transfers step with advanced | ⟨sourceId, path, size, retry, -, checked, rfl⟩
  · rw [reservations, advanced_keys advanced]
    exact within before key
  · have advanced := related_map (advances_interruptKey (transferKey sourceId path))
      state.transfers
    have keys := advanced_keys advanced
    have room := (checkTransfer_ok.mp checked).2.2.1 before
    rw [prior_length] at room
    change ((((state.transfers.map (interruptKey (transferKey sourceId path))) ++ _).map
      (·.key)).count key : Int) ≤ _
    rw [List.map_append, List.count_append, keys]
    by_cases same : key = transferKey sourceId path
    · subst same
      simp only [reservations] at room
      simp
      omega
    · have others := within before key
      simp only [reservations] at others
      simp only [List.map_cons, List.map_nil, List.count_cons, List.count_nil]
      rw [if_neg (by simpa using fun reversed : transferKey sourceId path = key => same reversed.symm)]
      simpa using others

end

theorem digest_not_blank (digest : HexDigest) : blank digest.written = false := by
  obtain ⟨written, long, digits⟩ := digest
  cases written with
  | nil => cases long
  | cons digit written =>
    have first := digits digit List.mem_cons_self
    have shown : whiteSpace digit = false := by
      simp only [whiteSpace, Bool.or_eq_false_iff, Bool.and_eq_false_iff, decide_eq_false_iff_not]
      omega
    rw [blank, List.isEmpty_eq_false_iff]
    intro empty
    have spaces := strip_eq_nil.mp empty digit List.mem_cons_self
    rw [shown] at spaces
    cases spaces

section

variable [LinearOrder Stamp] {policy : TransportPolicy Stamp}
  {canonicalDigest : TransportLedger Stamp → HexDigest} {clock : Clock Stamp}
  {state written : TransportLedger Stamp} {operation : TransportOperation Stamp}

theorem weighed_valid {news : List (Transfer Stamp)} (valid : Valid policy state)
    (weighed : List.Forall₂ Weighs state.transfers news) :
    Valid policy { state with transfers := news } := by
  obtain ⟨reserved, actual⟩ := weighed_sums weighed
  refine { valid with
    transferCap := ?_, sourceCharged := ?_, sourceActual := ?_, transfers := ?_, readings := ?_ }
  · intro enforced
    have bound := valid.transferCap enforced
    rwa [weighed.length_eq] at bound
  · exact valid.sourceCharged.trans reserved.symm
  · exact valid.sourceActual.trans actual.symm
  · intro item member
    obtain ⟨old, oldMember, same⟩ := forall₂_right weighed member
    rw [same.1, same.2.1]
    exact valid.transfers old oldMember
  · intro item member
    obtain ⟨old, oldMember, same⟩ := forall₂_right weighed member
    rw [same.2.2]
    exact valid.readings old oldMember

theorem reserve_valid {key : Text} {size : Int} {retry : Bool} (valid : Valid policy state)
    (checked : state.checkTransfer policy key size retry = .ok ()) :
    Valid policy (state.reserve clock key size) := by
  obtain ⟨combined, -, -, count, room⟩ := checkTransfer_ok.mp checked
  obtain ⟨nonnegative, total, gate⟩ := checkCombined_ok.mp combined
  have interrupted := weighed_valid valid (related_map (weighs_interruptKey key) state.transfers)
  have charged : (state.reserve clock key size).charged = state.charged + size := by
    simp only [TransportLedger.charged, reserve]
    omega
  have reservedSum : (state.reserve clock key size).sourceCharged =
      ((state.reserve clock key size).transfers.map (·.reserved)).sum := by
    change state.sourceCharged + size = (((state.transfers.map (interruptKey key)) ++ _).map _).sum
    rw [List.map_append, List.sum_append, ← interrupted.sourceCharged]
    simp
  have actualSum : (state.reserve clock key size).sourceActual =
      ((state.reserve clock key size).transfers.map (·.actual)).sum := by
    change state.sourceActual = (((state.transfers.map (interruptKey key)) ++ _).map _).sum
    rw [List.map_append, List.sum_append, ← interrupted.sourceActual]
    simp
  have items : ∀ item ∈ (state.reserve clock key size).transfers,
      0 ≤ item.actual ∧ item.actual ≤ item.reserved := by
    intro item member
    rcases List.mem_append.mp member with earlier | new
    · exact interrupted.transfers item earlier
    · rw [List.mem_singleton.mp new]
      exact ⟨Int.le_refl 0, nonnegative⟩
  refine { valid with
    transferCap := ?_, sourceCharged := reservedSum, sourceActual := actualSum,
    sourceBounds := ?_, sourceCap := ?_, transfers := items, total := ?_, gate := ?_,
    readings := ?_ }
  · intro enforced
    have bound := count enforced
    simp only [reserve, List.length_append, List.length_map, List.length_cons, List.length_nil]
    omega
  · rw [reservedSum, actualSum]
    exact sum_bounds items
  · intro enforced
    have bound := room enforced
    simp only [reserve]
    omega
  · intro enforced
    rw [charged]
    exact total enforced
  · intro enforced unreleased
    rw [charged]
    exact gate enforced unreleased
  · intro item member
    rcases List.mem_append.mp member with earlier | new
    · exact interrupted.readings item earlier
    · rw [List.mem_singleton.mp new]
      intro readings absent
      cases absent

theorem charge_valid {place amount : Nat} {item : Transfer Stamp} (valid : Valid policy state)
    (found : state.transfers[place]? = some item) (room : amount ≤ item.reserved - item.actual) :
    Valid policy { state.amend place (charge clock amount) with
      sourceActual := state.sourceActual + amount } := by
  obtain ⟨before, after, split, changed⟩ := modify_split found
  have amended : (state.amend place (charge clock amount)).transfers =
      before ++ charge clock amount item :: after := changed _
  have known : item ∈ state.transfers := by
    rw [split]
    simp
  have items : ∀ other ∈ before ++ charge clock amount item :: after,
      0 ≤ other.actual ∧ other.actual ≤ other.reserved := by
    intro other member
    have bounds := valid.transfers item known
    rcases List.mem_append.mp member with inside | inside
    · exact valid.transfers other (by rw [split]; simp [inside])
    · rcases List.mem_cons.mp inside with rfl | inside
      · simp only [charge]
        omega
      · exact valid.transfers other (by rw [split]; simp [inside])
  have reservedSum := valid.sourceCharged
  have actualSum := valid.sourceActual
  rw [split] at reservedSum actualSum
  simp only [List.map_append, List.map_cons, List.sum_append, List.sum_cons] at reservedSum actualSum
  have newReserved : state.sourceCharged =
      ((before ++ charge clock amount item :: after).map (·.reserved)).sum := by
    simp only [List.map_append, List.map_cons, List.sum_append, List.sum_cons, charge]
    omega
  have newActual : state.sourceActual + amount =
      ((before ++ charge clock amount item :: after).map (·.actual)).sum := by
    simp only [List.map_append, List.map_cons, List.sum_append, List.sum_cons, charge]
    omega
  refine { valid with
    transferCap := ?_, sourceCharged := ?_, sourceActual := ?_, sourceBounds := ?_,
    transfers := ?_, readings := ?_ }
  · intro enforced
    have bound := valid.transferCap enforced
    rw [split] at bound
    change ((state.amend place (charge clock amount)).transfers.length : Int) ≤ _
    rw [amended]
    simpa using bound
  · exact newReserved.trans (by rw [← amended])
  · exact newActual.trans (by rw [← amended])
  · change 0 ≤ state.sourceActual + amount ∧ state.sourceActual + amount ≤ state.sourceCharged
    rw [newReserved, newActual]
    exact sum_bounds items
  · change ∀ other ∈ (state.amend place (charge clock amount)).transfers, _
    rw [amended]
    exact items
  · change ∀ other ∈ (state.amend place (charge clock amount)).transfers, _
    rw [amended]
    intro other member
    rcases List.mem_append.mp member with inside | inside
    · exact valid.readings other (by rw [split]; simp [inside])
    · rcases List.mem_cons.mp inside with rfl | inside
      · exact valid.readings item known
      · exact valid.readings other (by rw [split]; simp [inside])

theorem released_valid {decision : GateDecision} (valid : Valid policy state)
    (gated : policy.initialBodyLimit ≠ none)
    (evidence : validStopEvidence decision.stoppedTransfers = true)
    (bound : ∃ digest : HexDigest, decision.reportSha256 = digest.written)
    (approved : blank decision.approvalReference = false) :
    Valid policy { state with gateReview := some (state.review canonicalDigest decision) } := by
  obtain ⟨digest, bound⟩ := bound
  refine { valid with gate := ?_, review := ?_ }
  · intro enforced unreleased
    cases unreleased
  · intro review same
    cases same
    simp only [validReview, review, evidence, approved, bound, digest_not_blank, Bool.not_false,
      Bool.and_true, Option.isSome_iff_ne_none]
    exact gated

theorem step_valid (step : Step policy canonicalDigest clock state operation written)
    (forward : ∀ provenance, operation = .observeTime provenance →
      state.createdAt ≤ clock.time) : Valid policy written := by
  cases step with
  | reserved admitted checked => exact reserve_valid admitted.valid checked
  | charged admitted found started room => exact charge_valid admitted.valid found room
  | finished admitted found started =>
    exact weighed_valid admitted.valid (related_amend weighs_refl found ⟨rfl, rfl, rfl⟩)
  | reservedMetadata admitted checked room =>
    obtain ⟨nonnegative, total, gate⟩ := checkCombined_ok.mp checked
    have valid := admitted.valid
    have bounds := valid.metadataBounds
    refine { valid with
      metadataBounds := ⟨bounds.1, ?_⟩, metadataCap := ?_, total := ?_, gate := ?_ }
    · dsimp only
      omega
    · intro enforced
      have bound := room enforced
      dsimp only
      omega
    · intro enforced bound member
      have fits := total enforced bound member
      simp only [TransportLedger.charged] at fits ⊢
      omega
    · intro enforced unreleased bound member
      have fits := gate enforced unreleased bound member
      simp only [TransportLedger.charged] at fits ⊢
      omega
  | chargedMetadata admitted room =>
    have bounds := admitted.valid.metadataBounds
    refine { admitted.valid with metadataBounds := ?_ }
    dsimp only
    omega
  | failed admitted => exact { admitted.valid with }
  | measured admitted found valid => exact valid
  | released admitted gated unreleased evidence bound approved stops =>
    have reviewed : Valid policy { state with
        gateReview := some (state.review canonicalDigest _) } :=
      released_valid admitted.valid gated evidence bound approved
    split
    · exact reviewed
    · exact weighed_valid reviewed (related_map weighs_interrupt state.transfers)
  | observedTime admitted provided =>
    refine { admitted.valid with mode := ?_ }
    simp only [validMode, provided, admitted.valid.deadline, Bool.true_and, Bool.and_eq_true,
      decide_eq_true_eq, and_true]
    exact forward _ rfl
  | observedNetwork admitted valid => exact valid
  | observedStorage admitted valid => exact valid

end

end SparseLab.Corpus
