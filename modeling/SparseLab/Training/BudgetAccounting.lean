import SparseLab.Library.Outcomes
import SparseLab.Library.Selections
import SparseLab.Training.AttemptBudget

/-! What any run of calls keeps in the budget ledger. -/

namespace SparseLab.Training

open Library

namespace Counters

variable (left right : Counters)

@[simp] theorem zero_updates : (0 : Counters).updates = 0 := rfl

@[simp] theorem zero_targetPositions : (0 : Counters).targetPositions = 0 := rfl

@[simp] theorem zero_generationCalls : (0 : Counters).generationCalls = 0 := rfl

@[simp] theorem zero_generatedTokens : (0 : Counters).generatedTokens = 0 := rfl

@[simp] theorem add_updates : (left + right).updates = left.updates + right.updates := rfl

@[simp] theorem add_targetPositions :
    (left + right).targetPositions = left.targetPositions + right.targetPositions := rfl

@[simp] theorem add_generationCalls :
    (left + right).generationCalls = left.generationCalls + right.generationCalls := rfl

@[simp] theorem add_generatedTokens :
    (left + right).generatedTokens = left.generatedTokens + right.generatedTokens := rfl

variable {left right}

theorem le_iff : left ≤ right ↔
    left.updates ≤ right.updates ∧ left.targetPositions ≤ right.targetPositions ∧
      left.generationCalls ≤ right.generationCalls ∧
      left.generatedTokens ≤ right.generatedTokens := Iff.rfl

theorem le_refl (counters : Counters) : counters ≤ counters :=
  ⟨Int.le_refl _, Int.le_refl _, Int.le_refl _, Int.le_refl _⟩

theorem le_trans {middle : Counters} (lower : left ≤ middle) (upper : middle ≤ right) :
    left ≤ right := by
  rw [le_iff] at lower upper ⊢
  omega

theorem le_add (used : Counters) {requested : Counters} (nonnegative : 0 ≤ requested) :
    used ≤ used + requested := by
  simp only [le_iff, zero_updates, zero_targetPositions, zero_generationCalls,
    zero_generatedTokens, add_updates, add_targetPositions, add_generationCalls,
    add_generatedTokens] at nonnegative ⊢
  omega

theorem add_le_of_no_shortage {used requested maximum : Counters}
    (room : shortage used requested maximum = none) : used + requested ≤ maximum := by
  simp only [shortage, names, toList, List.zip_cons_cons, List.zip_nil_right,
    List.find?_eq_none, List.mem_cons, List.not_mem_nil, or_false, forall_eq_or_imp,
    forall_eq, decide_eq_true_eq] at room
  simp only [le_iff, add_updates, add_targetPositions, add_generationCalls,
    add_generatedTokens]
  omega

instance : AddMonoid Counters where
  add_assoc first second third := by
    ext <;> simp [Int.add_assoc]
  zero_add counters := by
    ext <;> simp
  add_zero counters := by
    ext <;> simp
  nsmul := nsmulRec

end Counters

namespace BudgetLedger

variable {sha256 : String → String} {decode : String → Option AttemptContract}
  {moment : Moment} {ledger : BudgetLedger} {contract : AttemptContract}

structure WithinForward (contract : AttemptContract) (rows : List ForwardReservation) : Prop where
  fixed : ¬ exceeds (positionsOf .fixedProfile rows) contract.maxFixedProfileForwardPositions
  total : ¬ exceeds (totalPositions rows) contract.maxNontrainingForwardPositions
  batches : ¬ exceeds (batchesOf .operationalValidation rows)
    contract.maxOperationalValidationBatches
  validation : ¬ exceeds (positionsOf .operationalValidation rows)
    contract.maxOperationalValidationForwardPositions

/-- What `_row_v2` has checked when it hands out the contract. -/
structure Checked (sha256 : String → String) (decode : String → Option AttemptContract)
    (ledger : BudgetLedger) (contract : AttemptContract) : Prop where
  stored : ledger.storedContract decode = some contract
  maximum : ledger.maximum = contract.maxima
  deadline : ledger.deadlineNs - ledger.startedNs = contract.wallNanoseconds
  forward : ledger.forwardReservations.isSome = contract.maxNontrainingForwardPositions.isSome
  within : ∀ rows, ledger.forwardReservations = some rows → WithinForward contract rows

@[simp] theorem exceeds_some {value : Int} {bound : Nat} :
    exceeds value (some bound) ↔ (bound : Int) < value := by
  simp [exceeds]

theorem positionsOf_append (kind : ForwardKind) (rows : List ForwardReservation)
    (row : ForwardReservation) : positionsOf kind (rows ++ [row]) =
      positionsOf kind rows + if row.kind = kind then row.positions else 0 := by
  by_cases same : row.kind = kind <;> simp [positionsOf, same]

theorem totalPositions_append (rows : List ForwardReservation) (row : ForwardReservation) :
    totalPositions (rows ++ [row]) = totalPositions rows + row.positions := by
  simp [totalPositions]

theorem batchesOf_append (kind : ForwardKind) (rows : List ForwardReservation)
    (row : ForwardReservation) : batchesOf kind (rows ++ [row]) =
      batchesOf kind rows + if row.kind = kind then 1 else 0 := by
  by_cases same : row.kind = kind <;> simp [batchesOf, same]

theorem withinForward_append {rows : List ForwardReservation} {row : ForwardReservation}
    (within : WithinForward contract rows)
    (fixed : ¬ exceeds (positionsOf .fixedProfile rows +
      if row.kind = .fixedProfile then row.positions else 0)
      contract.maxFixedProfileForwardPositions)
    (total : ¬ exceeds (totalPositions rows + row.positions)
      contract.maxNontrainingForwardPositions)
    (validation : ¬ (row.kind = .operationalValidation ∧
      (exceeds (batchesOf .operationalValidation rows + 1)
          contract.maxOperationalValidationBatches ∨
        exceeds (positionsOf .operationalValidation rows + row.positions)
          contract.maxOperationalValidationForwardPositions))) :
    WithinForward contract (rows ++ [row]) := by
  refine ⟨?_, ?_, ?_, ?_⟩
  · rw [positionsOf_append]
    exact fixed
  · rw [totalPositions_append]
    exact total
  · rw [batchesOf_append]
    by_cases kind : row.kind = .operationalValidation
    · rw [if_pos kind]
      exact fun excess => validation ⟨kind, .inl excess⟩
    · rw [if_neg kind]
      exact within.batches
  · rw [positionsOf_append]
    by_cases kind : row.kind = .operationalValidation
    · rw [if_pos kind]
      exact fun excess => validation ⟨kind, .inr excess⟩
    · rw [if_neg kind, Int.add_zero]
      exact within.validation

theorem withinForward_of_not_over {rows : List ForwardReservation}
    (under : ¬ overForward contract rows) : WithinForward contract rows := by
  simp only [overForward, not_or] at under
  exact ⟨under.2.1, under.2.2.1, under.2.2.2.1, under.2.2.2.2⟩

theorem commits_forwardState :
    Commits (forwardState contract) ledger fun state written =>
      written = ledger ∧ state = ledger.forwardReservations ∧
        ledger.forwardReservations.isSome = contract.maxNontrainingForwardPositions.isSome ∧
        ∀ rows, ledger.forwardReservations = some rows → WithinForward contract rows := by
  simp only [forwardState, commits_bind, commits_get, commits_raiseIf, commits_pure]
  intro agrees _ under
  refine ⟨trivial, trivial, by simpa using agrees, ?_⟩
  intro rows stored
  rw [stored] at under
  exact withinForward_of_not_over fun excess => under ⟨rfl, excess⟩

theorem commits_rowV2 :
    Commits (rowV2 sha256 decode moment) ledger fun contract written =>
      written = ledger ∧ Checked sha256 decode ledger contract := by
  simp only [rowV2, commits_bind, commits_get, commits_raiseIf, commits_raiseIfNone,
    commits_orRaise, commits_pure]
  intro _ _ _ contract stored _ _ _ maximum deadline _
  refine commits_forwardState.mono ?_
  rintro _ _ ⟨rfl, _, forward, within⟩
  exact ⟨rfl, stored, by simpa using maximum, by simpa using deadline, forward, within⟩

structure InTime (ledger : BudgetLedger) (moment : Moment) : Prop where
  forward : ledger.lastCheckedNs ≤ moment.nowNs
  early : moment.nowNs < ledger.deadlineNs

def touched (ledger : BudgetLedger) (moment : Moment) : BudgetLedger :=
  { ledger with lastCheckedNs := moment.nowNs }

theorem commits_checkV2 :
    Commits (checkV2 sha256 decode moment) ledger fun contract written =>
      written = ledger.touched moment ∧ Checked sha256 decode ledger contract ∧
        InTime ledger moment := by
  simp only [checkV2, commits_bind]
  refine commits_rowV2.mono ?_
  rintro contract _ ⟨rfl, checked⟩
  simp only [commits_get, commits_raiseIf, commits_set, commits_pure]
  intro forward early
  exact ⟨rfl, checked, by omega, by omega⟩

theorem commits_requireVersion :
    Commits requireVersion ledger fun _ written => written = ledger := by
  simp only [requireVersion, commits_bind, commits_get, commits_raiseIf]
  exact fun _ => trivial

theorem commits_requireRoom {used requested maximum : Counters} :
    Commits (requireRoom used requested maximum) ledger fun _ written =>
      written = ledger ∧ used + requested ≤ maximum := by
  unfold requireRoom
  split
  next => exact commits_throw
  next room =>
    rw [commits_pure]
    exact ⟨rfl, Counters.add_le_of_no_shortage room⟩

structure VectorGrant (sha256 : String → String) (decode : String → Option AttemptContract)
    (moment : Moment) (ledger : BudgetLedger) (row : Reservation) : Prop where
  checked : ∃ contract, Checked sha256 decode ledger contract
  time : InTime ledger moment
  requested : 0 ≤ row.reserved
  fresh : ∀ earlier ∈ ledger.reservations, earlier.label ≠ row.label
  room : ledger.used + row.reserved ≤ ledger.maximum
  pending : row.actual = none

theorem commits_reserveVector {label : String} {requested : Counters} {identity : String} :
    Commits (reserveVector sha256 decode moment label requested identity) ledger
      fun _ written => ∃ row, row.label = label ∧ row.reserved = requested ∧
        VectorGrant sha256 decode moment ledger row ∧
        written = (ledger.touched moment).charge row := by
  simp only [reserveVector, commits_bind, commits_raiseIf]
  intro valid
  refine commits_requireVersion.mono ?_
  rintro _ _ rfl
  refine commits_checkV2.mono ?_
  rintro contract _ ⟨rfl, checked, time⟩
  simp only [requireIdentity, commits_raiseIf, commits_get]
  intro _ unused
  refine commits_requireRoom.mono ?_
  rintro _ _ ⟨rfl, room⟩
  simp only [commits_set, commits_pure]
  refine ⟨_, rfl, rfl, ⟨⟨contract, checked⟩, time, ?_, ?_, ?_, rfl⟩, rfl⟩
  · by_contra negative
    exact valid (.inr negative)
  · intro earlier member same
    exact unused ⟨earlier, member, same⟩
  · exact room

structure ForwardGrant (sha256 : String → String) (decode : String → Option AttemptContract)
    (moment : Moment) (ledger : BudgetLedger) (contract : AttemptContract)
    (rows : List ForwardReservation) (row : ForwardReservation) : Prop where
  checked : Checked sha256 decode ledger contract
  time : InTime ledger moment
  stored : ledger.forwardReservations = some rows
  positive : 0 < row.positions
  fresh : ∀ earlier ∈ rows, earlier.label ≠ row.label
  within : WithinForward contract (rows ++ [row])

theorem commits_reserveForwardPositions {label : String} {kind : ForwardKind}
    {positions : Int} {identity : String} :
    Commits (reserveForwardPositions sha256 decode moment label kind positions identity) ledger
      fun _ written => ∃ contract rows row, row.label = label ∧ row.kind = kind ∧
        row.positions = positions ∧
        ForwardGrant sha256 decode moment ledger contract rows row ∧
        written = (ledger.touched moment).chargeForward rows row := by
  simp only [reserveForwardPositions, commits_bind, commits_raiseIf]
  intro valid
  refine commits_requireVersion.mono ?_
  rintro _ _ rfl
  refine commits_checkV2.mono ?_
  rintro contract _ ⟨rfl, checked, time⟩
  simp only [requireIdentity, commits_raiseIf]
  intro _
  refine commits_forwardState.mono ?_
  rintro state _ ⟨rfl, stored, _, within⟩
  split
  next rows fixedLimit totalLimit fixed total =>
    simp only [commits_bind, commits_raiseIf, commits_get, commits_set, commits_pure]
    intro unused fixedRoom totalRoom validationRoom _
    refine ⟨contract, rows, _, rfl, rfl, rfl, ⟨checked, time, stored.symm, ?_, ?_, ?_⟩, rfl⟩
    · change 0 < positions
      by_contra nonpositive
      exact valid (.inr (by omega))
    · intro earlier member same
      exact unused ⟨earlier, member, same⟩
    · exact withinForward_append (within rows stored.symm) (by simpa [fixed] using fixedRoom)
        (by simpa [total] using totalRoom) validationRoom
  next => exact commits_throw

theorem commits_recordVerifiedActual {label : String} {actual : Counters} {identity : String} :
    Commits (recordVerifiedActual sha256 decode moment label actual identity) ledger
      fun _ written => InTime ledger moment ∧ (written = ledger.touched moment ∨
        ∃ row ∈ ledger.reservations, row.label = label ∧ 0 ≤ actual ∧ actual ≤ row.reserved ∧
          row.actual = none ∧
          written = (ledger.touched moment).recordActual label actual moment.stampNs) := by
  simp only [recordVerifiedActual, commits_bind, commits_raiseIf]
  intro valid
  refine commits_requireVersion.mono ?_
  rintro _ _ rfl
  refine commits_checkV2.mono ?_
  rintro contract _ ⟨rfl, _, time⟩
  simp only [requireIdentity, commits_raiseIf, commits_get]
  intro _
  split
  next => exact commits_throw
  next row found =>
    simp only [commits_bind, commits_raiseIf]
    intro fits
    split
    next =>
      rw [commits_raiseIf]
      exact fun _ => ⟨time, .inl rfl⟩
    next pending =>
      rw [commits_set]
      refine ⟨time, .inr ⟨row, List.mem_of_find?_eq_some found, ?_, ?_, ?_, pending, rfl⟩⟩
      · simpa using List.find?_some found
      · by_contra negative
        exact valid (.inr negative)
      · by_contra excess
        exact fits excess

structure Accounted (decode : String → Option AttemptContract) (ledger : BudgetLedger) :
    Prop where
  charged : ledger.used = ledger.charges
  within : 0 ≤ ledger.used ∧ ledger.used ≤ ledger.maximum
  contracted : ∀ contract, ledger.storedContract decode = some contract →
    ledger.used ≤ contract.maxima
  labels : (ledger.reservations.map (·.label)).Nodup
  actuals : ∀ row ∈ ledger.reservations, 0 ≤ row.reserved ∧
    ∀ actual ∈ row.actual, 0 ≤ actual ∧ actual ≤ row.reserved
  forwardLabels : ∀ rows, ledger.forwardReservations = some rows →
    (rows.map (·.label)).Nodup ∧ ∀ row ∈ rows, 0 < row.positions
  forwardLimits : ∀ contract rows, ledger.storedContract decode = some contract →
    ledger.forwardReservations = some rows → WithinForward contract rows

structure Evolves (before after : BudgetLedger) : Prop where
  terms : after.version = before.version ∧ after.maximum = before.maximum ∧
    after.startedNs = before.startedNs ∧ after.deadlineNs = before.deadlineNs ∧
    after.contractPath = before.contractPath ∧ after.contractSha256 = before.contractSha256 ∧
    after.contractJson = before.contractJson
  clock : before.lastCheckedNs ≤ after.lastCheckedNs
  used : before.used ≤ after.used
  granted : (before.reservations.map fun row => (row.label, row.reserved)) <+:
    after.reservations.map fun row => (row.label, row.reserved)
  forward : ∀ rows, before.forwardReservations = some rows →
    ∃ later, after.forwardReservations = some (rows ++ later)

namespace Evolves

variable {before middle after : BudgetLedger}

theorem refl (ledger : BudgetLedger) : Evolves ledger ledger := by
  refine ⟨⟨rfl, rfl, rfl, rfl, rfl, rfl, rfl⟩, Int.le_refl _, Counters.le_refl _,
    List.prefix_rfl, ?_⟩
  intro rows stored
  exact ⟨[], by rw [List.append_nil, stored]⟩

theorem trans (first : Evolves before middle) (second : Evolves middle after) :
    Evolves before after := by
  refine ⟨?_, by have := first.clock; have := second.clock; omega,
    Counters.le_trans first.used second.used, first.granted.trans second.granted, ?_⟩
  · obtain ⟨version, maximum, started, deadline, path, digest, json⟩ := first.terms
    obtain ⟨version', maximum', started', deadline', path', digest', json'⟩ := second.terms
    exact ⟨version'.trans version, maximum'.trans maximum, started'.trans started,
      deadline'.trans deadline, path'.trans path, digest'.trans digest, json'.trans json⟩
  · intro rows stored
    obtain ⟨added, extended⟩ := first.forward rows stored
    obtain ⟨later, final⟩ := second.forward _ extended
    exact ⟨added ++ later, by rw [final, List.append_assoc]⟩

end Evolves

theorem Accounted.touched (accounted : Accounted decode ledger) :
    Accounted decode (ledger.touched moment) :=
  ⟨accounted.charged, accounted.within, accounted.contracted, accounted.labels,
    accounted.actuals, accounted.forwardLabels, accounted.forwardLimits⟩

theorem evolves_touched (time : InTime ledger moment) :
    Evolves ledger (ledger.touched moment) :=
  { Evolves.refl ledger with clock := time.forward }

theorem Accounted.charge {row : Reservation} (accounted : Accounted decode ledger)
    (grant : VectorGrant sha256 decode moment ledger row) :
    Accounted decode ((ledger.touched moment).charge row) := by
  have grown := Counters.le_add ledger.used grant.requested
  refine ⟨?_, ?_, ?_, ?_, ?_, accounted.forwardLabels, accounted.forwardLimits⟩
  · change ledger.used + row.reserved = ((ledger.reservations ++ [row]).map (·.reserved)).sum
    rw [accounted.charged, charges, List.map_append, List.sum_append]
    simp
  · exact ⟨Counters.le_trans accounted.within.1 grown, grant.room⟩
  · intro contract stored
    obtain ⟨checkedContract, checked⟩ := grant.checked
    have same : checkedContract = contract := Option.some.inj (checked.stored.symm.trans stored)
    rw [← same, ← checked.maximum]
    exact grant.room
  · exact nodup_map_concat accounted.labels grant.fresh
  · intro other member
    rcases List.mem_append.mp member with earlier | new
    · exact accounted.actuals other earlier
    · rw [List.mem_singleton.mp new]
      refine ⟨grant.requested, ?_⟩
      intro actual recorded
      rw [grant.pending] at recorded
      cases recorded

theorem VectorGrant.evolves {row : Reservation}
    (grant : VectorGrant sha256 decode moment ledger row) :
    Evolves ledger ((ledger.touched moment).charge row) := by
  refine { evolves_touched grant.time with
    used := Counters.le_add ledger.used grant.requested
    granted := ?_ }
  change _ <+: (ledger.reservations ++ [row]).map _
  rw [List.map_append]
  exact List.prefix_append _ _

theorem Accounted.chargeForward {rows : List ForwardReservation} {row : ForwardReservation}
    (accounted : Accounted decode ledger)
    (grant : ForwardGrant sha256 decode moment ledger contract rows row) :
    Accounted decode ((ledger.touched moment).chargeForward rows row) := by
  have touched : Accounted decode (ledger.touched moment) := accounted.touched
  refine { touched with forwardLabels := ?_, forwardLimits := ?_ }
  · intro rows' stored'
    obtain ⟨labels, positive⟩ := accounted.forwardLabels rows grant.stored
    cases stored'
    constructor
    · exact nodup_map_concat labels grant.fresh
    · intro other member
      rcases List.mem_append.mp member with earlier | new
      · exact positive other earlier
      · rw [List.mem_singleton.mp new]
        exact grant.positive
  · intro contract' rows' stored stored'
    have same : contract = contract' :=
      Option.some.inj (grant.checked.stored.symm.trans stored)
    cases stored'
    rw [← same]
    exact grant.within

theorem ForwardGrant.evolves {rows : List ForwardReservation} {row : ForwardReservation}
    (grant : ForwardGrant sha256 decode moment ledger contract rows row) :
    Evolves ledger ((ledger.touched moment).chargeForward rows row) := by
  refine { evolves_touched grant.time with forward := ?_ }
  intro rows' stored
  have same : rows = rows' := Option.some.inj (grant.stored.symm.trans stored)
  exact ⟨[row], by rw [← same]; rfl⟩

section

variable {label : String} {actual : Counters} {completedNs : Int}

theorem recordActual_map {β : Type} (column : Reservation → β)
    (kept : ∀ row : Reservation, column { row with actual := some actual, completedNs } =
      column row) :
    (ledger.recordActual label actual completedNs).reservations.map column =
      ledger.reservations.map column := by
  change (ledger.reservations.map _).map column = _
  rw [List.map_map]
  apply List.map_congr_left
  intro row _
  rw [Function.comp_apply]
  by_cases same : row.label = label
  · rw [if_pos same]
    exact kept row
  · rw [if_neg same]

theorem Accounted.recordActual {row : Reservation} (accounted : Accounted decode ledger)
    (member : row ∈ ledger.reservations) (named : row.label = label) (nonnegative : 0 ≤ actual)
    (fits : actual ≤ row.reserved) :
    Accounted decode (ledger.recordActual label actual completedNs) := by
  refine { accounted with charged := ?_, labels := ?_, actuals := ?_ }
  · exact accounted.charged.trans
      (congrArg List.sum (recordActual_map (·.reserved) fun _ => rfl).symm)
  · rw [recordActual_map (·.label) fun _ => rfl]
    exact accounted.labels
  · intro recorded present
    obtain ⟨earlier, before, rfl⟩ := List.mem_map.mp present
    by_cases same : earlier.label = label
    · -- Labels are unique, so the row that was checked is the row that is written.
      have unique : earlier = row :=
        List.inj_on_of_nodup_map accounted.labels before member (same.trans named.symm)
      rw [if_pos same, unique]
      refine ⟨(accounted.actuals row member).1, ?_⟩
      intro observed stored
      cases stored
      exact ⟨nonnegative, fits⟩
    · rw [if_neg same]
      exact accounted.actuals earlier before

theorem evolves_recordActual :
    Evolves ledger (ledger.recordActual label actual completedNs) := by
  refine { Evolves.refl ledger with granted := ?_ }
  have kept : (ledger.recordActual label actual completedNs).reservations.map
      (fun row => (row.label, row.reserved)) = _ := recordActual_map _ fun _ => rfl
  exact kept ▸ List.prefix_rfl

end

end BudgetLedger

open BudgetLedger

section

variable {sha256 : String → String} {decode : String → Option AttemptContract}
  {moment : Moment} {call : BudgetCall} {ledger : BudgetLedger}

structure Committed (decode : String → Option AttemptContract) (moment : Moment)
    (before after : BudgetLedger) : Prop where
  evolves : Evolves before after
  accounted : Accounted decode after
  time : InTime before moment
  clock : after.lastCheckedNs = moment.nowNs

theorem commits_body (accounted : Accounted decode ledger) :
    Commits (call.body sha256 decode moment) ledger fun _ written =>
      Committed decode moment ledger written := by
  cases call with
  | remainingSeconds =>
    simp only [BudgetCall.body, remainingSeconds, commits_bind, commits_get, commits_pure]
    refine commits_requireVersion.mono ?_
    rintro _ _ rfl
    refine commits_checkV2.mono ?_
    rintro _ _ ⟨rfl, _, time⟩
    exact ⟨evolves_touched time, accounted.touched, time, rfl⟩
  | reserveVector label requested identity =>
    simp only [BudgetCall.body, commits_bind, commits_pure]
    refine commits_reserveVector.mono ?_
    rintro _ _ ⟨row, _, _, grant, rfl⟩
    exact ⟨grant.evolves, accounted.charge grant, grant.time, rfl⟩
  | reserveForwardPositions label kind positions identity =>
    simp only [BudgetCall.body, commits_bind, commits_pure]
    refine commits_reserveForwardPositions.mono ?_
    rintro _ _ ⟨contract, rows, row, _, _, _, grant, rfl⟩
    exact ⟨grant.evolves, accounted.chargeForward grant, grant.time, rfl⟩
  | recordVerifiedActual label actual identity =>
    refine commits_recordVerifiedActual.mono ?_
    rintro _ _ ⟨time, rfl | ⟨row, member, named, nonnegative, fits, _, rfl⟩⟩
    · exact ⟨evolves_touched time, accounted.touched, time, rfl⟩
    · exact ⟨(evolves_touched time).trans evolves_recordActual,
        accounted.touched.recordActual member named nonnegative fits, time, rfl⟩

theorem perform_keeps (accounted : Accounted decode ledger) :
    Evolves ledger (call.perform sha256 decode moment ledger).2 ∧
      Accounted decode (call.perform sha256 decode moment ledger).2 := by
  have commits : Commits (call.body sha256 decode moment) ledger fun _ written =>
      Evolves ledger written ∧ Accounted decode written :=
    (commits_body accounted).mono fun _ _ committed =>
      ⟨committed.evolves, committed.accounted⟩
  exact transact_related commits ⟨Evolves.refl ledger, accounted⟩

theorem after_keeps (calls : List (Moment × BudgetCall)) (accounted : Accounted decode ledger) :
    Evolves ledger (ledger.after sha256 decode calls) ∧
      Accounted decode (ledger.after sha256 decode calls) := by
  induction calls generalizing ledger with
  | nil => exact ⟨Evolves.refl ledger, accounted⟩
  | cons next calls ih =>
    obtain ⟨moment, call⟩ := next
    obtain ⟨evolves, kept⟩ := @perform_keeps sha256 decode moment call ledger accounted
    obtain ⟨evolves', kept'⟩ := ih kept
    exact ⟨evolves.trans evolves', kept'⟩

theorem zero_le_maxima {contract : AttemptContract} : 0 ≤ contract.maxima :=
  ⟨Int.natCast_nonneg _, Int.natCast_nonneg _, Int.natCast_nonneg _, Int.natCast_nonneg _⟩

theorem not_exceeds_zero {limit : Option Nat} : ¬ exceeds 0 limit := by
  rintro ⟨bound, _, excess⟩
  omega

theorem withinForward_nil {contract : AttemptContract} : WithinForward contract [] :=
  ⟨not_exceeds_zero, not_exceeds_zero, not_exceeds_zero, not_exceeds_zero⟩

theorem initial_forward {enabled : Bool} {rows : List ForwardReservation}
    (stored : (if enabled then some [] else none) = some rows) : rows = [] := by
  cases enabled with
  | true => exact (Option.some.inj stored).symm
  | false => cases stored

theorem createContract_accounted {path digest : String} {reread : Option String}
    (created : createContract sha256 decode moment path digest reread = .ok ledger) :
    Accounted decode ledger ∧
      ∃ contract, loadAttemptContract sha256 decode moment.readBytes path digest = .ok contract ∧
        ledger.maximum = contract.maxima ∧
        ledger.deadlineNs = moment.nowNs + contract.wallNanoseconds := by
  obtain ⟨contract, loaded, rest⟩ := bind_eq_ok created
  split at rest
  next => cases rest
  next raw =>
    dsimp only at rest
    split at rest
    next => cases rest
    next =>
      split at rest
      next => cases rest
      next =>
        split at rest
        next => cases rest
        next =>
          cases rest
          refine ⟨⟨rfl, ⟨Counters.le_refl 0, zero_le_maxima⟩, fun _ _ => zero_le_maxima,
            List.nodup_nil, by simp, ?_, ?_⟩, contract, loaded, rfl, rfl⟩
          · intro rows stored
            rw [initial_forward stored]
            exact ⟨List.nodup_nil, by simp⟩
          · intro contract rows _ stored
            rw [initial_forward stored]
            exact withinForward_nil

theorem createContract_of {raw path : String} {contract : AttemptContract}
    (published : moment.readBytes path = some raw)
    (valid : modelValidateJson decode raw = some contract) (positive : 0 < contract.wallNanoseconds)
    (clock : moment.nowNs + contract.wallNanoseconds ≤ 2 ^ 63 - 1)
    (range : contract.maxima.toList.any (2 ^ 63 - 1 < ·) = false) :
    createContract sha256 decode moment path (sha256 raw) (some raw) = .ok {
      version := 2
      maximum := contract.maxima
      used := 0
      startedNs := moment.nowNs
      deadlineNs := moment.nowNs + contract.wallNanoseconds
      lastCheckedNs := moment.nowNs
      contractPath := path
      contractSha256 := sha256 raw
      contractJson := raw
      reservations := []
      forwardReservations :=
        if contract.maxNontrainingForwardPositions.isSome then some [] else none } := by
  have loaded : loadAttemptContract sha256 decode moment.readBytes path (sha256 raw) =
      .ok contract := by
    simp [loadAttemptContract, published, valid]
  have early : ¬ (moment.nowNs + contract.wallNanoseconds ≤ moment.nowNs ∨
      2 ^ 63 - 1 < moment.nowNs + (contract.wallNanoseconds : Int)) := by omega
  rw [createContract, loaded]
  change (if sha256 raw ≠ sha256 raw then _ else _) = _
  rw [if_neg (fun different => different rfl), if_neg early, range]
  rfl

end

section

def minuteJson : String :=
  "\x7b\"contract_version\":1," ++
    "\"max_optimizer_updates\":8," ++
    "\"max_actual_target_positions\":64," ++
    "\"max_generation_calls\":2," ++
    "\"max_generated_tokens\":16," ++
    "\"max_wall_seconds\":60," ++
    "\"content_identity_sha256\":\"0000000000000000000000000000000000000000000000000000000000000000\"," ++
    "\"monitor_policy_sha256\":\"1111111111111111111111111111111111111111111111111111111111111111\"," ++
    "\"workspace_baseline_sha256\":\"2222222222222222222222222222222222222222222222222222222222222222\"\x7d"

def repeated (digit : Char) : String := String.ofList (List.replicate 64 digit)

/-- The contract `minuteJson` declares. -/
def minuteContract : AttemptContract where
  maxOptimizerUpdates := 8
  maxActualTargetPositions := 64
  maxGenerationCalls := 2
  maxGeneratedTokens := 16
  wallNanoseconds := 60000000000
  contentIdentitySha256 := repeated '0'
  monitorPolicySha256 := repeated '1'
  workspaceBaselineSha256 := repeated '2'

def minuteSha256 (raw : String) : String :=
  if raw = minuteJson then
    "972c0dbf1445ec1a0941bd7021e2fa4425c3d599a33473d6242d63800a70f531"
  else ""

def minuteDecode (raw : String) : Option AttemptContract :=
  if raw = minuteJson then some minuteContract else none

def minuteAt (nowNs : Int) : Moment where
  nowNs
  stampNs := nowNs
  readBytes := fun _ => some minuteJson

def minuteLedger : BudgetLedger where
  version := 2
  maximum := minuteContract.maxima
  used := 0
  startedNs := 1
  deadlineNs := 60000000001
  lastCheckedNs := 1
  contractPath := "contract.json"
  contractSha256 := minuteSha256 minuteJson
  contractJson := minuteJson
  reservations := []
  forwardReservations := none

theorem isDigest_repeated {digit : Char} (lower : '0' ≤ digit) (upper : digit ≤ '9') :
    isDigest (repeated digit) = true := by
  simp [isDigest, repeated, lower, upper]

theorem minute_created :
    createContract minuteSha256 minuteDecode (minuteAt 1) "contract.json"
      (minuteSha256 minuteJson) (some minuteJson) = .ok minuteLedger := by
  have valid : modelValidateJson minuteDecode minuteJson = some minuteContract := by
    have digests : minuteContract.validSha256 ∧ minuteContract.validOptionalSha256 := by
      simp [AttemptContract.validSha256, AttemptContract.validOptionalSha256, minuteContract,
        isDigest_repeated]
    have decoded : minuteDecode minuteJson = some minuteContract := if_pos rfl
    rw [modelValidateJson, decoded, Option.bind_eq_bind, Option.bind_some, guard, if_pos digests]
    simp [AttemptContract.completeForwardLimits, AttemptContract.uncovered, minuteContract]
  have range : minuteContract.maxima.toList.any (2 ^ 63 - 1 < ·) = false := by decide
  exact createContract_of rfl valid (by decide) (by decide) range

end

end SparseLab.Training
