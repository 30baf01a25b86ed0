import SparseLab.Campaign.Engine
import SparseLab.Campaign.Receipts
import SparseLab.Library.Selections

/-! What `commit` does: it adds one receipt, or compares and writes nothing. -/

namespace SparseLab.Campaign

open Library

section

variable {formats : Formats} {plan : Plan} {disk : Disk}

theorem Published.found (published : Published formats plan disk) {id input : String}
    {receipt : Receipt} (found : disk.published id input = some receipt) :
    Has disk id receipt ∧ receipt.stageInput = input := by
  obtain ⟨file, member, read⟩ := List.exists_of_findSome?_eq_some found
  obtain ⟨stage, _, receipt', rfl, _⟩ := published.receipts file member
  dsimp only at read
  split at read
  next same =>
    obtain ⟨rfl, rfl⟩ := same
    cases read
    exact ⟨member, rfl⟩
  next => cases read

theorem Published.lookup (published : Published formats plan disk) {id : String}
    {receipt : Receipt} (has : Has disk id receipt) :
    disk.published id receipt.stageInput = some receipt := by
  cases found : disk.published id receipt.stageInput with
  | some receipt' => rw [published.unique has (published.found found).1]
  | none =>
    have absent := List.findSome?_eq_none_iff.mp found _ has
    simp at absent

theorem Published.lookup_none (published : Published formats plan disk) {id : String}
    (absent : ∀ receipt, ¬ Has disk id receipt) (input : String) :
    disk.published id input = none := by
  cases found : disk.published id input with
  | none => rfl
  | some receipt => exact absurd (published.found found).1 (absent receipt)

theorem has_add {id id' : String} {receipt receipt' : Receipt} :
    Has (disk.add id (.receipt receipt.stageInput receipt)) id' receipt' ↔
      Has disk id' receipt' ∨ id' = id ∧ receipt' = receipt := by
  unfold Has
  change _ ∈ disk.files ++ [_] ↔ _
  rw [List.mem_append, List.mem_singleton, File.mk.injEq, Content.receipt.injEq]
  constructor
  · rintro (has | ⟨named, -, same⟩)
    · exact Or.inl has
    · exact Or.inr ⟨named, same⟩
  · rintro (has | ⟨named, same⟩)
    · exact Or.inl has
    · exact Or.inr ⟨named, congrArg _ same, same⟩

theorem Published.add (published : Published formats plan disk) {stage : Stage}
    (listed : stage ∈ plan.stages) (absent : ∀ receipt, ¬ Has disk stage.id receipt)
    {receipt : Receipt} (read : readReceipt formats stage receipt.stageInput receipt =
      .ok (receiptRow stage receipt.stageInput receipt))
    (bound : InputOf plan disk stage receipt.stageInput) :
    Published formats plan (disk.add stage.id (.receipt receipt.stageInput receipt)) where
  receipts := by
    intro file member
    obtain member | member := List.mem_append.mp member
    · exact published.receipts file member
    · exact ⟨stage, listed, receipt, List.mem_singleton.mp member, read⟩
  single := by
    refine nodup_map_concat published.single fun file member same => ?_
    obtain ⟨other, _, receipt', rfl, _⟩ := published.receipts file member
    have same : other.id = stage.id := same
    exact absent receipt' (same ▸ member)
  bound := by
    intro other known receipt' has
    have more : ∀ id receipt', Has disk id receipt' →
        Has (disk.add stage.id (.receipt receipt.stageInput receipt)) id receipt' :=
      fun _ _ has => has_add.mpr (Or.inl has)
    obtain has | ⟨named, rfl⟩ := has_add.mp has
    · exact (published.bound other known receipt' has).mono more
    · obtain rfl := Plan.same stage listed known named
      exact bound.mono more

end

section

variable {formats : Formats} {plan : Plan} {disk : Disk} {stage : Stage} {row : Row}
  {receipt : Receipt} {input now : String}

theorem commitInput_ok (passed : commitInput formats stage row = .ok input) :
    validateRow formats row stage.toEntry = .ok () ∧ row.state.Committed ∧
      row.stageInput = some input := by
  unfold commitInput at passed
  obtain ⟨_, valid, passed⟩ := bind_eq_ok passed
  obtain ⟨state, passed⟩ := refuseIf_bind_eq_ok.mp passed
  exact ⟨valid, not_not.mp state, (sha_ok passed).1⟩

theorem commit_again (published : Published formats plan disk) (listed : stage ∈ plan.stages)
    (has : Has disk stage.id receipt) (given : row.stageInput = some receipt.stageInput) :
    commit formats disk stage row now = (disk, do
      let _ ← commitInput formats stage row
      compareCommitted row (receiptRow stage receipt.stageInput receipt)
      pure (committedRow row (receiptRow stage receipt.stageInput receipt))) := by
  unfold commit
  cases checked : commitInput formats stage row with
  | error failure => rfl
  | ok input =>
    have same := (commitInput_ok checked).2.2
    rw [given] at same
    cases same
    dsimp only
    rw [published.lookup has]
    dsimp only
    rw [published.read listed has]
    rfl

theorem commit_new (published : Published formats plan disk)
    (absent : ∀ receipt, ¬ Has disk stage.id receipt)
    (passed : commitInput formats stage row = .ok input) (typed : row.outcome.isSome)
    (clean : ∀ key ∈ row.data.map Prod.fst, key ∉ reserved) (utc : formats.utc now = true) :
    ∃ receipt, receipt.stageInput = input ∧ receipt.state = row.state ∧ receipt.data = row.data ∧
      commit formats disk stage row now = (disk.add stage.id (.receipt input receipt),
        .ok (committedRow row (receiptRow stage input receipt))) ∧
      readReceipt formats stage input receipt = .ok (receiptRow stage input receipt) ∧
      compareCommitted row (receiptRow stage input receipt) = .ok () := by
  obtain ⟨valid, state, given⟩ := commitInput_ok passed
  obtain ⟨inventory, outputs, sound, _⟩ := validateRow_ok.mp valid
  obtain ⟨outcome, decided⟩ := Option.isSome_iff_exists.mp typed
  have made : ∃ receipt, payload stage input row now = .ok receipt ∧ receipt.entry = stage.toEntry ∧
      receipt.stageInput = input ∧ receipt.verifiedAt = now ∧ receipt.data = row.data ∧
        receipt.state = row.state ∧ receipt.outputs = row.outputs ∧
          compareCommitted row (receiptRow stage input receipt) = .ok () := by
    unfold payload
    rw [decided]
    refine ⟨_, rfl, rfl, rfl, rfl, filter_reserved clean, rfl, rfl, ?_⟩
    refine compareCommitted_ok.mpr ⟨rfl, decided, rfl, rfl, rfl, Data.Same.refl _, rfl, ?_⟩
    rw [receiptRow, filter_reserved clean]
    exact Data.Same.refl _
  obtain ⟨receipt, made, entry, named, verifiedAt, data, state', outputs', compared⟩ := made
  have read : readReceipt formats stage input receipt = .ok (receiptRow stage input receipt) := by
    unfold readReceipt
    have identity : ¬ (receipt.entry ≠ stage.toEntry ∨ receipt.stageInput ≠ input) := by
      rintro (differs | differs)
      · exact differs entry
      · exact differs named
    have apart : ¬ ∃ key ∈ receipt.data.map Prod.fst, key ∈ reserved := by
      rintro ⟨key, member, taken⟩
      exact clean key (data ▸ member) taken
    have accepted : validateRow formats (receiptRow stage input receipt) stage.toEntry = .ok () := by
      rw [given] at sound
      refine validateRow_ok.mpr ⟨rfl, ?_, sound, fun differs => differs.2 rfl, ?_,
        fun unmarked => absurd unmarked.2 (by simp [receiptRow]),
        fun missing => absurd missing.2 (by simp [receiptRow])⟩
      · change receipt.outputs.forM (validateOutput formats stage.id) = _
        rw [outputs', outputs]
      · rintro ⟨time, same, wrong⟩
        cases same
        rw [verifiedAt, utc] at wrong
        cases wrong
    refine (refuseIf_bind identity).trans ((refuseIf_bind ?_).trans ((refuseIf_bind ?_).trans
      ((refuseIf_bind apart).trans ?_)))
    · exact not_not.mpr (state' ▸ state)
    · rw [verifiedAt, utc]
      exact Bool.noConfusion
    · rw [accepted]
      rfl
  refine ⟨receipt, named, state', data, ?_, read, compared⟩
  unfold commit
  rw [passed]
  dsimp only
  rw [published.lookup_none absent, made]
  dsimp only
  rw [read]
  change (_, (compareCommitted row (receiptRow stage input receipt) >>= _)) = _
  rw [compared]
  rfl

theorem committedRow_agrees (fit : Fit formats stage row)
    (read : readReceipt formats stage receipt.stageInput receipt =
      .ok (receiptRow stage receipt.stageInput receipt))
    (given : row.stageInput = some receipt.stageInput)
    (compared : compareCommitted row (receiptRow stage receipt.stageInput receipt) = .ok ()) :
    Fit formats stage (committedRow row (receiptRow stage receipt.stageInput receipt)) ∧
      Agrees stage (committedRow row (receiptRow stage receipt.stageInput receipt)) receipt := by
  have inventory := (validateRow_ok.mp fit.valid).1
  have same := (compareCommitted_ok.mp compared).2.2.2.2.1
  refine ⟨⟨?_, fit.clean⟩, ⟨?_, given, rfl, rfl⟩⟩
  · have inventory' : (committedRow row (receiptRow stage receipt.stageInput receipt)).entry =
        (receiptRow stage receipt.stageInput receipt).entry := inventory
    rw [← (read_valid read).1.valid]
    exact validateRow_congr inventory' same given rfl rfl rfl _
  · rw [← compared]
    rfl

end

end SparseLab.Campaign
