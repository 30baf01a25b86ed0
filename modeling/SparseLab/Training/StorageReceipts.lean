import SparseLab.Library.Json
import SparseLab.Library.SelfSizes
import SparseLab.Library.Utf8

/-! `_final_storage_receipt` of `attempt_budget.py` counts its own bytes, and settles where it can. -/

namespace SparseLab.Training

open Library

inductive StorageStatus
  | withinCap | violated | unavailable
deriving DecidableEq

def StorageStatus.text : StorageStatus → Text
  | withinCap => Library.text "WITHIN_CAP"
  | violated => Library.text "VIOLATED"
  | unavailable => Library.text "UNAVAILABLE"

/-- `record`. Its format is fixed. -/
structure StorageReceipt where
  label : Text
  nativeMonitorStatus : Text
  baselineSha256 : Text
  status : StorageStatus
  finalAddedWorkspaceBytes : Option Nat
  finalAddedWorkspaceInodes : Option Nat
  reason : Option Text
deriving DecidableEq

/-- The fields of `WorkspaceBaseline` that a receipt is measured against. -/
structure StorageBaseline where
  device : Nat
  rootInode : Nat
  apparentBytes : Nat
  inodes : Nat
  sha256 : Text

/-- The two limits of a `MonitorPolicy` on what an attempt may add. -/
structure StoragePolicy where
  maxAddedWorkspaceBytes : Option Nat
  maxAddedWorkspaceInodes : Option Nat

/-- What `sample_workspace_tree` counted, and the root that it counted. -/
structure MeasuredRoot where
  device : Nat
  rootInode : Nat
  bytes : Nat
  inodes : Nat

namespace StorageReceipt

def number : Option Nat → Text
  | none => text "null"
  | some value => text (toString value)

/-- The members of a record by their sorted keys, as `json.dumps` writes them. -/
def members (record : StorageReceipt) : List (Text × Text) :=
  [(text "baseline_sha256", Json.quotedAscii record.baselineSha256),
    (text "final_added_workspace_bytes", number record.finalAddedWorkspaceBytes),
    (text "final_added_workspace_inodes", number record.finalAddedWorkspaceInodes),
    (text "format", Json.quotedAscii (text "sparselab-attempt-phase-storage-v1")),
    (text "label", Json.quotedAscii record.label),
    (text "native_monitor_status", Json.quotedAscii record.nativeMonitorStatus)] ++
  (record.reason.toList.map fun reason => (text "reason", Json.quotedAscii reason)) ++
  [(text "status", Json.quotedAscii record.status.text)]

/-- `json.dumps(record, sort_keys=True, separators=(",", ":")) + "\n"` -/
def dumped (record : StorageReceipt) : Text :=
  text "\x7b" ++
    joined (text ",") (record.members.map fun member =>
      Json.quotedAscii member.1 ++ text ":" ++ member.2) ++
    text "\x7d\n"

def encoded (record : StorageReceipt) : List Nat := utf8 record.dumped

end StorageReceipt

section

variable (policy : StoragePolicy) (baseline : StorageBaseline) (current : MeasuredRoot)

def addedBytes (pending : Nat) : Nat := current.bytes + pending - baseline.apparentBytes

def addedInodes : Nat := current.inodes + 1 - baseline.inodes

def above (limit : Option Nat) (added : Nat) : Bool :=
  match limit with
  | none => false
  | some limit => limit < added

def storageVerdict (bytes inodes : Nat) : StorageStatus :=
  if above policy.maxAddedWorkspaceBytes bytes || above policy.maxAddedWorkspaceInodes inodes then
    .violated
  else .withinCap

def projected (record : StorageReceipt) : StorageReceipt :=
  let bytes := addedBytes baseline current record.encoded.length
  let inodes := addedInodes baseline current
  { record with
    status := storageVerdict policy bytes inodes
    finalAddedWorkspaceBytes := some bytes
    finalAddedWorkspaceInodes := some inodes }

/-- `for _ in range(16)`, and whether the loop was left by its `break`. -/
def settleReceipt : Nat → StorageReceipt → StorageReceipt × Bool
  | 0, record => (record, false)
  | passes + 1, record =>
    let updated := projected policy baseline current record
    if updated = record then (record, true) else settleReceipt passes updated

def unavailableReceipt (record : StorageReceipt) (reason : Text) : StorageReceipt :=
  { record with
    status := .unavailable
    reason := some reason }

variable (label nativeStatus : Text)

def emptyReceipt : StorageReceipt where
  label
  nativeMonitorStatus := nativeStatus
  baselineSha256 := baseline.sha256
  status := .withinCap
  finalAddedWorkspaceBytes := none
  finalAddedWorkspaceInodes := none
  reason := none

/-- The receipt that is written. `sampled` is what the measurement of the root returned, or the
text of what it raised. -/
def storageReceipt (sampled : Except Text MeasuredRoot) : StorageReceipt :=
  let record := emptyReceipt baseline label nativeStatus
  match sampled with
  | .error reason => unavailableReceipt record reason
  | .ok current =>
    if (current.device, current.rootInode) ≠ (baseline.device, baseline.rootInode) then
      unavailableReceipt record (text "common-root identity changed before final receipt")
    else
      let settled := settleReceipt policy baseline current 16 record
      if settled.2 then settled.1
      else unavailableReceipt settled.1
        (text "attempt receipt byte projection did not converge")

/-- `_final_storage_receipt`: the receipt that is written, if any, and the error that is raised. -/
def finalStorageReceipt (pathExists : Bool) (sampled : Except Text MeasuredRoot) :
    Option StorageReceipt × Option Text :=
  if pathExists then (none, some (text "attempt final receipt already exists"))
  else
    let record := storageReceipt policy baseline label nativeStatus sampled
    if record.status ≠ .withinCap then
      (some record, some (text "final common-root storage " ++ record.status.text))
    else (some record, none)

end

namespace StorageReceipt

theorem ascii_digits (value : Nat) : ∀ code ∈ text (toString value), code < 0x80 := by
  have digits : ∀ code ∈ (Nat.toDigits 10 value).map Char.toNat, code < 0x80 := by
    intro code member
    obtain ⟨digit, inside, rfl⟩ := List.mem_map.mp member
    have isDigit := Nat.isDigit_of_mem_toDigits (by decide) (by decide) inside
    simp only [Char.isDigit, Bool.and_eq_true, decide_eq_true_eq] at isDigit
    have last : digit.toNat ≤ 57 := isDigit.2
    omega
  simpa [text, Nat.toString_eq_ofList_toDigits] using digits

theorem length_number (value : Nat) : (utf8 (number (some value))).length = digitCount value := by
  rw [number, utf8_ascii (ascii_digits value)]
  simp [text, digitCount]

def statusWidth (status : StorageStatus) : Nat := (utf8 (Json.quotedAscii status.text)).length

end StorageReceipt

section

open StorageReceipt

variable {policy : StoragePolicy} {baseline : StorageBaseline} {current : MeasuredRoot}
  {label nativeStatus : Text}

variable (policy baseline current label nativeStatus) in
/-- The receipt that states `total` added bytes, with the verdict on them. -/
def receiptOf (total : Nat) : StorageReceipt :=
  { emptyReceipt baseline label nativeStatus with
    status := storageVerdict policy total (addedInodes baseline current)
    finalAddedWorkspaceBytes := some total
    finalAddedWorkspaceInodes := some (addedInodes baseline current) }

theorem length_receiptOf (total : Nat) :
    (receiptOf policy baseline current label nativeStatus total).encoded.length + 20 =
      (emptyReceipt baseline label nativeStatus).encoded.length + digitCount total +
        digitCount (addedInodes baseline current) +
        statusWidth (storageVerdict policy total (addedInodes baseline current)) := by
  have bytes := length_number total
  have inodes := length_number (addedInodes baseline current)
  have blank : (utf8 (number none)).length = 4 := by decide
  have within : (utf8 (Json.quotedAscii (StorageStatus.withinCap).text)).length = 12 := by decide
  simp only [receiptOf, emptyReceipt, encoded, dumped, members, Option.toList_none, List.map_nil,
    List.append_nil, List.map_cons, joined, List.cons_append, List.nil_append, utf8_append,
    List.length_append, statusWidth, bytes, inodes, blank, within]
  omega

theorem projected_empty :
    projected policy baseline current (emptyReceipt baseline label nativeStatus) =
      receiptOf policy baseline current label nativeStatus
        (addedBytes baseline current (emptyReceipt baseline label nativeStatus).encoded.length) :=
  rfl

theorem projected_receiptOf (total : Nat) :
    projected policy baseline current (receiptOf policy baseline current label nativeStatus total) =
      receiptOf policy baseline current label nativeStatus
        (addedBytes baseline current
          (receiptOf policy baseline current label nativeStatus total).encoded.length) :=
  rfl

theorem empty_unsettled (total : Nat) :
    receiptOf policy baseline current label nativeStatus total ≠
      emptyReceipt baseline label nativeStatus := by
  intro same
  cases congrArg StorageReceipt.finalAddedWorkspaceBytes same

variable (baseline current label nativeStatus) in
def receiptBase : Int :=
  current.bytes + (emptyReceipt baseline label nativeStatus).encoded.length +
    digitCount (addedInodes baseline current) - 20 - baseline.apparentBytes

variable (policy baseline current) in
def verdictWidth (total : Nat) : Nat :=
  statusWidth (storageVerdict policy total (addedInodes baseline current))

theorem added_receiptOf (total : Nat) :
    addedBytes baseline current
        (receiptOf policy baseline current label nativeStatus total).encoded.length =
      stated (receiptBase baseline current label nativeStatus)
        (verdictWidth policy baseline current) total := by
  have length := @length_receiptOf policy baseline current label nativeStatus total
  simp only [addedBytes, stated, receiptBase, verdictWidth]
  omega

theorem verdict_word : Verdict (verdictWidth policy baseline current) 10 := by
  have long : statusWidth .withinCap = 12 := by decide
  have short : statusWidth .violated = 10 := by decide
  intro high
  simp only [verdictWidth, storageVerdict]
  cases inodes : above policy.maxAddedWorkspaceInodes (addedInodes baseline current) with
  | true => exact ⟨0, fun total _ => by simp [short]⟩
  | false =>
    cases cap : policy.maxAddedWorkspaceBytes with
    | none =>
      refine ⟨high + 1, fun total below => ?_⟩
      have inside : total < high + 1 := by omega
      simp [above, long, inside]
    | some limit =>
      refine ⟨limit + 1, fun total _ => ?_⟩
      by_cases beyond : limit < total
      · have outside : ¬ total < limit + 1 := by omega
        simp [above, short, beyond, outside]
      · have inside : total < limit + 1 := by omega
        simp [above, long, beyond, inside]

variable (policy baseline current label nativeStatus) in
def CountsItself (total : Nat) : Prop :=
  addedBytes baseline current
    (receiptOf policy baseline current label nativeStatus total).encoded.length = total

theorem settleReceipt_of_fixed {passes count total : Nat}
    (fixed : CountsItself policy baseline current label nativeStatus
      ((stated (receiptBase baseline current label nativeStatus)
        (verdictWidth policy baseline current))^[count] total))
    (enough : count < passes) :
    ∃ last, CountsItself policy baseline current label nativeStatus last ∧
      settleReceipt policy baseline current passes
        (receiptOf policy baseline current label nativeStatus total) =
          (receiptOf policy baseline current label nativeStatus last, true) := by
  induction count generalizing passes total with
  | zero =>
    obtain ⟨passes, rfl⟩ : ∃ fewer, passes = fewer + 1 := ⟨passes - 1, by omega⟩
    refine ⟨total, fixed, ?_⟩
    rw [settleReceipt, projected_receiptOf]
    rw [Function.iterate_zero, id, CountsItself] at fixed
    rw [fixed, if_pos rfl]
  | succ count ih =>
    obtain ⟨passes, rfl⟩ : ∃ fewer, passes = fewer + 1 := ⟨passes - 1, by omega⟩
    rw [settleReceipt, projected_receiptOf]
    by_cases same : receiptOf policy baseline current label nativeStatus
        (addedBytes baseline current
          (receiptOf policy baseline current label nativeStatus total).encoded.length) =
        receiptOf policy baseline current label nativeStatus total
    · rw [if_pos same]
      have stays := Option.some.inj (congrArg StorageReceipt.finalAddedWorkspaceBytes same)
      exact ⟨total, stays, rfl⟩
    · rw [if_neg same]
      rw [Function.iterate_succ_apply, ← added_receiptOf] at fixed
      exact ih fixed (by omega)

theorem settleReceipt_settles {total : Nat}
    (fixed : CountsItself policy baseline current label nativeStatus total) :
    ∃ last, CountsItself policy baseline current label nativeStatus last ∧
      settleReceipt policy baseline current 16 (emptyReceipt baseline label nativeStatus) =
        (receiptOf policy baseline current label nativeStatus last, true) := by
  have same := fixed
  rw [CountsItself, added_receiptOf] at same
  have digits := digitCount_pos (addedInodes baseline current)
  have totalDigits := digitCount_pos total
  have word : 10 ≤ verdictWidth policy baseline current total := by
    obtain ⟨cut, words⟩ := @verdict_word policy baseline current total
    rw [words total (Nat.le_refl _)]
    split <;> omega
  -- The first total counts `null` twice, which is no longer than eight bytes over the fixed one.
  have near : addedBytes baseline current
      (emptyReceipt baseline label nativeStatus).encoded.length ≤ total + 8 := by
    simp only [stated, receiptBase] at same
    simp only [addedBytes]
    omega
  have settled := settles verdict_word same near
  rw [settleReceipt, projected_empty, if_neg (empty_unsettled _)]
  rw [← added_receiptOf] at settled
  exact settleReceipt_of_fixed settled (by omega)

theorem settled_counts {passes total : Nat}
    (settled : (settleReceipt policy baseline current passes
      (receiptOf policy baseline current label nativeStatus total)).2 = true) :
    ∃ last, CountsItself policy baseline current label nativeStatus last := by
  induction passes generalizing total with
  | zero => cases settled
  | succ passes ih =>
    rw [settleReceipt, projected_receiptOf] at settled
    split at settled
    · next same =>
        exact ⟨total, Option.some.inj (congrArg StorageReceipt.finalAddedWorkspaceBytes same)⟩
    · exact ih settled

end

section

variable (policy : StoragePolicy) (baseline : StorageBaseline) (label nativeStatus : Text)

def Truthful (sampled : Except Text MeasuredRoot) (record : StorageReceipt) : Prop :=
  match sampled with
  | .error _ => False
  | .ok current =>
    let bytes := addedBytes baseline current record.encoded.length
    record.finalAddedWorkspaceBytes = some bytes ∧
      record.finalAddedWorkspaceInodes = some (addedInodes baseline current) ∧
      record.status = storageVerdict policy bytes (addedInodes baseline current)

instance (sampled : Except Text MeasuredRoot) (record : StorageReceipt) :
    Decidable (Truthful policy baseline sampled record) :=
  match sampled with
  | .error _ => inferInstanceAs (Decidable False)
  | .ok _ => inferInstanceAs (Decidable (_ ∧ _ ∧ _))

def Settles (sampled : Except Text MeasuredRoot) : Prop :=
  ∃ current, sampled = .ok current ∧
    (current.device, current.rootInode) = (baseline.device, baseline.rootInode) ∧
    ∃ total, CountsItself policy baseline current label nativeStatus total

theorem storageVerdict_available (bytes inodes : Nat) :
    storageVerdict policy bytes inodes ≠ .unavailable := by
  unfold storageVerdict
  split <;> simp

/--
The receipt that is written counts its own bytes and judges their total exactly where some receipt
does. The projection then settles within its passes, whichever digits and verdicts it goes through.
-/
theorem storage_receipt_truthful (sampled : Except Text MeasuredRoot) :
    Truthful policy baseline sampled
        (storageReceipt policy baseline label nativeStatus sampled) ↔
      Settles policy baseline label nativeStatus sampled := by
  cases sampled with
  | error reason =>
    constructor
    · exact False.elim
    · rintro ⟨current, impossible, -⟩
      cases impossible
  | ok current =>
    constructor
    · rintro ⟨-, -, status⟩
      have available := storageVerdict_available policy (addedBytes baseline current
        (storageReceipt policy baseline label nativeStatus (.ok current)).encoded.length)
        (addedInodes baseline current)
      rw [← status, storageReceipt] at available
      by_cases root : (current.device, current.rootInode) ≠ (baseline.device, baseline.rootInode)
      · simp only [if_pos root, unavailableReceipt, ne_eq, not_true_eq_false] at available
      · simp only [if_neg root] at available
        split at available
        · next settled =>
            rw [settleReceipt, projected_empty, if_neg (empty_unsettled _)] at settled
            exact ⟨current, rfl, not_not.mp root, settled_counts settled⟩
        · simp only [unavailableReceipt, ne_eq, not_true_eq_false] at available
    · rintro ⟨current, ⟨⟩, root, total, fixed⟩
      obtain ⟨last, counts, settled⟩ := settleReceipt_settles fixed
      have written : storageReceipt policy baseline label nativeStatus (.ok current) =
          receiptOf policy baseline current label nativeStatus last := by
        simp only [storageReceipt, settled, root, ne_eq, not_true_eq_false, if_false, if_true]
      rw [written]
      rw [CountsItself] at counts
      refine ⟨?_, rfl, ?_⟩
      · rw [counts]
        rfl
      · rw [counts]
        rfl

/-- One byte below the total of the receipt that says `WITHIN_CAP`, neither verdict is true of the
receipt that states it. -/
theorem receipt_unsettled :
    ¬ Truthful ⟨some 1273, none⟩ ⟨1, 2, 0, 1, List.replicate 64 0x61⟩ (.ok ⟨1, 2, 1000, 3⟩)
      (storageReceipt ⟨some 1273, none⟩ ⟨1, 2, 0, 1, List.replicate 64 0x61⟩ (text "train")
        (text "COMPLETE") (.ok ⟨1, 2, 1000, 3⟩)) := by
  decide +kernel

end

end SparseLab.Training
