import Mathlib.Algebra.BigOperators.Group.List.Basic
import SparseLab.Data.PreparationChunks
import SparseLab.Library.Outcomes

/-! What a chunk ledger stands for: sealed chunks of records and a pending rest. -/

namespace SparseLab.Data

open Library

def tally (records : List Record) : Counters where
  acquiredDocuments := records.length
  retainedDocuments := records.countP Option.isSome
  skippedDocuments := records.countP Option.isNone
  truncatedDocuments := 0
  outputTokens := (records.map fun record => record.elim 0 fun values => (values .ids).length).sum

def rawOf (records : List Record) (array : ArrayName) : List Int :=
  records.flatMap fun record => record.elim [] fun values => values array

theorem tally_append (first second : List Record) :
    tally (first ++ second) = (tally first).add (tally second) := by
  simp [tally, Counters.add]

@[simp] theorem tally_acquired (records : List Record) :
    (tally records).acquiredDocuments = records.length := rfl

theorem rawOf_append (first second : List Record) (array : ArrayName) :
    rawOf (first ++ second) array = rawOf first array ++ rawOf second array := by
  simp [rawOf]

theorem countRecord_tally (records : List Record) (record : Record) :
    SplitChunks.countRecord (tally records) record = tally (records ++ [record]) := by
  cases record <;> simp [SplitChunks.countRecord, tally]

theorem writeRecord_rawOf (records : List Record) (record : Record) :
    SplitChunks.writeRecord (some (rawOf records)) record = rawOf (records ++ [record]) := by
  funext array
  simp [SplitChunks.writeRecord, rawOf]

theorem writeRecord_none (record : Record) :
    SplitChunks.writeRecord none record = rawOf [record] := by
  funext array
  simp [SplitChunks.writeRecord, rawOf]

variable (settings : Settings)

def byteSize (records : List Record) : Nat :=
  (settings.arrays.map fun array => (rawOf records array).length * settings.itemsize array).sum

@[simp] theorem byteSize_nil : byteSize settings [] = 0 := by
  simp [byteSize, rawOf]

theorem byteSize_append (first second : List Record) :
    byteSize settings (first ++ second) = byteSize settings first + byteSize settings second := by
  simp only [byteSize, rawOf_append, List.length_append, Nat.add_mul]
  exact List.sum_map_add

def ValidRecord (record : Record) : Prop :=
  (∀ values ∈ record, 0 < (values .ids).length ∧
    ∀ array ∈ settings.arrays, (values array).length = (values .ids).length) ∧
  byteSize settings [record] ≤ settings.rawByteLimit

structure ValidGroup (group : List Record) : Prop where
  nonempty : group ≠ []
  records : group.length ≤ settings.recordLimit
  bytes : byteSize settings group ≤ settings.rawByteLimit
  valid : ∀ record ∈ group, ValidRecord settings record

theorem byteSize_none : byteSize settings [none] = 0 := by
  simp [byteSize, rawOf]

theorem byteSize_some (values : ArrayName → List Int) :
    byteSize settings [some values] =
      (settings.arrays.map fun array => (values array).length * settings.itemsize array).sum := by
  simp [byteSize, rawOf]

theorem recordBytes_spec (split : Split) (record : Record) :
    Outcome (fun bytes => ValidRecord settings record ∧ bytes = byteSize settings [record])
      (fun _ => ¬ ValidRecord settings record)
      (SplitChunks.recordBytes settings split record) := by
  cases record with
  | none =>
    refine ⟨⟨by simp, ?_⟩, (byteSize_none settings).symm⟩
    rw [byteSize_none]
    exact Nat.zero_le _
  | some values =>
    simp only [SplitChunks.recordBytes]
    apply Outcome.ite
    · intro malformed valid
      obtain ⟨nonempty, aligned⟩ := valid.1 values rfl
      rcases malformed with empty | ragged
      · omega
      · obtain ⟨array, member, differs⟩ := List.any_eq_true.mp ragged
        exact absurd (aligned array member) (by simpa using differs)
    · intro wellFormed
      have nonempty : 0 < (values .ids).length := Nat.pos_of_ne_zero fun empty =>
        wellFormed (.inl empty)
      have aligned : ∀ array ∈ settings.arrays,
          (values array).length = (values .ids).length := by
        intro array member
        by_contra differs
        exact wellFormed (.inr (List.any_eq_true.mpr ⟨array, member, by simpa using differs⟩))
      apply Outcome.ite
      · intro large valid
        have bound := valid.2
        rw [byteSize_some] at bound
        omega
      · intro small
        refine ⟨⟨?_, ?_⟩, (byteSize_some settings values).symm⟩
        · intro other same
          obtain rfl := Option.some.inj same
          exact ⟨nonempty, aligned⟩
        · rw [byteSize_some]
          omega

theorem recordBytes_valid {record : Record} (valid : ValidRecord settings record) (split : Split) :
    SplitChunks.recordBytes settings split record = .ok (byteSize settings [record]) := by
  have spec := recordBytes_spec settings split record
  cases result : SplitChunks.recordBytes settings split record with
  | ok bytes =>
    rw [result] at spec
    rw [spec.2]
  | error failure =>
    rw [result] at spec
    exact absurd valid spec

/-- The receipt of a chunk that follows `acquired` records in `index` chunks. -/
def receiptFor (split : Split) (index acquired : Nat) (group : List Record) : Receipt where
  split := split
  index := index
  firstAcquiredIndex := acquired + 1
  counters := tally group
  arrays := settings.arrays.map fun array => (array, {
    length := (rawOf group array).length * settings.itemsize array
    sha256 := settings.sha256 (.raw array (rawOf group array)) })

def groupAt (groups : List (List Record)) (index : Nat) : List Record :=
  groups.getD index []

def receiptAt (split : Split) (groups : List (List Record)) (index : Nat) : Receipt :=
  receiptFor settings split index (groups.take index).flatten.length (groupAt groups index)

def receiptsOf (split : Split) (groups : List (List Record)) : List Receipt :=
  (List.range groups.length).map (receiptAt settings split groups)

@[simp] theorem length_receiptsOf (split : Split) (groups : List (List Record)) :
    (receiptsOf settings split groups).length = groups.length := by
  simp [receiptsOf]

theorem groupAt_append {groups : List (List Record)} {index : Nat} (inside : index < groups.length)
    (more : List (List Record)) : groupAt (groups ++ more) index = groupAt groups index := by
  simp [groupAt, List.getD_eq_getElem?_getD, List.getElem?_append_left inside]

theorem groupAt_last (groups : List (List Record)) (group : List Record) :
    groupAt (groups ++ [group]) groups.length = group := by
  simp [groupAt, List.getD_eq_getElem?_getD]

theorem groupAt_mem {groups : List (List Record)} {index : Nat} (inside : index < groups.length) :
    groupAt groups index ∈ groups := by
  simp [groupAt, List.getD_eq_getElem?_getD, List.getElem?_eq_getElem inside]

theorem receiptAt_append {split : Split} {groups : List (List Record)} {index : Nat}
    (inside : index < groups.length) (more : List (List Record)) :
    receiptAt settings split (groups ++ more) index = receiptAt settings split groups index := by
  rw [receiptAt, receiptAt, groupAt_append inside, List.take_append_of_le_length (by omega)]

theorem receiptAt_last (split : Split) (groups : List (List Record)) (group : List Record) :
    receiptAt settings split (groups ++ [group]) groups.length =
      receiptFor settings split groups.length groups.flatten.length group := by
  rw [receiptAt, groupAt_last, List.take_left]

theorem receiptsOf_append (split : Split) (groups : List (List Record)) (group : List Record) :
    receiptsOf settings split (groups ++ [group]) = receiptsOf settings split groups ++
      [receiptFor settings split groups.length groups.flatten.length group] := by
  have earlier : ∀ index ∈ List.range groups.length,
      receiptAt settings split (groups ++ [group]) index =
        receiptAt settings split groups index := by
    intro index member
    exact receiptAt_append settings (List.mem_range.mp member) [group]
  rw [receiptsOf, List.length_append, List.length_singleton, List.range_succ, List.map_append,
    List.map_congr_left earlier, List.map_singleton, receiptAt_last]
  rfl

theorem length_rawOf {group : List Record} (valid : ∀ record ∈ group, ValidRecord settings record)
    {array : ArrayName} (member : array ∈ settings.arrays) :
    (rawOf group array).length = (tally group).outputTokens := by
  induction group with
  | nil => rfl
  | cons record group ih =>
    have rest := ih fun later inside => valid later (List.mem_cons_of_mem _ inside)
    have first := (valid record List.mem_cons_self).1
    simp only [rawOf, tally, List.flatMap_cons, List.length_append, List.map_cons,
      List.sum_cons] at rest ⊢
    rw [rest]
    cases record with
    | none => rfl
    | some values => rw [Option.elim_some, Option.elim_some, (first values rfl).2 array member]

theorem tally_tokens {group : List Record} (valid : ∀ record ∈ group, ValidRecord settings record) :
    (tally group).retainedDocuments ≤ (tally group).outputTokens := by
  induction group with
  | nil => exact Nat.le_refl _
  | cons record group ih =>
    have rest := ih fun later inside => valid later (List.mem_cons_of_mem _ inside)
    have first := (valid record List.mem_cons_self).1
    simp only [tally, List.countP_cons, List.map_cons, List.sum_cons] at rest ⊢
    cases record with
    | none => simpa using rest
    | some values =>
      have nonempty := (first values rfl).1
      simp only [Option.isSome_some, ↓reduceIte, Option.elim_some]
      omega

theorem tally_partition (group : List Record) :
    (tally group).retainedDocuments + (tally group).skippedDocuments = group.length := by
  induction group with
  | nil => rfl
  | cons record group ih =>
    simp only [tally, List.countP_cons, List.length_cons] at ih ⊢
    cases record <;> simp <;> omega

theorem validateReceipt_receiptFor {group : List Record} (valid : ValidGroup settings group)
    (split : Split) (index acquired : Nat) :
    validateReceipt settings split index (receiptFor settings split index acquired group) =
      .ok () := by
  have some : 0 < group.length := List.length_pos_iff.mpr valid.nonempty
  have limit := valid.records
  have partition := tally_partition group
  have tokens := tally_tokens settings valid.valid
  have bytes := valid.bytes
  have lengths : (receiptFor settings split index acquired group).arrays.any (fun entry =>
      decide (entry.2.length ≠ (tally group).outputTokens * settings.itemsize entry.1)) =
        false := by
    rw [List.any_eq_false]
    intro entry member
    obtain ⟨array, inside, rfl⟩ := List.mem_map.mp member
    simp [length_rawOf settings valid.valid inside]
  have total : ((receiptFor settings split index acquired group).arrays.map fun entry =>
      entry.2.length).sum = byteSize settings group := by
    simp only [receiptFor, byteSize, List.map_map, Function.comp_def]
  have arrays : (receiptFor settings split index acquired group).arrays.map Prod.fst =
      settings.arrays := by
    simp only [receiptFor, List.map_map, Function.comp_def, List.map_id']
  rw [validateReceipt, if_neg, if_neg, if_neg, if_neg, if_neg, if_neg]
  · rw [total]
    omega
  · exact Bool.eq_false_iff.mp lengths
  · exact fun differs => differs arrays
  · exact Nat.not_lt.mpr tokens
  · change ¬ (group.length < 1 ∨ group.length > settings.recordLimit ∨
      (tally group).retainedDocuments + (tally group).skippedDocuments ≠ group.length ∨ 0 ≠ 0)
    omega
  · simp [receiptFor]

end SparseLab.Data
