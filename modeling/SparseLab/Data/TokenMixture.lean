import Mathlib.Data.Finmap
import SparseLab.Data.SessionReopening
import SparseLab.Data.TokenBlocks

/-! Packing of a scheduled token mixture, from `_collect_token_mixture` in `data/packing.py`. -/

namespace SparseLab.Data

open Library

abbrev Line := List UInt8

structure TokenRow where
  stratum : String
  tokenIds : List Int
  deriving DecidableEq

structure TokenMixture where
  seqLen : Nat
  vocabSize : Nat
  tokenToId : String → Option Nat
  actualTargetTokens : AList fun _ : String => Nat
  records : Nat
  trainTokensSha256 : Sha256
  decode : Line → Except String TokenRow
  streamSha256 : List UInt8 → Sha256
  cacheIdentity : String
  sha256 : File → Sha256
  signManifest : Manifest → Sha256
  documentSize : File → Nat
  seqLenPos : 0 < seqLen

def maxMixtureRowBytes : Nat := 64 * 1024 ^ 2

/-- `not line.strip()`. -/
def isBlank (line : Line) : Bool :=
  line.all fun byte => byte ∈ ([32, 9, 10, 11, 12, 13] : List UInt8)

structure SpecialTokens where
  bos : Int
  eos : Int
  pad : Int
  deriving DecidableEq

structure RowScan where
  cursor : Nat := 1
  records : Nat := 0
  byStratum : AList fun _ : String => Nat := ∅

def RowScan.next (scan : RowScan) (row : TokenRow) : RowScan where
  cursor := scan.cursor + row.tokenIds.length
  records := scan.records + 1
  byStratum := scan.byStratum.insert row.stratum
    ((scan.byStratum.lookup row.stratum).getD 0 + row.tokenIds.length)

@[simp] theorem RowScan.next_cursor (scan : RowScan) (row : TokenRow) :
    (scan.next row).cursor = scan.cursor + row.tokenIds.length := rfl

@[simp] theorem RowScan.next_records (scan : RowScan) (row : TokenRow) :
    (scan.next row).records = scan.records + 1 := rfl

structure Packed where
  ids : List Int
  supervision : List Bool
  deriving DecidableEq

namespace TokenMixture

variable (mixture : TokenMixture)

def targetCount : Nat :=
  (mixture.actualTargetTokens.entries.map Sigma.snd).sum

def paddedTargets : Nat :=
  (mixture.targetCount + mixture.seqLen - 1) / mixture.seqLen * mixture.seqLen

def specialTokens : Except String SpecialTokens :=
  match mixture.tokenToId "<bos>", mixture.tokenToId "<eos>", mixture.tokenToId "<pad>" with
  | some bos, some eos, some pad => .ok { bos, eos, pad }
  | _, _, _ => .error "token mixture tokenizer requires BOS, EOS and PAD"

def readRow (special : SpecialTokens) (scan : RowScan) (line : Line) : Except String TokenRow :=
  if line.length > maxMixtureRowBytes then
    .error "mixture record-byte cap exceeded"
  else if isBlank line then
    .error "empty token mixture JSONL row"
  else do
    let row ← mixture.decode line
    if row.tokenIds = [] ∨ row.tokenIds.getLast? ≠ some special.eos ∨
        (row.tokenIds.any fun value => ¬ (0 ≤ value ∧ value < mixture.vocabSize)) ∨
        scan.cursor + row.tokenIds.length > mixture.targetCount + 1 then
      .error "invalid token mixture target row"
    else
      pure row

def checkTotals (scan : RowScan) (lines : List Line) : Except String Unit :=
  if scan.cursor ≠ mixture.targetCount + 1 ∨ scan.records ≠ mixture.records ∨
      scan.byStratum.toFinmap ≠ mixture.actualTargetTokens.toFinmap ∨
      mixture.streamSha256 lines.flatten ≠ mixture.trainTokensSha256 then
    .error "token mixture target count differs from verified receipt"
  else
    .ok ()

section

def packRows (special : SpecialTokens) :
    RowScan → Packed → List Line → Except String (RowScan × Packed)
  | scan, packed, [] => .ok (scan, packed)
  | scan, packed, line :: lines => do
      let row ← mixture.readRow special scan line
      packRows special (scan.next row) {
        ids := packed.ids ++ row.tokenIds
        supervision := packed.supervision ++ List.replicate row.tokenIds.length true } lines

/-- The array spools of `_collect_token_mixture` without a ledger. -/
def collectDirect (lines : List Line) : Except String Packed := do
  let special ← mixture.specialTokens
  let (scan, packed) ← mixture.packRows special {} { ids := [special.bos], supervision := [false] }
    lines
  mixture.checkTotals scan lines
  let padding := mixture.paddedTargets - mixture.targetCount
  pure {
    ids := packed.ids ++ List.replicate padding special.pad
    supervision := packed.supervision ++ List.replicate padding false }

end

section

def settings : Settings where
  cacheIdentity := mixture.cacheIdentity
  binding := "mixture-target-packing"
  arrays := [.ids, .supervision]
  itemsize
    | .ids | .byteAddresses => 4
    | .supervision => 1
  rawByteLimit := 128 * 1024 ^ 2
  sha256 := mixture.sha256
  signManifest := mixture.signManifest
  documentSize := mixture.documentSize
  arraysNodup := by simp
  idsMem := by simp
  itemsizePos := by
    intro array
    cases array <;> decide
  recordLimitPos := by decide
  rawByteLimitPos := by decide

def boolValue (supervised : Bool) : Int :=
  if supervised then 1 else 0

def selectRow (special : SpecialTokens) (scan : RowScan) (row : TokenRow) : Packed :=
  let padding := if scan.records + 1 = mixture.records then
    mixture.paddedTargets - mixture.targetCount else 0
  { ids := (if scan.records = 0 then [special.bos] else []) ++ row.tokenIds ++
      List.replicate padding special.pad
    supervision := (if scan.records = 0 then [false] else []) ++
      List.replicate row.tokenIds.length true ++ List.replicate padding false }

def Packed.record (packed : Packed) : Record :=
  some fun
    | .ids => packed.ids
    | .supervision => packed.supervision.map boolValue
    | .byteAddresses => []

def appendRows (special : SpecialTokens) :
    Session → RowScan → List Line → Except String (Session × RowScan)
  | session, scan, [] => .ok (session, scan)
  | session, scan, line :: lines => do
      let row ← mixture.readRow special scan line
      if (session.ledgers .train).state.acquiredDocuments ≤ scan.records then
        let (_, session) ← session.perform mixture.settings
          (.append .train (scan.records + 1) (Packed.record (mixture.selectRow special scan row)))
        appendRows special session (scan.next row) lines
      else
        appendRows special session (scan.next row) lines

def loadArray (disk : Disk) (array : ArrayName) : Except String (List Int) :=
  match disk.read (.entry .root (.final .train array)) with
  | some (.array _ values) => .ok values
  | _ => .error "No such file or directory: train.npy"

/-- `_collect_token_mixture` through the training split of a ledger. -/
def collectChunks (session : Session) (lines : List Line) : Except String Packed := do
  let special ← mixture.specialTokens
  let (session, scan) ← mixture.appendRows special session {} lines
  mixture.checkTotals scan lines
  let (_, session) ← session.perform mixture.settings (.finish .train)
  let ids ← loadArray session.disk .ids
  let supervision ← loadArray session.disk .supervision
  pure { ids, supervision := supervision.map (· ≠ 0) }

def uninterrupted (lines : List Line) : Except String Packed := do
  let (_, session) ← Session.openAt mixture.settings ∅
  mixture.collectChunks session lines

def moveArrays : Actions :=
  mixture.settings.arrays.map fun array => .unlink (.entry .root (.final .train array))

/-- What processes that collect the mixture leave when they are stopped at any file action, the
later ones going on with what the earlier ones left. -/
inductive Interrupted (special : SpecialTokens) (lines : List Line) : Disk → Prop
  | absent : Interrupted special lines ∅
  | opening {disk actions} (cut : Nat) : Interrupted special lines disk →
      construct mixture.settings disk = .ok actions →
      Interrupted special lines (disk.performAll (actions.take cut))
  | appending {disk opening session count reached scan line row actions after} (cut : Nat) :
      Interrupted special lines disk →
      Session.openAt mixture.settings disk = .ok (opening, session) →
      (session.ledgers .train).state.acquiredDocuments ≤ count →
      mixture.appendRows special session {} (lines.take count) = .ok (reached, scan) →
      lines[count]? = some line → mixture.readRow special scan line = .ok row →
      reached.perform mixture.settings (.append .train (scan.records + 1)
        (Packed.record (mixture.selectRow special scan row))) = .ok (actions, after) →
      Interrupted special lines (reached.disk.performAll (actions.take cut))
  | finishing {disk opening session reached scan actions after} (cut : Nat) :
      Interrupted special lines disk →
      Session.openAt mixture.settings disk = .ok (opening, session) →
      mixture.appendRows special session {} lines = .ok (reached, scan) →
      reached.perform mixture.settings (.finish .train) = .ok (actions, after) →
      Interrupted special lines
        (reached.disk.performAll ((actions ++ mixture.moveArrays).take cut))

end

end TokenMixture

namespace TokenMixture

variable {mixture : TokenMixture} {special : SpecialTokens} {scan reached : RowScan}
  {lines : List Line} {rows : List TokenRow} {tokens : List Int}

section

def readRows (mixture : TokenMixture) (special : SpecialTokens) :
    RowScan → List Line → Except String (RowScan × List TokenRow)
  | scan, [] => .ok (scan, [])
  | scan, line :: lines => do
      let row ← mixture.readRow special scan line
      let (reached, rows) ← readRows mixture special (scan.next row) lines
      pure (reached, row :: rows)

def scheduled (rows : List TokenRow) : List Int :=
  rows.flatMap TokenRow.tokenIds

structure ValidRow (mixture : TokenMixture) (row : TokenRow) : Prop where
  nonempty : row.tokenIds ≠ []
  inVocabulary : ∀ value ∈ row.tokenIds, 0 ≤ value ∧ value < mixture.vocabSize

theorem readRow_ok {line : Line} {row : TokenRow}
    (returned : mixture.readRow special scan line = .ok row) :
    mixture.decode line = .ok row ∧ ValidRow mixture row := by
  rw [readRow] at returned
  split at returned
  · cases returned
  · split at returned
    · cases returned
    · obtain ⟨found, decoded, rest⟩ := bind_eq_ok returned
      split at rest
      · cases rest
      · rename_i accepted
        obtain rfl := Except.ok.inj rest
        simp only [not_or] at accepted
        obtain ⟨nonempty, _, values, _⟩ := accepted
        refine ⟨decoded, nonempty, ?_⟩
        intro value member
        by_contra outside
        exact values (List.any_eq_true.mpr ⟨value, member, decide_eq_true outside⟩)

structure RowsRead (mixture : TokenMixture) (scan reached : RowScan) (lines : List Line)
    (rows : List TokenRow) : Prop where
  decoded : lines.mapM mixture.decode = .ok rows
  valid : ∀ row ∈ rows, ValidRow mixture row
  records : reached.records = scan.records + rows.length
  cursor : reached.cursor = scan.cursor + (scheduled rows).length
  lengths : rows.length = lines.length

theorem readRows_ok (returned : mixture.readRows special scan lines = .ok (reached, rows)) :
    RowsRead mixture scan reached lines rows := by
  induction lines generalizing scan rows with
  | nil =>
    obtain ⟨rfl, rfl⟩ := Prod.mk.inj (Except.ok.inj returned)
    exact ⟨rfl, by simp, rfl, rfl, rfl⟩
  | cons line lines ih =>
    obtain ⟨row, first, rest⟩ := bind_eq_ok returned
    obtain ⟨⟨found, later⟩, laterEq, same⟩ := bind_eq_ok rest
    obtain ⟨rfl, rfl⟩ := Prod.mk.inj (Except.ok.inj same)
    obtain ⟨decoded, valid⟩ := readRow_ok first
    have read := ih laterEq
    refine ⟨?_, ?_, ?_, ?_, ?_⟩
    · rw [List.mapM_cons, decoded, read.decoded]
      rfl
    · intro other member
      rcases List.mem_cons.mp member with same | inside
      · rw [same]
        exact valid
      · exact read.valid other inside
    · rw [read.records, RowScan.next_records, List.length_cons]
      omega
    · rw [read.cursor, RowScan.next_cursor, scheduled, scheduled, List.flatMap_cons, List.length_append]
      omega
    · rw [List.length_cons, read.lengths, List.length_cons]

theorem packRows_eq (packed : Packed) :
    mixture.packRows special scan packed lines =
      mixture.readRows special scan lines >>= fun result => .ok (result.1, {
        ids := packed.ids ++ scheduled result.2
        supervision := packed.supervision ++
          List.replicate (scheduled result.2).length true }) := by
  induction lines generalizing scan packed with
  | nil => simp [packRows, readRows, scheduled, bind, Except.bind]
  | cons line lines ih =>
    simp only [packRows, readRows, bind, Except.bind]
    cases mixture.readRow special scan line with
    | error failure => rfl
    | ok row =>
      simp only [ih, bind, Except.bind]
      cases mixture.readRows special (scan.next row) lines with
      | error failure => rfl
      | ok result =>
        simp [pure, Except.pure, scheduled, List.append_assoc]

end

section

def stream (mixture : TokenMixture) (special : SpecialTokens) (tokens : List Int) : Packed :=
  let padding := mixture.paddedTargets - mixture.targetCount
  { ids := special.bos :: (tokens ++ List.replicate padding special.pad)
    supervision := false :: (List.replicate tokens.length true ++ List.replicate padding false) }

/-- The stream read in blocks: every scheduled token is a supervised target once and in order, no
other position is one, and each target stands one place before itself among the inputs. -/
structure ReadsBack (seqLen : Nat) (tokens : List Int) (packed : Packed)
    (dataset : TokenBlockDataset) : Prop where
  targets : ((List.finRange dataset.length).flatMap fun index =>
    supervised (dataset.numpyBlock index).2.1) = tokens
  lengths : ∀ index, (dataset.numpyBlock index).1.length = seqLen ∧
    (dataset.numpyBlock index).2.1.length = seqLen
  inputs : ∀ index, ∀ offset < seqLen, (dataset.numpyBlock index).1[offset]? =
    packed.ids[dataset.blockIndices.get index * seqLen + offset]?
  shifted : ∀ index, ∀ offset < seqLen, (dataset.numpyBlock index).2.1[offset]? =
    if dataset.blockIndices.get index * seqLen + offset < tokens.length then
      packed.ids[dataset.blockIndices.get index * seqLen + (offset + 1)]?
    else
      some ignored
  start : packed.supervision.head? ≠ some true

variable {dataset : TokenBlockDataset}

theorem paddedTargets_eq (mixture : TokenMixture) :
    ∃ blocks, mixture.paddedTargets = blocks * mixture.seqLen ∧
      mixture.targetCount ≤ mixture.paddedTargets := by
  refine ⟨_, rfl, ?_⟩
  have covered := Nat.div_add_mod (mixture.targetCount + mixture.seqLen - 1) mixture.seqLen
  have small := Nat.mod_lt (mixture.targetCount + mixture.seqLen - 1) mixture.seqLenPos
  rw [Nat.mul_comm] at covered
  have positive := mixture.seqLenPos
  rw [paddedTargets]
  omega

theorem supervised_of_nonneg (nonneg : ∀ value ∈ tokens, 0 ≤ value) : supervised tokens = tokens := by
  rw [supervised, List.filter_eq_self]
  intro value member
  have sign := nonneg value member
  have different : value ≠ ignored := by
    rw [ignored]
    omega
  exact decide_eq_true different

theorem supervised_replicate (count : Nat) : supervised (List.replicate count ignored) = [] := by
  simp [supervised]

variable (mixture special tokens) in
theorem maskedLabels_stream : TokenBlockDataset.maskedLabels (mixture.stream special tokens).ids
    (mixture.stream special tokens).supervision = ignored :: (tokens ++
      List.replicate (mixture.paddedTargets - mixture.targetCount) ignored) := by
  have kept : ∀ values : List Int, List.zipWith (fun value (kept : Bool) =>
      if kept then value else ignored) values (List.replicate values.length true) = values := by
    intro values
    induction values with
    | nil => rfl
    | cons value values ih => simp [List.replicate_succ, ih]
  have masked : ∀ count, List.zipWith (fun value (kept : Bool) => if kept then value else ignored)
      (List.replicate count special.pad) (List.replicate count false) =
        List.replicate count ignored := by
    intro count
    simp
  rw [TokenBlockDataset.maskedLabels, stream, List.zipWith_cons_cons, List.zipWith_append (by simp), kept, masked]
  rfl

theorem init_ok (packed : Packed) {seqLen : Nat} (positive : 0 < seqLen)
    (aligned : packed.supervision.length = packed.ids.length) :
    ∃ dataset, TokenBlockDataset.init packed.ids seqLen positive none (some packed.supervision)
        none = .ok dataset ∧ dataset.ids = packed.ids ∧ dataset.seqLen = seqLen ∧
      dataset.supervision = some packed.supervision := by
  have mask : ∀ mask ∈ some packed.supervision, mask.length = packed.ids.length := by
    intro mask same
    rw [← Option.some.inj same]
    exact aligned
  have addresses : ∀ addresses ∈ (none : Option (List Int)),
      addresses.length = packed.ids.length := by simp
  have owners : ∀ owners ∈ (none : Option (List Nat)), owners.length = packed.ids.length := by
    simp
  rw [TokenBlockDataset.init, dif_pos mask, dif_pos addresses, dif_pos owners]
  exact ⟨_, rfl, rfl, rfl, rfl⟩

variable (special) in
theorem readsBack_stream (nonneg : ∀ value ∈ tokens, 0 ≤ value)
    (count : tokens.length = mixture.targetCount) :
    ∃ dataset, TokenBlockDataset.init (mixture.stream special tokens).ids mixture.seqLen
        mixture.seqLenPos none (some (mixture.stream special tokens).supervision) none =
          .ok dataset ∧
      ReadsBack mixture.seqLen tokens (mixture.stream special tokens) dataset := by
  obtain ⟨blocks, padded, enough⟩ := mixture.paddedTargets_eq
  have idsLength : (mixture.stream special tokens).ids.length = mixture.paddedTargets + 1 := by
    simp only [stream, List.length_cons, List.length_append, List.length_replicate]
    omega
  have aligned : (mixture.stream special tokens).supervision.length =
      (mixture.stream special tokens).ids.length := by
    simp [stream]
  obtain ⟨dataset, initEq, ids, seqLen, masked⟩ :=
    init_ok (mixture.stream special tokens) mixture.seqLenPos aligned
  have candidates : dataset.candidates * dataset.seqLen = mixture.paddedTargets := by
    rw [TokenBlockDataset.candidates, ids, idsLength, seqLen, Nat.add_sub_cancel, padded,
      Nat.mul_div_cancel _ mixture.seqLenPos]
  have labelled := maskedLabels_stream mixture special tokens
  refine ⟨dataset, initEq, ?_, ?_, ?_, ?_, ?_⟩
  · rw [TokenBlockDataset.supervised_targets masked, ids, labelled, candidates, Nat.add_comm,
      ← tail_slice, slice_all]
    · rw [List.tail_cons, supervised, List.filter_append]
      change supervised tokens ++ supervised _ = tokens
      rw [supervised_of_nonneg nonneg, supervised_replicate, List.append_nil]
    · rw [List.length_cons, List.length_append, List.length_replicate]
      omega
  · intro index
    have inside := (TokenBlockDataset.block_inside (List.get_mem dataset.blockIndices index)).2
    rw [TokenBlockDataset.inputs_eq, TokenBlockDataset.targets_eq masked, length_slice,
      length_slice, ids, labelled, idsLength, ← seqLen]
    rw [ids, idsLength] at inside
    rw [List.length_cons, List.length_append, List.length_replicate]
    omega
  · intro index offset small
    rw [TokenBlockDataset.inputs_eq, getElem?_slice, ids, seqLen, if_pos (by omega)]
  · intro index offset small
    have inside := (TokenBlockDataset.block_inside (List.get_mem dataset.blockIndices index)).2
    rw [ids, idsLength, seqLen] at inside
    rw [TokenBlockDataset.targets_eq masked, getElem?_slice, ids, labelled, seqLen]
    generalize dataset.blockIndices.get index * mixture.seqLen = start at inside
    have place : start + 1 + offset = start + offset + 1 := by omega
    rw [if_pos (by omega), place, List.getElem?_cons_succ, ← Nat.add_assoc, stream,
      List.getElem?_cons_succ]
    by_cases scheduled : start + offset < tokens.length
    · rw [if_pos scheduled, List.getElem?_append_left scheduled,
        List.getElem?_append_left scheduled]
    · rw [if_neg scheduled, List.getElem?_append_right (Nat.le_of_not_lt scheduled),
        List.getElem?_replicate, if_pos (by omega)]
  · simp [stream]

end

end TokenMixture

end SparseLab.Data
