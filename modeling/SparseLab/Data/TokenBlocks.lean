import Mathlib.Data.List.FinRange
import SparseLab.Library.Slices

/-!
Packed token IDs read as blocks, from `TokenBlockDataset` in `data/packing.py`. The float semantic
queries are left out.
-/

namespace SparseLab.Data

open Library

def ignored : Int := -100

/-- `labels[labels != -100]`. -/
def supervised (labels : List Int) : List Int :=
  labels.filter (· ≠ ignored)

/-- `labels[np.flatnonzero(labels != -100)[allowed:]] = -100`. -/
def clip : Nat → List Int → List Int
  | _, [] => []
  | allowed, label :: rest =>
    if label = ignored then
      label :: clip allowed rest
    else
      match allowed with
      | 0 => ignored :: clip 0 rest
      | allowed + 1 => label :: clip allowed rest

@[simp] theorem supervised_ignored (rest : List Int) :
    supervised (ignored :: rest) = supervised rest := by
  simp [supervised]

theorem supervised_cons {label : Int} (kept : label ≠ ignored) (rest : List Int) :
    supervised (label :: rest) = label :: supervised rest := by
  simp [supervised, kept]

theorem supervised_clip (allowed : Nat) (labels : List Int) :
    supervised (clip allowed labels) = (supervised labels).take allowed := by
  induction labels generalizing allowed with
  | nil => simp [clip, supervised]
  | cons label rest ih =>
    by_cases skipped : label = ignored
    · simp only [clip, skipped, ↓reduceIte, supervised_ignored, ih]
    · cases allowed with
      | zero => simp only [clip, skipped, ↓reduceIte, supervised_ignored, ih, List.take_zero]
      | succ allowed =>
        simp only [clip, skipped, ↓reduceIte, supervised_cons skipped, ih, List.take_succ_cons]

/-- One row of a training window: `numpy_microblock` without the semantic arrays. -/
structure Microblock where
  inputs : List Int
  targets : List Int
  byteAddresses : Option (List Int)
  ownerIds : Option (List Nat)
  deriving DecidableEq

structure TokenBlockDataset where
  ids : List Int
  seqLen : Nat
  byteAddresses : Option (List Int) := none
  supervision : Option (List Bool) := none
  ownerIds : Option (List Nat) := none
  positive : 0 < seqLen
  supervisionAligned : ∀ mask ∈ supervision, mask.length = ids.length
  addressesAligned : ∀ addresses ∈ byteAddresses, addresses.length = ids.length
  ownersAligned : ∀ owners ∈ ownerIds, owners.length = ids.length

namespace TokenBlockDataset

def init (ids : List Int) (seqLen : Nat) (positive : 0 < seqLen)
    (byteAddresses : Option (List Int) := none) (supervision : Option (List Bool) := none)
    (ownerIds : Option (List Nat) := none) : Except String TokenBlockDataset :=
  if supervisionAligned : ∀ mask ∈ supervision, mask.length = ids.length then
    if addressesAligned : ∀ addresses ∈ byteAddresses, addresses.length = ids.length then
      if ownersAligned : ∀ owners ∈ ownerIds, owners.length = ids.length then
        .ok {
          ids, seqLen, byteAddresses, supervision, ownerIds
          positive, supervisionAligned, addressesAligned, ownersAligned }
      else
        .error "owner IDs must be one-dimensional uint8 aligned with IDs"
    else
      .error "byte address array must align with packed IDs"
  else
    .error "supervision mask must be one-dimensional bool aligned with IDs"

variable (dataset : TokenBlockDataset)

/-- The full blocks: `(len(ids) - 1) // seq_len`, none for an empty array. -/
def candidates : Nat :=
  (dataset.ids.length - 1) / dataset.seqLen

def eligible (block : Nat) : Bool :=
  match dataset.supervision with
  | none => true
  | some mask =>
    (slice mask (block * dataset.seqLen + 1) ((block + 1) * dataset.seqLen + 1)).any id

def blockIndices : List Nat :=
  (List.range dataset.candidates).filter dataset.eligible

def length : Nat :=
  dataset.blockIndices.length

def numpyBlock (index : Fin dataset.length) : List Int × List Int × Option (List Int) :=
  let start := dataset.blockIndices.get index * dataset.seqLen
  let values := slice dataset.ids start (start + dataset.seqLen + 1)
  let targets := match dataset.supervision with
    | none => values.tail
    | some mask => List.zipWith (fun value kept => if kept then value else ignored)
        values.tail (slice mask (start + 1) (start + dataset.seqLen + 1))
  let addresses := dataset.byteAddresses.map fun addresses =>
    slice addresses start (start + dataset.seqLen)
  (values.dropLast, targets, addresses)

def numpyMicroblock (index : Fin dataset.length) : Microblock :=
  let start := dataset.blockIndices.get index * dataset.seqLen
  let (inputs, targets, byteAddresses) := dataset.numpyBlock index
  let ownerIds := dataset.ownerIds.map fun owners =>
    slice owners (start + 1) (start + dataset.seqLen + 1)
  { inputs, targets, byteAddresses, ownerIds }

section

variable {dataset} {mask : List Bool} (masked : dataset.supervision = some mask)

def maskedLabels (ids : List Int) (mask : List Bool) : List Int :=
  List.zipWith (fun value kept => if kept then value else ignored) ids mask

theorem block_inside {block : Nat} (member : block ∈ dataset.blockIndices) :
    block < dataset.candidates ∧
      block * dataset.seqLen + dataset.seqLen < dataset.ids.length := by
  have listed := List.mem_range.mp (List.mem_filter.mp member).1
  refine ⟨listed, ?_⟩
  have fits := Nat.mul_le_mul_right dataset.seqLen listed
  have whole := Nat.div_mul_le_self (dataset.ids.length - 1) dataset.seqLen
  have positive := dataset.positive
  rw [candidates] at fits
  rw [Nat.succ_mul] at fits
  omega

theorem inputs_eq (index : Fin dataset.length) : (dataset.numpyBlock index).1 =
    slice dataset.ids (dataset.blockIndices.get index * dataset.seqLen)
      (dataset.blockIndices.get index * dataset.seqLen + dataset.seqLen) :=
  dropLast_slice (block_inside (List.get_mem _ _)).2

include masked

theorem targets_eq (index : Fin dataset.length) : (dataset.numpyBlock index).2.1 =
    slice (maskedLabels dataset.ids mask) (dataset.blockIndices.get index * dataset.seqLen + 1)
      (dataset.blockIndices.get index * dataset.seqLen + dataset.seqLen + 1) := by
  simp only [numpyBlock, masked, tail_slice, maskedLabels, slice_zipWith]

theorem supervised_skipped {block : Nat} (skipped : dataset.eligible block = false) :
    supervised (slice (maskedLabels dataset.ids mask) (block * dataset.seqLen + 1)
      (block * dataset.seqLen + dataset.seqLen + 1)) = [] := by
  have hidden : ∀ (values : List Int) (kept : List Bool), kept.any id = false →
      supervised (maskedLabels values kept) = [] := by
    intro values
    induction values with
    | nil => intro kept _; rfl
    | cons value values ih =>
      intro kept nothing
      cases kept with
      | nil => rfl
      | cons first kept =>
        simp only [List.any_cons, id_eq, Bool.or_eq_false_iff] at nothing
        have rest := ih kept nothing.2
        rw [maskedLabels] at rest ⊢
        rw [List.zipWith_cons_cons, nothing.1]
        exact (supervised_ignored _).trans rest
  rw [eligible, masked, Nat.succ_mul] at skipped
  rw [maskedLabels, slice_zipWith]
  exact hidden _ _ skipped

theorem supervised_targets :
    ((List.finRange dataset.length).flatMap fun index =>
      supervised (dataset.numpyBlock index).2.1) =
      supervised (slice (maskedLabels dataset.ids mask) 1
        (1 + dataset.candidates * dataset.seqLen)) := by
  let target : Nat → List Int := fun block =>
    slice (maskedLabels dataset.ids mask) (block * dataset.seqLen + 1)
      (block * dataset.seqLen + dataset.seqLen + 1)
  have listed : ((List.finRange dataset.length).flatMap fun index =>
      supervised (dataset.numpyBlock index).2.1) =
        dataset.blockIndices.flatMap fun block => supervised (target block) := by
    have indices : (List.finRange dataset.blockIndices.length).map dataset.blockIndices.get =
        dataset.blockIndices := by
      rw [← List.ofFn_eq_map]
      exact List.ofFn_get _
    conv_rhs => rw [← indices, List.flatMap_map]
    apply List.flatMap_congr
    intro index _
    rw [targets_eq masked]
  have all : (dataset.blockIndices.flatMap fun block => supervised (target block)) =
      (List.range dataset.candidates).flatMap fun block => supervised (target block) := by
    rw [blockIndices]
    induction List.range dataset.candidates with
    | nil => rfl
    | cons block blocks ih =>
      rw [List.flatMap_cons, List.filter_cons]
      by_cases kept : dataset.eligible block = true
      · rw [if_pos kept, List.flatMap_cons, ih]
      · rw [if_neg kept, ih, supervised_skipped masked (Bool.eq_false_iff.mpr kept)]
        rfl
  have cut : (List.range dataset.candidates).map target =
      blocks (maskedLabels dataset.ids mask) dataset.seqLen 1 dataset.candidates := by
    apply List.map_congr_left
    intro block _
    simp only [target]
    congr 1
    · omega
    · rw [Nat.succ_mul]
      omega
  rw [listed, all, ← flatten_blocks, ← cut, supervised, List.filter_flatten, List.map_map,
    List.flatMap_def]
  rfl

end

end TokenBlockDataset

end SparseLab.Data
