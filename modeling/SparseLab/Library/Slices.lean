import Mathlib.Data.List.Range

/-! Half-open slices of a list and the blocks that cover it. -/

namespace SparseLab.Library

variable {α : Type*}

/-- The values at the positions `start ≤ position < stop`, cut off at the list's end. -/
def slice (values : List α) (start stop : Nat) : List α :=
  (values.take stop).drop start

@[simp] theorem length_slice (values : List α) (start stop : Nat) :
    (slice values start stop).length = min stop values.length - start := by
  simp [slice]

theorem slice_all (values : List α) {stop : Nat} (past : values.length ≤ stop) :
    slice values 0 stop = values := by
  simp [slice, List.take_of_length_le past]

@[simp] theorem slice_same (values : List α) (start : Nat) : slice values start start = [] := by
  simp [slice]

theorem slice_append_slice (values : List α) {start middle stop : Nat}
    (first : start ≤ middle) (second : middle ≤ stop) :
    slice values start middle ++ slice values middle stop = slice values start stop := by
  have split : values.take stop = values.take middle ++ (values.take stop).drop middle := by
    have cut := List.take_append_drop middle (values.take stop)
    rw [List.take_take, Nat.min_eq_left second] at cut
    exact cut.symm
  simp only [slice]
  conv_rhs => rw [split, List.drop_append]
  by_cases inside : start ≤ values.length
  · have offset : start - (values.take middle).length = 0 := by
      simp only [List.length_take]
      omega
    rw [offset, List.drop_zero]
  · have empty : (values.take stop).drop middle = [] := by
      apply List.drop_eq_nil_of_le
      simp only [List.length_take]
      omega
    simp [empty]

theorem getElem?_slice (values : List α) (start stop index : Nat) :
    (slice values start stop)[index]? =
      if start + index < stop then values[start + index]? else none := by
  simp [slice, List.getElem?_drop, List.getElem?_take]

theorem tail_slice (values : List α) (start stop : Nat) :
    (slice values start stop).tail = slice values (start + 1) stop := by
  simp [slice]

theorem slice_zipWith {β γ : Type*} (combine : α → β → γ) (first : List α) (second : List β)
    (start stop : Nat) :
    slice (List.zipWith combine first second) start stop =
      List.zipWith combine (slice first start stop) (slice second start stop) := by
  rw [slice, List.take_zipWith, List.drop_zipWith]
  rfl

theorem dropLast_slice {values : List α} {start stop : Nat} (within : stop < values.length) :
    (slice values start (stop + 1)).dropLast = slice values start stop := by
  apply List.ext_getElem?
  intro index
  rw [List.getElem?_dropLast, getElem?_slice, getElem?_slice, length_slice,
    Nat.min_eq_left within]
  by_cases inside : start + index < stop
  · rw [if_pos inside, if_pos (by omega), if_pos (by omega)]
  · rw [if_neg inside]
    split
    · omega
    · rfl

/-- The `count` blocks of `size` values from `start` on. -/
def blocks (values : List α) (size start count : Nat) : List (List α) :=
  (List.range count).map fun block =>
    slice values (start + block * size) (start + (block + 1) * size)

theorem blocks_succ (values : List α) (size start count : Nat) :
    blocks values size start (count + 1) = blocks values size start count ++
      [slice values (start + count * size) (start + (count + 1) * size)] := by
  simp [blocks, List.range_succ]

theorem flatten_blocks (values : List α) (size start count : Nat) :
    (blocks values size start count).flatten = slice values start (start + count * size) := by
  induction count with
  | zero => simp [blocks]
  | succ count ih =>
    rw [blocks_succ, List.flatten_append, ih, List.flatten_singleton]
    exact slice_append_slice values (by omega) (by rw [Nat.add_one_mul]; omega)

/-- A list cut every `size` values; the last piece may be shorter. -/
def pieces (values : List α) (size : Nat) : List (List α) :=
  blocks values size 0 ((values.length + size - 1) / size)

theorem flatten_pieces (values : List α) {size : Nat} (positive : 0 < size) :
    (pieces values size).flatten = values := by
  rw [pieces, flatten_blocks]
  apply slice_all
  have covered := Nat.div_add_mod (values.length + size - 1) size
  have small := Nat.mod_lt (values.length + size - 1) positive
  rw [Nat.mul_comm] at covered
  omega

end SparseLab.Library
