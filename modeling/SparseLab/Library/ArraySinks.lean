import Mathlib.Data.List.Basic

/-! Growing arrays behind one interface: in a list, or in pieces that are written out when full. -/

namespace SparseLab.Library

structure ArraySink (σ α : Type) where
  empty : σ
  length : σ → Nat
  extend : σ → List α → σ
  finish : σ → List α

variable {σ α : Type}

structure ArraySink.Lawful (sink : ArraySink σ α) : Prop where
  finish_empty : sink.finish sink.empty = []
  finish_extend : ∀ state values, sink.finish (sink.extend state values) =
    sink.finish state ++ values
  length_eq : ∀ state, sink.length state = (sink.finish state).length

def listSink (α : Type) : ArraySink (List α) α where
  empty := []
  length := List.length
  extend := fun state values => state ++ values
  finish := id

theorem listSink_lawful : (listSink α).Lawful where
  finish_empty := rfl
  finish_extend := fun _ _ => rfl
  length_eq := fun _ => rfl

structure Spool (α : Type) where
  raw : List α
  buffer : List α
  count : Nat
  counted : count = raw.length + buffer.length

namespace Spool

def start : Spool α := ⟨[], [], 0, rfl⟩

def flush (spool : Spool α) : Spool α where
  raw := spool.raw ++ spool.buffer
  buffer := []
  count := spool.count
  counted := by
    rw [spool.counted, List.length_append, List.length_nil, Nat.add_zero]

def hold (spool : Spool α) (values : List α) : Spool α where
  raw := spool.raw
  buffer := spool.buffer ++ values
  count := spool.count + values.length
  counted := by
    rw [spool.counted, List.length_append, Nat.add_assoc]

def append (limit : Nat) (spool : Spool α) (values : List α) : Spool α :=
  let held := spool.hold values
  if limit ≤ held.buffer.length then held.flush else held

def finish (spool : Spool α) : List α := spool.flush.raw

@[simp] theorem finish_flush (spool : Spool α) : spool.flush.finish = spool.finish := by
  simp [finish, flush]

@[simp] theorem finish_hold (spool : Spool α) (values : List α) :
    (spool.hold values).finish = spool.finish ++ values := by
  simp [finish, flush, hold]

end Spool

def spoolSink (α : Type) (limit : Nat) : ArraySink (Spool α) α where
  empty := .start
  length := Spool.count
  extend := Spool.append limit
  finish := Spool.finish

theorem spoolSink_lawful (limit : Nat) : (spoolSink α limit).Lawful where
  finish_empty := rfl
  finish_extend := by
    intro spool values
    change (spool.append limit values).finish = _
    unfold Spool.append
    dsimp only
    split_ifs
    · rw [Spool.finish_flush, Spool.finish_hold]
      rfl
    · rw [Spool.finish_hold]
      rfl
  length_eq := by
    intro spool
    change spool.count = (spool.raw ++ spool.buffer).length
    rw [spool.counted, List.length_append]

end SparseLab.Library
