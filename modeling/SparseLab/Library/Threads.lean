import Mathlib.Logic.Function.Basic

/-! Processes that share a state and may end or crash between any two turns. -/

namespace SparseLab.Library

structure Threads (σ τ : Type) where
  shared : σ
  program : Nat → Option τ
  used : List Nat

variable {σ τ : Type}

structure Protocol (σ τ : Type) where
  turn : Nat → σ → τ → σ → Option τ → Prop
  start : τ → Prop
  crash : Nat → σ → σ

namespace Protocol

variable (protocol : Protocol σ τ)

inductive Move : Threads σ τ → Threads σ τ → Prop
  | start (threads : Threads σ τ) (process : Nat) (program : τ)
      (fresh : process ∉ threads.used) (starts : protocol.start program) :
      Move threads {
        threads with
        program := Function.update threads.program process (some program)
        used := process :: threads.used }
  | turn (threads : Threads σ τ) (process : Nat) (program : τ) (shared : σ) (next : Option τ)
      (current : threads.program process = some program)
      (turned : protocol.turn process threads.shared program shared next) :
      Move threads {
        threads with
        shared
        program := Function.update threads.program process next }
  | crash (threads : Threads σ τ) (process : Nat) :
      Move threads {
        threads with
        shared := protocol.crash process threads.shared
        program := Function.update threads.program process none }

inductive Run : Threads σ τ → Threads σ τ → Prop
  | refl (threads : Threads σ τ) : Run threads threads
  | step {first middle last : Threads σ τ} (earlier : Run first middle)
      (move : protocol.Move middle last) : Run first last

theorem Run.trans {protocol : Protocol σ τ} {first middle last : Threads σ τ}
    (earlier : protocol.Run first middle) (later : protocol.Run middle last) :
    protocol.Run first last := by
  induction later with
  | refl => exact earlier
  | step _ move ih => exact .step ih move

inductive Turns (process : Nat) : σ → τ → σ → Option τ → Prop
  | refl (shared : σ) (program : τ) : Turns process shared program shared (some program)
  | step {shared shared' shared'' : σ} {program program' : τ} {next : Option τ}
      (turn : protocol.turn process shared program shared' (some program'))
      (later : Turns process shared' program' shared'' next) :
      Turns process shared program shared'' next
  | last {shared shared' : σ} {program : τ} {next : Option τ}
      (turn : protocol.turn process shared program shared' next) :
      Turns process shared program shared' next

theorem Run.start {protocol : Protocol σ τ} {first : Threads σ τ} {shared : σ}
    {programs : Nat → Option τ} {used : List Nat}
    (earlier : protocol.Run first ⟨shared, programs, used⟩) (process : Nat) (program : τ)
    (fresh : process ∉ used) (starts : protocol.start program) :
    protocol.Run first ⟨shared, Function.update programs process (some program),
      process :: used⟩ :=
  earlier.step (.start _ process program fresh starts)

theorem Run.turns {protocol : Protocol σ τ} {first : Threads σ τ} {shared shared' : σ}
    {programs : Nat → Option τ} {used : List Nat} {process : Nat} {program : τ}
    {next : Option τ} (earlier : protocol.Run first ⟨shared, programs, used⟩)
    (current : programs process = some program)
    (turns : protocol.Turns process shared program shared' next) :
    protocol.Run first ⟨shared', Function.update programs process next, used⟩ := by
  induction turns generalizing programs with
  | refl shared program =>
    rw [Function.update_eq_self_iff.mpr current.symm]
    exact earlier
  | step turn _ ih =>
    have moved := earlier.step (.turn _ process _ _ _ current turn)
    have later := ih moved (Function.update_self ..)
    rwa [Function.update_idem] at later
  | last turn => exact earlier.step (.turn _ process _ _ _ current turn)

def within (allowed : σ → τ → Prop) : Protocol σ τ where
  turn process shared program shared' next :=
    allowed shared program ∧ protocol.turn process shared program shared' next
  start := protocol.start
  crash := protocol.crash

theorem Run.of_within {protocol : Protocol σ τ} {allowed : σ → τ → Prop}
    {first last : Threads σ τ} (run : (protocol.within allowed).Run first last) :
    protocol.Run first last := by
  induction run with
  | refl => exact .refl _
  | step _ move ih =>
    refine ih.step ?_
    cases move with
    | start process program fresh starts => exact .start _ process program fresh starts
    | turn process program shared next current turned =>
      exact .turn _ process program shared next current turned.2
    | crash process => exact .crash _ process

structure Invariant (σ τ : Type) where
  shared : σ → Prop
  fits : σ → Nat → τ → Prop

variable {protocol}

structure Good (invariant : Invariant σ τ) (threads : Threads σ τ) : Prop where
  shared : invariant.shared threads.shared
  fits : ∀ process program, threads.program process = some program →
    invariant.fits threads.shared process program

structure Preserves (protocol : Protocol σ τ) (invariant : Invariant σ τ) :
    Prop where
  start : ∀ shared process program, protocol.start program → invariant.shared shared →
    invariant.fits shared process program
  crash : ∀ shared process, invariant.shared shared →
    invariant.shared (protocol.crash process shared)
  crashed : ∀ shared process other program, other ≠ process → invariant.shared shared →
    invariant.fits shared other program →
      invariant.fits (protocol.crash process shared) other program
  turn : ∀ process shared program shared' next,
    protocol.turn process shared program shared' next → invariant.shared shared →
      invariant.fits shared process program →
        invariant.shared shared' ∧
          ∀ program', next = some program' → invariant.fits shared' process program'
  stable : ∀ process shared program shared' next,
    protocol.turn process shared program shared' next → invariant.shared shared →
      invariant.fits shared process program → ∀ other program', other ≠ process →
        invariant.fits shared other program' → invariant.fits shared' other program'

variable {invariant : Invariant σ τ}

theorem running_of_update {programs : Nat → Option τ} {process other : Nat} {next : Option τ}
    {program : τ} (current : Function.update programs process next other = some program) :
    other = process ∧ next = some program ∨ other ≠ process ∧ programs other = some program := by
  by_cases same : other = process
  · subst same
    rw [Function.update_self] at current
    exact .inl ⟨rfl, current⟩
  · rw [Function.update_of_ne same] at current
    exact .inr ⟨same, current⟩

section

variable {before after : Threads σ τ} (preserves : Preserves protocol invariant)

include preserves

theorem Preserves.move (good : Good invariant before) (move : protocol.Move before after) :
    Good invariant after := by
  cases move with
  | start process program fresh starts =>
    refine ⟨good.shared, ?_⟩
    intro other program' current
    obtain ⟨rfl, started⟩ | ⟨_, earlier⟩ := running_of_update current
    · cases started
      exact preserves.start _ _ _ starts good.shared
    · exact good.fits other program' earlier
  | turn process program shared next running turned =>
    have fits := good.fits process program running
    obtain ⟨kept, own⟩ := preserves.turn _ _ _ _ _ turned good.shared fits
    refine ⟨kept, ?_⟩
    intro other program' current
    obtain ⟨rfl, continued⟩ | ⟨different, earlier⟩ := running_of_update current
    · exact own program' continued
    · exact preserves.stable _ _ _ _ _ turned good.shared fits other program' different
        (good.fits other program' earlier)
  | crash process =>
    refine ⟨preserves.crash _ _ good.shared, ?_⟩
    intro other program' current
    obtain ⟨rfl, ended⟩ | ⟨different, earlier⟩ := running_of_update current
    · cases ended
    · exact preserves.crashed _ _ _ _ different good.shared
        (good.fits other program' earlier)

theorem Preserves.run
    (good : Good invariant before) (run : protocol.Run before after) : Good invariant after := by
  induction run with
  | refl => exact good
  | step _ move ih => exact preserves.move ih move

theorem Preserves.related {related : σ → σ → Prop} (refl : ∀ shared, related shared shared)
    (trans : ∀ first middle last, related first middle → related middle last →
      related first last)
    (turn : ∀ process shared program shared' next,
      protocol.turn process shared program shared' next → invariant.shared shared →
        invariant.fits shared process program → related shared shared')
    (crash : ∀ shared process, related shared (protocol.crash process shared))
    (good : Good invariant before)
    (run : protocol.Run before after) : related before.shared after.shared := by
  induction run with
  | refl => exact refl _
  | step earlier move ih =>
    have reached := preserves.run good earlier
    refine trans _ _ _ ih ?_
    cases move with
    | start => exact refl _
    | turn process program shared next running turned =>
      exact turn _ _ _ _ _ turned reached.shared (reached.fits _ _ running)
    | crash process => exact crash _ _

end

end Protocol

end SparseLab.Library
