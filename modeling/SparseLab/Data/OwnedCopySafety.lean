import SparseLab.Data.OwnedCopy

/-! A private copy is published whole or not at all, as long as its cleanup succeeds. -/

namespace SparseLab.Data.OwnedCopy
open Library

structure Quiet (state : Workspace) : Prop where
  hidden : Hidden state
  silent : state.reports = []
  still : state.reported = 0

structure Ready (state : Workspace) : Prop where
  quiet : Quiet state
  opened : state.fd = true

structure Copied (length : Nat) (state : Workspace) : Prop where
  hidden : Hidden state
  told : Told length state
  opened : state.fd = true

structure Unpublished (length : Nat) (state : Workspace) : Prop where
  told : Told length state
  private_ : state.destination ≠ some .ours
  others : ∀ content, state.arrived = some content → state.destination = some (.foreign content)
  named : state.named = true

theorem Hidden.unpublished {length : Nat} {state : Workspace} (hidden : Hidden state)
    (told : Told length state) : Unpublished length state where
  told := told
  private_ := by
    rw [hidden.absent]
    exact nofun
  others := by
    rw [hidden.alone]
    exact nofun
  named := hidden.named

theorem Quiet.told {state : Workspace} (quiet : Quiet state) (length : Nat) :
    Told length state := by
  unfold Told
  rw [quiet.silent]
  exact ⟨List.Pairwise.nil, fun _ member => absurd member List.not_mem_nil⟩

theorem Ready.transferring {state : Workspace} (ready : Ready state) (length : Nat) :
    Transferring length state where
  hidden := ready.quiet.hidden
  reports := by
    refine ⟨?_, ?_, ?_⟩
    · rw [ready.quiet.silent]
      exact List.Pairwise.nil
    · rw [ready.quiet.silent]
      exact fun _ member => absurd member List.not_mem_nil
    · rw [ready.quiet.still]
      exact Nat.zero_le _
  opened := ready.opened

section
variable {b : Behaviour} {length : Nat} {watched : Bool}

section

theorem Quiet.moved {state other : Workspace} (quiet : Quiet state)
    (destination : other.destination = state.destination) (arrived : other.arrived = state.arrived)
    (named : other.named = state.named) (reported : other.reported = state.reported)
    (reports : other.reports = state.reports) : Quiet other := by
  obtain ⟨⟨absent, alone, name⟩, silent, still⟩ := quiet
  refine ⟨⟨?_, ?_, ?_⟩, ?_, ?_⟩
  · rw [destination, absent]
  · rw [arrived, alone]
  · rw [named, name]
  · rw [reports, silent]
  · rw [reported, still]

theorem Ready.moved {state other : Workspace} (ready : Ready state)
    (destination : other.destination = state.destination) (arrived : other.arrived = state.arrived)
    (named : other.named = state.named) (fd : other.fd = state.fd)
    (reported : other.reported = state.reported) (reports : other.reports = state.reports) :
    Ready other :=
  ⟨ready.quiet.moved destination arrived named reported reports, by rw [fd, ready.opened]⟩

theorem keeps_unlinkTemporary_quiet (fault : Option Failure) :
    Keeps Quiet (fun _ => True) (unlinkTemporary fault) :=
  (keeps_raising fault).bind fun _ => keeps_modify fun _ quiet => quiet.moved rfl rfl rfl rfl rfl

theorem keeps_reflink : Keeps Ready (fun _ => True) (reflink b) := by
  unfold reflink
  split
  · exact keeps_modify fun _ ready => ready.moved rfl rfl rfl rfl rfl rfl
  · exact (keeps_modify fun _ ready => ready.moved rfl rfl rfl rfl rfl rfl).bind fun _ =>
      Keeps.throw trivial

theorem keeps_cloneLinux : Keeps Ready (fun _ => True) (cloneLinux b) := by
  refine (keeps_reflink.bind fun _ => Keeps.pure _).attempting (fun _ _ _ => ?_)
    fun _ _ _ => trivial
  refine ((keeps_call _).bind fun _ => keeps_modify ?_).bind fun _ => ?_
  · exact fun _ ready => ready.moved rfl rfl rfl rfl rfl rfl
  refine ((keeps_call _).bind fun _ => keeps_modify ?_).bind fun _ => ?_
  · exact fun _ ready => ready.moved rfl rfl rfl rfl rfl rfl
  refine ((keeps_call _).bind fun _ => keeps_modify ?_).bind fun _ => Keeps.pure _
  exact fun _ ready => ready.moved rfl rfl rfl rfl rfl rfl

theorem keeps_clonefile : Keeps Quiet (fun _ => True) (clonefile b) := by
  unfold clonefile
  split
  · exact keeps_modify fun _ quiet => quiet.moved rfl rfl rfl rfl rfl
  · exact (keeps_modify fun _ quiet => quiet.moved rfl rfl rfl rfl rfl).bind fun _ =>
      Keeps.throw trivial

theorem ends_cloneDarwin {state : Workspace} (ready : Ready state) :
    Ends (cloneDarwin b) state (fun _ => Ready) fun _ => Quiet := by
  unfold cloneDarwin
  refine ends_bind.mpr (ends_raising ?_ fun _ _ => ready.quiet)
  have closed : Quiet { state with fd := false } := ready.quiet.moved rfl rfl rfl rfl rfl
  refine ends_bind.mpr (ends_modify.mpr (ends_bind.mpr ?_))
  refine (keeps_unlinkTemporary_quiet _ _ closed).mono (fun _ written quiet => ?_)
    fun _ _ kept => kept.2
  have cloned : Ends (do
        clonefile b
        openClone b
        call b .cloneMode
        return some "clone") written (fun _ => Ready) fun _ => Quiet := by
    refine ends_bind.mpr ((keeps_clonefile _ quiet).mono (fun _ made quiet => ?_)
      fun _ _ kept => kept.2)
    refine ends_bind.mpr (ends_bind.mpr (ends_raising ?_ fun _ _ => quiet))
    refine ends_modify.mpr (ends_bind.mpr (ends_raising ?_ fun _ _ => ?_))
    · exact ⟨quiet.moved rfl rfl rfl rfl rfl, rfl⟩
    · exact quiet.moved rfl rfl rfl rfl rfl
  refine ends_attempting.mpr (cloned.mono (fun _ _ => id) fun failure written quiet => ?_)
  split_ifs
  · refine ends_bind.mpr ((keeps_unlinkTemporary_quiet _ _ quiet).mono
      (fun _ removed quiet => ?_) fun _ _ kept => kept.2)
    refine ends_bind.mpr (ends_bind.mpr (ends_raising ?_ fun _ _ => quiet))
    refine ends_modify.mpr (ends_bind.mpr (ends_bind.mpr (ends_raising ?_ fun _ _ => ?_)))
    · exact ⟨quiet.moved rfl rfl rfl rfl rfl, rfl⟩
    · exact quiet.moved rfl rfl rfl rfl rfl
  · exact quiet

theorem ends_clone {state : Workspace} (ready : Ready state) :
    Ends (clone b) state (fun _ => Ready) fun _ => Quiet := by
  unfold clone
  cases b.platform with
  | linux => exact (keeps_cloneLinux state ready).mono (fun _ _ => id) fun _ _ kept => kept.2.quiet
  | darwin => exact ends_cloneDarwin ready
  | other => exact ready

end

theorem ends_copyContent {state : Workspace} (ready : Ready state) :
    Ends (copyContent b watched length) state (fun _ => Copied length)
      fun _ => Unpublished length := by
  refine ends_bind.mpr ((ends_clone ready).mono (fun mechanism written ready => ?_)
    fun _ _ quiet => quiet.hidden.unpublished (quiet.told length))
  cases mechanism with
  | none =>
    refine (keeps_transfer _ (ready.transferring length)).mono (fun _ _ kept => ?_)
      fun _ _ kept => kept.2.hidden.unpublished kept.2.reports.told
    exact ⟨kept.hidden, kept.reports.told, kept.opened⟩
  | some mechanism =>
    have hidden := ready.quiet.hidden
    have told : ∀ position, position ≤ length →
        Told length { written with reports := written.reports ++ [position] } := by
      intro position within
      unfold Told
      rw [ready.quiet.silent]
      refine ⟨List.pairwise_singleton _ _, fun other member => ?_⟩
      rw [List.mem_singleton.mp member]
      exact within
    have renamed : Hidden { written with reports := written.reports ++ [length] } :=
      ⟨hidden.absent, hidden.alone, hidden.named⟩
    by_cases news : watched = true ∧ length ≠ 0
    · dsimp only
      rw [if_pos news]
      refine ends_bind.mpr (ends_bind.mpr (ends_modify.mpr (ends_raising ?_ fun _ _ => ?_)))
      · exact ⟨renamed, told length le_rfl, ready.opened⟩
      · exact renamed.unpublished (told length le_rfl)
    · dsimp only
      rw [if_neg news]
      exact ⟨hidden, ready.quiet.told length, ready.opened⟩

theorem ends_sourcePrint {site : Site} {state : Workspace} {good : Fingerprint → Workspace → Prop}
    {bad : Failure → Workspace → Prop}
    (passes : good { b.stamp site with size := (b.source site).length } state)
    (fails : ∀ failure, bad failure state) : Ends (sourcePrint b site) state good bad :=
  ends_bind.mpr (ends_raising passes fun failure _ => fails failure)

theorem ends_copyPrint {site : Site} {state : Workspace} {good : Fingerprint → Workspace → Prop}
    {bad : Failure → Workspace → Prop}
    (passes : good { b.stamp site with size := state.content.length } state)
    (fails : ∀ failure, bad failure state) : Ends (copyPrint b site) state good bad :=
  ends_bind.mpr (ends_raising passes fun failure _ => fails failure)

theorem ends_raiseIf {condition : Prop} [Decidable condition] {failure : Failure}
    {state : Workspace} {good : Unit → Workspace → Prop} {bad : Failure → Workspace → Prop}
    (passes : ¬ condition → good () state) (fails : bad failure state) :
    Ends (raiseIf condition failure) state good bad := by
  unfold raiseIf
  split_ifs with holds
  · exact fails
  · exact passes holds

variable {δ : Type} [DecidableEq δ] {sha256 : Bytes → δ} {before hidden : Fingerprint}
  {authenticated : δ} {mechanism : String}

structure Verified (sha256 : Bytes → δ) (before : Fingerprint) (authenticated : δ)
    (state : Workspace) : Prop where
  told : Told before.size state
  opened : state.fd = true
  whole : state.content.length = before.size
  same : sha256 state.content = authenticated

theorem ends_verifyCopy {state : Workspace} (copied : Copied before.size state) :
    Ends (verifyCopy b sha256 before authenticated) state
      (fun _ written => Hidden written ∧ Verified sha256 before authenticated written)
      fun _ => Unpublished before.size := by
  have failed := copied.hidden.unpublished copied.told
  unfold verifyCopy
  refine ends_bind.mpr (ends_raising ?_ fun _ _ => failed)
  refine ends_bind.mpr (ends_get.mpr (ends_bind.mpr (ends_raiseIf (fun whole => ?_) failed)))
  rw [not_not] at whole
  refine ends_bind.mpr (ends_bind.mpr (ends_raising ?_ fun _ _ => failed))
  have kept : Copied before.size { state with outgoing := state.content.length } :=
    ⟨⟨copied.hidden.absent, copied.hidden.alone, copied.hidden.named⟩, copied.told, copied.opened⟩
  have failed := kept.hidden.unpublished kept.told
  refine ends_bind.mpr (ends_modify.mpr (ends_bind.mpr (ends_get.mpr ?_)))
  refine ends_bind.mpr (ends_raiseIf (fun same => ?_) failed)
  rw [not_not] at same
  refine ends_bind.mpr (ends_sourcePrint ?_ fun _ => failed)
  refine ends_bind.mpr (ends_raiseIf (fun _ => ?_) failed)
  refine ends_bind.mpr (ends_raising ?_ fun _ _ => failed)
  refine ends_bind.mpr (ends_sourcePrint ?_ fun _ => failed)
  exact ends_raiseIf (fun _ => ⟨kept.hidden, kept.told, kept.opened, whole, same⟩) failed

structure Linked (sha256 : Bytes → δ) (before : Fingerprint) (authenticated : δ)
    (state : Workspace) : Prop where
  linked : state.destination = some .ours
  alone : state.arrived = none
  verified : Verified sha256 before authenticated state

omit [DecidableEq δ] in
theorem ends_link {state : Workspace} (absent : Hidden state)
    (verified : Verified sha256 before authenticated state) :
    Ends (link b) state
      (fun _ written => Linked sha256 before authenticated written ∧ written.named = true)
      fun _ => Unpublished before.size := by
  unfold link
  refine ends_bind.mpr (ends_modify.mpr ?_)
  rw [absent.absent]
  dsimp only [Option.isSome_none]
  rw [if_neg Bool.false_ne_true]
  have failed : Unpublished before.size
      { state with destination := b.intruder.map .foreign, arrived := b.intruder } := by
    refine ⟨verified.told, ?_, ?_, absent.named⟩
    · cases b.intruder with
      | none => exact nofun
      | some content => exact fun same => Entry.noConfusion (Option.some.inj same)
    · intro content made
      dsimp only at made ⊢
      rw [made, Option.map_some]
  refine ends_bind.mpr (ends_raising ?_ fun _ _ => failed)
  refine ends_bind.mpr (ends_get.mpr (ends_bind.mpr (ends_raiseIf (fun free => ?_) failed)))
  refine ends_modify.mpr ⟨⟨rfl, ?_, verified.told, verified.opened, verified.whole,
    verified.same⟩, absent.named⟩
  rw [Option.isSome_map, Option.not_isSome_iff_eq_none] at free
  exact free

theorem ends_hiddenCopy {state : Workspace} (ready : Ready state) :
    Ends (hiddenCopy b sha256 watched before authenticated) state
      (fun _ written => Linked sha256 before authenticated written ∧ written.named = true)
      fun _ => Unpublished before.size := by
  have failed := ready.quiet.hidden.unpublished (ready.quiet.told before.size)
  unfold hiddenCopy
  refine ends_bind.mpr (ends_raising ?_ fun _ _ => failed)
  refine ends_bind.mpr ((ends_copyContent ready).mono (fun _ _ copied => ?_) fun _ _ => id)
  refine ends_bind.mpr ((ends_verifyCopy copied).mono (fun _ _ kept => ?_) fun _ _ => id)
  have failed := kept.1.unpublished kept.2.told
  refine ends_bind.mpr (ends_copyPrint ?_ fun _ => failed)
  exact ends_bind.mpr ((ends_link kept.1 kept.2).mono (fun _ _ => id) fun _ _ => id)

structure Complete (sha256 : Bytes → δ) (before : Fingerprint) (authenticated : δ)
    (result : CopyResult δ) (state : Workspace) : Prop where
  linked : Linked sha256 before authenticated state
  unlinked : state.temporary = false
  unnamed : state.named = false
  digest : result.sha256 = authenticated
  size : result.logicalBytes = before.size

def Removable (state : Workspace) : Prop := state.named = true ∨ state.temporary = false

omit [DecidableEq δ] in
theorem ends_publish {state : Workspace} (linked : Linked sha256 before authenticated state)
    (name : state.named = true) :
    Ends (publish b before hidden authenticated mechanism) state
      (Complete sha256 before authenticated)
      fun _ written => Linked sha256 before authenticated written ∧ Removable written := by
  have alone : Linked sha256 before authenticated
      { state with temporary := false, named := false } :=
    ⟨linked.linked, linked.alone, linked.verified.told, linked.verified.opened,
      linked.verified.whole, linked.verified.same⟩
  have failed : Linked sha256 before authenticated
        { state with temporary := false, named := false } ∧
      Removable { state with temporary := false, named := false } := ⟨alone, .inr rfl⟩
  unfold publish
  refine ends_bind.mpr (ends_bind.mpr (ends_raising ?_ fun _ _ => ⟨linked, .inl name⟩))
  refine ends_modify.mpr (ends_bind.mpr (ends_modify.mpr ?_))
  refine ends_bind.mpr (ends_copyPrint ?_ fun _ => failed)
  refine ends_bind.mpr (ends_copyPrint ?_ fun _ => failed)
  refine ends_bind.mpr (ends_raiseIf (fun _ => ?_) failed)
  refine ends_bind.mpr (ends_sourcePrint ?_ fun _ => failed)
  refine ends_bind.mpr (ends_raiseIf (fun _ => ?_) failed)
  refine ends_bind.mpr (ends_copyPrint ?_ fun _ => failed)
  refine ends_bind.mpr (ends_raiseIf (fun _ => ?_) failed)
  refine ends_bind.mpr (ends_raising ?_ fun _ _ => failed)
  refine ends_bind.mpr (ends_raiseIf (fun _ => ?_) failed)
  refine ends_bind.mpr (ends_raising ?_ fun _ _ => failed)
  refine ends_bind.mpr (ends_ensuring.mpr (ends_raising ?_ fun _ _ => ?_))
  · refine ends_raising ?_ fun _ _ => failed
    refine ends_bind.mpr (ends_copyPrint ?_ fun _ => failed)
    exact ends_bind.mpr (ends_raiseIf (fun _ => ⟨alone, rfl, rfl, rfl, rfl⟩) failed)
  · exact ends_raising failed fun _ _ => failed

structure Respected (length : Nat) (state : Workspace) : Prop where
  told : Told length state
  others : ∀ content, state.arrived = some content → state.destination = some (.foreign content)

omit [DecidableEq δ] in
theorem Linked.respected {state : Workspace} (linked : Linked sha256 before authenticated state) :
    Respected before.size state := by
  refine ⟨linked.verified.told, ?_⟩
  rw [linked.alone]
  exact nofun

omit [DecidableEq δ] in
theorem ends_rollback {c : Cleanup} {failure : Failure} {state : Workspace}
    {good : CopyResult δ → Workspace → Prop}
    (linked : Linked sha256 before authenticated state) :
    Ends (rollback c failure) state good fun _ => Respected before.size := by
  refine ends_bind.mpr (ends_raising ?_ fun _ _ => linked.respected)
  refine ends_bind.mpr (ends_modify.mpr ⟨linked.verified.told, ?_⟩)
  dsimp only
  rw [linked.alone]
  exact nofun

theorem ends_privateCopy {c : Cleanup} {state : Workspace} (ready : Ready state) :
    Ends (privateCopy b sha256 c watched before authenticated) state
      (fun _ => Respected before.size) fun _ => Respected before.size := by
  refine ends_bind.mpr ((ends_hiddenCopy ready).mono (fun found written linked => ?_)
    fun _ _ unpublished => ⟨unpublished.told, unpublished.others⟩)
  refine ends_attempting.mpr ((ends_publish linked.1 linked.2).mono ?_ ?_)
  · exact fun _ _ complete => complete.linked.respected
  · rintro failure left ⟨linked, -⟩
    rw [if_pos trivial]
    exact ends_rollback linked

theorem keeps_cleanUp (c : Cleanup) :
    Keeps (Respected length) (fun _ => True) (cleanUp c) := by
  refine Keeps.bind (Keeps.get.bind fun state => ?_) fun _ => Keeps.get.bind fun state => ?_
  · exact Keeps.ite (fun _ => keeps_raising _) fun _ => Keeps.pure _
  · refine Keeps.ite (fun _ => (keeps_raising _).bind fun _ => ?_) fun _ => Keeps.pure _
    exact keeps_modify fun _ respected => ⟨respected.told, respected.others⟩

section
variable {c : Cleanup} {request : Request δ} {state : Workspace}

def sealed (b : Behaviour) (sha256 : Bytes → δ) (request : Request δ) : δ :=
  match request.proof with
  | some proof => proof.sha256
  | none => sha256 (b.source .hashSource)

structure Opening (state : Workspace) : Prop where
  absent : state.destination = none
  alone : state.arrived = none
  temporary : state.temporary = false
  unnamed : state.named = false
  closed : state.fd = false
  silent : state.reports = []
  still : state.reported = 0

theorem Opening.moved (opening : Opening state) (incoming : Nat) :
    Opening { state with incoming := incoming } :=
  ⟨opening.absent, opening.alone, opening.temporary, opening.unnamed, opening.closed,
    opening.silent, opening.still⟩

omit [DecidableEq δ] in
theorem ends_authenticate (opening : Opening state) :
    Ends (authenticate b sha256 request before) state
      (fun digest written => digest = sealed b sha256 request ∧ Opening written)
      fun _ => Opening := by
  unfold authenticate sealed
  cases request.proof with
  | some proof =>
    refine ends_bind.mpr (ends_raiseIf (fun _ => ?_) opening)
    refine ends_bind.mpr (ends_raising ?_ fun _ _ => opening)
    exact ends_bind.mpr (ends_raiseIf (fun _ => ⟨rfl, opening⟩) opening)
  | none =>
    refine ends_bind.mpr (ends_bind.mpr (ends_raising ?_ fun _ _ => opening))
    have moved := opening.moved (b.source .hashSource).length
    refine ends_bind.mpr (ends_modify.mpr ?_)
    refine ends_bind.mpr (ends_sourcePrint ?_ fun _ => moved)
    exact ends_bind.mpr (ends_raiseIf (fun _ => ⟨rfl, moved⟩) moved)

theorem ends_prepareCopy (opening : Opening state) :
    Ends (prepareCopy b sha256 request before) state
      (fun digest written => digest = sealed b sha256 request ∧ Ready written)
      fun _ => Opening := by
  refine ends_bind.mpr (ends_sourcePrint ?_ fun _ => opening)
  refine ends_bind.mpr (ends_raiseIf (fun _ => ?_) opening)
  refine ends_bind.mpr ((ends_authenticate opening).mono ?_ fun _ _ => id)
  rintro digest written ⟨same, opening⟩
  refine ends_bind.mpr (ends_raiseIf (fun _ => ?_) opening)
  refine ends_bind.mpr (ends_bind.mpr (ends_raising ?_ fun _ _ => opening))
  have moved := opening.moved 0
  refine ends_modify.mpr (ends_bind.mpr (ends_bind.mpr (ends_raising ?_ fun _ _ => moved)))
  exact ends_modify.mpr ⟨same, ⟨⟨moved.absent, moved.alone, rfl⟩, moved.silent, moved.still⟩, rfl⟩

def AllOrNothing (b : Behaviour) (sha256 : Bytes → δ) (request : Request δ) :
    EStateM.Result Failure Workspace (CopyResult δ) → Prop
  | .ok result state => state.destination = some .ours ∧ state.temporary = false ∧
      sha256 state.content = sealed b sha256 request ∧ result.sha256 = sealed b sha256 request ∧
      state.content.length = (b.source .before).length ∧
      result.logicalBytes = (b.source .before).length
  | .error _ state => state.destination ≠ some .ours ∧ state.temporary = false

theorem Opening.respected (opening : Opening state) (length : Nat) : Respected length state := by
  refine ⟨?_, ?_⟩
  · unfold Told
    rw [opening.silent]
    exact ⟨List.Pairwise.nil, fun _ member => absurd member List.not_mem_nil⟩
  · rw [opening.alone]
    exact nofun

theorem ends_copyFrom (opening : Opening state) :
    Ends (copyFrom b sha256 c request before) state (fun _ => Respected before.size)
      fun _ => Respected before.size := by
  refine ends_bind.mpr ((ends_prepareCopy opening).mono ?_ fun _ _ opening => opening.respected _)
  rintro digest prepared ⟨rfl, ready⟩
  have cleans : ∀ state, Respected before.size state →
      Ends (cleanUp c) state (fun _ => Respected before.size) fun _ => Respected before.size :=
    fun state respected => (keeps_cleanUp c state respected).mono (fun _ _ => id)
      fun _ _ kept => kept.2
  exact ends_ensuring.mpr ((ends_privateCopy ready).mono (fun _ => cleans) fun _ => cleans)

def found (b : Behaviour) : Fingerprint :=
  { b.stamp .before with size := (b.source .before).length }

theorem ends_openSource (existing : Option Bytes) :
    Ends (openSource b) (start existing)
      (fun print written => print = found b ∧ existing = none ∧ Opening written)
      fun _ written => written = start existing := by
  unfold openSource
  refine ends_bind.mpr (ends_raising ?_ fun _ _ => rfl)
  refine ends_bind.mpr (ends_raising ?_ fun _ _ => rfl)
  refine ends_bind.mpr (ends_raising ?_ fun _ _ => rfl)
  refine ends_bind.mpr (ends_get.mpr (ends_bind.mpr (ends_raiseIf (fun free => ?_) rfl)))
  refine ends_bind.mpr (ends_sourcePrint ?_ fun _ => rfl)
  refine ends_bind.mpr (ends_raising ?_ fun _ _ => rfl)
  have absent : existing = none := by
    cases existing with
    | none => rfl
    | some content => exact absurd rfl free
  subst absent
  exact ⟨rfl, rfl, ⟨rfl, rfl, rfl, rfl, rfl, rfl, rfl⟩⟩

theorem ends_ownedCopy (existing : Option Bytes) :
    Ends (ownedCopy b sha256 c request) (start existing)
      (fun _ written => Respected (found b).size written ∧ existing = none)
      fun _ written => Respected (found b).size written ∧
        ∀ content, existing = some content → written.destination = some (.foreign content) := by
  refine ends_bind.mpr ((ends_openSource existing).mono ?_ ?_)
  · rintro print opened ⟨rfl, rfl, opening⟩
    refine ends_ensuring.mpr ((ends_copyFrom opening).mono ?_ ?_)
    · exact fun _ _ respected => ends_raising ⟨respected, rfl⟩ fun _ _ => ⟨respected, nofun⟩
    · exact fun _ _ respected => ends_raising ⟨respected, nofun⟩ fun _ _ => ⟨respected, nofun⟩
  · rintro failure written rfl
    refine ⟨⟨⟨List.Pairwise.nil, fun _ member => absurd member List.not_mem_nil⟩, nofun⟩, ?_⟩
    rintro content rfl
    rfl

omit [DecidableEq δ] in
theorem cleanUp_complete {result : CopyResult δ}
    (complete : Complete sha256 before authenticated result state) :
    cleanUp c state =
      match c.closeCopy with
      | none => .ok () state
      | some failure => .error failure state := by
  have opened := complete.linked.verified.opened
  have unnamed := complete.unnamed
  obtain ⟨destination, arrived, temporary, content, named, fd, incoming, outgoing, reported,
    reports⟩ := state
  subst opened unnamed
  obtain ⟨rollback, closeCopy, unlinkLeft, closeSource⟩ := c
  cases closeCopy <;> rfl

theorem lastState_cleanUp (c : Cleanup) (state : Workspace) :
    lastState (cleanUp c state) =
      if state.named = true ∧ (state.fd = true → c.closeCopy = none) ∧ c.unlinkLeft = none then
        { state with temporary := false }
      else state := by
  obtain ⟨destination, arrived, temporary, content, named, fd, incoming, outgoing, reported,
    reports⟩ := state
  obtain ⟨rollback, closeCopy, unlinkLeft, closeSource⟩ := c
  cases named <;> cases fd <;> cases closeCopy <;> cases unlinkLeft <;> simp <;> rfl

theorem cleanUp_temporary (removable : Removable state) :
    (lastState (cleanUp c state)).temporary = false ↔
      (state.temporary = true → (state.fd = true → c.closeCopy = none) ∧ c.unlinkLeft = none) := by
  rw [lastState_cleanUp]
  by_cases worked : (state.fd = true → c.closeCopy = none) ∧ c.unlinkLeft = none
  · by_cases name : state.named = true
    · rw [if_pos ⟨name, worked⟩]
      exact iff_of_true rfl fun _ => worked
    · rw [if_neg fun all => name all.1]
      exact iff_of_true (removable.resolve_left name) fun _ => worked
  · rw [if_neg fun all => worked all.2]
    cases state.temporary with
    | false => exact iff_of_true rfl nofun
    | true => exact iff_of_false nofun fun works => worked (works rfl)

theorem cleanUp_destination (c : Cleanup) (state : Workspace) :
    (lastState (cleanUp c state)).destination = state.destination := by
  rw [lastState_cleanUp]
  split_ifs <;> rfl

def attempt (b : Behaviour) (sha256 : Bytes → δ) (request : Request δ) : M (CopyResult δ) := do
  let before ← openSource b
  let authenticated ← prepareCopy b sha256 request before
  let (mechanism, hidden) ← hiddenCopy b sha256 request.watched before authenticated
  publish b before hidden authenticated mechanism

def Harmless (c : Cleanup) : EStateM.Result Failure Workspace (CopyResult δ) → Prop
  | .ok _ _ => c.closeCopy = none ∧ c.closeSource = none
  | .error _ state => (state.destination = some .ours → c.rollback = none) ∧
      (state.temporary = true → (state.fd = true → c.closeCopy = none) ∧ c.unlinkLeft = none)

section
variable {existing : Option Bytes} {print : Fingerprint} {digest : δ}
  {opened prepared linked : Workspace}

theorem ownedCopy_returned {result : CopyResult δ} {hidden : Workspace}
    (opening : openSource b (start existing) = .ok (found b) opened)
    (preparing : prepareCopy b sha256 request (found b) opened =
      .ok (sealed b sha256 request) prepared)
    (made : privateCopy b sha256 c request.watched (found b) (sealed b sha256 request) prepared =
      .ok result hidden)
    (complete : Complete sha256 (found b) (sealed b sha256 request) result hidden) :
    AllOrNothing b sha256 request (ownedCopy b sha256 c request (start existing)) ↔
      c.closeCopy = none ∧ c.closeSource = none := by
  have copyRun : copyFrom b sha256 c request (found b) opened =
      match c.closeCopy with
      | none => .ok result hidden
      | some failure => .error failure hidden := by
    change EStateM.bind _ _ opened = _
    simp only [EStateM.bind, preparing, ensuring, made, cleanUp_complete complete]
    cases c.closeCopy <;> rfl
  have wholeRun : ownedCopy b sha256 c request (start existing) =
      ensuring (copyFrom b sha256 c request (found b)) (raising c.closeSource) opened := by
    change EStateM.bind _ _ _ = _
    simp only [EStateM.bind, opening]
  have held : AllOrNothing b sha256 request (.ok result hidden) :=
    ⟨complete.linked.linked, complete.unlinked, complete.linked.verified.same, complete.digest,
      complete.linked.verified.whole, complete.size⟩
  have left : ∀ failure, ¬ AllOrNothing b sha256 request (.error failure hidden) :=
    fun _ nothing => nothing.1 complete.linked.linked
  rw [wholeRun, ensuring, copyRun]
  cases c.closeCopy with
  | some failure =>
    cases c.closeSource with
    | none => exact iff_of_false (left failure) fun both => nomatch both.1
    | some later => exact iff_of_false (left later) fun both => nomatch both.1
  | none =>
    cases c.closeSource with
    | none => exact iff_of_true held ⟨rfl, rfl⟩
    | some later => exact iff_of_false (left later) fun both => nomatch both.2

theorem lastState_raising (fault : Option Failure) (state : Workspace) :
    lastState (raising fault state) = state := by
  cases fault <;> rfl

theorem ownedCopy_raised {failure : Failure} {reached : Workspace}
    (opening : openSource b (start existing) = .ok (found b) opened)
    (preparing : prepareCopy b sha256 request (found b) opened =
      .ok (sealed b sha256 request) prepared)
    (raised : privateCopy b sha256 c request.watched (found b) (sealed b sha256 request) prepared =
      .error failure reached)
    (removable : Removable reached) :
    AllOrNothing b sha256 request (ownedCopy b sha256 c request (start existing)) ↔
      reached.destination ≠ some .ours ∧ (reached.temporary = true →
        (reached.fd = true → c.closeCopy = none) ∧ c.unlinkLeft = none) := by
  obtain ⟨later, cleaned⟩ := ensuring_raises (cleanUp c) raised
  have copyRun : copyFrom b sha256 c request (found b) opened =
      .error later (lastState (cleanUp c reached)) := by
    change EStateM.bind _ _ opened = _
    simp only [EStateM.bind, preparing]
    exact cleaned
  obtain ⟨final, ended⟩ := ensuring_raises (raising c.closeSource) copyRun
  have wholeRun : ownedCopy b sha256 c request (start existing) =
      .error final (lastState (cleanUp c reached)) := by
    change EStateM.bind _ _ _ = _
    simp only [EStateM.bind, opening]
    rw [ended, lastState_raising]
  rw [wholeRun]
  change _ ∧ _ ↔ _
  rw [cleanUp_destination, cleanUp_temporary removable]

theorem privateCopy_run (c : Cleanup) (pair : String × Fingerprint)
    (concealed : hiddenCopy b sha256 watched before authenticated prepared = .ok pair linked) :
    privateCopy b sha256 c watched before authenticated prepared =
      match publish b before pair.2 authenticated pair.1 linked with
      | .ok result written => .ok result written
      | .error failure written => rollback c failure written := by
  change EStateM.bind _ _ prepared = _
  simp only [EStateM.bind, concealed, attempting]
  change EStateM.tryCatch _ _ linked = _
  unfold EStateM.tryCatch
  cases publish b before pair.2 authenticated pair.1 linked <;> rfl

end

theorem Unpublished.removable {length : Nat} (unpublished : Unpublished length state) :
    Removable state := .inl unpublished.named

def hideAndPublish (b : Behaviour) (sha256 : Bytes → δ) (watched : Bool) (before : Fingerprint)
    (authenticated : δ) : M (CopyResult δ) := do
  let (mechanism, hidden) ← hiddenCopy b sha256 watched before authenticated
  publish b before hidden authenticated mechanism

theorem allOrNothing_prepared {existing : Option Bytes} {opened prepared : Workspace}
    (opening : openSource b (start existing) = .ok (found b) opened)
    (preparing : prepareCopy b sha256 request (found b) opened =
      .ok (sealed b sha256 request) prepared) (ready : Ready prepared) :
    AllOrNothing b sha256 request (ownedCopy b sha256 c request (start existing)) ↔
      Harmless c (hideAndPublish b sha256 request.watched (found b) (sealed b sha256 request)
        prepared) := by
  have hides : Ends (hiddenCopy b sha256 request.watched (found b) (sealed b sha256 request))
    prepared _ _ := ends_hiddenCopy ready
  cases concealed : hiddenCopy b sha256 request.watched (found b) (sealed b sha256 request)
      prepared with
  | error failure reached =>
    rw [Ends, concealed] at hides
    have run : hideAndPublish b sha256 request.watched (found b) (sealed b sha256 request)
        prepared = .error failure reached := by
      change EStateM.bind _ _ _ = _
      simp only [EStateM.bind, concealed]
    have raised : privateCopy b sha256 c request.watched (found b) (sealed b sha256 request)
        prepared = .error failure reached := by
      change EStateM.bind _ _ _ = _
      simp only [EStateM.bind, concealed]
    rw [run, ownedCopy_raised opening preparing raised hides.removable]
    exact and_congr_left fun _ =>
      iff_of_true hides.private_ fun ours => absurd ours hides.private_
  | ok pair linked =>
    rw [Ends, concealed] at hides
    have run : hideAndPublish b sha256 request.watched (found b) (sealed b sha256 request)
        prepared = publish b (found b) pair.2 (sealed b sha256 request) pair.1 linked := by
      change EStateM.bind _ _ _ = _
      simp only [EStateM.bind, concealed]
    have privately := privateCopy_run c pair concealed
    have publishes : Ends (publish b (found b) pair.2 (sealed b sha256 request) pair.1) linked
      _ _ := ends_publish hides.1 hides.2
    rw [run]
    cases published : publish b (found b) pair.2 (sealed b sha256 request) pair.1 linked with
    | ok result written =>
      rw [Ends, published] at publishes
      rw [published] at privately
      exact ownedCopy_returned opening preparing privately publishes
    | error failure written =>
      rw [Ends, published] at publishes
      rw [published] at privately
      obtain ⟨published, removable⟩ := publishes
      cases fault : c.rollback with
      | none =>
        have raised : privateCopy b sha256 c request.watched (found b)
            (sealed b sha256 request) prepared =
              .error failure { written with destination := none } := by
          rw [privately]
          change rollback c failure written = _
          unfold rollback
          rw [fault]
          rfl
        rw [ownedCopy_raised opening preparing raised removable]
        exact and_congr_left fun _ => iff_of_true nofun fun _ => fault
      | some later =>
        have raised : privateCopy b sha256 c request.watched (found b)
            (sealed b sha256 request) prepared = .error later written := by
          rw [privately]
          change rollback c failure written = _
          unfold rollback
          rw [fault]
          rfl
        rw [ownedCopy_raised opening preparing raised removable]
        refine and_congr_left fun _ => iff_of_false (fun away => away published.linked) ?_
        intro passes
        rw [passes published.linked] at fault
        cases fault

theorem Opening.left (opening : Opening state) :
    state.destination ≠ some .ours ∧ state.temporary = false := by
  rw [opening.absent]
  exact ⟨nofun, opening.temporary⟩

theorem start_left (existing : Option Bytes) :
    (start existing).destination ≠ some .ours ∧ (start existing).temporary = false := by
  refine ⟨?_, rfl⟩
  cases existing with
  | none => exact nofun
  | some content => exact fun same => Entry.noConfusion (Option.some.inj same)

omit [DecidableEq δ] in
theorem harmless_of_left {failure : Failure}
    (left : state.destination ≠ some .ours ∧ state.temporary = false) :
    Harmless c (.error failure state : EStateM.Result Failure Workspace (CopyResult δ)) := by
  refine ⟨fun ours => absurd ours left.1, ?_⟩
  rw [left.2]
  exact nofun

theorem allOrNothing_iff (existing : Option Bytes) :
    AllOrNothing b sha256 request (ownedCopy b sha256 c request (start existing)) ↔
      Harmless c (attempt b sha256 request (start existing)) := by
  have opens : Ends (openSource b) (start existing) _ _ := ends_openSource existing
  cases opening : openSource b (start existing) with
  | error failure written =>
    rw [Ends, opening] at opens
    subst opens
    have run : ownedCopy b sha256 c request (start existing) =
        .error failure (start existing) := by
      change EStateM.bind _ _ _ = _
      simp only [EStateM.bind, opening]
    have steps : attempt b sha256 request (start existing) = .error failure (start existing) := by
      change EStateM.bind _ _ _ = _
      simp only [EStateM.bind, opening]
    rw [run, steps]
    exact iff_of_true (start_left existing) (harmless_of_left (start_left existing))
  | ok print opened =>
    rw [Ends, opening] at opens
    obtain ⟨rfl, rfl, began⟩ := opens
    have attempted : attempt b sha256 request (start none) =
        (prepareCopy b sha256 request (found b) >>=
          hideAndPublish b sha256 request.watched (found b)) opened := by
      change EStateM.bind _ _ _ = _
      simp only [EStateM.bind, opening]
      rfl
    have prepares : Ends (prepareCopy b sha256 request (found b)) opened _ _ :=
      ends_prepareCopy began
    rw [attempted]
    change _ ↔ Harmless c (EStateM.bind _ _ opened)
    unfold EStateM.bind
    cases preparing : prepareCopy b sha256 request (found b) opened with
    | error failure written =>
      rw [Ends, preparing] at prepares
      have copyRun : copyFrom b sha256 c request (found b) opened = .error failure written := by
        change EStateM.bind _ _ _ = _
        simp only [EStateM.bind, preparing]
      obtain ⟨later, ended⟩ := ensuring_raises (raising c.closeSource) copyRun
      have run : ownedCopy b sha256 c request (start none) = .error later written := by
        change EStateM.bind _ _ _ = _
        simp only [EStateM.bind, opening]
        rw [ended, lastState_raising]
      rw [run]
      exact iff_of_true prepares.left (harmless_of_left prepares.left)
    | ok digest prepared =>
      rw [Ends, preparing] at prepares
      obtain ⟨rfl, ready⟩ := prepares
      exact allOrNothing_prepared opening preparing ready

/-- However the calls of a copy end, it is all or nothing exactly where its cleanup is harmless; the
reports rise within the size of the source, and what others have at the destination stays. -/
theorem ownedCopy_allOrNothing (b : Behaviour) (sha256 : Bytes → δ) (c : Cleanup)
    (request : Request δ) (existing : Option Bytes) :
    (AllOrNothing b sha256 request (ownedCopy b sha256 c request (start existing)) ↔
      Harmless c (attempt b sha256 request (start existing))) ∧
    Ends (ownedCopy b sha256 c request) (start existing)
      (fun _ written => Respected (b.source .before).length written ∧ existing = none)
      fun _ written => Respected (b.source .before).length written ∧
        ∀ content, existing = some content → written.destination = some (.foreign content) :=
  ⟨allOrNothing_iff existing, ends_ownedCopy existing⟩

end

end

section

def sampleBehaviour : Behaviour where
  platform := .linux
  copyFileRange := true
  fault := fun site => if site = .reflink ∨ site = .native 1 then some .os else none
  source := fun _ => [7, 8, 9]
  stamp := fun _ => ⟨1, 2, 3, 0, 5, 6⟩
  amount := fun _ => 2
  leftover := fun _ => none
  resolved := []
  intruder := none

def sampleRequest : Request Bytes := ⟨none, none, true⟩

def raises {α : Type} : EStateM.Result Failure Workspace α → Bool
  | .ok _ _ => false
  | .error _ _ => true

theorem not_allOrNothing_of_raised {δ : Type} {b : Behaviour} {sha256 : Bytes → δ}
    {request : Request δ}
    {run : EStateM.Result Failure Workspace (CopyResult δ)} (raised : raises run = true)
    (left : (lastState run).destination = some .ours) :
    ¬ AllOrNothing b sha256 request run := by
  cases run with
  | ok result state => cases raised
  | error failure state => exact fun nothing => nothing.1 left

theorem failed_close_keeps_copy :
    ¬ AllOrNothing sampleBehaviour id sampleRequest
      (ownedCopy sampleBehaviour id ⟨none, some .os, none, none⟩ sampleRequest (start none)) :=
  not_allOrNothing_of_raised (by decide +kernel) (by decide +kernel)

end

end SparseLab.Data.OwnedCopy
