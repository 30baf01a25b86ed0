import SparseLab.Data.AcquisitionSteps

/-! What a whole call for a pinned file keeps, from its first look to the published file. -/

namespace SparseLab.Data.Acquisition

open Library Corpus

variable {Stamp : Type} [LinearOrder Stamp] {env : Environment Stamp}
  {admission : Admission Stamp} {hashes : Hashes} {history : History} {world : World Stamp}

section

variable {flight : List (Transfer Stamp) → Volume Member Bytes → Prop}

def Flown (flight : List (Transfer Stamp) → Volume Member Bytes → Prop)
    (transport : TransportLedger Stamp) (members : Volume Member Bytes) : Prop :=
  flight transport.transfers members

theorem held_spare {spare : Int} (none : spare ≤ 0)
    (held : Held env admission hashes history (Flown flight) world) :
    Held env admission hashes history (Spare spare flight) world := by
  obtain ⟨state, sound, here⟩ := held
  have bounds := sound.state.valid.metadataBounds.2
  exact ⟨state, sound, here, by omega⟩

theorem Held.flown {spare : Int}
    (held : Held env admission hashes history (Spare spare flight) world) :
    Held env admission hashes history (Flown flight) world := by
  obtain ⟨state, sound, here, -⟩ := held
  exact ⟨state, sound, here⟩

theorem Held.spend {spare less : Int} (fewer : less ≤ spare)
    (held : Held env admission hashes history (Spare spare flight) world) :
    Held env admission hashes history (Spare less flight) world := by
  obtain ⟨state, sound, here, charged⟩ := held
  exact ⟨state, sound, here, by omega⟩

def left : Option Nat → Nat → Nat
  | some length, received => length - received
  | none, _ => 0

/-- What is reserved when the next read asks for `requested` bytes. -/
def Asked (env : Environment Stamp) (admission : Admission Stamp) (hashes : Hashes)
    (history : History) (flight : List (Transfer Stamp) → Volume Member Bytes → Prop)
    (length : Option Nat) (received : Nat) (requested : Option Nat) (later : World Stamp) : Prop :=
  match requested with
  | none => Held env admission hashes history (Flown flight) later
  | some requested => ∃ spare : Nat, requested ≤ spare ∧
      (∀ amount ≤ requested, left length (received + amount) ≤ spare - amount) ∧
      Held env admission hashes history (Spare spare flight) later

theorem ends_metadataRequest {length : Option Nat} {received : Nat}
    (held : Held env admission hashes history (Spare (left length received) flight) world) :
    Ends (metadataRequest env admission length received) world
      (Asked env admission hashes history flight length received)
      fun failure later => Excused history failure ∧
        Held env admission hashes history (Flown flight) later := by
  cases length with
  | some length =>
    simp only [metadataRequest]
    rw [ends_pure]
    split_ifs with complete
    · exact held.flown
    · refine ⟨length - received, Nat.min_le_right _ _, fun amount fits => ?_, held⟩
      simp only [left]
      omega
  | none =>
    simp only [metadataRequest]
    rw [ends_bind]
    refine (keeps_readLedger world held).mono (fun state between kept => ?_)
      fun failure later ends => ⟨ends.1, ends.2.flown⟩
    by_cases spent :
        admission.policy.limits.maxMetadataBodyBytes - state.transport.metadataCharged ≤ 0
    · rw [raiseIf, if_pos spent]
      exact ⟨(excused_plain (by simp)).1, kept.flown⟩
    · rw [ends_raiseIf_bind spent, ends_bind]
      refine (ends_reserveMetadata _ _ kept).mono (fun _ later reserved => ?_)
        fun failure later ends => ⟨ends.1, ends.2.flown⟩
      rw [ends_pure]
      refine ⟨_, Nat.le_add_left _ _, fun amount fits => Nat.zero_le _, reserved⟩

theorem keeps_metadataEnd {holds : TransportLedger Stamp → Volume Member Bytes → Prop}
    (length : Option Nat) (broken : Bool) :
    Keeps (Held env admission hashes history holds) (Excused history)
      (metadataEnd length broken) :=
  (keeps_remote broken).bind fun _ => Keeps.raiseIf fun _ => (excused_plain (by simp)).1

theorem ends_metadataLoop {length : Option Nat} {broken : Bool} (body : List Bytes) :
    ∀ {received : Nat} {world : World Stamp},
    Held env admission hashes history (Spare (left length received) flight) world →
    Ends (metadataLoop env admission length broken received body) world
      (fun _ => Held env admission hashes history (Flown flight))
      fun failure later => Excused history failure ∧
        Held env admission hashes history (Flown flight) later := by
  induction body with
  | nil =>
    intro received world held
    rw [metadataLoop, ends_bind]
    refine (ends_metadataRequest held).mono (fun requested later asked => ?_) fun _ _ => id
    cases requested with
    | none => exact asked
    | some requested =>
      obtain ⟨spare, -, -, kept⟩ := asked
      exact (keeps_readWithDeadline.bind fun _ => keeps_metadataEnd length broken) later
        kept.flown
  | cons chunk body ih =>
    intro received world held
    rw [metadataLoop, ends_bind]
    refine (ends_metadataRequest held).mono (fun requested later asked => ?_) fun _ _ => id
    cases requested with
    | none => exact asked
    | some requested =>
      obtain ⟨spare, within, leaves, kept⟩ := asked
      dsimp only
      rw [ends_bind]
      refine (keeps_readWithDeadline later kept).mono (fun _ between waiting => ?_)
        fun failure later ends => ⟨ends.1, ends.2.flown⟩
      by_cases silent : chunk.isEmpty = true
      · rw [if_pos silent]
        exact keeps_metadataEnd length false between waiting.flown
      rw [if_neg silent]
      by_cases more : requested < chunk.length
      · rw [ends_bind, raiseIf, if_pos more]
        exact ⟨(excused_plain (by simp)).1, waiting.flown⟩
      rw [ends_raiseIf_bind more, ends_bind]
      have fits := Nat.le_of_not_lt more
      refine (ends_chargeMetadataActual spare chunk.length (Nat.le_trans fits within)
        waiting).mono (fun _ charged counted => ?_)
        fun failure later ends => ⟨ends.1, ends.2.flown⟩
      exact ih (counted.spend (by have := leaves chunk.length fits; omega))

theorem keeps_readMetadataBody (reply : Reply) :
    Keeps (Held env admission hashes history (Flown flight)) (Excused history)
      (readMetadataBody env admission reply) := by
  intro world held
  unfold readMetadataBody
  cases reply.length with
  | invalid => exact ⟨(excused_plain (by simp)).1, held⟩
  | absent => exact ends_metadataLoop reply.body (held_spare (Int.le_refl 0) held)
  | bytes count =>
    rw [ends_bind]
    refine (ends_reserveMetadata 0 count (held_spare (Int.le_refl 0) held)).mono
      (fun _ later reserved => ?_) fun failure later ends => ⟨ends.1, ends.2.flown⟩
    exact ends_metadataLoop reply.body (reserved.spend (by simp [left]))

end

section

variable {flight : List (Transfer Stamp) → Volume Member Bytes → Prop}

theorem keeps_checkDestination (destination : Destination) :
    Keeps (Held env admission hashes history (Flown flight)) (Excused history)
      (checkDestination destination) := by
  cases destination with
  | insecure => exact Keeps.throw (excused_plain (by simp)).1
  | foreign => exact Keeps.throw (excused_plain (by simp)).1
  | admitted => exact Keeps.pure _

theorem keeps_settle (reply : Reply) :
    Keeps (Held env admission hashes history (Flown flight)) (Excused history)
      (settle env admission reply) := by
  refine Keeps.raiseIf_bind (fun _ => (excused_plain (by simp)).1) fun _ => ?_
  refine Keeps.ite (fun _ => ?_) fun _ => Keeps.ite (fun _ => ?_) fun _ => Keeps.pure _
  · refine (keeps_readMetadataBody reply).bind fun _ => ?_
    cases reply.location with
    | none => exact Keeps.throw (excused_plain (by simp)).1
    | some destination => exact Keeps.pure _
  · exact (keeps_readMetadataBody reply).bind fun _ => Keeps.throw (excused_plain (by simp)).1

theorem keeps_openTurns (turns : Nat) : ∀ destination : Destination,
    Keeps (Held env admission hashes history (Flown flight)) (Excused history)
      (openTurns env admission turns destination) := by
  induction turns with
  | zero => exact fun _ => Keeps.throw (excused_plain (by simp)).1
  | succ turns ih =>
    intro destination
    refine (keeps_checkDestination destination).bind fun _ => ?_
    refine (keeps_consume .requests 1).bind fun _ => keeps_remainingSeconds.bind fun _ => ?_
    refine (keeps_step .request).bind fun now => ?_
    cases env.answer now with
    | unreachable => exact Keeps.throw (excused_plain (by simp)).2.1
    | failed reply =>
      exact (keeps_readMetadataBody reply).bind fun _ =>
        Keeps.throw (excused_plain (by simp)).2.1
    | replied reply =>
      refine (keeps_settle reply).bind fun moved => ?_
      cases moved with
      | none => exact Keeps.pure _
      | some next => exact ih next

theorem keeps_checkReply (row : Row) (reply : Reply) :
    Keeps (Held env admission hashes history (Flown flight)) (Excused history)
      (checkReply row reply) := by
  refine Keeps.ite (fun _ => Keeps.throw (excused_plain (by simp)).1) fun _ => ?_
  cases reply.length with
  | invalid => exact Keeps.throw (excused_plain (by simp)).1
  | absent => exact Keeps.raiseIf fun _ => (excused_plain (by simp)).1
  | bytes count => exact Keeps.raiseIf fun _ => (excused_plain (by simp)).1

end

section

variable {holds : TransportLedger Stamp → Volume Member Bytes → Prop} {row : Row}
  {state : AcquisitionLedger Stamp} {key : HexDigest}

theorem keeps_cacheInventory :
    Keeps (Held env admission hashes history holds) (Excused history)
      (cacheInventory env admission) := by
  have rest : ∀ size count : Nat, Keeps (Held env admission hashes history holds)
      (Excused history) (do
        raiseIf (admission.maxCacheBytes < size ∨ admission.maxCacheFiles < count)
          (.value .allowance "acquisition cache allowance exceeded")
        return (size, count) : M Stamp (Nat × Nat)) := fun size count =>
    Keeps.raiseIf_bind (fun _ => (excused_plain (by simp)).1) fun _ => Keeps.pure _
  refine (keeps_step .look).bind fun _ => ?_
  intro world held
  have owned : ¬ ∃ owner ∈ world.owner, owner ≠ admission.policy.binding := by
    obtain ⟨state, sound, -⟩ := held
    rw [sound.owner]
    simp
  rw [ends_bind, ends_get, ends_raiseIf_bind owned]
  exact rest _ _ world held

theorem keeps_checkSpace (row : Row) :
    Keeps (Held env admission hashes history holds) (Excused history)
      (checkSpace env admission row) :=
  keeps_cacheInventory.bind fun _ => Keeps.raiseIf fun _ => (excused_plain (by simp)).1

theorem Sound.perform {action : Action Member Bytes}
    (sound : Sound env admission hashes history world state)
    (unfinished : ∀ member ∈ action.paths, member.kind = .unfinished) :
    Sound env admission hashes history { world with members := world.members.perform action }
      state := by
  have same : ∀ key, (world.members.perform action).read ⟨key, .bin⟩ =
      world.members.read ⟨key, .bin⟩ := by
    intro key
    refine Volume.read_perform_other world.members fun touched => ?_
    cases unfinished _ touched
  refine { sound with published := ?_, cached := ?_ }
  · intro key content found
    exact sound.published key content ((same key).symm.trans found)
  · intro entry member
    exact (same entry.1).trans (sound.cached entry member)

theorem ends_perform {action : Action Member Bytes}
    {later : TransportLedger Stamp → Volume Member Bytes → Prop} {bad : Failure → World Stamp → Prop}
    (unfinished : ∀ member ∈ action.paths, member.kind = .unfinished)
    (acts : ∀ transport members, holds transport members →
      later transport (members.perform action))
    (held : Held env admission hashes history holds world) :
    Ends (Acquisition.perform action) world
      (fun _ => Held env admission hashes history later) bad := by
  obtain ⟨state, sound, here⟩ := held
  exact ⟨state, sound.perform unfinished, acts _ _ here⟩

theorem keeps_hashTurns (turns : Nat) :
    Keeps (Held env admission hashes history holds) (Excused history)
      (hashTurns env admission turns) := by
  induction turns with
  | zero => exact Keeps.pure _
  | succ turns ih => exact keeps_remainingSeconds.bind fun _ => ih

theorem ends_authenticate {reason : Reason} {member : Member} {content : Bytes}
    (found : world.members.read member = some content)
    (held : Held env admission hashes history holds world) :
    Ends (authenticate env admission hashes reason member row) world
      (fun _ later => authentic hashes row content = true ∧
        Held env admission hashes history holds later)
      fun failure later => (Excused history failure ∨
        (failure.reason = some reason ∧ authentic hashes row content = false)) ∧
          Held env admission hashes history holds later := by
  have read : (world.members.read member).getD [] = content := by rw [found, Option.getD_some]
  unfold authenticate contentOf
  rw [ends_bind, ends_bind, ends_get, ends_pure, read]
  by_cases size : content.length ≠ row.size
  · rw [ends_bind, raiseIf, if_pos size]
    exact ⟨.inr ⟨rfl, by simp [authentic, size]⟩, held⟩
  rw [ends_raiseIf_bind size, ends_bind]
  refine (keeps_consume .verificationBytes row.size world held).mono (fun _ charged kept => ?_)
    fun _ _ ends => ⟨.inl ends.1, ends.2⟩
  rw [ends_bind]
  refine (keeps_hashTurns _ charged kept).mono (fun _ hashed same => ?_)
    fun _ _ ends => ⟨.inl ends.1, ends.2⟩
  unfold raiseIf
  by_cases differs : authentic hashes row content = false
  · rw [if_pos differs]
    exact ⟨.inr ⟨rfl, differs⟩, same⟩
  · rw [if_neg differs]
    exact ⟨Bool.not_eq_false _ ▸ differs, same⟩

end

section

variable {row : Row} {key : HexDigest} {index received : Nat}

theorem Held.mono {holds weaker : TransportLedger Stamp → Volume Member Bytes → Prop}
    (held : Held env admission hashes history holds world)
    (weaken : ∀ transport members, holds transport members → weaker transport members) :
    Held env admission hashes history weaker world := by
  obtain ⟨state, sound, here⟩ := held
  exact ⟨state, sound, weaken _ _ here⟩

def Ongoing (admission : Admission Stamp) (row : Row) (index : Nat)
    (transfers : List (Transfer Stamp)) (_ : Volume Member Bytes) : Prop :=
  ∃ received, Reserved admission row index received transfers

def Missing (key : HexDigest) (members : Volume Member Bytes) : Prop :=
  members.read ⟨key, .bin⟩ = none ∧ members.read ⟨key, .unfinished⟩ = none

def Growing (key : HexDigest) (members : Volume Member Bytes) : Prop :=
  members.read ⟨key, .bin⟩ = none ∧ ∃ content, members.read ⟨key, .unfinished⟩ = some content

def Published (hashes : Hashes) (row : Row) (key : HexDigest) (members : Volume Member Bytes) :
    Prop :=
  ∃ content, members.read ⟨key, .bin⟩ = some content ∧ authentic hashes row content = true

def Receiving (admission : Admission Stamp) (row : Row) (index received : Nat)
    (resting : Volume Member Bytes → Prop) (transport : TransportLedger Stamp)
    (members : Volume Member Bytes) : Prop :=
  resting members ∧ Reserved admission row index received transport.transfers

theorem Held.ongoing {resting : Volume Member Bytes → Prop}
    (held : Held env admission hashes history (Receiving admission row index received resting)
      world) :
    Held env admission hashes history (Flown (Ongoing admission row index)) world :=
  held.mono fun _ _ here => ⟨received, here.2⟩

theorem ends_dropUnfinished
    (held : Held env admission hashes history
      (fun _ members => members.read ⟨key, .bin⟩ = none) world) :
    Ends (dropUnfinished env key) world
      (fun _ => Held env admission hashes history fun _ members => Missing key members)
      fun failure later => Excused history failure ∧
        Held env admission hashes history (fun _ _ => True) later := by
  unfold dropUnfinished isPresent
  rw [ends_bind, ends_bind, ends_get, ends_pure]
  cases found : world.members.read ⟨key, .unfinished⟩ with
  | none =>
    obtain ⟨state, sound, here⟩ := held
    exact ⟨state, sound, here, found⟩
  | some content =>
    rw [Option.isSome_some, if_pos rfl, ends_bind]
    refine (keeps_step .unlink world held).mono (fun _ later kept => ?_)
      fun _ _ ends => ⟨ends.1, ends.2.mono fun _ _ _ => trivial⟩
    refine ends_perform (by simp [Action.paths]) (fun _ members absent => ⟨?_, ?_⟩) kept
    · rw [Volume.read_perform_other members (by simp [Action.paths])]
      exact absent
    · exact Volume.read_unlink_self members _

theorem ends_createUnfinished
    (held : Held env admission hashes history
      (Receiving admission row index received (Missing key)) world) :
    Ends (createUnfinished env key) world
      (fun _ => Held env admission hashes history
        (Receiving admission row index received (Growing key)))
      fun failure later => Excused history failure ∧
        Held env admission hashes history (Flown (Ongoing admission row index)) later := by
  unfold createUnfinished
  rw [ends_bind]
  refine (keeps_step .createPartial world held).mono (fun _ later kept => ?_)
    fun _ _ ends => ⟨ends.1, ends.2.ongoing⟩
  have absent : ¬ (later.members.read ⟨key, .unfinished⟩).isSome = true := by
    obtain ⟨state, -, missing, -⟩ := kept
    rw [missing.2]
    exact Bool.false_ne_true
  rw [ends_bind, ends_get, ends_raiseIf_bind absent]
  refine ends_perform (by simp [Action.paths]) (fun _ members here => ⟨⟨?_, [], ?_⟩, here.2⟩) kept
  · rw [Volume.read_perform_other members (by simp [Action.paths])]
    exact here.1.1
  · exact Volume.read_write_self members _ _

theorem keeps_appendChunk (chunk : Bytes) :
    Keeps (Held env admission hashes history
        (Receiving admission row index received (Growing key)))
      (Excused history) (appendChunk env ⟨key, .unfinished⟩ chunk) := by
  refine (keeps_step .writePartial).bind fun _ => ?_
  intro world held
  unfold contentOf
  rw [ends_bind, ends_bind, ends_get, ends_pure]
  refine ends_perform (by simp [Action.paths]) (fun _ members here => ⟨⟨?_, ?_⟩, here.2⟩) held
  · rw [Volume.read_perform_other members (by simp [Action.paths])]
    exact here.1.1
  · exact ⟨_, Volume.read_write_self members _ _⟩

theorem ends_receiveChunk {remaining : Nat} {chunk : Bytes} (sum : received + remaining = row.size)
    (held : Held env admission hashes history
      (Receiving admission row index received (Growing key)) world) :
    Ends (receiveChunk env admission ⟨key, .unfinished⟩ index remaining chunk) world
      (fun _ later => chunk.length ≤ remaining ∧ Held env admission hashes history
        (Receiving admission row index (received + chunk.length) (Growing key)) later)
      fun failure later => Excused history failure ∧
        Held env admission hashes history (Flown (Ongoing admission row index)) later := by
  unfold receiveChunk
  by_cases bad : chunk.isEmpty = true ∨ min 65536 remaining < chunk.length
  · rw [ends_bind, raiseIf, if_pos bad]
    exact ⟨(excused_plain (by simp)).2.1, held.ongoing⟩
  have fits : chunk.length ≤ remaining := by
    simp only [not_or, not_lt] at bad
    exact Nat.le_trans bad.2 (Nat.min_le_right _ _)
  rw [ends_raiseIf_bind bad, ends_bind]
  refine (ends_chargeTransfer (by omega) held).mono (fun _ later charged => ?_)
    fun _ _ ends => ⟨ends.1, Held.ongoing ends.2⟩
  refine ((keeps_appendChunk chunk).bind fun _ => keeps_observe) later charged |>.mono
    (fun _ _ kept => ⟨fits, kept⟩) fun _ _ ends => ⟨ends.1, ends.2.ongoing⟩

theorem ends_receive {broken : Bool} (body : List Bytes) :
    ∀ {remaining received : Nat} {world : World Stamp}, received + remaining = row.size →
    Held env admission hashes history
      (Receiving admission row index received (Growing key)) world →
    Ends (receive env admission ⟨key, .unfinished⟩ index broken remaining body) world
      (fun _ => Held env admission hashes history
        (Receiving admission row index row.size (Growing key)))
      fun failure later => Excused history failure ∧
        Held env admission hashes history (Flown (Ongoing admission row index)) later := by
  induction body with
  | nil =>
    intro remaining received world sum held
    cases remaining with
    | zero =>
      rw [Nat.add_zero] at sum
      rw [receive, ends_pure, ← sum]
      exact held
    | succ remaining =>
      rw [receive, ends_bind]
      refine (keeps_readWithDeadline world held).mono (fun _ between waiting => ?_)
        fun _ _ ends => ⟨ends.1, ends.2.ongoing⟩
      rw [ends_bind]
      refine (keeps_remote broken between waiting).mono (fun _ later silent => ?_)
        fun _ _ ends => ⟨ends.1, ends.2.ongoing⟩
      exact ⟨(excused_plain (by simp)).2.1, silent.ongoing⟩
  | cons chunk body ih =>
    intro remaining received world sum held
    cases remaining with
    | zero =>
      rw [Nat.add_zero] at sum
      rw [receive, ends_pure, ← sum]
      exact held
    | succ remaining =>
      rw [receive, ends_bind]
      refine (keeps_readWithDeadline world held).mono (fun _ between waiting => ?_)
        fun _ _ ends => ⟨ends.1, ends.2.ongoing⟩
      rw [ends_bind]
      refine (ends_receiveChunk sum waiting).mono (fun _ later grown => ?_) fun _ _ => id
      exact ih (by omega) grown.2

theorem ends_publish {content : Bytes} (asked : row ∈ history.asked)
    (named : hashes.digest row = key) (authenticated : authentic hashes row content = true)
    (held : Held env admission hashes history
      (Receiving admission row index received fun members =>
        members.read ⟨key, .bin⟩ = none ∧ members.read ⟨key, .unfinished⟩ = some content) world) :
    Ends (publish env key) world
      (fun _ => Held env admission hashes history
        (Receiving admission row index received (Published hashes row key)))
      fun failure later => Excused history failure ∧
        Held env admission hashes history (Flown (Ongoing admission row index)) later := by
  unfold publish
  rw [ends_bind]
  refine (keeps_step .rename world held).mono (fun _ between kept => ?_)
    fun _ _ ends => ⟨ends.1, ends.2.ongoing⟩
  obtain ⟨state, sound, ⟨absent, present⟩, reserved⟩ := kept
  have free : ¬ (between.members.read ⟨key, .bin⟩).isSome = true := by
    rw [absent]
    exact Bool.false_ne_true
  rw [ends_bind, ends_get, ends_raiseIf_bind free, ends_bind]
  have moved : ∀ other content', (between.members.perform
      (.rename ⟨key, .unfinished⟩ ⟨key, .bin⟩)).read ⟨other, .bin⟩ = some content' →
      (other = key ∧ content' = content) ∨ between.members.read ⟨other, .bin⟩ = some content' := by
    intro other content' found
    by_cases same : other = key
    · subst same
      rw [Volume.read_rename_target _ present] at found
      exact .inl ⟨rfl, (Option.some.inj found).symm⟩
    · rw [Volume.read_perform_other _ (by simp [Action.paths, same])] at found
      exact .inr found
  have renamed : Held env admission hashes history
      (Receiving admission row index received (Published hashes row key))
      { between with
        members := between.members.perform (.rename ⟨key, .unfinished⟩ ⟨key, .bin⟩) } := by
    refine ⟨state, { sound with published := ?_, cached := ?_ }, ⟨content, ?_, authenticated⟩,
      reserved⟩
    · intro other content' found
      rcases moved other content' found with ⟨rfl, rfl⟩ | known
      · exact ⟨row, asked, named, authenticated⟩
      · exact sound.published other content' known
    · intro entry member
      have kept := sound.cached entry member
      have other : entry.1 ≠ key := by
        rintro same
        rw [same, absent] at kept
        cases kept
      exact (Volume.read_perform_other _ (by simp [Action.paths, other])).trans kept
    · exact Volume.read_rename_target _ present _
  exact ((keeps_step .syncCache).bind fun _ => Keeps.pure _) _ renamed |>.mono
    (fun _ _ => id) fun _ _ ends => ⟨ends.1, ends.2.ongoing⟩

theorem ends_download (asked : row ∈ history.asked) (named : hashes.digest row = key)
    (held : Held env admission hashes history
      (Receiving admission row index 0 (Missing key)) world) :
    Ends (download env admission hashes row key index) world
      (fun _ => Held env admission hashes history fun _ => Published hashes row key)
      fun failure later => Excused history failure ∧
        Held env admission hashes history (Flown (Ongoing admission row index)) later := by
  unfold download
  have flight : Held env admission hashes history (Flown fun transfers members =>
      Missing key members ∧ Reserved admission row index 0 transfers) world := held
  rw [ends_bind]
  refine (keeps_openTurns 6 .admitted world flight).mono (fun reply opened kept => ?_)
    fun _ _ ends => ⟨ends.1, Held.ongoing ends.2⟩
  rw [ends_bind]
  refine (keeps_checkReply row reply opened kept).mono (fun _ checked ready => ?_)
    fun _ _ ends => ⟨ends.1, Held.ongoing ends.2⟩
  rw [ends_bind]
  refine (ends_createUnfinished ready).mono (fun _ created empty => ?_) fun _ _ => id
  rw [ends_bind]
  refine (ends_receive reply.body (Nat.zero_add row.size) empty).mono (fun _ received full => ?_)
    fun _ _ => id
  rw [ends_bind]
  refine (keeps_step .syncPartial received full).mono (fun _ synced whole => ?_)
    fun _ _ ends => ⟨ends.1, ends.2.ongoing⟩
  obtain ⟨state, sound, ⟨absent, content, present⟩, reserved⟩ := whole
  have held : Held env admission hashes history
      (Receiving admission row index row.size fun members =>
        members.read ⟨key, .bin⟩ = none ∧ members.read ⟨key, .unfinished⟩ = some content) synced :=
    ⟨state, sound, ⟨absent, present⟩, reserved⟩
  rw [ends_bind]
  refine (ends_authenticate present held).mono (fun _ authenticated true => ?_)
    fun failure _ ends => ⟨?_, ends.2.ongoing⟩
  · rw [ends_bind]
    refine (ends_publish asked named true.1 true.2).mono (fun _ published there => ?_)
      fun _ _ => id
    exact (ends_finishTransfer there).mono (fun _ _ => id)
      fun _ _ ends => ⟨ends.1, Held.ongoing ends.2⟩
  · rcases ends.1 with excused | ⟨reason, -⟩
    · exact excused
    · intro found same
      rw [reason] at same
      cases same
      exact .inl (by simp)

end

section

variable {row : Row} {key : HexDigest} {index : Nat}
  {holds : TransportLedger Stamp → Volume Member Bytes → Prop}

def History.ask (history : History) (row : Row) : History :=
  { history with asked := row :: history.asked }

def blamed (admission : Admission Stamp) (row : Row) : Failure → List Text
  | .value .terminal _ => []
  | .value _ _ => [TransportLedger.transferKey admission.repoId row.path]
  | _ => []

theorem Held.blame (held : Held env admission hashes history holds world) (keys : List Text) :
    Held env admission hashes (history.blame keys) (fun _ _ => True) world := by
  obtain ⟨state, sound, -⟩ := held
  refine ⟨state, { sound with state := { sound.state with failed := ?_ } }, trivial⟩
  exact fun item member ended =>
    List.mem_append_right _ (sound.state.failed item member ended)

theorem Sound.ask {state : AcquisitionLedger Stamp}
    (sound : Sound env admission hashes history world state) (row : Row) :
    Sound env admission hashes (history.ask row) world state := by
  refine { sound with state := { sound.state with hits := ?_ }, published := ?_ }
  · have hits := sound.state.hits
    simp only [History.ask, List.length_cons, Nat.cast_add]
    omega
  · intro key content found
    obtain ⟨other, asked, same⟩ := sound.published key content found
    exact ⟨other, List.mem_cons_of_mem _ asked, same⟩

theorem Held.ask (held : Held env admission hashes history holds world) (row : Row) :
    Held env admission hashes (history.ask row) holds world := by
  obtain ⟨state, sound, here⟩ := held
  exact ⟨state, sound.ask row, here⟩

theorem Excused.ask {failure : Failure} (excused : Excused history failure) (row : Row) :
    Excused (history.ask row) failure := by
  intro reason member
  rcases excused reason member with plain | ⟨hits, many⟩
  · exact .inl plain
  · refine .inr ⟨hits, ?_⟩
    simp only [History.ask, List.length_cons]
    omega

def Ended (env : Environment Stamp) (admission : Admission Stamp) (hashes : Hashes)
    (history : History) (row : Row) (failure : Failure) (later : World Stamp) : Prop :=
  ExcusedFor admission hashes history row failure ∧
    Held env admission hashes (history.blame (blamed admission row failure)) (fun _ _ => True) later

theorem ended {failure : Failure} {later : World Stamp}
    (ends : Excused history failure ∧ Held env admission hashes history holds later) (row : Row) :
    Ended env admission hashes history row failure later :=
  ⟨ends.1.forRow row, ends.2.blame _⟩

theorem ends_abandon {failure : Failure} (alive : failure ≠ .died)
    (excused : Excused history failure)
    (held : Held env admission hashes history (Flown (Ongoing admission row index)) world) :
    Ends (abandon env admission index failure) world (fun _ _ => False)
      (Ended env admission hashes history row) := by
  obtain ⟨state, sound, received, reserved⟩ := held
  have going : Held env admission hashes history
      (Receiving admission row index received fun _ => True) world :=
    ⟨state, sound, trivial, reserved⟩
  cases failure with
  | died => exact absurd rfl alive
  | value reason message =>
    refine ends_bind.mpr ((ends_finishTransfer going).mono (fun _ later finished => ?_)
      fun _ _ ends => ended ends row)
    refine ⟨excused.forRow row, ?_⟩
    have other : blamed admission row (.value reason message) =
        failing admission row false false := by
      rcases excused reason rfl with plain | ⟨hits, -⟩
      · cases reason
        all_goals first
          | rfl
          | exact absurd plain (by decide)
      · rw [hits]
        rfl
    rw [other]
    exact finished
  | os reason message =>
    refine ends_bind.mpr ((ends_finishTransfer going).mono (fun _ later finished => ?_)
      fun _ _ ends => ended ends row)
    have same : Excused history (.interrupted reason message) := excused
    exact ⟨same.forRow row, finished⟩
  | interrupted reason message =>
    refine ends_bind.mpr ((ends_finishTransfer going).mono (fun _ later finished => ?_)
      fun _ _ ends => ended ends row)
    exact ⟨excused.forRow row, finished⟩

theorem ends_fetch (asked : row ∈ history.asked) (named : hashes.digest row = key)
    (held : Held env admission hashes history
      (fun _ members => members.read ⟨key, .bin⟩ = none) world) :
    Ends (fetch env admission hashes row key) world
      (fun _ => Held env admission hashes history fun _ => Published hashes row key)
      (Ended env admission hashes history row) := by
  unfold fetch
  rw [ends_bind]
  refine (ends_dropUnfinished held).mono (fun _ dropped clear => ?_) fun _ _ ends => ended ends row
  rw [ends_bind]
  refine (keeps_checkSpace row dropped clear).mono (fun _ spaced room => ?_)
    fun _ _ ends => ended ends row
  have missing : Missing key spaced.members := by
    obtain ⟨_, -, missing⟩ := room
    exact missing
  rw [ends_bind]
  refine (ends_reserveTransfer row room).mono (fun index reserved going => ?_)
    fun _ _ ends => ⟨ends.1, ends.2.blame _⟩
  have going : Held env admission hashes history
      (Receiving admission row index 0 (Missing key)) reserved := by
    refine going.mono ?_
    rintro transport members ⟨rfl, reserved⟩
    exact ⟨missing, reserved⟩
  rw [ends_attempting]
  refine (ends_download asked named going).mono (fun _ _ => id) fun failure later ends => ?_
  by_cases alive : failure ≠ .died
  · rw [if_pos alive]
    exact (ends_abandon alive ends.1 ends.2).mono (fun _ _ => False.elim) fun _ _ => id
  · rw [if_neg alive]
    exact ended ends row

theorem ends_reuse {content : Bytes} (named : hashes.digest row = key)
    (found : world.members.read ⟨key, .bin⟩ = some content)
    (held : Held env admission hashes history (fun _ _ => True) world) :
    Ends (reuse env admission hashes row key) world
      (fun _ => Held env admission hashes (history.ask row) fun _ => Published hashes row key)
      (Ended env admission hashes (history.ask row) row) := by
  obtain ⟨state, sound, -⟩ := held
  have held : Held env admission hashes history
      (fun _ members => members.read ⟨key, .bin⟩ = some content) world := ⟨state, sound, found⟩
  obtain ⟨other, asked, same, other_content⟩ := sound.published key content found
  unfold reuse
  rw [ends_bind]
  refine (ends_authenticate found held).mono (fun _ later kept => ?_)
    fun failure later ends => ⟨?_, (ends.2.ask row).blame _⟩
  · obtain ⟨true, state, sound, present⟩ := kept
    refine (ends_mutation (fun _ _ => True) sound trivial ?_).mono (fun _ _ => id)
      fun _ _ ends => ended ⟨ends.1.ask row, ends.2.ask row⟩ row
    have grown := sound.ask row
    have hits := sound.state.hits
    have counted : LedgerSound env admission (history.ask row) later.tick
        { state with cacheHits := state.cacheHits + 1 } := by
      refine { grown.state with hits := ?_ }
      simp only [History.ask, List.length_cons, Nat.cast_add]
      omega
    exact ⟨_, grown.write counted, content, present, true⟩
  · rcases ends.1 with excused | ⟨reason, differs⟩
    · exact (excused.ask row).forRow row
    · intro found same_reason
      rw [reason] at same_reason
      cases same_reason
      refine .inr (.inr ⟨rfl, other, List.mem_cons_of_mem _ asked, ?_, same.trans named.symm⟩)
      rintro rfl
      rw [other_content] at differs
      cases differs

theorem ends_file (row : Row)
    (held : Held env admission hashes history (fun _ _ => True) world) :
    Ends (file env admission hashes row) world
      (fun key later => key = hashes.digest row ∧
        Held env admission hashes (history.ask row) (fun _ => Published hashes row key) later)
      (Ended env admission hashes (history.ask row) row) := by
  have early : ∀ failure later, Excused history failure ∧
      Held env admission hashes history (fun _ _ => True) later →
      Ended env admission hashes (history.ask row) row failure later :=
    fun failure later ends => ended ⟨ends.1.ask row, ends.2.ask row⟩ row
  unfold file isPresent
  rw [ends_bind]
  refine (keeps_observe world held).mono (fun _ observed kept => ?_) early
  rw [ends_bind]
  refine (keeps_cacheInventory observed kept).mono (fun _ counted kept => ?_) early
  rw [ends_bind, ends_bind, ends_get, ends_pure]
  cases found : counted.members.read ⟨hashes.digest row, .bin⟩ with
  | some content =>
    rw [Option.isSome_some, if_pos rfl, ends_bind]
    exact (ends_reuse rfl found kept).mono (fun _ _ there => ⟨rfl, there⟩) fun _ _ => id
  | none =>
    obtain ⟨state, sound, -⟩ := kept
    have absent : Held env admission hashes (history.ask row)
        (fun _ members => members.read ⟨hashes.digest row, .bin⟩ = none) counted :=
      Held.ask ⟨state, sound, found⟩ row
    rw [Option.isSome_none, if_neg Bool.false_ne_true, ends_bind]
    exact (ends_fetch List.mem_cons_self rfl absent).mono (fun _ _ there => ⟨rfl, there⟩)
      fun _ _ => id

end

end SparseLab.Data.Acquisition
