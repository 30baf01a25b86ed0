import SparseLab.Campaign.Commits
import SparseLab.Campaign.Projections

/-! The invariant of a campaign, and the events that keep it. -/

namespace SparseLab.Campaign

open Library

section

variable (formats : Formats) (plan : Plan)

def Hidden (disk : Disk) (stage : Stage) : Prop :=
  (∃ receipt, Has disk stage.id receipt) ∧ (disk.rows plan stage.id).state = .blocked ∧
    (disk.rows plan stage.id).receipt = none

def Follows (disk : Disk) (rows : Rows) : Prop :=
  ∀ stage ∈ plan.stages, (∀ receipt, ¬ Has disk stage.id receipt) →
    rows stage.id = disk.rows plan stage.id

def Attends (disk : Disk) : Session → Prop
  | .idle => True
  | .opened rows => Held formats plan disk rows ∧ Follows plan disk rows
  | .dispatched rows stage =>
    (Held formats plan disk rows ∧ Follows plan disk rows) ∧ stage ∈ plan.stages ∧
      (∀ receipt, ¬ Has disk stage.id receipt) ∧ (rows stage.id).state = .running ∧
        (rows stage.id).stageInput.isSome
  | .finished rows stage row =>
    stage ∈ plan.stages ∧ (validateRow formats row stage.toEntry = .ok () →
      Held formats plan disk (Function.update rows stage.id row))

structure Kept (engine : Engine) : Prop where
  published : Published formats plan engine.disk
  interrupted : ∀ stage ∈ plan.stages, ∀ receipt, Has engine.disk stage.id receipt →
    receipt.state = .interrupted → stage.kind = .experimentRun
  index : ∀ stage ∈ plan.stages,
    Current formats plan engine.disk stage (engine.disk.rows plan stage.id) ∨
      Hidden plan engine.disk stage ∧ ∃ rows row, engine.session = .finished rows stage row
  session : Attends formats plan engine.disk engine.session

def Event.killed : Event → Option Window
  | .finish _ _ killed | .approve _ _ _ killed => killed
  | _ => none

structure Careful (engine : Engine) (event : Event) : Prop where
  survives : event.killed = none
  saves : ∀ stage ∈ plan.stages, Hidden plan engine.disk stage → event ≠ .stop ∧
    ∀ surroundings rows done row, event = .keep surroundings →
      engine.session = .finished rows done row → ∃ saved,
        record formats plan surroundings engine.disk (Function.update rows done.id row) = .ok saved

def CarefulRun : Engine → List Event → Prop
  | _, [] => True
  | engine, event :: events =>
    Careful formats plan engine event ∧ CarefulRun (step formats plan engine event) events

end

section

variable {formats : Formats} {plan : Plan} {disk disk' : Disk} {stage : Stage} {row : Row}

theorem Merged.current (merged : Merged formats plan disk stage row) :
    Current formats plan disk stage row :=
  ⟨merged.toFit, fun receipt has => Or.inl (merged.agrees receipt has), merged.unreceipted⟩

section

variable (more : ∀ id receipt, Has disk id receipt → Has disk' id receipt)

include more

theorem Unreceipted.mono
    (unreceipted : Unreceipted plan disk stage row) : Unreceipted plan disk' stage row :=
  ⟨unreceipted.receipt, unreceipted.incomplete, unreceipted.failed, fun input given =>
    ⟨(unreceipted.input input given).1.mono more, (unreceipted.input input given).2⟩⟩

theorem Merged.mono (same : ∀ receipt, Has disk' stage.id receipt → Has disk stage.id receipt)
    (merged : Merged formats plan disk stage row) : Merged formats plan disk' stage row :=
  ⟨merged.toFit, fun receipt has => merged.agrees receipt (same receipt has), fun absent =>
    (merged.unreceipted fun receipt has => absent receipt (more _ receipt has)).mono more⟩

theorem Current.mono (same : ∀ receipt, Has disk' stage.id receipt → Has disk stage.id receipt)
    (current : Current formats plan disk stage row) : Current formats plan disk' stage row :=
  ⟨current.toFit, fun receipt has => current.agrees receipt (same receipt has), fun absent =>
    (current.unreceipted fun receipt has => absent receipt (more _ receipt has)).mono more⟩

end

theorem Held.update {rows : Rows} (held : Held formats plan disk rows)
    (merged : Merged formats plan disk stage row) (listed : stage ∈ plan.stages) :
    Held formats plan disk (Function.update rows stage.id row) := by
  intro other known
  by_cases named : other.id = stage.id
  · obtain rfl := Plan.same stage listed known named
    rw [Function.update_self]
    exact merged
  · rw [Function.update_of_ne named]
    exact held other known

theorem initial_current (listed : stage ∈ plan.stages) (none : ∀ receipt, ¬ Has disk stage.id receipt) :
    Current formats plan disk stage (initial plan stage.id) := by
  have entry : (initial plan stage.id).entry = stage.toEntry := by
    rw [initial, Plan.found listed]
    rfl
  refine ⟨⟨?_, fun key member => absurd member List.not_mem_nil⟩, fun receipt has =>
    absurd has (none receipt), fun _ => ⟨rfl, by simp [initial], by simp [initial], by simp [initial]⟩⟩
  unfold validateRow
  refine (refuseIf_bind (not_not.mpr entry)).trans ?_
  simp [initial, refuseIf]
  rfl

end

section

variable {formats : Formats} {plan : Plan} {engine : Engine} {surroundings : Surroundings}
  {stage : Stage} {rows : Rows} {row : Row}

theorem idle_kept (published : Published formats plan engine.disk)
    (interrupted : ∀ stage ∈ plan.stages, ∀ receipt, Has engine.disk stage.id receipt →
      receipt.state = .interrupted → stage.kind = .experimentRun)
    (current : ∀ stage ∈ plan.stages,
      Current formats plan engine.disk stage (engine.disk.rows plan stage.id)) :
    Kept formats plan { disk := engine.disk } :=
  ⟨published, interrupted, fun stage listed => Or.inl (current stage listed), trivial⟩

theorem record_ok {disk disk' : Disk} {rows' : Rows}
    (returned : record formats plan surroundings disk rows = .ok (disk', rows')) :
    disk' = { disk with index := some rows' } ∧
      ∃ action, project formats plan surroundings rows = .ok (rows', action) := by
  unfold record at returned
  obtain ⟨⟨projected, action⟩, found, returned⟩ := bind_eq_ok returned
  obtain ⟨saved, stored, returned⟩ := bind_eq_ok returned
  obtain ⟨_, _, stored⟩ := bind_eq_ok stored
  cases returned
  exact ⟨(Except.ok.inj stored).symm, action, found⟩

theorem recorded_kept {next : Rows → Session} (published : Published formats plan engine.disk)
    (interrupted : ∀ stage ∈ plan.stages, ∀ receipt, Has engine.disk stage.id receipt →
      receipt.state = .interrupted → stage.kind = .experimentRun)
    (held : Held formats plan engine.disk rows)
    (failed : (∀ saved, record formats plan surroundings engine.disk rows ≠ .ok saved) →
      ∀ stage ∈ plan.stages,
        Current formats plan engine.disk stage (engine.disk.rows plan stage.id))
    (attends : ∀ rows' action, project formats plan surroundings rows = .ok (rows', action) →
      Held formats plan { engine.disk with index := some rows' } rows' →
        Attends formats plan { engine.disk with index := some rows' } (next rows')) :
    Kept formats plan (recorded formats plan engine surroundings rows next) := by
  unfold recorded
  cases returned : record formats plan surroundings engine.disk rows with
  | error failure =>
    refine idle_kept published interrupted (failed fun saved same => ?_)
    rw [returned] at same
    cases same
  | ok saved =>
    obtain ⟨disk, rows'⟩ := saved
    obtain ⟨rfl, action, projected⟩ := record_ok returned
    have held' : Held formats plan { engine.disk with index := some rows' } rows' :=
      fun stage listed => (project_held published held projected stage listed).mono
        (fun id receipt (has : Has engine.disk id receipt) => has) fun _ has => has
    exact ⟨⟨published.receipts, published.single, published.bound⟩, interrupted,
      fun stage listed => Or.inl (held' stage listed).current,
      attends rows' action projected held'⟩

/-- The row that `commit` is called with. -/
structure Finished (plan : Plan) (disk : Disk) (rows : Rows) (stage : Stage) (row : Row) :
    Prop where
  clean : ∀ key ∈ row.data.map Prod.fst, key ∉ reserved
  typed : row.outcome.isSome
  bound : ∃ input, row.stageInput = some input ∧ InputOf plan disk stage input
  interrupted : row.state = .interrupted → stage.kind = .experimentRun
  keys : ∀ key ∈ (rows stage.id).data.map Prod.fst, key ∈ row.data.map Prod.fst
  working : (rows stage.id).state ∉ [StageState.failed, .inconclusive]

theorem committed_kept {now : String} (published : Published formats plan engine.disk)
    (interrupted : ∀ stage ∈ plan.stages, ∀ receipt, Has engine.disk stage.id receipt →
      receipt.state = .interrupted → stage.kind = .experimentRun)
    (current : ∀ stage ∈ plan.stages,
      Current formats plan engine.disk stage (engine.disk.rows plan stage.id))
    (held : Held formats plan engine.disk rows) (follows : Follows plan engine.disk rows)
    (listed : stage ∈ plan.stages) (utc : formats.utc now = true)
    (finished : Finished plan engine.disk rows stage row) :
    Kept formats plan (committed formats engine rows stage row now none) := by
  obtain ⟨input, given, bound⟩ := finished.bound
  unfold committed
  by_cases absent : ∀ receipt, ¬ Has engine.disk stage.id receipt
  · cases checked : commitInput formats stage row with
    | error failure =>
      have refused : commit formats engine.disk stage row now = (engine.disk, .error failure) := by
        rw [commit, checked]
      rw [refused]
      exact idle_kept published interrupted current
    | ok input' =>
      obtain rfl : input' = input :=
        Option.some.inj ((commitInput_ok checked).2.2.symm.trans given)
      obtain ⟨receipt, rfl, state, data, made, read, compared⟩ :=
        commit_new published absent checked finished.typed finished.clean utc
      rw [made]
      have more : ∀ id receipt', Has engine.disk id receipt' →
          Has (engine.disk.add stage.id (.receipt receipt.stageInput receipt)) id receipt' :=
        fun _ _ has => has_add.mpr (Or.inl has)
      have mine : ∀ receipt', Has (engine.disk.add stage.id
          (.receipt receipt.stageInput receipt)) stage.id receipt' → receipt' = receipt := by
        intro receipt' has
        obtain has | ⟨_, same⟩ := has_add.mp has
        · exact absurd has (absent receipt')
        · exact same
      have others : ∀ other ∈ plan.stages, other ≠ stage → ∀ receipt',
          Has (engine.disk.add stage.id (.receipt receipt.stageInput receipt)) other.id receipt' →
            Has engine.disk other.id receipt' := by
        intro other known differs receipt' has
        obtain has | ⟨named, _⟩ := has_add.mp has
        · exact has
        · exact absurd (Plan.same stage listed known named) differs
      obtain ⟨fit', agrees'⟩ := committedRow_agrees
        ⟨(commitInput_ok checked).1, finished.clean⟩ read given compared
      have now : Has (engine.disk.add stage.id (.receipt receipt.stageInput receipt)) stage.id
          receipt := has_add.mpr (Or.inr ⟨rfl, rfl⟩)
      refine ⟨published.add listed absent read bound, fun other known receipt' has ended => ?_,
        fun other known => ?_, listed, fun _ other known => ?_⟩
      · obtain has | ⟨named, rfl⟩ := has_add.mp has
        · exact interrupted other known receipt' has ended
        · obtain rfl := Plan.same stage listed known named
          exact finished.interrupted (state.symm.trans ended)
      · by_cases same : other = stage
        · subst same
          have row' := current other known
          have unreceipted := row'.unreceipted absent
          have keys := finished.keys
          have working := finished.working
          rw [follows other known absent] at keys working
          by_cases blocked : (engine.disk.rows plan other.id).state = .blocked
          · exact Or.inr ⟨⟨⟨receipt, now⟩, blocked, unreceipted.receipt⟩, _, _, rfl⟩
          · refine Or.inl ⟨row'.toFit, fun receipt' has => Or.inr ?_,
              fun none => absurd now (none receipt)⟩
            obtain rfl := mine receipt' has
            refine ⟨unreceipted.receipt, fun member => ?_, fun input' given' => ?_, ?_⟩
            · obtain complete | rest := List.mem_cons.mp member
              · exact unreceipted.incomplete complete
              · obtain same | rest := List.mem_cons.mp rest
                · exact blocked same
                · exact working rest
            · exact (unreceipted.input input' given').1.unique published bound
            · rw [data]
              exact keys
        · exact Or.inl ((current other known).mono more (others other known same))
      · by_cases same : other = stage
        · subst same
          rw [Function.update_self]
          exact ⟨fit', fun receipt' has => mine receipt' has ▸ agrees',
            fun none => absurd now (none receipt)⟩
        · have differs : other.id ≠ stage.id :=
            fun named => same (Plan.same stage listed known named)
          rw [Function.update_of_ne differs]
          exact (held other known).mono more (others other known same)
  · obtain ⟨receipt, has⟩ := not_forall_not.mp absent
    obtain rfl : receipt.stageInput = input :=
      (published.bound stage listed receipt has).unique published bound
    have read := published.read listed has
    rw [commit_again published listed has given]
    cases checked : commitInput formats stage row with
    | error failure => exact idle_kept published interrupted current
    | ok input =>
      cases compared : compareCommitted row (receiptRow stage receipt.stageInput receipt) with
      | error failure =>
        exact idle_kept published interrupted current
      | ok =>
        obtain ⟨fit', agrees'⟩ := committedRow_agrees
          ⟨(commitInput_ok checked).1, finished.clean⟩ read given compared
        refine ⟨published, interrupted, fun other known => Or.inl (current other known), listed,
          fun _ => held.update ⟨fit', fun receipt' has' => published.unique has has' ▸ agrees',
            fun none => absurd has (none receipt)⟩ listed⟩

theorem Kept.shown (kept : Kept formats plan engine)
    (shown : ∀ stage ∈ plan.stages, ¬ Hidden plan engine.disk stage) :
    ∀ stage ∈ plan.stages,
      Current formats plan engine.disk stage (engine.disk.rows plan stage.id) :=
  fun stage listed => (kept.index stage listed).resolve_right fun hidden => shown stage listed hidden.1

theorem Kept.current (kept : Kept formats plan engine)
    (unfinished : ∀ rows stage row, engine.session ≠ .finished rows stage row) :
    ∀ stage ∈ plan.stages,
      Current formats plan engine.disk stage (engine.disk.rows plan stage.id) := by
  intro stage listed
  obtain current | ⟨_, rows, row, finished⟩ := kept.index stage listed
  · exact current
  · exact absurd finished (unfinished rows stage row)

theorem Held.requirements {disk : Disk} (held : Held formats plan disk rows)
    (listed : stage ∈ plan.stages) : ∀ name ∈ stage.requires, ∃ dependency ∈ plan.stages,
      dependency.id = name ∧ Merged formats plan disk dependency (rows name) := by
  intro name required
  obtain ⟨earlier, later, split⟩ := List.append_of_mem listed
  obtain ⟨dependency, before, rfl⟩ :=
    List.mem_map.mp (plan.ordered earlier stage later split name required)
  have known : dependency ∈ plan.stages := split ▸ List.mem_append_left _ before
  exact ⟨dependency, known, rfl, held dependency known⟩

theorem enter_kept {disk : Disk} (kept : Kept formats plan { disk }) :
    Kept formats plan (step formats plan { disk } .enter) := by
  have current := kept.current fun _ _ _ => by simp
  obtain ⟨rows, returned, each⟩ := reconcile_merges kept.published current
  change Kept formats plan (.after disk ((reconcile formats plan disk (disk.rows plan)).map .opened))
  rw [returned]
  exact ⟨kept.published, kept.interrupted, fun stage listed => Or.inl (current stage listed),
    fun stage listed => (each stage listed).1, fun stage listed => (each stage listed).2⟩

theorem interrupted_merged {disk : Disk} (merged : Merged formats plan disk stage row)
    (absent : ∀ receipt, ¬ Has disk stage.id receipt) :
    Merged formats plan disk stage row.interrupted := by
  have unreceipted := merged.unreceipted absent
  refine ⟨⟨?_, merged.clean⟩, fun receipt has => absurd has (absent receipt), fun _ =>
    ⟨unreceipted.receipt, by simp [Row.interrupted], by simp [Row.interrupted], fun input given =>
      ⟨(unreceipted.input input given).1, Or.inr (by simp [Row.interrupted])⟩⟩⟩
  rw [← merged.valid]
  exact validateRow_congr rfl rfl rfl rfl rfl rfl _

theorem dispatched_merged {disk : Disk} (merged : Merged formats plan disk stage row)
    (absent : ∀ receipt, ¬ Has disk stage.id receipt) {input : String} {contracts : Data}
    (bound : InputOf plan disk stage input) (clean : ∀ key ∈ contracts.map Prod.fst, key ∉ reserved) :
    Merged formats plan disk stage (row.dispatched input contracts) := by
  have unreceipted := merged.unreceipted absent
  obtain ⟨inventory, outputs, _, _, valid⟩ := validateRow_ok.mp merged.valid
  refine ⟨⟨?_, fun key member => ?_⟩, fun receipt has => absurd has (absent receipt), fun _ =>
    ⟨unreceipted.receipt, by simp [Row.dispatched], by simp [Row.dispatched], fun input' given =>
      ⟨Option.some.inj given ▸ bound, Or.inr (by simp [Row.dispatched])⟩⟩⟩
  · have sound : ¬ ∃ input' ∈ some input, isSha input' = false := by
      rintro ⟨_, same, wrong⟩
      cases same
      obtain ⟨requirements, _, rfl⟩ := bound
      rw [(plan.digest stage requirements).valid] at wrong
      cases wrong
    exact validateRow_ok.mpr ⟨inventory, outputs, sound, fun marked => absurd marked.1
      (by simp [Row.dispatched, unreceipted.receipt]), valid⟩
  · rw [Row.dispatched, List.map_append, List.mem_append] at member
    exact member.elim (clean key) (merged.clean key)

section

variable {disk : Disk} (kept : Kept formats plan { disk, session := .opened rows })
include kept

theorem record_kept : Kept formats plan
    (step formats plan { disk, session := .opened rows } (.record surroundings)) := by
  have current := kept.current fun _ _ _ => by simp
  exact recorded_kept kept.published kept.interrupted kept.session.1 (fun _ => current)
    fun _ _ _ held => ⟨held, fun _ _ _ => rfl⟩

theorem interrupt_kept (id : String) : Kept formats plan
    (step formats plan { disk, session := .opened rows } (.interrupt surroundings id)) := by
  have current := kept.current fun _ _ _ => by simp
  obtain ⟨held, follows⟩ := kept.session
  dsimp only [step]
  cases acted : acts formats plan surroundings rows id [.resume] with
  | none => exact kept
  | some stage =>
    obtain ⟨listed, rfl, absent⟩ := acts_unreceipted kept.published held kept.interrupted
      (fun word member => Or.inr (List.mem_singleton.mp member)) acted
    dsimp only
    split
    next =>
      exact recorded_kept kept.published kept.interrupted
        (held.update (interrupted_merged (held stage listed) absent) listed) (fun _ => current)
        fun _ _ _ held => ⟨held, fun _ _ _ => rfl⟩
    next => exact kept

theorem dispatch_kept (id : String) (contracts : Data) : Kept formats plan
    (step formats plan { disk, session := .opened rows } (.dispatch surroundings id contracts)) := by
  have current := kept.current fun _ _ _ => by simp
  obtain ⟨held, follows⟩ := kept.session
  dsimp only [step]
  cases acted : acts formats plan surroundings rows id [.apply, .resume] with
  | none => exact kept
  | some stage =>
    obtain ⟨listed, rfl, absent⟩ := acts_unreceipted kept.published held kept.interrupted
      (fun word member => by simpa using member) acted
    dsimp only
    split
    next clean =>
      unfold dispatchStage
      cases hashed : inputSha formats plan stage rows with
      | error failure => exact idle_kept kept.published kept.interrupted current
      | ok input =>
        have bound := (inputSha_iff (held.requirements listed)).mp hashed
        have merged := dispatched_merged (held stage listed) absent bound clean
        refine recorded_kept kept.published kept.interrupted (held.update merged listed)
          (fun _ => current) fun rows' action projected held' =>
            ⟨⟨held', fun _ _ _ => rfl⟩, listed, absent, ?_⟩
        have same := project_settled projected listed
        rw [Function.update_self] at same
        rw [same ⟨by simp [Row.dispatched], by simp [Row.dispatched]⟩ (by simp [Row.dispatched])]
        exact ⟨rfl, rfl⟩
    next => exact kept

theorem approve_kept {id now : String} {result : Result} : Kept formats plan
    (step formats plan { disk, session := .opened rows } (.approve id result now none)) := by
  have current := kept.current fun _ _ _ => by simp
  obtain ⟨held, follows⟩ := kept.session
  dsimp only [step]
  cases found : plan.stage id with
  | none => exact kept
  | some stage =>
    have listed : stage ∈ plan.stages := List.mem_of_find?_eq_some found
    dsimp only
    split
    next approvable =>
      obtain ⟨⟨_, state, _, decided, clean⟩, utc⟩ := approvable
      unfold approveStage
      cases hashed : inputSha formats plan stage rows with
      | error failure => exact idle_kept kept.published kept.interrupted current
      | ok input =>
        refine committed_kept kept.published kept.interrupted current held follows listed utc
          ⟨fun key member => ?_, rfl, ⟨input, rfl, ?_⟩, fun ended => ?_, fun key member => ?_,
            fun failed => ?_⟩
        · rw [Row.take, List.map_append, List.mem_append] at member
          exact member.elim (clean key) ((held stage listed).clean key)
        · exact (inputSha_iff (held.requirements listed)).mp hashed
        · change result.state = _ at ended
          rw [ended] at decided
          exact absurd decided (by decide)
        · rw [Row.take, List.map_append, List.mem_append]
          exact Or.inr member
        · revert failed state
          cases (rows stage.id).state <;> decide
    next => exact kept

end

theorem finish_kept {disk : Disk} {now : String} {result : Result}
    (kept : Kept formats plan { disk, session := .dispatched rows stage }) : Kept formats plan
      (step formats plan { disk, session := .dispatched rows stage } (.finish result now none)) := by
  have current := kept.current fun _ _ _ => by simp
  obtain ⟨⟨held, follows⟩, listed, absent, running, given⟩ := kept.session
  obtain ⟨input, given⟩ := Option.isSome_iff_exists.mp given
  have unreceipted := (held stage listed).unreceipted absent
  have bound := (unreceipted.input input given).1
  dsimp only [step]
  split
  next allowed =>
    obtain ⟨⟨state, ended, clean⟩, utc⟩ := allowed
    have clean' : ∀ key ∈ (((rows stage.id).take result).close result).data.map Prod.fst,
        key ∉ reserved := by
      intro key member
      rw [Row.close, Row.take, List.map_append, List.mem_append] at member
      exact member.elim (clean key) ((held stage listed).clean key)
    unfold finishStage
    dsimp only
    split
    next terminal =>
      refine committed_kept kept.published kept.interrupted current held follows listed utc
        ⟨clean', rfl, ⟨input, given, bound⟩, fun interrupted => ?_, fun key member => ?_, ?_⟩
      · obtain snapshot | run := ended interrupted
        · exact absurd ⟨snapshot, interrupted⟩ terminal.2
        · exact run
      · rw [Row.close, Row.take, List.map_append, List.mem_append]
        exact Or.inr member
      · rw [running]
        decide
    next open' =>
      have working : result.state ∈ [StageState.running, .interrupted, .awaitingApproval] := by
        revert state open'
        unfold StageState.Committed
        cases result.state <;> simp
      refine ⟨kept.published, kept.interrupted, fun other known => Or.inl (current other known),
        listed, fun valid => held.update ⟨⟨valid, clean'⟩, fun receipt has =>
          absurd has (absent receipt), fun _ => ⟨unreceipted.receipt, ?_, ?_, fun input' given' =>
            ⟨(unreceipted.input input' given').1, Or.inr working⟩⟩⟩ listed⟩
      · change result.state ≠ _
        revert working
        cases result.state <;> decide
      · change result.state ∈ _ → _
        revert working
        cases result.state <;> simp
  next => exact kept

theorem record_valid {disk : Disk} {saved : Disk × Rows}
    (returned : record formats plan surroundings disk rows = .ok saved) (listed : stage ∈ plan.stages) :
    validateRow formats (rows stage.id) stage.toEntry = .ok () := by
  unfold record at returned
  obtain ⟨⟨projected, action⟩, found, returned⟩ := bind_eq_ok returned
  obtain ⟨_, stored, _⟩ := bind_eq_ok returned
  obtain ⟨_, valid, _⟩ := bind_eq_ok stored
  obtain ⟨before, same, row⟩ := (project_rows found).1 stage listed
  rw [← same, ← projectRow_valid row]
  exact forM_eq_ok.mp valid stage listed

theorem keep_kept {disk : Disk} (kept : Kept formats plan { disk, session := .finished rows stage row })
    (saves : ∀ other ∈ plan.stages, Hidden plan disk other → ∃ saved,
      record formats plan surroundings disk (Function.update rows stage.id row) = .ok saved) :
    Kept formats plan
      (step formats plan { disk, session := .finished rows stage row } (.keep surroundings)) := by
  obtain ⟨listed, held⟩ := kept.session
  have current : (∀ saved, record formats plan surroundings disk (Function.update rows stage.id row) ≠
      .ok saved) → ∀ stage ∈ plan.stages,
        Current formats plan disk stage (disk.rows plan stage.id) := by
    intro failed
    refine kept.shown fun other known hidden => ?_
    obtain ⟨saved, returned⟩ := saves other known hidden
    exact failed saved returned
  by_cases valid : validateRow formats row stage.toEntry = .ok ()
  · exact recorded_kept kept.published kept.interrupted (held valid) current
      fun _ _ _ held => ⟨held, fun _ _ _ => rfl⟩
  · have failed : ∀ saved, record formats plan surroundings disk
        (Function.update rows stage.id row) ≠ .ok saved := by
      intro saved returned
      have accepted := record_valid returned listed
      rw [Function.update_self] at accepted
      exact valid accepted
    dsimp only [step]
    unfold recorded
    cases returned : record formats plan surroundings disk (Function.update rows stage.id row) with
    | error failure => exact idle_kept kept.published kept.interrupted (current failed)
    | ok saved => exact absurd returned (failed saved)

theorem step_kept {event : Event} (kept : Kept formats plan engine)
    (careful : Careful formats plan engine event) :
    Kept formats plan (step formats plan engine event) := by
  obtain ⟨disk, session⟩ := engine
  obtain ⟨survives, saves⟩ := careful
  cases event with
  | enter =>
    cases session with
    | idle => exact enter_kept kept
    | _ => exact kept
  | record surroundings =>
    cases session with
    | opened rows => exact record_kept kept
    | _ => exact kept
  | interrupt surroundings id =>
    cases session with
    | opened rows => exact interrupt_kept kept id
    | _ => exact kept
  | dispatch surroundings id contracts =>
    cases session with
    | opened rows => exact dispatch_kept kept id contracts
    | _ => exact kept
  | finish result now killed =>
    obtain rfl : killed = none := survives
    cases session with
    | dispatched rows stage => exact finish_kept kept
    | _ => exact kept
  | approve id result now killed =>
    obtain rfl : killed = none := survives
    cases session with
    | opened rows => exact approve_kept kept
    | _ => exact kept
  | keep surroundings =>
    cases session with
    | finished rows stage row =>
      exact keep_kept kept fun other known hidden =>
        (saves other known hidden).2 surroundings rows stage row rfl rfl
    | _ => exact kept
  | stop =>
    have shown := kept.shown fun stage listed hidden => (saves stage listed hidden).1 rfl
    cases session with
    | _ => exact idle_kept kept.published kept.interrupted shown

end

end SparseLab.Campaign
