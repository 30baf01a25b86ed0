import SparseLab.Campaign.Engine
import SparseLab.Campaign.Receipts

/-! What a projection does to the rows. -/

namespace SparseLab.Campaign

open Library

section

variable {formats : Formats} {plan : Plan} {disk : Disk} {surroundings : Surroundings}
  {stage : Stage} {rows rows' : Rows} {row row' : Row}

theorem Merged.committed (published : Published formats plan disk) (listed : stage ∈ plan.stages)
    (merged : Merged formats plan disk stage row) {receipt : Receipt}
    (has : Has disk stage.id receipt) :
    row.state.Committed ∧ row.state = receipt.state ∧ row.receipt.isSome := by
  have agrees := merged.agrees receipt has
  have same : row.state = receipt.state := (compareCommitted_ok.mp agrees.compared).1
  refine ⟨?_, same, ?_⟩
  · rw [same]
    exact (read_valid (published.read listed has)).2
  · rw [agrees.receipt]
    rfl

theorem Merged.settled (published : Published formats plan disk) (listed : stage ∈ plan.stages)
    (merged : Merged formats plan disk stage row) {receipt : Receipt}
    (has : Has disk stage.id receipt) : settled row := by
  obtain ⟨state, _, marked⟩ := merged.committed published listed has
  refine ⟨?_, fun _ none => ?_⟩
  · revert state
    unfold StageState.Committed
    cases row.state <;> decide
  · rw [none] at marked
    cases marked

structure Waits (stage : Stage) (row row' : Row) : Prop where
  entry : row'.entry = row.entry
  outputs : row'.outputs = row.outputs
  stageInput : row'.stageInput = row.stageInput
  receipt : row'.receipt = row.receipt
  verifiedAt : row'.verifiedAt = row.verifiedAt
  verification : row'.verification = row.verification
  keys : ∀ key ∈ row'.data.map Prod.fst, key = "blocked_by" ∨ key ∈ row.data.map Prod.fst
  incomplete : row'.state ≠ .complete
  failed : row'.state ∈ [StageState.failed, .inconclusive] → stage.kind ≠ .approval

theorem projectWaiting_waits (surroundings : Surroundings) (rows : Rows) (stage : Stage) :
    Waits stage (rows stage.id) (projectWaiting surroundings rows stage) := by
  have fewer : ∀ key ∈ ((rows stage.id).data.filter (·.1 ≠ "blocked_by")).map Prod.fst,
      key = "blocked_by" ∨ key ∈ (rows stage.id).data.map Prod.fst := by
    intro key member
    obtain ⟨field, member, named⟩ := List.mem_map.mp member
    exact Or.inr (named ▸ List.mem_map_of_mem (List.mem_filter.mp member).1)
  unfold projectWaiting
  dsimp only
  split
  next =>
    refine ⟨rfl, rfl, rfl, rfl, rfl, rfl, fun key member => ?_, by simp, by simp⟩
    obtain named | member := List.mem_cons.mp member
    · exact Or.inl named
    · exact Or.inr member
  next =>
    split
    next failure raised =>
      refine ⟨rfl, rfl, rfl, rfl, rfl, rfl, fewer, by simp, fun _ approval => ?_⟩
      rw [availability, approval] at raised
      cases raised
    next => exact ⟨rfl, rfl, rfl, rfl, rfl, rfl, fewer, by simp, by simp⟩
    next => exact ⟨rfl, rfl, rfl, rfl, rfl, rfl, fewer, by simp, by simp⟩

theorem Waits.merged (waits : Waits stage row row')
    (merged : Merged formats plan disk stage row) (waiting : ¬ settled row)
    (absent : ∀ receipt, ¬ Has disk stage.id receipt) : Merged formats plan disk stage row' := by
  have unreceipted := merged.unreceipted absent
  have approval : ∀ input, row.stageInput = some input →
      InputOf plan disk stage input ∧ stage.kind = .approval := by
    intro input given
    obtain ⟨bound, approval | state⟩ := unreceipted.input input given
    · exact ⟨bound, approval⟩
    · refine absurd ⟨?_, fun blocked => ?_⟩ waiting
      · revert state
        cases row.state <;> decide
      · rw [blocked] at state
        exact absurd state (by decide)
  refine ⟨⟨?_, fun key member => ?_⟩, fun receipt has => absurd has (absent receipt), fun _ =>
    ⟨waits.receipt.trans unreceipted.receipt, waits.incomplete, fun failed => ?_, fun input given => ?_⟩⟩
  · rw [← merged.valid]
    exact validateRow_congr waits.entry waits.outputs waits.stageInput waits.receipt waits.verifiedAt
      waits.verification _
  · obtain rfl | member := waits.keys key member
    · decide
    · exact merged.clean key member
  · cases given : row.stageInput with
    | none => rw [waits.stageInput, given]
    | some input => exact absurd (approval input given).2 (waits.failed failed)
  · obtain ⟨bound, kind⟩ := approval input (waits.stageInput.symm.trans given)
    exact ⟨bound, Or.inl kind⟩

theorem projectRow_cases (returned : projectRow formats plan surroundings rows stage = .ok row) :
    ∃ waited, (settled (rows stage.id) ∧ waited = rows stage.id ∨
        ¬ settled (rows stage.id) ∧ waited = projectWaiting surroundings rows stage) ∧
      (row = waited ∨ stage.kind = .approval ∧ waited.state = .awaitingApproval ∧
        row = { waited with
          state := .ready, reason := some "committed approval awaits gate reconciliation" }) := by
  refine ⟨if settled (rows stage.id) then rows stage.id else projectWaiting surroundings rows stage,
    ?_, ?_⟩
  · split
    next left => exact .inl ⟨left, rfl⟩
    next waiting => exact .inr ⟨waiting, rfl⟩
  · revert returned
    unfold projectRow
    generalize (if settled (rows stage.id) then rows stage.id
      else projectWaiting surroundings rows stage) = waited
    intro returned
    dsimp only at returned
    split at returned
    next awaiting =>
      obtain ⟨approved, _, returned⟩ := bind_eq_ok returned
      obtain rfl := Except.ok.inj returned
      cases approved with
      | true => exact .inr ⟨awaiting.1, awaiting.2, rfl⟩
      | false => exact .inl rfl
    next =>
      refine .inl ?_
      split at returned
      next =>
        obtain ⟨_, _, returned⟩ := bind_eq_ok returned
        obtain ⟨_, returned⟩ := refuseIf_bind_eq_ok.mp returned
        obtain ⟨_, _, returned⟩ := bind_eq_ok returned
        exact (Except.ok.inj returned).symm
      next => exact (Except.ok.inj returned).symm

theorem projectRow_merged (published : Published formats plan disk) (listed : stage ∈ plan.stages)
    (merged : Merged formats plan disk stage (rows stage.id))
    (returned : projectRow formats plan surroundings rows stage = .ok row) :
    Merged formats plan disk stage row := by
  obtain ⟨waited, origin, shape⟩ := projectRow_cases returned
  have kept : Merged formats plan disk stage waited := by
    obtain ⟨-, rfl⟩ | ⟨waiting, rfl⟩ := origin
    · exact merged
    · exact (projectWaiting_waits surroundings rows stage).merged merged waiting fun receipt has =>
        waiting (merged.settled published listed has)
  obtain rfl | ⟨kind, awaiting, rfl⟩ := shape
  · exact kept
  · have absent : ∀ receipt, ¬ Has disk stage.id receipt := by
      intro receipt has
      have state := (kept.committed published listed has).1
      rw [awaiting] at state
      exact absurd state (by decide)
    have unreceipted := kept.unreceipted absent
    refine ⟨⟨?_, kept.clean⟩, fun receipt has => absurd has (absent receipt), fun _ =>
      ⟨unreceipted.receipt, by simp, by simp, fun input given =>
        ⟨(unreceipted.input input given).1, Or.inl kind⟩⟩⟩
    rw [← kept.valid]
    exact validateRow_congr rfl rfl rfl rfl rfl rfl _

theorem projectRow_valid (returned : projectRow formats plan surroundings rows stage = .ok row)
    (expected : Entry) :
    validateRow formats row expected = validateRow formats (rows stage.id) expected := by
  obtain ⟨waited, origin, shape⟩ := projectRow_cases returned
  have kept : validateRow formats waited expected = validateRow formats (rows stage.id) expected := by
    obtain ⟨-, rfl⟩ | ⟨-, rfl⟩ := origin
    · rfl
    · have waits := projectWaiting_waits surroundings rows stage
      exact validateRow_congr waits.entry waits.outputs waits.stageInput waits.receipt
        waits.verifiedAt waits.verification expected
  obtain rfl | ⟨-, -, rfl⟩ := shape
  · exact kept
  · exact (validateRow_congr rfl rfl rfl rfl rfl rfl expected).trans kept

theorem projectRow_settled (left : settled (rows stage.id))
    (decided : (rows stage.id).state ≠ .awaitingApproval)
    (returned : projectRow formats plan surroundings rows stage = .ok row) : row = rows stage.id := by
  obtain ⟨waited, ⟨-, rfl⟩ | ⟨waiting, -⟩, rfl | ⟨-, awaiting, -⟩⟩ := projectRow_cases returned
  · rfl
  · exact absurd awaiting decided
  · exact absurd left waiting
  · exact absurd left waiting

theorem project_fold {stages : List Stage} (single : (stages.map (·.id)).Nodup)
    {action action' : Option (String × Verb)}
    (returned : stages.foldlM (fun projected stage => do
      let row ← projectRow formats plan surroundings projected.1 stage
      pure (Function.update projected.1 stage.id row, nextAction projected.2 stage row))
        (rows, action) = .ok (rows', action')) :
    (∀ id, id ∉ stages.map (·.id) → rows' id = rows id) ∧
      (∀ stage ∈ stages, ∃ before, before stage.id = rows stage.id ∧
        projectRow formats plan surroundings before stage = .ok (rows' stage.id)) ∧
      ∀ id acts, action' = some (id, acts) → action = some (id, acts) ∨
        ∃ stage ∈ stages, stage.id = id ∧ acts = verb stage (rows' stage.id) := by
  induction stages generalizing rows action with
  | nil =>
    cases returned
    exact ⟨fun _ _ => rfl, fun _ member => absurd member List.not_mem_nil,
      fun _ _ same => Or.inl same⟩
  | cons stage stages ih =>
    rw [List.foldlM_cons] at returned
    obtain ⟨⟨_, _⟩, first, returned⟩ := bind_eq_ok returned
    obtain ⟨row, projected, first⟩ := bind_eq_ok first
    cases first
    rw [List.map_cons, List.nodup_cons] at single
    obtain ⟨others, each, acts⟩ := ih single.2 returned
    have mine : rows' stage.id = row := by
      rw [others stage.id single.1, Function.update_self]
    refine ⟨fun id apart => ?_, fun other member => ?_, fun id word same => ?_⟩
    · rw [List.map_cons, List.mem_cons, not_or] at apart
      rw [others id apart.2, Function.update_of_ne apart.1]
    · obtain rfl | member := List.mem_cons.mp member
      · exact ⟨rows, rfl, mine ▸ projected⟩
      · have differs : other.id ≠ stage.id := fun named =>
          single.1 (named ▸ List.mem_map_of_mem member)
        obtain ⟨before, same, projected⟩ := each other member
        exact ⟨before, same.trans (Function.update_of_ne differs _ _), projected⟩
    · obtain earlier | ⟨other, member, found⟩ := acts id word same
      · unfold nextAction at earlier
        split at earlier
        next =>
          cases earlier
          exact Or.inr ⟨stage, List.mem_cons_self, rfl, by rw [mine]⟩
        next => exact Or.inl earlier
      · exact Or.inr ⟨other, List.mem_cons_of_mem _ member, found⟩

theorem project_rows {action : Option (String × Verb)}
    (returned : project formats plan surroundings rows = .ok (rows', action)) :
    (∀ stage ∈ plan.stages, ∃ before, before stage.id = rows stage.id ∧
      projectRow formats plan surroundings before stage = .ok (rows' stage.id)) ∧
      ∀ id acts, action = some (id, acts) →
        ∃ stage ∈ plan.stages, stage.id = id ∧ acts = verb stage (rows' stage.id) := by
  obtain ⟨_, each, acts⟩ := project_fold plan.unique returned
  refine ⟨each, fun id word same => ?_⟩
  obtain none | found := acts id word same
  · cases none
  · exact found

def Held (formats : Formats) (plan : Plan) (disk : Disk) (rows : Rows) : Prop :=
  ∀ stage ∈ plan.stages, Merged formats plan disk stage (rows stage.id)

theorem project_held (published : Published formats plan disk)
    (held : Held formats plan disk rows) {action : Option (String × Verb)}
    (returned : project formats plan surroundings rows = .ok (rows', action)) :
    Held formats plan disk rows' := by
  intro stage listed
  obtain ⟨before, same, projected⟩ := (project_rows returned).1 stage listed
  exact projectRow_merged published listed (same ▸ held stage listed) projected

theorem project_settled {action : Option (String × Verb)}
    (returned : project formats plan surroundings rows = .ok (rows', action))
    (listed : stage ∈ plan.stages) (left : settled (rows stage.id))
    (decided : (rows stage.id).state ≠ .awaitingApproval) : rows' stage.id = rows stage.id := by
  obtain ⟨before, same, projected⟩ := (project_rows returned).1 stage listed
  rw [← same] at left decided ⊢
  exact projectRow_settled left decided projected

theorem verb_committed (state : row.state.Committed)
    (interrupted : row.state = .interrupted → stage.kind = .experimentRun) :
    ¬ (verb stage row = .apply ∨ verb stage row = .resume) := by
  unfold StageState.Committed at state
  unfold verb
  cases found : row.state with
  | interrupted => simp [interrupted found]
  | complete | blocked | failed | inconclusive => simp
  | notStarted | ready | running | awaitingApproval =>
    rw [found] at state
    exact absurd state (by decide)

theorem acts_unreceipted (published : Published formats plan disk)
    (held : Held formats plan disk rows) {id : String} {verbs : List Verb}
    (interrupted : ∀ stage ∈ plan.stages, ∀ receipt, Has disk stage.id receipt →
      receipt.state = .interrupted → stage.kind = .experimentRun)
    (working : ∀ word ∈ verbs, word = .apply ∨ word = .resume)
    (acted : acts formats plan surroundings rows id verbs = some stage) :
    stage ∈ plan.stages ∧ stage.id = id ∧ ∀ receipt, ¬ Has disk stage.id receipt := by
  unfold acts at acted
  split at acted
  next rows' asked word returned =>
    split at acted
    next matching =>
      obtain ⟨other, known, named, same⟩ := (project_rows returned).2 asked word rfl
      rw [← named.trans matching.1, Plan.found known] at acted
      obtain rfl : other = stage := Option.some.inj acted
      refine ⟨known, named.trans matching.1, fun receipt has => ?_⟩
      obtain ⟨state, shown, _⟩ := (project_held published held returned other known).committed
        published known has
      have acting := working word matching.2
      rw [same] at acting
      exact verb_committed state (fun found =>
        interrupted other known receipt has (shown.symm.trans found)) acting
    next => cases acted
  next => cases acted

end

end SparseLab.Campaign
