import SparseLab.Campaign.CrashSafety

/-! What a projection asks for next. -/

namespace SparseLab.Campaign

open Library

section

variable {formats : Formats} {plan : Plan} {surroundings : Surroundings} {stage : Stage}
  {rows rows' : Rows} {row : Row} {action : Option (String × Verb)}

theorem projectRow_started (returned : projectRow formats plan surroundings rows stage = .ok row) :
    row.state ≠ .notStarted := by
  obtain ⟨waited, origin, shape⟩ := projectRow_cases returned
  have started : waited.state ≠ .notStarted := by
    obtain ⟨left, rfl⟩ | ⟨-, rfl⟩ := origin
    · intro fresh
      have listed := left.1
      rw [fresh] at listed
      exact absurd listed (by decide)
    · unfold projectWaiting
      dsimp only
      split
      next => simp
      next => split <;> simp
  obtain rfl | ⟨-, -, rfl⟩ := shape
  · exact started
  · simp

theorem projectRow_ready (fresh : ¬ settled (rows stage.id))
    (complete : ∀ name ∈ stage.requires, (rows name).state = .complete)
    (available : availability surroundings stage = .ok none)
    (returned : projectRow formats plan surroundings rows stage = .ok row) : row.state = .ready := by
  have waiting : (projectWaiting surroundings rows stage).state = .ready := by
    unfold projectWaiting
    rw [if_neg (by simpa using complete), available]
  obtain ⟨_, ⟨left, -⟩ | ⟨-, rfl⟩, rfl | ⟨-, awaiting, -⟩⟩ := projectRow_cases returned
  · exact absurd left fresh
  · exact absurd left fresh
  · exact waiting
  · rw [waiting] at awaiting
    cases awaiting

theorem nextAction_first (started : row.state ≠ .notStarted) : nextAction none stage row =
    if row.state = .complete then none else some (stage.id, verb stage row) := by
  unfold nextAction
  cases found : row.state <;> simp [found] at started ⊢

theorem fold_asked {stages : List Stage} {asked : String × Verb}
    (returned : stages.foldlM (fun projected stage => do
      let row ← projectRow formats plan surroundings projected.1 stage
      pure (Function.update projected.1 stage.id row, nextAction projected.2 stage row))
        (rows, some asked) = .ok (rows', action)) : action = some asked := by
  induction stages generalizing rows with
  | nil =>
    cases returned
    rfl
  | cons stage stages ih =>
    rw [List.foldlM_cons] at returned
    obtain ⟨⟨_, _⟩, first, returned⟩ := bind_eq_ok returned
    obtain ⟨row, _, first⟩ := bind_eq_ok first
    cases first
    exact ih returned

/-- The action of a projection when `earlier` is complete and `stage` is not. -/
structure Asked (surroundings : Surroundings) (rows rows' : Rows) (earlier : List Stage)
    (stage : Stage) (action : Option (String × Verb)) : Prop where
  action : action = some (stage.id, verb stage (rows' stage.id))
  earlier : ∀ other ∈ earlier, (rows' other.id).state = .complete
  required : ∀ name ∈ stage.requires, (rows' name).state = .complete
  incomplete : (rows' stage.id).state ≠ .complete
  ready : ¬ settled (rows stage.id) → availability surroundings stage = .ok none →
    verb stage (rows' stage.id) = .apply

/-- A projection asks for nothing with every stage complete, else for the first that is not. -/
def Progresses (plan : Plan) (surroundings : Surroundings) (rows rows' : Rows)
    (action : Option (String × Verb)) : Prop :=
  (action = none ∧ ∀ stage ∈ plan.stages, (rows' stage.id).state = .complete) ∨
    ∃ earlier stage later, plan.stages = earlier ++ stage :: later ∧
      Asked surroundings rows rows' earlier stage action

theorem fold_asks {front stages : List Stage} (split : plan.stages = front ++ stages)
    (complete : ∀ other ∈ front, (rows other.id).state = .complete)
    (returned : stages.foldlM (fun projected stage => do
      let row ← projectRow formats plan surroundings projected.1 stage
      pure (Function.update projected.1 stage.id row, nextAction projected.2 stage row))
        (rows, none) = .ok (rows', action)) :
    Progresses plan surroundings rows rows' action := by
  induction stages generalizing rows front with
  | nil =>
    cases returned
    rw [List.append_nil] at split
    exact .inl ⟨rfl, split ▸ complete⟩
  | cons stage stages ih =>
    have unique := plan.unique
    rw [split, List.map_append, List.nodup_append] at unique
    obtain ⟨-, single, apart⟩ := unique
    rw [List.foldlM_cons] at returned
    obtain ⟨⟨_, _⟩, first, returned⟩ := bind_eq_ok returned
    obtain ⟨row, projected, first⟩ := bind_eq_ok first
    cases first
    have others := (project_fold (List.nodup_cons.mp single).2 returned).1
    have mine : rows' stage.id = row := by
      rw [others stage.id (List.nodup_cons.mp single).1, Function.update_self]
    have before : ∀ other ∈ front, other.id ∉ (stage :: stages).map (·.id) := fun other member listed =>
      apart _ (List.mem_map_of_mem member) _ listed rfl
    dsimp only at returned
    rw [nextAction_first (projectRow_started projected)] at returned
    by_cases done : row.state = .complete
    · rw [if_pos done] at returned
      have next : plan.stages = (front ++ [stage]) ++ stages := by simpa using split
      obtain none | ⟨earlier, other, later, parts, asked⟩ := ih next (by
        intro other member
        rcases List.mem_append.mp member with old | new
        · rw [Function.update_of_ne (List.ne_of_not_mem_cons (before other old))]
          exact complete other old
        · rw [List.mem_singleton.mp new, Function.update_self]
          exact done) returned
      · exact .inl none
      · have differs : other.id ≠ stage.id := fun same =>
          asked.incomplete (by rw [same, mine]; exact done)
        have ready := asked.ready
        rw [Function.update_of_ne differs] at ready
        exact .inr ⟨earlier, other, later, parts, { asked with ready }⟩
    · rw [if_neg done] at returned
      have kept : ∀ other ∈ front, (rows' other.id).state = .complete := by
        intro other member
        obtain ⟨differs, absent⟩ := not_or.mp (mt List.mem_cons.mpr (before other member))
        rw [others _ absent, Function.update_of_ne differs]
        exact complete other member
      have required : ∀ name ∈ stage.requires, ∃ other ∈ front, other.id = name := fun name need =>
        List.mem_map.mp (plan.ordered front stage stages split name need)
      refine .inr ⟨front, stage, stages, split, by rw [fold_asked returned, mine], kept, ?_, mine ▸ done, ?_⟩
      · intro name need
        obtain ⟨other, inside, rfl⟩ := required name need
        exact kept other inside
      · intro fresh available
        rw [verb, mine, projectRow_ready fresh (fun name need => ?_) available projected]
        obtain ⟨other, inside, rfl⟩ := required name need
        exact complete other inside

/-- A projection asks for nothing when every stage is complete. Otherwise it asks for the first
stage that is not; what that requires is complete, and one that was not decided and lacks nothing
is ready to apply. -/
theorem project_progresses (returned : project formats plan surroundings rows = .ok (rows', action)) :
    Progresses plan surroundings rows rows' action :=
  fold_asks (List.nil_append _).symm (fun _ member => absurd member List.not_mem_nil) returned

theorem project_progresses_reviewed : ∃ rows' action,
    project anyFormats reviewedPlan calm (initial reviewedPlan) = .ok (rows', action) ∧
      Progresses reviewedPlan calm (initial reviewedPlan) rows' action :=
  ⟨_, _, rfl, @project_progresses anyFormats reviewedPlan calm (initial reviewedPlan) _ _ rfl⟩

end

end SparseLab.Campaign
