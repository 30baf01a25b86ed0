import SparseLab.Campaign.PlanChecks

/-! The accepted plans are the well-formed ones, in an order that respects their requirements. -/

namespace SparseLab.Campaign.Plans

open Library Relation

structure WellFormed (plan : CampaignPlan) : Prop where
  safe : safeId plan.id = true
  unique : (plan.stages.map (·.id)).Nodup
  known : ∀ stage ∈ plan.stages, ∀ requirement ∈ stage.requires,
    Declared plan.stages requirement
  satisfied : ∀ stage ∈ plan.stages, Satisfied plan.stages stage
  acyclic : Acyclic (Requires CampaignStage.id CampaignStage.requires plan.stages)

def Escapes (plan : CampaignPlan) : Prop :=
  safeId plan.id = true ∧ (plan.stages.map (·.id)).Nodup ∧
    ∃ before stage after, plan.stages = before ++ stage :: after ∧
      (∀ earlier ∈ before, Sound plan.stages earlier) ∧ Strays plan.stages stage

/-- What validation promises of a plan, and `load_campaign` of a document that declares it. -/
structure Validates (plan : CampaignPlan) : Prop where
  accepts : validPlan plan = .ok plan ↔ WellFormed plan
  refuses : ¬ WellFormed plan → ∃ message, validPlan plan = .error (.valueError message) ∧
    ∀ path report paths, loadCampaign path report paths plan =
      .error (.valueError ("invalid campaign plan " ++ path ++ ": " ++ report message))
  ordered : WellFormed plan → ∃ ordered, orderedStages plan.stages = .ok ordered ∧
    Orders CampaignStage.id CampaignStage.requires [] plan.stages ordered

theorem Sound.not_strays {stages : List CampaignStage} {stage : CampaignStage}
    (sound : Sound stages stage) : ¬ Strays stages stage := by
  rintro ⟨approval, _, _, id, ancestor, undeclared⟩
  exact undeclared (sound.ancestors approval id ancestor)

theorem WellFormed.sound {plan : CampaignPlan} (formed : WellFormed plan)
    {stage : CampaignStage} (member : stage ∈ plan.stages) : Sound plan.stages stage := by
  constructor
  · intro itself
    exact formed.acyclic stage.id (.single ⟨stage, member, rfl, itself⟩)
  · exact formed.known stage member
  · exact formed.satisfied stage member
  · intro _ id ancestor
    obtain ⟨_, _, upstream, listed, _, required⟩ := TransGen.tail'_iff.mp ancestor
    exact formed.known upstream listed id required

section

variable {plan : CampaignPlan}

theorem validPlan_checks (safe : safeId plan.id = true)
    (unique : (plan.stages.map (·.id)).Nodup) :
    validPlan plan = plan.stages.forM (checkStage plan.stages) >>= fun _ =>
      orderedStages plan.stages >>= fun _ => .ok plan := by
  unfold validPlan refuseIf
  rw [if_neg (by simpa using safe), if_neg (not_not.mpr unique)]
  rfl

theorem checks_pass (unique : (plan.stages.map (·.id)).Nodup) {stages : List CampaignStage}
    (inside : ∀ stage ∈ stages, stage ∈ plan.stages)
    (sound : ∀ stage ∈ stages, Sound plan.stages stage) :
    ∀ stage ∈ stages, checkStage plan.stages stage = .ok ⟨⟩ := by
  intro stage member
  have cases := (checkStage_cases unique (inside stage member)).1
  exact (cases (sound stage member).not_strays).eq_ok_iff.mpr (sound stage member)

theorem forM_checks (unique : (plan.stages.map (·.id)).Nodup)
    (sound : ∀ stage ∈ plan.stages, Sound plan.stages stage) :
    plan.stages.forM (checkStage plan.stages) = .ok ⟨⟩ := by
  have each := checks_pass unique (fun _ => id) sound
  have decides : Decides IsValueError (∀ stage ∈ plan.stages, True)
      (plan.stages.forM (checkStage plan.stages)) := by
    apply Decides.forM
    intro stage member
    rw [each stage member]
    exact Decides.pass
  exact decides.eq_ok_iff.mpr fun _ _ => trivial

theorem orderedStages_exists (formed : WellFormed plan) :
    ∃ ordered, orderedStages plan.stages = .ok ordered ∧
      Orders CampaignStage.id CampaignStage.requires [] plan.stages ordered := by
  have related : ∀ stage ∈ plan.stages, ∀ needed ∈ stage.requires,
      Requires CampaignStage.id CampaignStage.requires plan.stages stage.id needed :=
    fun stage member _ required => ⟨stage, member, rfl, required⟩
  have known : ∀ stage ∈ plan.stages, ∀ needed ∈ stage.requires,
      needed ∈ [] ∨ needed ∈ plan.stages.map CampaignStage.id :=
    fun stage member needed required => .inr (formed.known stage member needed required)
  obtain ⟨ordered, found⟩ := readyOrder_exists formed.acyclic related known
  refine ⟨ordered, ?_, readyOrder_orders found⟩
  rw [orderedStages, found]

theorem orderedStages_cyclic (unique : (plan.stages.map (·.id)).Nodup)
    (cyclic : ¬ Acyclic (Requires CampaignStage.id CampaignStage.requires plan.stages)) :
    orderedStages plan.stages = .error (.valueError "campaign stage dependency cycle") := by
  unfold orderedStages
  cases found : readyOrder CampaignStage.id CampaignStage.requires [] plan.stages with
  | none => rfl
  | some ordered => exact absurd (acyclic_of_orders unique (readyOrder_orders found)) cyclic

theorem validPlan_ok (formed : WellFormed plan) : validPlan plan = .ok plan := by
  obtain ⟨ordered, found, _⟩ := orderedStages_exists formed
  rw [validPlan_checks formed.safe formed.unique,
    forM_checks formed.unique fun stage member => formed.sound member, found]
  rfl

theorem validPlan_raises (safe : safeId plan.id = true)
    (unique : (plan.stages.map (·.id)).Nodup) {before after : List CampaignStage}
    {stage : CampaignStage} {raised : Raised} (split : plan.stages = before ++ stage :: after)
    (sound : ∀ earlier ∈ before, Sound plan.stages earlier)
    (failed : checkStage plan.stages stage = .error raised) : validPlan plan = .error raised := by
  have inside : ∀ earlier ∈ before, earlier ∈ plan.stages := by
    intro earlier member
    rw [split]
    exact List.mem_append_left _ member
  have passed : (before ++ stage :: after).forM (checkStage plan.stages) = .error raised :=
    forM_raises (checks_pass unique inside sound) failed
  rw [← split] at passed
  rw [validPlan_checks safe unique, passed]
  rfl

theorem validPlan_escapes (escapes : Escapes plan) :
    ∃ name, validPlan plan = .error (.keyError name) := by
  obtain ⟨safe, unique, before, stage, after, split, sound, strays⟩ := escapes
  have member : stage ∈ plan.stages := by
    rw [split]
    exact List.mem_append_right _ List.mem_cons_self
  obtain ⟨name, failed⟩ := (checkStage_cases unique member).2 strays
  exact ⟨name, validPlan_raises safe unique split sound failed⟩

theorem validPlan_refuses (malformed : ¬ WellFormed plan) (stays : ¬ Escapes plan) :
    ∃ message, validPlan plan = .error (.valueError message) := by
  by_cases safe : safeId plan.id = true
  · by_cases unique : (plan.stages.map (·.id)).Nodup
    · rcases all_or_first_failing (Sound plan.stages) plan.stages with
        all | ⟨before, stage, after, split, sound, unsound⟩
      · have cyclic : ¬ Acyclic (Requires CampaignStage.id CampaignStage.requires plan.stages) := by
          intro acyclic
          exact malformed ⟨safe, unique, fun stage member => (all stage member).known,
            fun stage member => (all stage member).satisfied, acyclic⟩
        rw [validPlan_checks safe unique, forM_checks unique all,
          orderedStages_cyclic unique cyclic]
        exact ⟨_, rfl⟩
      · have member : stage ∈ plan.stages := by
          rw [split]
          exact List.mem_append_right _ List.mem_cons_self
        have straight : ¬ Strays plan.stages stage := fun strays =>
          stays ⟨safe, unique, before, stage, after, split, sound, strays⟩
        obtain ⟨raised, failed, message, rfl⟩ :=
          ((checkStage_cases unique member).1 straight).raises unsound
        exact ⟨message, validPlan_raises safe unique split sound failed⟩
    · unfold validPlan refuseIf
      rw [if_neg (by simpa using safe), if_pos unique]
      exact ⟨_, rfl⟩
  · unfold validPlan refuseIf
    rw [if_pos safe]
    exact ⟨_, rfl⟩

theorem Escapes.malformed (escapes : Escapes plan) : ¬ WellFormed plan := by
  intro formed
  obtain ⟨name, raised⟩ := validPlan_escapes escapes
  rw [validPlan_ok formed] at raised
  cases raised

end

def strayPlan : CampaignPlan :=
  ⟨"pilot", [⟨"approve", ["build"], .approval []⟩, ⟨"build", ["ghost"], .corpusRelease⟩],
    List.cons_ne_nil _ _⟩

theorem strayPlan_malformed : ¬ WellFormed strayPlan := by
  intro formed
  have known := formed.known ⟨"build", ["ghost"], .corpusRelease⟩ (by decide) "ghost" (by decide)
  simp [Declared, strayPlan] at known

theorem strayPlan_raises : validPlan strayPlan = .error (.keyError "ghost") := by
  have walk : ancestors strayPlan.stages ⟨"approve", ["build"], .approval []⟩ =
      .error (.keyError "ghost") := by
    have built : requirementsOf strayPlan.stages "build" = some ["ghost"] := by decide
    have none : requirementsOf strayPlan.stages "ghost" = none := by decide
    have missed : explore (requirementsOf strayPlan.stages) (requiredNames strayPlan.stages)
        (requirementsOf_listed strayPlan.stages) ["build"] ["build"] = .error "ghost" :=
      (explore_found _ built).trans (explore_missing _ none)
    exact ancestors_missing missed
  have failed : checkStage strayPlan.stages ⟨"approve", ["build"], .approval []⟩ =
      .error (.keyError "ghost") := by
    change (ancestors strayPlan.stages ⟨"approve", ["build"], .approval []⟩ >>= _) = _
    rw [walk]
    rfl
  have safe : safeId strayPlan.id = true := by decide
  have unique : (strayPlan.stages.map (·.id)).Nodup := by decide
  have first : strayPlan.stages = [] ++ ⟨"approve", ["build"], .approval []⟩ ::
      [⟨"build", ["ghost"], .corpusRelease⟩] := rfl
  exact validPlan_raises safe unique first (List.forall_mem_nil _) failed

end SparseLab.Campaign.Plans
