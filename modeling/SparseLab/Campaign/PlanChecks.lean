import SparseLab.Campaign.PlanDeclarations
import SparseLab.Library.Checking

/-! What the checks of one stage mean for its references and bindings. -/

namespace SparseLab.Campaign.Plans

open Library Relation

section

variable (stages : List CampaignStage)

def Declared (id : String) : Prop :=
  id ∈ stages.map (·.id)

def Ancestor (stage : CampaignStage) (id : String) : Prop :=
  TransGen (Requires CampaignStage.id CampaignStage.requires stages) stage.id id

def Input (stage : CampaignStage) (reference : String) (producer : Declaration → Prop) : Prop :=
  reference ∈ stage.requires ∧
    ∃ upstream ∈ stages, upstream.id = reference ∧ producer upstream.declaration

def HasPlan (id plan : String) : Prop :=
  ∃ stage ∈ stages, stage.id = id ∧ stage.declaration.plan = some plan

def HasCollect (id collect : String) : Prop :=
  ∃ stage ∈ stages, stage.id = id ∧ stage.declaration.collect = some collect

def FirstCollection (plan id : String) : Prop :=
  ∃ stage ∈ stages, stage.id = id ∧ ∃ run, stage.declaration = .experimentCollect plan run []

def IsRelease (declaration : Declaration) : Prop :=
  declaration = .corpusRelease ∨ declaration = .artifactReference .corpusRelease

def IsTokenizer (declaration : Declaration) : Prop :=
  declaration = .tokenizerReference ∨ declaration = .artifactReference .tokenizer ∨
    declaration.kind = .tokenizerTrain

def IsSnapshot (declaration : Declaration) : Prop :=
  declaration = .datasetSnapshot ∨ declaration = .artifactReference .datasetSnapshot

def IsPrepared (declaration : Declaration) : Prop :=
  declaration = .artifactReference .preparedData ∨ declaration.kind = .dataPrepare

def OfKind (kind : StageKind) (declaration : Declaration) : Prop :=
  declaration.kind = kind

def Satisfied (stage : CampaignStage) : Prop :=
  match stage.declaration with
  | .tokenizerTrain snapshot => ∀ given ∈ snapshot, Input stages stage given IsSnapshot
  | .dataPrepare tokenizer snapshot =>
    (∀ given ∈ snapshot, Input stages stage given IsSnapshot) ∧
      Input stages stage tokenizer IsTokenizer
  | .corpusReadiness corpus policy tokenizer =>
    Input stages stage corpus IsRelease ∧
      (∀ given ∈ tokenizer, Input stages stage given IsTokenizer) ∧
      ¬ (policy.tokenBased ∧ tokenizer = none)
  | .tokenMeasurement corpus tokenizer =>
    Input stages stage corpus IsRelease ∧ Input stages stage tokenizer IsTokenizer
  | .experimentPlan mode tokenizer prepared corpus =>
    Input stages stage tokenizer IsTokenizer ∧ Input stages stage prepared IsPrepared ∧
      (mode = .bind → Input stages stage prepared (OfKind .dataPrepare)) ∧
      ∀ given ∈ corpus, Input stages stage given IsRelease
  | .runtimeAcceptance plan => Input stages stage plan (OfKind .experimentPlan)
  | .experimentRun plan runtime =>
    Input stages stage plan (OfKind .experimentPlan) ∧
      Input stages stage runtime (OfKind .runtimeAcceptance) ∧ HasPlan stages runtime plan
  | .experimentCollect plan run evaluations =>
    Input stages stage plan (OfKind .experimentPlan) ∧
      Input stages stage run (OfKind .experimentRun) ∧ HasPlan stages run plan ∧
      ∀ reference ∈ evaluations, Input stages stage reference (OfKind .evaluation) ∧
        ∃ collect, HasCollect stages reference collect ∧ FirstCollection stages plan collect
  | .evaluation collect runtime =>
    Input stages stage collect (OfKind .experimentCollect) ∧
      ∀ given ∈ runtime, Input stages stage given (OfKind .runtimeAcceptance) ∧
        ∃ plan, HasPlan stages given plan ∧ HasPlan stages collect plan
  | .generationPanel collect evaluation runtime =>
    Input stages stage collect (OfKind .experimentCollect) ∧
      Input stages stage evaluation (OfKind .evaluation) ∧
      Input stages stage runtime (OfKind .runtimeAcceptance) ∧
      HasCollect stages evaluation collect ∧
      ∃ plan, HasPlan stages runtime plan ∧ HasPlan stages collect plan
  | .modelReadiness evaluation => Input stages stage evaluation (OfKind .evaluation)
  | .approval bind => ∀ reference ∈ bind, Ancestor stages stage reference
  | .artifactReference _ | .corpusRelease | .datasetSnapshot | .tokenizerReference => True

end

def IsValueError (raised : Raised) : Prop :=
  ∃ message, raised = .valueError message

section

variable {stages : List CampaignStage} (unique : (stages.map (·.id)).Nodup)
  {stage : CampaignStage} (known : ∀ requirement ∈ stage.requires, Declared stages requirement)

theorem refuse_value {refused : Prop} [Decidable refused] {message : String} :
    Decides IsValueError (¬ refused) (refuseIf refused (Raised.valueError message)) :=
  Decides.refuse ⟨message, rfl⟩

section

include unique

theorem byId_eq {found : CampaignStage} (member : found ∈ stages) :
    byId stages found.id = some found := by
  have some : (byId stages found.id).isSome := by
    rw [byId, List.find?_isSome]
    exact ⟨found, List.mem_reverse.mpr member, by simp⟩
  obtain ⟨other, named⟩ := Option.isSome_iff_exists.mp some
  have listed := List.mem_reverse.mp (List.mem_of_find?_eq_some named)
  have same : other.id = found.id := by simpa using List.find?_some named
  rw [named, List.inj_on_of_nodup_map unique listed member same]

theorem stageNamed_eq {found : CampaignStage} (member : found ∈ stages) :
    stageNamed stages found.id = .ok found := by
  rw [stageNamed, byId_eq unique member]

theorem planNamed_ok {id plan : String} (has : HasPlan stages id plan) :
    planNamed stages id = .ok plan := by
  obtain ⟨found, member, rfl, same⟩ := has
  rw [planNamed, stageNamed_eq unique member]
  change getattr "plan" found.declaration.plan = _
  rw [same]
  rfl

theorem collectNamed_ok {id collect : String} (has : HasCollect stages id collect) :
    collectNamed stages id = .ok collect := by
  obtain ⟨found, member, rfl, same⟩ := has
  rw [collectNamed, stageNamed_eq unique member]
  change getattr "collect" found.declaration.collect = _
  rw [same]
  rfl

theorem hasPlan_iff {id plan other : String} (has : HasPlan stages id plan) :
    HasPlan stages id other ↔ plan = other := by
  constructor
  · intro others
    have first := planNamed_ok unique has
    rw [planNamed_ok unique others] at first
    exact (Except.ok.inj first).symm
  · rintro rfl
    exact has

theorem hasCollect_iff {id collect other : String} (has : HasCollect stages id collect) :
    HasCollect stages id other ↔ collect = other := by
  constructor
  · intro others
    have first := collectNamed_ok unique has
    rw [collectNamed_ok unique others] at first
    exact (Except.ok.inj first).symm
  · rintro rfl
    exact has

theorem firstCollection_iff {plan id : String} :
    firstCollection plan (byId stages id) = true ↔ FirstCollection stages plan id := by
  constructor
  · intro first
    cases named : byId stages id with
    | none => simp [named, firstCollection] at first
    | some found =>
      have member := List.mem_reverse.mp (List.mem_of_find?_eq_some named)
      have same : found.id = id := by simpa using List.find?_some named
      obtain ⟨name, requires, declaration⟩ := found
      rw [named] at first
      cases declaration <;> simp [firstCollection] at first
      case experimentCollect collected run evaluations =>
        exact ⟨_, member, same, run, by rw [first.1, first.2]⟩
  · rintro ⟨found, member, rfl, run, same⟩
    rw [byId_eq unique member]
    obtain ⟨name, requires, declaration⟩ := found
    cases same
    simp [firstCollection]

end

theorem Input.plan {reference : String} {producer : Declaration → Prop}
    (input : Input stages stage reference producer)
    (planned : ∀ declaration, producer declaration → ∃ plan, declaration.plan = some plan) :
    ∃ plan, HasPlan stages reference plan := by
  obtain ⟨_, upstream, member, same, produces⟩ := input
  obtain ⟨plan, has⟩ := planned _ produces
  exact ⟨plan, upstream, member, same, has⟩

theorem Input.collect {reference : String}
    (input : Input stages stage reference (OfKind .evaluation)) :
    ∃ collect, HasCollect stages reference collect := by
  obtain ⟨_, upstream, member, same, produces⟩ := input
  obtain ⟨name, requires, declaration⟩ := upstream
  cases declaration <;> cases produces
  exact ⟨_, _, member, same, rfl⟩

theorem planned {kind : StageKind}
    (plans : kind = .runtimeAcceptance ∨ kind = .experimentRun ∨ kind = .experimentCollect)
    (declaration : Declaration) (produces : OfKind kind declaration) :
    ∃ plan, declaration.plan = some plan := by
  rw [OfKind] at produces
  subst produces
  cases declaration <;> simp [Declaration.plan, Declaration.kind] at plans ⊢

theorem allows_release (declaration : Declaration) :
    allows releaseProducers declaration = true ↔ IsRelease declaration := by
  cases declaration <;>
    simp [allows, releaseProducers, IsRelease, Declaration.kind, Declaration.artifact]

theorem allows_tokenizer (declaration : Declaration) :
    allows tokenizerProducers declaration = true ↔ IsTokenizer declaration := by
  cases declaration <;>
    simp [allows, tokenizerProducers, IsTokenizer, Declaration.kind, Declaration.artifact]

theorem allows_snapshot (declaration : Declaration) :
    allows snapshotProducers declaration = true ↔ IsSnapshot declaration := by
  cases declaration <;>
    simp [allows, snapshotProducers, IsSnapshot, Declaration.kind, Declaration.artifact]

theorem allows_prepared (declaration : Declaration) :
    allows preparedProducers declaration = true ↔ IsPrepared declaration := by
  cases declaration <;>
    simp [allows, preparedProducers, IsPrepared, Declaration.kind, Declaration.artifact]

theorem allows_kind (kind : StageKind) (declaration : Declaration) :
    allows [(kind, none)] declaration = true ↔ OfKind kind declaration := by
  simp [allows, OfKind]

include unique known

theorem inputIs_decides {reference : String} {allowed : List Producer}
    {producer : Declaration → Prop}
    (same : ∀ declaration, allows allowed declaration = true ↔ producer declaration) :
    Decides IsValueError (Input stages stage reference producer)
      (inputIs stages stage reference allowed) := by
  unfold inputIs
  have checked : Decides IsValueError
      (¬ reference ∉ stage.requires ∧ Input stages stage reference producer)
      (inputIs stages stage reference allowed) := by
    apply Decides.bind refuse_value
    intro listed
    obtain ⟨upstream, member, rfl⟩ := List.mem_map.mp (known reference (not_not.mp listed))
    rw [stageNamed_eq unique member]
    apply Decides.congr refuse_value
    rw [not_not, same]
    constructor
    · intro produces
      exact ⟨not_not.mp listed, upstream, member, rfl, produces⟩
    · rintro ⟨_, other, inside, named, produces⟩
      rwa [List.inj_on_of_nodup_map unique inside member named] at produces
  exact checked.congr ⟨And.right, fun input => ⟨not_not.mpr input.1, input⟩⟩

omit known in
theorem plan_decides {reference plan expected message : String}
    (has : HasPlan stages reference plan) :
    Decides IsValueError (HasPlan stages reference expected)
      (refuseIf (plan ≠ expected) (.valueError message)) :=
  refuse_value.congr (by rw [not_not, hasPlan_iff unique has])

omit known in
theorem collect_decides {reference collect expected message : String}
    (has : HasCollect stages reference collect) :
    Decides IsValueError (HasCollect stages reference expected)
      (refuseIf (collect ≠ expected) (.valueError message)) :=
  refuse_value.congr (by rw [not_not, hasCollect_iff unique has])

omit known in
theorem same_plan_decides {reference other message : String}
    (has : ∃ plan, HasPlan stages reference plan) (others : ∃ plan, HasPlan stages other plan) :
    Decides IsValueError (∃ plan, HasPlan stages reference plan ∧ HasPlan stages other plan) (do
      let first ← planNamed stages reference
      let second ← planNamed stages other
      refuseIf (first ≠ second) (.valueError message)) := by
  obtain ⟨first, has⟩ := has
  obtain ⟨second, others⟩ := others
  rw [planNamed_ok unique has, planNamed_ok unique others]
  apply (plan_decides unique has).congr
  constructor
  · exact fun same => ⟨second, same, others⟩
  · rintro ⟨plan, one, two⟩
    rwa [(hasPlan_iff unique others).mp two]

theorem checkInputs_decides (other : ∀ bind, stage.declaration ≠ .approval bind) :
    Decides IsValueError (Satisfied stages stage) (checkInputs stages stage) := by
  have input {reference : String} {allowed : List Producer} {producer : Declaration → Prop}
      (same : ∀ declaration, allows allowed declaration = true ↔ producer declaration) :=
    @inputIs_decides stages unique stage known reference allowed producer same
  unfold Satisfied checkInputs
  cases declared : stage.declaration <;> dsimp only
  case tokenizerTrain snapshot => exact Decides.option fun given _ => input allows_snapshot
  case dataPrepare tokenizer snapshot =>
    exact (Decides.option fun given _ => input allows_snapshot).bind fun _ =>
      input allows_tokenizer
  case corpusReadiness corpus policy tokenizer =>
    exact (input allows_release).bind fun _ =>
      (Decides.option fun given _ => input allows_tokenizer).bind fun _ => refuse_value
  case tokenMeasurement corpus tokenizer =>
    exact (input allows_release).bind fun _ => input allows_tokenizer
  case experimentPlan mode tokenizer prepared corpus =>
    refine (input allows_tokenizer).bind fun _ => (input allows_prepared).bind fun prepares => ?_
    have last : Decides IsValueError (∀ given ∈ corpus, Input stages stage given IsRelease)
        (corpus.forM fun corpus => inputIs stages stage corpus releaseProducers) :=
      Decides.option fun given _ => input allows_release
    by_cases bound : mode = .bind
    · obtain ⟨listed, upstream, member, rfl, _⟩ := prepares
      simp only [if_pos bound, stageNamed_eq unique member]
      have bind : Decides IsValueError
          (mode = .bind → Input stages stage upstream.id (OfKind .dataPrepare))
          (refuseIf (upstream.declaration.kind ≠ .dataPrepare)
            (.valueError "bind mode requires a data_prepare stage with its run config")) := by
        apply refuse_value.congr
        rw [not_not]
        constructor
        · exact fun same _ => ⟨listed, upstream, member, rfl, same⟩
        · intro same
          obtain ⟨_, found, inside, named, produces⟩ := same bound
          rwa [List.inj_on_of_nodup_map unique inside member named] at produces
      exact bind.bind fun _ => last
    · simp only [if_neg bound]
      exact last.congr ⟨fun all => ⟨fun same => absurd same bound, all⟩, And.right⟩
  case runtimeAcceptance plan => exact input (allows_kind _)
  case experimentRun plan runtime =>
    refine (input (allows_kind _)).bind fun _ => (input (allows_kind _)).bind fun accepts => ?_
    obtain ⟨accepted, has⟩ := accepts.plan (planned (.inl rfl))
    rw [planNamed_ok unique has]
    exact plan_decides unique has
  case experimentCollect plan run evaluations =>
    refine (input (allows_kind _)).bind fun _ => (input (allows_kind _)).bind fun runs => ?_
    obtain ⟨executed, has⟩ := runs.plan (planned (.inr (.inl rfl)))
    rw [planNamed_ok unique has]
    refine (plan_decides unique has).bind fun _ => Decides.forM fun reference _ => ?_
    refine (input (allows_kind _)).bind fun evaluates => ?_
    obtain ⟨collected, collects⟩ := evaluates.collect
    rw [collectNamed_ok unique collects]
    apply refuse_value.congr
    rw [not_not, firstCollection_iff unique]
    constructor
    · exact fun first => ⟨collected, collects, first⟩
    · rintro ⟨collect, has, first⟩
      rwa [(hasCollect_iff unique collects).mp has]
  case evaluation collect runtime =>
    refine (input (allows_kind _)).bind fun collects => Decides.option fun given _ => ?_
    refine (input (allows_kind _)).bind fun accepts => ?_
    exact same_plan_decides unique (accepts.plan (planned (.inl rfl)))
      (collects.plan (planned (.inr (.inr rfl))))
  case generationPanel collect evaluation runtime =>
    refine (input (allows_kind _)).bind fun collects => ?_
    refine (input (allows_kind _)).bind fun evaluates => ?_
    refine (input (allows_kind _)).bind fun accepts => ?_
    obtain ⟨collected, has⟩ := evaluates.collect
    rw [collectNamed_ok unique has]
    refine (collect_decides unique has).bind fun _ => ?_
    exact same_plan_decides unique (accepts.plan (planned (.inl rfl)))
      (collects.plan (planned (.inr (.inr rfl))))
  case modelReadiness evaluation => exact input (allows_kind _)
  case approval bind => exact absurd declared (other bind)
  all_goals exact Decides.pass

end

structure Sound (stages : List CampaignStage) (stage : CampaignStage) : Prop where
  other : stage.id ∉ stage.requires
  known : ∀ requirement ∈ stage.requires, Declared stages requirement
  satisfied : Satisfied stages stage
  ancestors : (∃ bind, stage.declaration = .approval bind) →
    ∀ id, Ancestor stages stage id → Declared stages id

structure Strays (stages : List CampaignStage) (stage : CampaignStage) : Prop where
  approval : ∃ bind, stage.declaration = .approval bind
  other : stage.id ∉ stage.requires
  known : ∀ requirement ∈ stage.requires, Declared stages requirement
  strays : ∃ id, Ancestor stages stage id ∧ ¬ Declared stages id

section

variable {stages : List CampaignStage} (unique : (stages.map (·.id)).Nodup)
  {stage : CampaignStage}

theorem byId_none {id : String} : byId stages id = none ↔ ¬ Declared stages id := by
  rw [byId, List.find?_eq_none, Declared, List.mem_map]
  simp

theorem requirementsOf_none {id : String} :
    requirementsOf stages id = none ↔ ¬ Declared stages id := by
  rw [requirementsOf, Option.map_eq_none_iff, byId_none]

theorem ancestors_missing {name : String} (missed : explore (requirementsOf stages)
    (requiredNames stages) (requirementsOf_listed stages) stage.requires stage.requires.reverse =
      .error name) : ancestors stages stage = .error (.keyError name) := by
  rw [ancestors, missed]

include unique

theorem edge_iff (above below : String) : Edge (requirementsOf stages) above below ↔
    Requires CampaignStage.id CampaignStage.requires stages above below := by
  constructor
  · rintro ⟨found, known, member⟩
    obtain ⟨upstream, named, rfl⟩ := Option.map_eq_some_iff.mp known
    have listed := List.mem_reverse.mp (List.mem_of_find?_eq_some named)
    exact ⟨upstream, listed, by simpa using List.find?_some named, member⟩
  · rintro ⟨upstream, listed, rfl, member⟩
    exact ⟨upstream.requires, by rw [requirementsOf, byId_eq unique listed, Option.map_some],
      member⟩

theorem ancestor_iff (member : stage ∈ stages) (id : String) : Ancestor stages stage id ↔
    ∃ root ∈ stage.requires, ReflTransGen (Edge (requirementsOf stages)) root id := by
  have same : Edge (requirementsOf stages) =
      Requires CampaignStage.id CampaignStage.requires stages := by
    funext above below
    exact propext (edge_iff unique above below)
  rw [Ancestor, TransGen.head'_iff, same]
  constructor
  · rintro ⟨root, ⟨upstream, listed, named, required⟩, path⟩
    rw [List.inj_on_of_nodup_map unique listed member named] at required
    exact ⟨root, required, path⟩
  · rintro ⟨root, required, path⟩
    exact ⟨root, ⟨stage, member, rfl, required⟩, path⟩

theorem ancestors_cases (member : stage ∈ stages) :
    (∃ seen, ancestors stages stage = .ok seen ∧
        (∀ id, id ∈ seen ↔ Ancestor stages stage id) ∧
        ∀ id, Ancestor stages stage id → Declared stages id) ∨
      ∃ name, ancestors stages stage = .error (.keyError name) ∧ Ancestor stages stage name ∧
        ¬ Declared stages name := by
  have same : ∀ node, node ∈ stage.requires.reverse ↔ node ∈ stage.requires :=
    fun _ => List.mem_reverse
  have explored := explore_explored (requirementsOf_listed stages) (exploring_start same)
  unfold ancestors
  generalize explore (requirementsOf stages) (requiredNames stages) (requirementsOf_listed stages)
    stage.requires stage.requires.reverse = result at explored ⊢
  cases explored with
  | all reached declared =>
    refine .inl ⟨_, rfl, ?_, ?_⟩
    · exact fun id => (reached id).trans (ancestor_iff unique member id).symm
    · intro id ancestor
      have inside := (reached id).mpr ((ancestor_iff unique member id).mp ancestor)
      by_contra undeclared
      exact declared id inside (requirementsOf_none.mpr undeclared)
  | missing reached undeclared =>
    exact .inr ⟨_, rfl, (ancestor_iff unique member _).mpr reached,
      requirementsOf_none.mp undeclared⟩

theorem approval_cases (member : stage ∈ stages) {bind : List String}
    (declared : stage.declaration = .approval bind) :
    ((∀ id, Ancestor stages stage id → Declared stages id) →
        Decides IsValueError (Satisfied stages stage) (checkInputs stages stage)) ∧
      ((∃ id, Ancestor stages stage id ∧ ¬ Declared stages id) →
        ∃ name, checkInputs stages stage = .error (.keyError name)) := by
  unfold Satisfied checkInputs
  rw [declared]
  dsimp only
  rcases ancestors_cases unique member with ⟨seen, found, same, all⟩ | ⟨name, missed, reached, none⟩
  · constructor
    · intro _
      rw [found]
      refine Decides.forM fun reference _ => refuse_value.congr ?_
      rw [not_not, same]
    · rintro ⟨id, ancestor, undeclared⟩
      exact absurd (all id ancestor) undeclared
  · constructor
    · exact fun all => absurd (all name reached) none
    · intro _
      rw [missed]
      exact ⟨name, rfl⟩

theorem checkStage_cases (member : stage ∈ stages) :
    (¬ Strays stages stage → Decides IsValueError (Sound stages stage) (checkStage stages stage)) ∧
      (Strays stages stage → ∃ name, checkStage stages stage = .error (.keyError name)) := by
  have own : Decides IsValueError
      (stage.id ∉ stage.requires ∧ (∀ requirement ∈ stage.requires, Declared stages requirement))
      (refuseIf (stage.id ∈ stage.requires)
        (.valueError ("stage " ++ stage.id ++ " cannot depend on itself")) >>= fun _ =>
          stage.requires.forM fun requirement => refuseIf (byId stages requirement = none)
            (.valueError ("stage " ++ stage.id ++ " requires unknown stage " ++ requirement))) := by
    refine refuse_value.bind fun _ => Decides.forM fun requirement _ => refuse_value.congr ?_
    rw [byId_none, not_not]
  have split : checkStage stages stage = (refuseIf (stage.id ∈ stage.requires)
      (.valueError ("stage " ++ stage.id ++ " cannot depend on itself")) >>= fun _ =>
        stage.requires.forM fun requirement => refuseIf (byId stages requirement = none)
          (.valueError ("stage " ++ stage.id ++ " requires unknown stage " ++ requirement))) >>=
            fun _ => checkInputs stages stage := by
    rw [bind_assoc]
    rfl
  rw [split]
  constructor
  · intro straight
    have inputs : (stage.id ∉ stage.requires ∧
        ∀ requirement ∈ stage.requires, Declared stages requirement) →
          Decides IsValueError (Satisfied stages stage) (checkInputs stages stage) := by
      intro met
      by_cases approves : ∃ bind, stage.declaration = .approval bind
      · obtain ⟨bind, declared⟩ := approves
        apply (approval_cases unique member declared).1
        intro id ancestor
        by_contra undeclared
        exact straight ⟨⟨bind, declared⟩, met.1, met.2, id, ancestor, undeclared⟩
      · exact checkInputs_decides unique met.2 fun bind declared => approves ⟨bind, declared⟩
    apply (own.bind inputs).congr
    constructor
    · rintro ⟨⟨other, known⟩, satisfied⟩
      refine ⟨other, known, satisfied, ?_⟩
      intro approves id ancestor
      by_contra undeclared
      exact straight ⟨approves, other, known, id, ancestor, undeclared⟩
    · exact fun sound => ⟨⟨sound.other, sound.known⟩, sound.satisfied⟩
  · rintro ⟨⟨bind, declared⟩, other, known, strays⟩
    obtain ⟨name, raised⟩ := (approval_cases unique member declared).2 strays
    have passed := own.eq_ok_iff.mpr ⟨other, known⟩
    refine ⟨name, ?_⟩
    rw [passed]
    exact raised

end

end SparseLab.Campaign.Plans
