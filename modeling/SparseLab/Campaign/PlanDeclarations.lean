import SparseLab.Library.Exploration
import SparseLab.Library.Outcomes
import SparseLab.Library.ReadyOrders

/-! Campaign plans and their validation, from `campaign/plan.py`. -/

namespace SparseLab.Campaign.Plans

open Library

inductive ArtifactKind
  | sourceSnapshot | datasetSnapshot | corpusBuild | corpusRelease | corpusExport | tokenizer
  | preparedData | stageBundle | checkpoint | capabilityCard | promptSet | outcome
deriving DecidableEq

inductive StageKind
  | artifactReference | corpusRelease | datasetSnapshot | tokenizerTrain | dataPrepare
  | corpusReadiness | tokenizerReference | tokenMeasurement | experimentPlan | runtimeAcceptance
  | experimentRun | experimentCollect | evaluation | generationPanel | modelReadiness | approval
deriving DecidableEq

inductive PassBasis
  | bytes | tokens
deriving DecidableEq

/-- `CorpusReadinessPolicy`, as far as its basis goes. -/
structure ReadinessPolicy where
  minUniqueTrainTokensByDomain : List (String × Nat)
  passes : Option PassBasis
deriving DecidableEq

def ReadinessPolicy.tokenBased (policy : ReadinessPolicy) : Bool :=
  policy.minUniqueTrainTokensByDomain ≠ [] || policy.passes = some .tokens

inductive PlanMode
  | lock | reference | bind
deriving DecidableEq

inductive Declaration
  | artifactReference (artifact : ArtifactKind)
  | corpusRelease
  | datasetSnapshot
  | tokenizerTrain (snapshot : Option String)
  | dataPrepare (tokenizer : String) (snapshot : Option String)
  | corpusReadiness (corpus : String) (policy : ReadinessPolicy) (tokenizer : Option String)
  | tokenizerReference
  | tokenMeasurement (corpus tokenizer : String)
  | experimentPlan (mode : PlanMode) (tokenizer prepared : String) (corpus : Option String)
  | runtimeAcceptance (plan : String)
  | experimentRun (plan runtime : String)
  | experimentCollect (plan run : String) (evaluations : List String)
  | evaluation (collect : String) (runtime : Option String)
  | generationPanel (collect evaluation runtime : String)
  | modelReadiness (evaluation : String)
  | approval (bind : List String)
deriving DecidableEq

namespace Declaration

def kind : Declaration → StageKind
  | artifactReference _ => .artifactReference
  | corpusRelease => .corpusRelease
  | datasetSnapshot => .datasetSnapshot
  | tokenizerTrain _ => .tokenizerTrain
  | dataPrepare _ _ => .dataPrepare
  | corpusReadiness _ _ _ => .corpusReadiness
  | tokenizerReference => .tokenizerReference
  | tokenMeasurement _ _ => .tokenMeasurement
  | experimentPlan _ _ _ _ => .experimentPlan
  | runtimeAcceptance _ => .runtimeAcceptance
  | experimentRun _ _ => .experimentRun
  | experimentCollect _ _ _ => .experimentCollect
  | evaluation _ _ => .evaluation
  | generationPanel _ _ _ => .generationPanel
  | modelReadiness _ => .modelReadiness
  | approval _ => .approval

def artifact : Declaration → Option ArtifactKind
  | artifactReference artifact => some artifact
  | tokenizerReference => some .tokenizer
  | _ => none

/-- The attribute `plan`, on the kinds that have it. -/
def plan : Declaration → Option String
  | runtimeAcceptance plan | experimentRun plan _ | experimentCollect plan _ _ => some plan
  | _ => none

/-- The attribute `collect`, on the kinds that have it. -/
def collect : Declaration → Option String
  | evaluation collect _ | generationPanel collect _ _ => some collect
  | _ => none

end Declaration

structure CampaignStage where
  id : String
  requires : List String
  declaration : Declaration
deriving DecidableEq

structure CampaignPlan where
  id : String
  stages : List CampaignStage
  nonempty : stages ≠ []

/-- What a validator can raise: only a `ValueError` becomes a validation error. -/
inductive Raised
  | valueError (message : String)
  | keyError (key : String)
  | attributeError (name : String)
deriving DecidableEq

/-- `_ID` -/
def safeId (text : String) : Bool :=
  match text.toList with
  | [] => false
  | first :: rest =>
    first.isAlphanum &&
      rest.all fun letter => letter.isAlphanum || letter = '_' || letter = '-'

section

variable (stages : List CampaignStage)

/-- `by_id.get(id)`: the last stage of a name is kept. -/
def byId (id : String) : Option CampaignStage :=
  stages.reverse.find? (·.id = id)

/-- `by_id[id]` -/
def stageNamed (id : String) : Except Raised CampaignStage :=
  match byId stages id with
  | none => .error (.keyError id)
  | some stage => .ok stage

def getattr (name : String) : Option String → Except Raised String
  | none => .error (.attributeError name)
  | some value => .ok value

def planNamed (id : String) : Except Raised String := do
  let stage ← stageNamed stages id
  getattr "plan" stage.declaration.plan

def collectNamed (id : String) : Except Raised String := do
  let stage ← stageNamed stages id
  getattr "collect" stage.declaration.collect

abbrev Producer := StageKind × Option ArtifactKind

def allows (allowed : List Producer) (declaration : Declaration) : Bool :=
  allowed.any fun (kind, artifact) =>
    declaration.kind = kind && (artifact = none || declaration.artifact = artifact)

def inputIs (stage : CampaignStage) (reference : String) (allowed : List Producer) :
    Except Raised Unit := do
  refuseIf (reference ∉ stage.requires) (.valueError
    ("stage " ++ stage.id ++ " input " ++ reference ++ " must be in requires"))
  let upstream ← stageNamed stages reference
  refuseIf (¬ allows allowed upstream.declaration) (.valueError
    ("stage " ++ stage.id ++ " input " ++ reference ++ " has wrong producer kind"))

def releaseProducers : List Producer :=
  [(.corpusRelease, none), (.artifactReference, some .corpusRelease)]

def tokenizerProducers : List Producer :=
  [(.tokenizerReference, none), (.artifactReference, some .tokenizer), (.tokenizerTrain, none)]

def snapshotProducers : List Producer :=
  [(.datasetSnapshot, none), (.artifactReference, some .datasetSnapshot)]

def preparedProducers : List Producer :=
  [(.artifactReference, some .preparedData), (.dataPrepare, none)]

def firstCollection (plan : String) : Option CampaignStage → Bool
  | some ⟨_, _, .experimentCollect collected _ evaluations⟩ => collected = plan && evaluations = []
  | _ => false

def requiredNames : List String :=
  stages.flatMap (·.requires)

def requirementsOf (id : String) : Option (List String) :=
  (byId stages id).map (·.requires)

theorem requirementsOf_listed (id : String) (found : List String)
    (known : requirementsOf stages id = some found) :
    ∀ next ∈ found, next ∈ requiredNames stages := by
  intro next member
  obtain ⟨stage, named, rfl⟩ := Option.map_eq_some_iff.mp known
  have listed := List.mem_reverse.mp (List.mem_of_find?_eq_some named)
  exact List.mem_flatMap.mpr ⟨stage, listed, member⟩

def ancestors (stage : CampaignStage) : Except Raised (List String) :=
  match explore (requirementsOf stages) (requiredNames stages) (requirementsOf_listed stages)
      stage.requires stage.requires.reverse with
  | .error name => .error (.keyError name)
  | .ok seen => .ok seen

def checkInputs (stage : CampaignStage) : Except Raised Unit :=
  match stage.declaration with
  | .tokenizerTrain snapshot =>
    snapshot.forM fun snapshot => inputIs stages stage snapshot snapshotProducers
  | .dataPrepare tokenizer snapshot => do
      snapshot.forM fun snapshot => inputIs stages stage snapshot snapshotProducers
      inputIs stages stage tokenizer tokenizerProducers
  | .corpusReadiness corpus policy tokenizer => do
      inputIs stages stage corpus releaseProducers
      tokenizer.forM fun tokenizer => inputIs stages stage tokenizer tokenizerProducers
      refuseIf (policy.tokenBased ∧ tokenizer = none)
        (.valueError "token-based readiness requires a tokenizer dependency")
  | .tokenMeasurement corpus tokenizer => do
      inputIs stages stage corpus releaseProducers
      inputIs stages stage tokenizer tokenizerProducers
  | .experimentPlan mode tokenizer prepared corpus => do
      inputIs stages stage tokenizer tokenizerProducers
      inputIs stages stage prepared preparedProducers
      if mode = .bind then
        let upstream ← stageNamed stages prepared
        refuseIf (upstream.declaration.kind ≠ .dataPrepare)
          (.valueError "bind mode requires a data_prepare stage with its run config")
      corpus.forM fun corpus => inputIs stages stage corpus releaseProducers
  | .runtimeAcceptance plan => inputIs stages stage plan [(.experimentPlan, none)]
  | .experimentRun plan runtime => do
      inputIs stages stage plan [(.experimentPlan, none)]
      inputIs stages stage runtime [(.runtimeAcceptance, none)]
      let accepted ← planNamed stages runtime
      refuseIf (accepted ≠ plan)
        (.valueError ("stage " ++ stage.id ++ " runtime belongs to another plan"))
  | .experimentCollect plan run evaluations => do
      inputIs stages stage plan [(.experimentPlan, none)]
      inputIs stages stage run [(.experimentRun, none)]
      let executed ← planNamed stages run
      refuseIf (executed ≠ plan)
        (.valueError ("stage " ++ stage.id ++ " run belongs to another plan"))
      evaluations.forM fun reference => do
        inputIs stages stage reference [(.evaluation, none)]
        let collected ← collectNamed stages reference
        refuseIf (¬ firstCollection plan (byId stages collected)) (.valueError
          "final collection evaluation belongs to another plan or final collection")
  | .evaluation collect runtime => do
      inputIs stages stage collect [(.experimentCollect, none)]
      runtime.forM fun runtime => do
        inputIs stages stage runtime [(.runtimeAcceptance, none)]
        let accepted ← planNamed stages runtime
        let collected ← planNamed stages collect
        refuseIf (accepted ≠ collected)
          (.valueError "evaluation runtime belongs to another plan")
  | .generationPanel collect evaluation runtime => do
      inputIs stages stage collect [(.experimentCollect, none)]
      inputIs stages stage evaluation [(.evaluation, none)]
      inputIs stages stage runtime [(.runtimeAcceptance, none)]
      let evaluated ← collectNamed stages evaluation
      refuseIf (evaluated ≠ collect)
        (.valueError "generation panel evaluation belongs to another collection")
      let accepted ← planNamed stages runtime
      let collected ← planNamed stages collect
      refuseIf (accepted ≠ collected)
        (.valueError "generation panel runtime belongs to another plan")
  | .modelReadiness evaluation => inputIs stages stage evaluation [(.evaluation, none)]
  | .approval bind => do
      let ancestors ← ancestors stages stage
      bind.forM fun reference => refuseIf (reference ∉ ancestors) (.valueError
        ("stage " ++ stage.id ++ " bound input " ++ reference ++ " must be an ancestor"))
  | .artifactReference _ | .corpusRelease | .datasetSnapshot | .tokenizerReference => .ok ()

def checkStage (stage : CampaignStage) : Except Raised Unit := do
  refuseIf (stage.id ∈ stage.requires)
    (.valueError ("stage " ++ stage.id ++ " cannot depend on itself"))
  stage.requires.forM fun requirement => refuseIf (byId stages requirement = none) (.valueError
    ("stage " ++ stage.id ++ " requires unknown stage " ++ requirement))
  checkInputs stages stage

def orderedStages : Except Raised (List CampaignStage) :=
  match readyOrder CampaignStage.id CampaignStage.requires [] stages with
  | none => .error (.valueError "campaign stage dependency cycle")
  | some ordered => .ok ordered

end

def validPlan (plan : CampaignPlan) : Except Raised CampaignPlan := do
  refuseIf (¬ safeId plan.id) (.valueError "campaign ID must be a safe nonempty identifier")
  refuseIf (¬ (plan.stages.map (·.id)).Nodup) (.valueError "duplicate campaign stage IDs")
  plan.stages.forM (checkStage plan.stages)
  let _ ← orderedStages plan.stages
  pure plan

/-- `load_campaign`, of a document that declares the plan. `report` is how a validation error
reads, and `paths` what the paths of a stage are refused for. -/
def loadCampaign (path : String) (report : String → String)
    (paths : CampaignStage → Except String Unit) (plan : CampaignPlan) :
    Except Raised CampaignPlan :=
  match validPlan plan with
  | .error (.valueError message) =>
    .error (.valueError ("invalid campaign plan " ++ path ++ ": " ++ report message))
  | .error escaped => .error escaped
  | .ok plan =>
    match plan.stages.forM paths with
    | .error message =>
      .error (.valueError ("invalid campaign plan " ++ path ++ ": " ++ message))
    | .ok _ => .ok plan

end SparseLab.Campaign.Plans
