import Proofstorm.Plans.Published

/-!
The statuses of a cell's components: what is observed of each one by itself, what that
makes of its readiness, and then, in passes over the whole cell, whether the components
that each waits for are ready.
-/
namespace Proofstorm.Readiness
open Proofstorm.Core Publication Plans

/-! ### Conditions -/

inductive ComponentConditionReason
  | observed | notObserved | staleRevision | workloadAvailable | workloadUnavailable | imagePullFailed
  | imagePullBackoff | invalidImageName | containerConfigError | containerCrashLoop | containerStartError
  | containerExited | podUnschedulable | storageBound | storagePending | credentialsProjected | credentialsMissing
  | endpointsReady | endpointsMissing | protocolResponding | protocolProbePending | protocolProbeFailed
  | dependenciesSatisfied | dependenciesUnsatisfied | componentOperational | componentNotOperational
  | intentionallyStopped | controlAvailable | controlUnavailable
  deriving DecidableEq

structure ComponentCondition where
  conditionType : ComponentConditionType
  state : ComponentConditionState
  reason : ComponentConditionReason
  message : String
  lastTransitionUnix : Int
  deriving DecidableEq

structure ComponentStatus where
  id : String
  observedRevisionDigest : String
  observedRolloutDigest : String
  conditions : List ComponentCondition
  ready : Bool
  deriving DecidableEq

def maxConditionMessageBytes : Nat := 160

def boundedFrom (length : Nat) : List Char → List Char
  | [] => []
  | c :: rest =>
    let c := if c.toNat < 32 ∨ (127 ≤ c.toNat ∧ c.toNat < 160) then ' ' else c
    if maxConditionMessageBytes < length + c.utf8Size then [] else c :: boundedFrom (length + c.utf8Size) rest

def boundedConditionMessage (message : String) : String := .ofList (boundedFrom 0 message.toList)

def componentCondition (conditionType : ComponentConditionType) (state : ComponentConditionState)
    (reason : ComponentConditionReason) (message : String) (lastTransitionUnix : Int) : ComponentCondition :=
  ⟨conditionType,state,reason,boundedConditionMessage message,lastTransitionUnix⟩

/-- The first condition of a type, as `iter().find` has it. -/
def conditionOf (conditions : List ComponentCondition) (wanted : ComponentConditionType) : Option ComponentCondition :=
  conditions.find? (·.conditionType == wanted)

/-- The state of the first condition of a type; unknown where there is none. -/
def stateOf (conditions : List ComponentCondition) (wanted : ComponentConditionType) : ComponentConditionState :=
  ((conditionOf conditions wanted).map ComponentCondition.state).getD .unknown

def aggregateFrom (sawUnknown : Bool) : List ComponentConditionState → ComponentConditionState
  | [] => if sawUnknown then .unknown else .true
  | .false :: _ => .false
  | .unknown :: rest => aggregateFrom true rest
  | .true :: rest => aggregateFrom sawUnknown rest

def aggregateStates (states : List ComponentConditionState) : ComponentConditionState := aggregateFrom false states

def aggregateConditionState (required : List ComponentConditionType) (conditions : List ComponentCondition) :
    ComponentConditionState := aggregateStates (required.map (stateOf conditions))

def sortConditions (conditions : List ComponentCondition) : List ComponentCondition :=
  conditions.insertionSort fun a b => a.conditionType.rank ≤ b.conditionType.rank

/-- `dedup_by_key(condition_type)`. -/
def dedupConditions : List ComponentCondition → List ComponentCondition
  | [] => []
  | [condition] => [condition]
  | first :: second :: rest =>
    if first.conditionType = second.conditionType then dedupConditions (first :: rest)
    else first :: dedupConditions (second :: rest)
  termination_by conditions => conditions.length

def replaceCondition (conditions : List ComponentCondition) (replacement : ComponentCondition) :
    List ComponentCondition :=
  if conditions.any (·.conditionType == replacement.conditionType) then
    replaceFirst conditions
  else sortConditions (conditions ++ [replacement])
where
  replaceFirst : List ComponentCondition → List ComponentCondition
    | [] => []
    | first :: rest =>
      if first.conditionType = replacement.conditionType then replacement :: rest else first :: replaceFirst rest

/-- A condition that says what the previous one said keeps the time of its transition. -/
def preserveConditionTransitions (current previous : List ComponentCondition) : List ComponentCondition :=
  current.map fun condition =>
    match previous.find? fun candidate => candidate.conditionType == condition.conditionType &&
        candidate.state == condition.state && candidate.reason == condition.reason &&
        candidate.message == condition.message with
    | some same => { condition with lastTransitionUnix := same.lastTransitionUnix }
    | none => condition

/-- Recompute the alpha compatibility projection from the aggregate `ComponentReady`
    condition. -/
def ComponentStatus.deriveReady (status : ComponentStatus) : ComponentStatus :=
  { status with
    ready := status.conditions.any fun condition =>
      condition.conditionType == .componentReady && condition.state == .true }

/-! ### One component by itself -/

/-- What the cluster's resources say about one condition. -/
structure Reading where
  state : ComponentConditionState
  reason : ComponentConditionReason
  message : String
  deriving DecidableEq

/-- What is read off the observed resources: a Deployment or StatefulSet and its pods,
    claims, secrets, a Service with its endpoints, and the prober's last answer. The
    message of a workload that cannot start is that of its failing init container. -/
structure ComponentObservationResources where
  workloadObservation : ComponentPlanContract → Reading
  storageObservation : ComponentPlanContract → Reading
  credentialObservation : ComponentPlanContract → Reading
  serviceObservation : ComponentPlanContract → Reading
  protocolObservation : ComponentPlanContract → Reading

def notObserved (message : String) : Reading := ⟨.unknown,.notObserved,message⟩

def readingOf (plan : ComponentPlanContract) (resources : ComponentObservationResources) (stopped : Bool) :
    ComponentConditionType → Option Reading
  | .workloadReady =>
    if stopped then some ⟨.false,.intentionallyStopped,"component is intentionally stopped"⟩
    else some (resources.workloadObservation plan)
  | .protocolReady =>
    if stopped then some ⟨.false,.intentionallyStopped,"component is intentionally stopped"⟩
    else some (resources.protocolObservation plan)
  | .storageReady => some (resources.storageObservation plan)
  | .credentialsReady => some (resources.credentialObservation plan)
  | .serviceReady => some (resources.serviceObservation plan)
  | .dependenciesReady => some (notObserved "component dependencies have not been observed")
  | .experimentControllable => some ⟨.true,.controlAvailable,"typed control surfaces are available"⟩
  | .componentReady => none

def observeAtomicConditions (plan : ComponentPlanContract) (resources : ComponentObservationResources) (stopped : Bool)
    (observedAtUnix : Int) : List ComponentCondition :=
  plan.applicableConditions.filterMap fun conditionType =>
    (readingOf plan resources stopped conditionType).map fun reading =>
      componentCondition conditionType reading.state reading.reason reading.message observedAtUnix

/-- What an aggregated state is reported as. -/
def aggregatedCondition (condition : ComponentConditionType) (state : ComponentConditionState) (stopped : Bool)
    (observedAtUnix : Int) : ComponentCondition :=
  if stopped = true ∧ condition = .componentReady then
    componentCondition condition state .intentionallyStopped "component is intentionally stopped" observedAtUnix
  else if state = .true then
    componentCondition condition state .componentOperational "all applicable readiness conditions are true"
      observedAtUnix
  else
    componentCondition condition state .componentNotOperational
      "one or more applicable readiness conditions are not true" observedAtUnix

/-- `for aggregation in &plan.condition_aggregation`: each sees those before it. -/
def aggregateConditions (aggregations : List ConditionAggregationContract) (stopped : Bool) (observedAtUnix : Int)
    (conditions : List ComponentCondition) : List ComponentCondition :=
  aggregations.foldl (fun conditions aggregation =>
    conditions ++ [aggregatedCondition aggregation.condition (aggregateConditionState aggregation.allOf conditions)
      stopped observedAtUnix]) conditions

/-- Whether a previous status is of the component at the same revision and rollout. -/
def ComponentStatus.isOf (status : ComponentStatus) (plan : ComponentPlanContract) : Bool :=
  status.id == plan.componentId && status.observedRevisionDigest == plan.revisionDigest &&
    status.observedRolloutDigest == plan.rolloutDigest

def observeComponent (plan : ComponentPlanContract) (resources : ComponentObservationResources)
    (previous : List ComponentStatus) (stopped : Bool) (observedAtUnix : Int) : ComponentStatus :=
  let conditions := dedupConditions (sortConditions (aggregateConditions plan.conditionAggregation stopped
    observedAtUnix (observeAtomicConditions plan resources stopped observedAtUnix)))
  let conditions := match previous.find? (·.isOf plan) with
    | some status => preserveConditionTransitions conditions status.conditions
    | none => conditions
  ComponentStatus.deriveReady ⟨plan.componentId,plan.revisionDigest,plan.rolloutDigest,conditions,false⟩

/-! ### The whole cell -/

def readyState (status : ComponentStatus) : ComponentConditionState := stateOf status.conditions .componentReady

def recomputeComponentReady (plan : ComponentPlanContract) (conditions : List ComponentCondition) (stopped : Bool)
    (observedAtUnix : Int) : List ComponentCondition :=
  match plan.conditionAggregation.find? (·.condition == .componentReady) with
  | none => conditions
  | some aggregation =>
    replaceCondition conditions (aggregatedCondition .componentReady
      (aggregateConditionState aggregation.allOf conditions) stopped observedAtUnix)

/-- The state of a component in the pass before; of several with one id the last. -/
def priorState (prior : List (String × ComponentConditionState)) (id : String) : ComponentConditionState :=
  (prior.reverse.lookup id).getD .unknown

def dependenciesCondition (state : ComponentConditionState) (observedAtUnix : Int) : ComponentCondition :=
  if state = .true then
    componentCondition .dependenciesReady state .dependenciesSatisfied "all linked component dependencies are ready"
      observedAtUnix
  else
    componentCondition .dependenciesReady state .dependenciesUnsatisfied
      "one or more linked component dependencies are not ready" observedAtUnix

/-- One component of one pass, over what the pass before left. -/
def resolveComponent (prior : List (String × ComponentConditionState)) (intentionallyStopped : List String)
    (observedAtUnix : Int) (plan : ComponentPlanContract) (status : ComponentStatus) : ComponentStatus :=
  if plan.dependent then
    let state := aggregateStates (plan.relevantLinks.map fun link => priorState prior link.to)
    let conditions := replaceCondition status.conditions (dependenciesCondition state observedAtUnix)
    { status with
      conditions := recomputeComponentReady plan conditions (intentionallyStopped.contains plan.componentId)
        observedAtUnix }
  else status

def priorPass (statuses : List ComponentStatus) : List (String × ComponentConditionState) :=
  statuses.map fun status => (status.id,readyState status)

def resolvePass (plans : List ComponentPlanContract) (intentionallyStopped : List String) (observedAtUnix : Int)
    (statuses : List ComponentStatus) : List ComponentStatus :=
  List.zipWith (Readiness.resolveComponent (priorPass statuses) intentionallyStopped observedAtUnix) plans statuses

/-- As many passes as there are plans, or until one of them changes no readiness. -/
def resolvePasses (plans : List ComponentPlanContract) (intentionallyStopped : List String) (observedAtUnix : Int) :
    Nat → List ComponentStatus → List ComponentStatus
  | 0, statuses => statuses
  | passes + 1, statuses =>
    let resolved := resolvePass plans intentionallyStopped observedAtUnix statuses
    if resolved.map readyState = statuses.map readyState then resolved
    else resolvePasses plans intentionallyStopped observedAtUnix passes resolved

/-- The last thing done to each status. -/
def finishStatus (previous : List ComponentStatus) (status : ComponentStatus) : ComponentStatus :=
  match (previous.reverse.find? (·.id == status.id)).filter fun earlier =>
      earlier.observedRevisionDigest == status.observedRevisionDigest &&
        earlier.observedRolloutDigest == status.observedRolloutDigest with
  | some earlier =>
    ComponentStatus.deriveReady
      { status with conditions := preserveConditionTransitions status.conditions earlier.conditions }
  | none => status.deriveReady

def resolveDependencyConditions (plans : List ComponentPlanContract) (statuses previous : List ComponentStatus)
    (intentionallyStopped : List String) (observedAtUnix : Int) : List ComponentStatus :=
  let passes := if (plans.filter ComponentPlanContract.dependent).isEmpty then 0 else plans.length
  (resolvePasses plans intentionallyStopped observedAtUnix passes statuses).map (finishStatus previous)

/-- Observe workload readiness against the exact compiled rollout identity. -/
def observeComponentStatuses (plans : List ComponentPlanContract) (resources : ComponentObservationResources)
    (previous : List ComponentStatus) (intentionallyStopped : List String) (observedAtUnix : Int) :
    List ComponentStatus :=
  let statuses := plans.map fun plan =>
    observeComponent plan resources previous (intentionallyStopped.contains plan.componentId) observedAtUnix
  resolveDependencyConditions plans statuses previous intentionallyStopped observedAtUnix

end Proofstorm.Readiness
