import Proofstorm.Worklist
import Proofstorm.Prober.Protocol
import Proofstorm.Readiness.Observation

/-!
Cached evidence and its expiry. A probe's success is good for a time; on every later read
what it has outlived is set to unknown, and the components that depend on it are
lowered one after the other, without observing the cell again.
-/
namespace Proofstorm.Readiness
open Proofstorm.Core Validation Publication Plans

/-! ### Probes -/

inductive ProtocolProbeContract
  | tcp (portName : String)
  | httpGet (portName path : String)
  deriving DecidableEq

/-- The `protocol_probe` of the installed contracts. -/
def protocolProbeContract (backend : String) : Option ProtocolProbeContract :=
  if backend ∈ ["bitcoin-core","lnd","ldk-server"] then some (.tcp "rpc")
  else if backend = "cln" then some (.tcp "p2p")
  else if backend = "postgresql" then some (.tcp "postgres")
  else if backend = "redis" then some (.tcp "redis")
  else if backend = "keycloak" then some (.httpGet "http" "/realms/proofstorm/.well-known/openid-configuration")
  else if backend = "cdk" then some (.httpGet "http" "/v1/info")
  else if backend = "nutshell" then some (.tcp "http")
  else if backend = barkServer then some (.tcp "rpc")
  else if backend ∈ [clnHold,barkProcessor,ldkProcessor,sparkOperators,sparkProcessor] then some (.tcp "grpc")
  else if backend = openSsp then some (.tcp "http")
  else none

/-- Of its backend; what the plan adds is the number of the port. -/
def protocolProbeOf (plan : ComponentPlanContract) : Option ProtocolProbeContract := protocolProbeContract plan.backendId

/-- Freshness of a completed protocol check, independently of condition transition time. -/
structure ProtocolObservation where
  observedAtUnix : Int
  expiresAtUnix : Int
  elapsedMicros : Nat
  deriving DecidableEq

def ProtocolObservation.isFresh (timing : ProtocolObservation) (nowUnix : Int) : Bool :=
  timing.observedAtUnix ≤ nowUnix && nowUnix < timing.expiresAtUnix

structure ProbeObservation where
  rolloutDigest : String
  runtimeDigest : String
  workerUid : String
  outcome : Prober.Outcome
  timing : ProtocolObservation
  deriving DecidableEq

/-- What bears on a component's protocol: the checks by their components, the runtime of a
    component that can be checked, and the workers that are up. -/
structure Evidence where
  protocol : String → Option ProbeObservation
  eligibleTarget : ComponentPlanContract → Option String
  workerUp : String → Bool

def currentObservation (plan : ComponentPlanContract) (evidence : Evidence) (nowUnix : Int) : Option ProbeObservation :=
  match evidence.protocol plan.componentId, evidence.eligibleTarget plan with
  | some observation, some current =>
    if observation.rolloutDigest = plan.rolloutDigest ∧ observation.runtimeDigest = current ∧
        observation.timing.isFresh nowUnix = true ∧ evidence.workerUp observation.workerUid = true then some observation
    else none
  | _, _ => none

def protocolObservation : Option ProbeObservation → Reading
  | none => ⟨.unknown,.protocolProbePending,"waiting for a fresh check of the current Service endpoint"⟩
  | some observation =>
    if observation.outcome = .reachable then
      ⟨.true,.protocolResponding,"current Service-DNS protocol probe is responding"⟩
    else ⟨.false,.protocolProbeFailed,match observation.outcome with
      | .dnsFailed => "Service DNS lookup failed"
      | .connectionRefused => "Service connection was refused"
      | .timedOut => "Service protocol check timed out"
      | .httpError => "Service returned an unsuccessful HTTP status"
      | _ => "Service protocol check failed"⟩

/-- What else is read off the cluster. None of it says that a component was stopped on
    purpose: that is told, not read. -/
structure ClusterReadings where
  workload : ComponentPlanContract → Reading
  storage : ComponentPlanContract → Reading
  credential : ComponentPlanContract → Reading
  service : ComponentPlanContract → Reading
  unstopped : ∀ plan, (workload plan).reason ≠ .intentionallyStopped ∧ (storage plan).reason ≠ .intentionallyStopped ∧
    (credential plan).reason ≠ .intentionallyStopped ∧ (service plan).reason ≠ .intentionallyStopped

/-- With what is read of each component's protocol. -/
def ClusterReadings.resources (readings : ClusterReadings) (protocol : ComponentPlanContract → Reading) :
    ComponentObservationResources :=
  ⟨readings.workload,readings.storage,readings.credential,readings.service,protocol⟩

/-- A status with the time of the check it rests on. -/
structure ProbedStatus extends ComponentStatus where
  protocolObservation : Option ProtocolObservation
  deriving DecidableEq

/-- `observe_component_statuses`, with the times of the checks. -/
def observeProbedStatuses (plans : List ComponentPlanContract) (readings : ClusterReadings) (evidence : Evidence)
    (previous : List ComponentStatus) (intentionallyStopped : List String) (observedAtUnix : Int) : List ProbedStatus :=
  List.zipWith (fun plan status =>
      ⟨status,(currentObservation plan evidence observedAtUnix).map ProbeObservation.timing⟩) plans
    (observeComponentStatuses plans
      (readings.resources fun plan => protocolObservation (currentObservation plan evidence observedAtUnix))
      previous intentionallyStopped observedAtUnix)

/-! ### Expiry -/

/-- Statuses by their ids, as the indexes have them: the last of an id. -/
def statusOf (statuses : List ProbedStatus) (id : String) : Option ProbedStatus :=
  statuses.reverse.find? (·.id == id)

/-- A change to the last status of an id. -/
def updateStatus (id : String) (change : ProbedStatus → ProbedStatus) : List ProbedStatus → List ProbedStatus
  | [] => []
  | status :: rest =>
    if rest.any (·.id == id) then status :: updateStatus id change rest
    else if status.id = id then change status :: rest
    else status :: rest

def ProbedStatus.stopped (status : ProbedStatus) : Bool :=
  status.conditions.any (·.reason == .intentionallyStopped)

/-- A condition replaced, and with it the readiness of the component. -/
def replaced (plan : ComponentPlanContract) (replacement : ComponentCondition) (nowUnix : Int) (status : ProbedStatus) :
    ProbedStatus :=
  let conditions := recomputeComponentReady plan (replaceCondition status.conditions replacement) false nowUnix
  { status with
    toComponentStatus := ComponentStatus.deriveReady
      { status.toComponentStatus with conditions := preserveConditionTransitions conditions status.conditions } }

def expiredProtocol (nowUnix : Int) : ComponentCondition :=
  componentCondition .protocolReady .unknown .protocolProbePending
    "protocol observation has expired or has not been obtained" nowUnix

/-- The first loop, one plan of it. -/
def expirePlan (nowUnix : Int) (state : List ProbedStatus × List String) (plan : ComponentPlanContract) :
    List ProbedStatus × List String :=
  match statusOf state.1 plan.componentId with
  | none => state
  | some status =>
    if (protocolProbeOf plan).isNone || status.stopped || status.protocolObservation.any (·.isFresh nowUnix) then state
    else (updateStatus plan.componentId (replaced plan (expiredProtocol nowUnix) nowUnix) state.1,
      state.2 ++ [plan.componentId])

/-- The components to look at again after a change to one: those that report on their
    dependencies, once for every link. -/
def dependentsOf (plans : List ComponentPlanContract) (statuses : List ProbedStatus) (id : String) : List String :=
  plans.flatMap fun plan =>
    if (statusOf statuses plan.componentId).isSome ∧ plan.dependent = true then
      (plan.relevantLinks.filter (·.to == id)).map fun _ => plan.componentId
    else []

def expiredDependencies (state : ComponentConditionState) (nowUnix : Int) : ComponentCondition :=
  componentCondition .dependenciesReady state .dependenciesUnsatisfied
    "one or more linked component dependencies lack current readiness evidence" nowUnix

def readyIn (statuses : List ProbedStatus) (id : String) : ComponentConditionState :=
  ((statusOf statuses id).map fun status => readyState status.toComponentStatus).getD .unknown

/-- One dependent of a changed component. -/
def lowerDependent (plans : List ComponentPlanContract) (nowUnix : Int) (state : List ProbedStatus × List String)
    (id : String) : List ProbedStatus × List String :=
  match plans.reverse.find? (·.componentId == id), statusOf state.1 id with
  | some plan, some status =>
    if status.stopped then state
    else
      let dependencies := aggregateStates (plan.relevantLinks.map fun link => readyIn state.1 link.to)
      if dependencies = .true then state
      else (updateStatus id (replaced plan (expiredDependencies dependencies nowUnix) nowUnix) state.1,state.2 ++ [id])
  | _, _ => state

/-- All dependents of a changed component, and which of them changed. -/
def lowerDependents (plans : List ComponentPlanContract) (nowUnix : Int) (dependents : String → List String)
    (id : String) (statuses : List ProbedStatus) : List ProbedStatus × List String :=
  (dependents id).foldl (lowerDependent plans nowUnix) (statuses,[])

/-- The queue holds no more than what was changed first, and each dependent once for
    every link. -/
def expireDependentStatus (plans : List ComponentPlanContract) (statuses : List ProbedStatus) (changed : List String)
    (nowUnix : Int) : List ProbedStatus :=
  Worklist.run (lowerDependents plans nowUnix (dependentsOf plans statuses))
    (changed.length + (plans.flatMap ComponentPlanContract.relevantLinks).length) statuses changed []

/-- Expire cached protocol evidence on reads and before action admission, including the
    dependent readiness conditions. -/
def expireProtocolStatus (plans : List ComponentPlanContract) (statuses : List ProbedStatus) (nowUnix : Int) :
    List ProbedStatus :=
  let (statuses,changed) := plans.foldl (expirePlan nowUnix) (statuses,[])
  expireDependentStatus plans statuses changed nowUnix

end Proofstorm.Readiness
