import Proofstorm.Core.Digest
import Proofstorm.Readiness.Expiry

/-!
What an action on a cell asks of its components. The action belongs to one revision, and
the statuses that answer for its components may have been recorded under another: they are
taken over one by one, wherever the workload they were observed for is still the one that
the action's revision locks.
-/
namespace Proofstorm.Readiness
open Proofstorm.Core Validation Publication Plans

/-! ### Contracts -/

inductive OperationClass
  | inspect | start | stop | restart | nativeExec | networkHeal
  /-- Retained for decoding historical plan artifacts; no current action uses it. -/
  | peerChannelMutation
  /-- Retained for historical plans; native execution owns wallet interaction. -/
  | walletPayment
  | authentication
  deriving DecidableEq

inductive ReadinessPrerequisite
  | acceptedIdentity | storage | workloadIdentity | executionContext | targetDescriptor | faultIdentity | dependencies
  | protocol
  deriving DecidableEq

structure OperationAdmissionContract where
  operation : OperationClass
  prerequisites : List ReadinessPrerequisite
  deriving DecidableEq

def defaultOperationAdmission : List OperationAdmissionContract :=
  [⟨.inspect,[.acceptedIdentity]⟩,⟨.start,[.acceptedIdentity,.storage]⟩,⟨.stop,[.workloadIdentity]⟩,
    ⟨.restart,[.workloadIdentity]⟩,⟨.nativeExec,[.executionContext]⟩,⟨.networkHeal,[.faultIdentity]⟩,
    ⟨.authentication,[.dependencies,.protocol]⟩]

/-- The `operation_admission` of a plan: that of its backend, which is the same for all. -/
def operationAdmissionOf (_ : ComponentPlanContract) : List OperationAdmissionContract := defaultOperationAdmission

/-! ### Actions -/

/-- What an action is about: of its parameters, the components it names. -/
inductive CellAction
  | nodeStart (component : String)
  | nodeStop (component : String)
  | nodeRestart (component : String)
  | componentStart (component : String)
  | componentStop (component : String)
  | componentRestart (component : String)
  | networkPartition (fromComponent toComponent : String)
  | networkHeal
  | reachabilityOracle (fromComponent toComponent : String)
  | componentForensics (component targetComponent : String)
  | componentExecLive (component : String)
  | privateTransfer
  | componentLogs (component : String)
  | authenticationConformance (mint identityProvider : String)
  | authenticationProtectedSpend (mint identityProvider : String)
  | authenticationReplay (mint identityProvider : String)
  deriving DecidableEq

structure ProofstormCellActionSpec where
  cellName : String
  workspaceId : String
  instanceId : String
  instanceKey : String
  action : CellAction
  deriving DecidableEq

/-- An action with its name and namespace, and the revision it is annotated with. -/
structure ProofstormCellAction where
  name : String
  (namespace? : Option String)
  actionRevision : Option String
  spec : ProofstormCellActionSpec
  deriving DecidableEq

def actionParticipants : CellAction → List (String × OperationClass)
  | .nodeStart component | .componentStart component => [(component,.start)]
  | .nodeStop component | .componentStop component => [(component,.stop)]
  | .nodeRestart component | .componentRestart component => [(component,.restart)]
  | .networkPartition fromComponent toComponent => [(fromComponent,.inspect),(toComponent,.inspect)]
  -- Neither healing a fault nor reading a log has a component readiness prerequisite.
  | .networkHeal | .componentLogs _ => []
  | .reachabilityOracle fromComponent _ => [(fromComponent,.nativeExec)]
  | .componentForensics component _ => [(component,.nativeExec)]
  | .privateTransfer => []
  | .componentExecLive component => [(component,.nativeExec)]
  | .authenticationConformance mint identityProvider | .authenticationProtectedSpend mint identityProvider
  | .authenticationReplay mint identityProvider => [(mint,.authentication),(identityProvider,.authentication)]

def actionExecutionTarget : CellAction → Option (String × String)
  | .componentForensics component targetComponent => some (component,targetComponent)
  | .reachabilityOracle fromComponent toComponent => some (fromComponent,toComponent)
  | _ => none

/-! ### Cells -/

structure ProofstormCellSpec where
  workspaceId : String
  instanceId : String
  /-- Stable opaque identity used to derive the instance namespace. -/
  instanceKey : String
  /-- Digest of the immutable resolved cell revision. -/
  revisionDigest : String
  lock : Publication.ResolvedLock
  cell : CellSpec
  deriving DecidableEq

inductive CellPhase
  | pending | blocked | ready | closing | cleanupBlocked
  deriving DecidableEq

structure ProofstormCellStatus where
  phase : CellPhase
  /-- Immutable cell revision against which this status was observed. -/
  observedRevisionDigest : String
  components : List ProbedStatus
  deriving DecidableEq

structure ProofstormCell where
  name : String
  /-- Whether its deletion has begun. -/
  deleting : Bool
  spec : ProofstormCellSpec
  status : Option ProofstormCellStatus
  deriving DecidableEq

/-! ### The cell of an action's revision -/

/-- The errors of the controller that reading a revision can end in. -/
inductive ControllerError
  | kubernetes (status : String)
  | missingNamespace (resource : String)
  | controllerInvariant (diagnostic : String)
  deriving DecidableEq

/-- A status of the workload that a revision locks is taken as observed under it. -/
def relabelStatus (lock : Publication.ResolvedLock) (revision : String) (status : ProbedStatus) : ProbedStatus :=
  if lock.entries.any fun entry => entry.componentId == status.id && entry.rolloutDigest == status.observedRolloutDigest then
    { status with observedRevisionDigest := revision }
  else status

/-- A cell at another of its revisions. -/
def ProofstormCell.atRevision (cell : ProofstormCell) (revision : String) (snapshot : ProofstormCellSpec) :
    ProofstormCell :=
  { cell with
    spec := snapshot
    status := cell.status.map fun status =>
      { status with
        components := status.components.map (relabelStatus snapshot.lock revision)
        observedRevisionDigest := revision } }

/-- The name of the map that keeps a revision of a cell. -/
def revisionMapName (digestJson : Json → String) (instanceKey revision : String) : String :=
  "revision-" ++ slice (digestJson (Json.array [.str instanceKey,.str revision])) 7 39

/-- The cell as the revision of an action has it. Of a map, what matters is the spec that its
    `spec.json` reads as, if it does. -/
def actionCell (digestJson : Json → String)
    (maps : (nameSpace name : String) → Except ControllerError (Option ProofstormCellSpec))
    (action : ProofstormCellAction) (cell : ProofstormCell) : Except ControllerError ProofstormCell :=
  match action.actionRevision.filter (· ≠ "") with
  | none => .ok cell
  | some revision =>
    if revision = cell.spec.revisionDigest then .ok cell
    else do
      let nameSpace ← require action.namespace? (.missingNamespace action.name)
      let map ← maps nameSpace (revisionMapName digestJson cell.spec.instanceKey revision)
      let found := map.filter fun snapshot =>
        snapshot.instanceKey = cell.spec.instanceKey ∧ snapshot.revisionDigest = revision
      let cell := match found with
        | some snapshot => cell.atRevision revision snapshot
        | none => cell
      ensure (cell.spec.revisionDigest = revision) (.controllerInvariant "operation revision snapshot is invalid")
      return cell

/-! ### Admission -/

inductive ActionAdmissionError
  | cellClosing
  | identity (field : String)
  | invalidPlan (diagnostic : String)
  | missingContract (component : String) (operation : OperationClass)
  | prerequisiteUnsatisfied (component : String) (operation : OperationClass) (prerequisite : ReadinessPrerequisite)
      (condition : Option ComponentConditionType) (state : Option ComponentConditionState)
      (reason : Option ComponentConditionReason)
  deriving DecidableEq

/-- The text of an error of the plans. -/
def adapterErrorText : AdapterError → String
  | .missingLock component => s!"component {quoted component} has no resolved lock entry"
  | .missingLink component link => s!"component {quoted component} requires a {link.name} link"
  | .missingTarget component target => s!"component {quoted component} references missing component {quoted target}"
  | .invalidPlan diagnostic => s!"component plan is invalid: {diagnostic}"

/-- Admit work on a live cell independently of aggregate component health. -/
def requireOpenCell (cell : ProofstormCell) : Except ActionAdmissionError Unit :=
  ensure (!(cell.deleting || cell.status.any fun status => status.phase == .closing || status.phase == .cleanupBlocked))
    .cellClosing

def validateActionIdentity (action : ProofstormCellAction) (cell : ProofstormCell) : Except ActionAdmissionError Unit := do
  ensure (action.spec.cellName == cell.name) (.identity "cell_name")
  ensure (action.spec.workspaceId == cell.spec.workspaceId) (.identity "workspace_id")
  ensure (action.spec.instanceId == cell.spec.instanceId) (.identity "instance_id")
  ensure (action.spec.instanceKey == cell.spec.instanceKey) (.identity "instance_key")

def requireAdmissionPlan (plans : List ComponentPlanContract) (component : String) (operation : OperationClass) :
    Except ActionAdmissionError ComponentPlanContract :=
  require (plans.find? (·.componentId == component))
    (.prerequisiteUnsatisfied component operation .acceptedIdentity none none none)

/-- The status of a component at the plan's revision and rollout. -/
def currentComponentStatus (plan : ComponentPlanContract) (statuses : List ProbedStatus) : Option ProbedStatus :=
  statuses.find? (·.isOf plan)

def currentCondition (plan : ComponentPlanContract) (statuses : List ProbedStatus) (wanted : ComponentConditionType) :
    Option ComponentCondition :=
  (currentComponentStatus plan statuses).bind fun status => conditionOf status.conditions wanted

def unsatisfied (plan : ComponentPlanContract) (operation : OperationClass) (prerequisite : ReadinessPrerequisite)
    (conditionType : ComponentConditionType) (condition : Option ComponentCondition) : ActionAdmissionError :=
  .prerequisiteUnsatisfied plan.componentId operation prerequisite (some conditionType)
    (condition.map ComponentCondition.state) (condition.map ComponentCondition.reason)

def evaluateWorkloadIdentity (plan : ComponentPlanContract) (statuses : List ProbedStatus) (operation : OperationClass) :
    Except ActionAdmissionError Unit :=
  let condition := currentCondition plan statuses .workloadReady
  ensure (condition.any fun condition => condition.reason != .notObserved && condition.reason != .staleRevision)
    (unsatisfied plan operation .workloadIdentity .workloadReady condition)

/-- The condition of a component that a prerequisite is about. -/
def ReadinessPrerequisite.condition : ReadinessPrerequisite → Option ComponentConditionType
  | .storage => some .storageReady
  | .dependencies => some .dependenciesReady
  | .protocol => some .protocolReady
  | _ => none

def evaluatePrerequisite (plan : ComponentPlanContract) (statuses : List ProbedStatus) (operation : OperationClass)
    (prerequisite : ReadinessPrerequisite) : Except ActionAdmissionError Unit :=
  match prerequisite.condition with
  | none => if prerequisite = .workloadIdentity then evaluateWorkloadIdentity plan statuses operation else .ok ()
  | some conditionType =>
    let condition := currentCondition plan statuses conditionType
    ensure (!plan.applicableConditions.contains conditionType ||
        condition.any fun condition => condition.state == .true)
      (unsatisfied plan operation prerequisite conditionType condition)

/-- One component that takes part in an action. -/
def evaluateParticipant (plans : List ComponentPlanContract) (statuses : List ProbedStatus)
    (participant : String × OperationClass) : Except ActionAdmissionError Unit := do
  let plan ← requireAdmissionPlan plans participant.1 participant.2
  let contract ← require ((operationAdmissionOf plan).find? (·.operation == participant.2))
    (.missingContract participant.1 participant.2)
  contract.prerequisites.forM (evaluatePrerequisite plan statuses participant.2)

/-- The component that an action's executor reaches, where it is another. -/
def evaluateTarget (plans : List ComponentPlanContract) (statuses : List ProbedStatus) (action : CellAction) :
    Except ActionAdmissionError Unit :=
  match actionExecutionTarget action with
  | some (executor,target) =>
    if executor = target then .ok ()
    else do
      let plan ← requireAdmissionPlan plans target .nativeExec
      evaluatePrerequisite plan statuses .nativeExec .targetDescriptor
  | none => .ok ()

/-- The statuses that a cell has of the revision it is at. -/
def ProofstormCell.currentStatuses (cell : ProofstormCell) : List ProbedStatus :=
  ((cell.status.filter (·.observedRevisionDigest = cell.spec.revisionDigest)).map ProofstormCellStatus.components).getD []

/-- The plans of the revision that a cell is at. -/
def admissionPlans (cell : ProofstormCell) : Except ActionAdmissionError (List ComponentPlanContract) :=
  match compileComponentPlans cell.spec.revisionDigest cell.spec.cell cell.spec.lock with
  | .ok plans => .ok plans
  | .error error => .error (.invalidPlan (adapterErrorText error))

@[simp] theorem admissionPlans_ok {cell : ProofstormCell} {plans : List ComponentPlanContract} :
    admissionPlans cell = .ok plans ↔
      compileComponentPlans cell.spec.revisionDigest cell.spec.cell cell.spec.lock = .ok plans := by
  rw [admissionPlans]
  split <;> simp_all

/-- Evaluate readiness at an explicit observation time. -/
def evaluateActionAdmissionAt (action : ProofstormCellAction) (cell : ProofstormCell) (nowUnix : Int) :
    Except ActionAdmissionError Unit := do
  requireOpenCell cell
  validateActionIdentity action cell
  let plans ← admissionPlans cell
  let statuses := expireProtocolStatus plans cell.currentStatuses nowUnix
  (actionParticipants action.spec.action).forM (evaluateParticipant plans statuses)
  evaluateTarget plans statuses action.spec.action

end Proofstorm.Readiness
