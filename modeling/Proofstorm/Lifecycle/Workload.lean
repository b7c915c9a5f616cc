import Proofstorm.Core.Model
import Proofstorm.Outcome

/-!
The workload of a component and what the controller reads and writes of it. Its
annotations hold the last lifecycle action: the sequence, the state that it asks
for, and on the pod template the token of the last restart. A field that holds an
annotation is `none` where the key is absent.
-/
namespace Proofstorm.Lifecycle
open Proofstorm.Core

inductive Control
  | start | stop | restart
  deriving DecidableEq

/-- `ProofstormCellActionSpec`, of a lifecycle action. -/
structure Action where
  operationId : String
  sequence : UInt64
  control : Control
  /-- Whether it is one of the `Node` controls, not of the `Component` controls. -/
  node : Bool
  capability : Capability
  deriving DecidableEq

/-- `ComponentPlanContract`. A federation runs at least one operator and everything
    else runs one pod, so there is a replica. -/
structure Plan where
  kind : ComponentKind
  backendId : String
  stateContract : String
  rolloutDigest : String
  desiredReplicas : UInt16
  runs : 0 < desiredReplicas

structure StatefulSetStatus where
  observedGeneration : Option Int
  replicas : Int
  readyReplicas : Option Int
  currentRevision : Option String
  updateRevision : Option String

structure DeploymentStatus where
  observedGeneration : Option Int
  replicas : Option Int
  readyReplicas : Option Int
  updatedReplicas : Option Int
  unavailableReplicas : Option Int

inductive Status
  | statefulSet (status : StatefulSetStatus)
  | deployment (status : DeploymentStatus)

/-- A `StatefulSet` or a `Deployment`. -/
structure Workload where
  resourceVersion : Option Nat
  generation : Option Int
  backendId : Option String
  stateContract : Option String
  /-- `LIFECYCLE_STATE_ANNOTATION` -/
  state : Option String
  /-- `LIFECYCLE_SEQUENCE_ANNOTATION` -/
  sequence : Option String
  replicas : Option Int
  /-- `ROLLOUT_DIGEST_ANNOTATION`, on the template -/
  rolloutDigest : Option String
  /-- `LIFECYCLE_RESTART_ANNOTATION`, on the template -/
  restartToken : Option String
  status : Option Status

/-! ### Sequences as text -/

/-- The text behind a sign that may stand before it. -/
def unsigned : List Char → List Char
  | '+' :: rest => rest
  | all => all

/-- `u64::from_str`. -/
def parseU64 (text : String) : Option UInt64 :=
  let digits := unsigned text.toList
  if digits ≠ [] ∧ digits.all Char.isDigit then
    let value := Nat.ofDigitChars 10 digits 0
    if value < UInt64.size then some (.ofNat value) else none
  else none

/-- `u64::to_string`. -/
def printU64 (value : UInt64) : String := value.toNat.repr

theorem unsigned_digits {list : List Char} (digits : ∀ c ∈ list, c.isDigit) : unsigned list = list := by
  unfold unsigned
  split
  · exact absurd (digits '+' List.mem_cons_self) (by decide)
  · rfl

@[simp] theorem parseU64_print (value : UInt64) : parseU64 (printU64 value) = some value := by
  have digits : ∀ c ∈ Nat.toDigits 10 value.toNat, c.isDigit :=
    fun c member => Nat.isDigit_of_mem_toDigits (by decide) (by decide) member
  have bound : value.toNat < UInt64.size := value.toNat_lt
  rw [parseU64,printU64,Nat.toList_repr,unsigned_digits digits]
  simp [Nat.toDigits_ne_nil,Nat.ofDigitChars_ten_toDigits,bound]
  exact digits

/-! ### What the controller reads -/

/-- The sequence of the action that controls the workload. -/
def Workload.lastSequence (workload : Workload) : UInt64 := (workload.sequence.bind parseU64).getD 0

def Workload.isStopped (workload : Workload) : Bool := workload.state = some "stopped"

def Workload.matchesPlan (workload : Workload) (plan : Plan) : Bool :=
  workload.backendId = some plan.backendId && workload.stateContract = some plan.stateContract &&
    workload.rolloutDigest = some plan.rolloutDigest

/-- `generation_observed`. -/
def generationObserved (generation observed : Option Int) : Bool :=
  match generation, observed with
  | some desired, some observed => desired ≤ observed
  | _, _ => false

/-- `converged`. -/
def Workload.converged (workload : Workload) (stopped : Bool) (replicas : Int) : Bool :=
  match workload.status with
  | none => false
  | some (.statefulSet status) =>
    generationObserved workload.generation status.observedGeneration &&
      if stopped then workload.replicas = some 0 && status.replicas = 0
      else workload.replicas = some replicas && status.replicas = replicas &&
        status.readyReplicas.getD 0 = replicas &&
          match status.currentRevision, status.updateRevision with
          | some current, some updated => current = updated
          | _, _ => false
  | some (.deployment status) =>
    generationObserved workload.generation status.observedGeneration &&
      if stopped then workload.replicas = some 0 && status.replicas.getD 0 = 0
      else workload.replicas = some replicas && status.replicas = some replicas &&
        status.readyReplicas = some replicas && status.updatedReplicas = some replicas &&
          status.unavailableReplicas.getD 0 = 0

/-- `same_lifecycle_identity`. -/
def sameLifecycleIdentity (existing desired : Workload) : Bool :=
  (desired.backendId.isSome && existing.backendId = desired.backendId) &&
    (desired.stateContract.isSome && existing.stateContract = desired.stateContract)

/-! ### What the controller writes -/

/-- The state that an action asks for. -/
def Control.state : Control → String
  | .stop => "stopped"
  | _ => "running"

/-- The replicas that an action asks for. -/
def Control.replicas (control : Control) (plan : Plan) : Int :=
  match control with
  | .stop => 0
  | _ => plan.desiredReplicas.toNat

def Action.token (action : Action) : String := printU64 action.sequence ++ "-" ++ action.operationId

/-- The merge patch of a lifecycle action. -/
def Workload.patched (workload : Workload) (action : Action) (plan : Plan) : Workload :=
  { workload with
    state := some action.control.state
    sequence := some (printU64 action.sequence)
    replicas := some (action.control.replicas plan)
    restartToken := if action.control = .restart then some action.token else workload.restartToken }

/-- `preserve_observed`. -/
def preserveObserved (existing desired : Workload) : Workload :=
  let compatible := sameLifecycleIdentity existing desired
  { desired with
    resourceVersion := existing.resourceVersion
    state := match existing.state with
      | some value => some (if compatible then value else "running")
      | none => desired.state
    sequence := existing.sequence.or desired.sequence
    replicas := if compatible && existing.state.isSome then existing.replicas else desired.replicas
    restartToken := match existing.restartToken with
      | some token => some (if compatible then token else "")
      | none => desired.restartToken }

/-- The server-side apply of a document, by force: a key that it leaves out stays
    where an action wrote it. -/
def Workload.applied (workload document : Workload) : Workload :=
  { document with
    generation := workload.generation
    state := document.state.or workload.state
    sequence := document.sequence.or workload.sequence
    restartToken := document.restartToken.or workload.restartToken
    status := workload.status }

/-- What `render_cell` renders: it knows of no lifecycle actions. -/
structure Rendered where
  workload : Workload
  fresh : workload.resourceVersion = none ∧ workload.state = none ∧ workload.sequence = none ∧ workload.restartToken = none
  runs : ∃ count, 0 < count ∧ workload.replicas = some count
end Proofstorm.Lifecycle
