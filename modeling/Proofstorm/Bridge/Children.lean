import Proofstorm.Bridge.Mailbox

/-!
The actions of a cell that task calls are dispatched as. A parent is the action
that started a controlled task; the child of a call is computed from the parent
and the call alone, but for the time at which it is accepted, and is told from
any other action by computing it again. All objects are in one namespace.
-/
namespace Proofstorm.Bridge
open Proofstorm.Core (Json Capability PrivateAccessGrant slice)

inductive PayloadBinding
  | capture (reference : String) (format : CaptureFormat)
  | consume (reference : String) (input : InputBinding)
  deriving DecidableEq

structure ComponentExecLiveAction where
  privatePayload : Option PayloadBinding
  component : String
  script : String
  argv : List String
  timeoutSeconds : Nat
  output : NativeOutput
  deriving DecidableEq

inductive CellAction
  | componentStart (component : String)
  | componentStop (component : String)
  | componentRestart (component : String)
  | networkPartition (fromComponent toComponent : String)
  | networkHeal (partitionOperationId : String)
  | componentExecLive (request : ComponentExecLiveAction)
  /-- A kind that no task call has. -/
  | other (kind : String) (parameters : Json)
  deriving DecidableEq

/-- `ProofstormCellActionSpec` -/
structure Spec where
  accessScope : Option PrivateAccessGrant
  cellName : String
  workspaceId : String
  instanceId : String
  instanceKey : String
  experimentId : String
  sessionId : String
  principalId : String
  sequence : Nat
  operationId : String
  requestDigest : String
  capability : Capability
  acceptedAtUnix : Int
  action : CellAction
  deriving DecidableEq

inductive ActionPhase
  | pending | running | succeeded | failed | cancelled
  deriving DecidableEq

/-- `is_terminal_action` -/
def ActionPhase.terminal : ActionPhase → Bool
  | .succeeded | .failed | .cancelled => true
  | .pending | .running => false

def ActionPhase.text : ActionPhase → String
  | .pending => "Pending"
  | .running => "Running"
  | .succeeded => "Succeeded"
  | .failed => "Failed"
  | .cancelled => "Cancelled"

/-- `NativeExecutionRef`: the pod in which the start of a task was executed. -/
structure NativeExecution where
  pod : String
  podUid : String
  deriving DecidableEq

structure ActionStatus where
  phase : ActionPhase
  nativeExecution : Option NativeExecution
  artifact : Option Json
  error : Option Json
  deriving DecidableEq

/-- Labels or annotations. -/
abbrev Entries := List (String × String)

def Entries.get (entries : Entries) (name : String) : Option String := entries.lookup name

def Entries.insert (entries : Entries) (name value : String) : Entries :=
  (name,value) :: entries.filter fun entry => entry.1 ≠ name

theorem Entries.get_insert (entries : Entries) (name value other : String) :
    (entries.insert name value).get other = if other = name then some value else entries.get other := by
  simp only [Entries.get,Entries.insert,List.lookup_cons]
  split
  · rename_i same
    rw [if_pos (eq_of_beq same)]
  · rename_i differ
    have differs : other ≠ name := ne_of_beq_false differ
    rw [if_neg differs]
    induction entries with
    | nil => rfl
    | cons first rest ih =>
      rw [List.filter_cons]
      split
      · rw [List.lookup_cons,List.lookup_cons,ih]
      · rename_i gone
        have here : first.1 = name := by simpa using gone
        rw [ih,List.lookup_cons,beq_false_of_ne (here ▸ differs)]

/-- `ProofstormCellAction` -/
structure Action where
  name : String
  uid : Option String
  labels : Entries
  annotations : Entries
  spec : Spec
  status : Option ActionStatus
  deriving DecidableEq

inductive CellPhase
  | pending | blocked | ready | closing | cleanupBlocked
  deriving DecidableEq

/-- `ProofstormCell`. Of a component, its id and its implementation. -/
structure Cell where
  name : String
  workspaceId : String
  instanceId : String
  instanceKey : String
  revisionDigest : String
  components : List (String × String)
  deleting : Bool
  phase : Option CellPhase
  deriving DecidableEq

def parentAnnotationKey : String := "proofstorm.dev/workspace-parent"
def parentLabel : String := "proofstorm.dev/workspace-owner"
def callAnnotationKey : String := "proofstorm.dev/workspace-call"
def deadlineAnnotationKey : String := "proofstorm.dev/workspace-call-deadline"
def expiresAnnotationKey : String := "proofstorm.dev/workspace-fault-expires"
def grantAnnotationKey : String := "proofstorm.dev/workspace-control-grant"
def revisionAnnotationKey : String := "proofstorm.dev/action-revision"
def cancelAnnotationKey : String := "proofstorm.dev/cancel-token"

section
variable (action parent : Action) (cell : Cell)

/-- `same_instance` -/
def sameInstance : Bool :=
  action.spec.workspaceId = cell.workspaceId && action.spec.instanceId = cell.instanceId &&
    action.spec.instanceKey = cell.instanceKey && action.spec.cellName = cell.name

/-- `require_open_cell` -/
def requireOpenCell : Bool := !(cell.deleting || cell.phase = some .closing || cell.phase = some .cleanupBlocked)

/-- `current_revision` -/
def currentRevision : Bool :=
  parent.annotations.get revisionAnnotationKey = some cell.revisionDigest && requireOpenCell cell &&
    (parent.annotations.get cancelAnnotationKey).isNone

/-- `is_owned_network` -/
def isOwnedNetwork : Bool :=
  (action.annotations.get parentAnnotationKey).isSome &&
    match action.spec.action with
    | .networkPartition .. | .networkHeal _ => true
    | _ => false

/-- `needs_cleanup` -/
def needsCleanup : Bool :=
  isOwnedNetwork action &&
    (match action.spec.action with
      | .networkPartition .. => true
      | _ => false) &&
    ((action.status.bind ActionStatus.artifact).bind fun artifact => artifact.get "cleanup_verified") ≠
      some (.bool true)

/-- Whether the action has ended. -/
def Action.ended : Bool := action.status.any fun status => status.phase.terminal
end

/-! ### Times as text -/

/-- `i64::from_str` -/
def parseI64 (text : String) : Option Int :=
  let magnitude (digits : List Char) : Option Int :=
    if digits ≠ [] ∧ digits.all Char.isDigit then some (Nat.ofDigitChars 10 digits 0) else none
  let value := match text.toList with
    | '-' :: digits => (magnitude digits).map fun value => -value
    | '+' :: digits => magnitude digits
    | digits => magnitude digits
  value.filter fun value => -2 ^ 63 ≤ value && value < 2 ^ 63

section
variable [Wire]

/-! ### Parents -/

/-- `requested_start` -/
def requestedStart (action : Action) : Option TaskStart :=
  if (action.annotations.get parentAnnotationKey).isSome ∨ action.spec.accessScope.isSome ∨
      action.spec.capability ≠ .componentExecLive then none
  else
    match action.spec.action with
    | .componentExecLive request => do
      let start ← startRequest request.script request.argv
      let scope ← start.control
      if scope.capabilities ≠ [] ∧ action.annotations.get grantAnnotationKey ≠ some (digestJson (.scope scope)) then none
      else some start
    | _ => none

omit [Wire] in
theorem lawfulPairs : LawfulBEq (String × String) := inferInstance

attribute [local instance] lawfulPairs

/-- `controlled_start` -/
def controlledStart (action : Action) (cell : Cell) : Option TaskStart := do
  let start ← requestedStart action
  match action.spec.action with
  | .componentExecLive request =>
    if ¬ sameInstance action cell ∨ (request.component,"workspace") ∉ cell.components then none
    else
      let scope ← start.control
      if ∃ id ∈ scope.targets, id ∉ cell.components.map Prod.fst then none else some start
  | _ => none

/-- `owner_label` -/
def ownerLabel (parent : Action) : String := slice (digestJson (.owner parent.uid parent.spec.operationId)) 7 47

/-- `call_name_id` -/
def callNameId (parent : Action) (callId : String) : String :=
  "ws-call-" ++ slice (digestJson (.name (ownerLabel parent) callId)) 7 47

def callName (parent : Action) (call : ControlCall) : String := callNameId parent call.callId

/-! ### Children -/

/-- The capability and the action of a child. A call that is permitted has an
    operation or a command. -/
def childWork (parent : Action) (call : ControlCall) : Capability × CellAction :=
  match call.operation, call.command with
  | some (.componentStart component), _ => (.componentControl,.componentStart component)
  | some (.componentStop component), _ => (.componentControl,.componentStop component)
  | some (.componentRestart component), _ => (.componentControl,.componentRestart component)
  | some (.networkPartition fromComponent toComponent _), _ =>
    (.networkPartition,.networkPartition fromComponent toComponent)
  | some (.networkHeal partitionCallId), _ => (.networkHeal,.networkHeal (callNameId parent partitionCallId))
  | none, some command =>
    (parent.spec.capability,
      .componentExecLive ⟨none,call.component,command.script,command.argv,command.timeoutSeconds,command.output⟩)
  | none, none => (parent.spec.capability,parent.spec.action)

/-- The deadline of an operation, and the expiry of a partition. -/
def timeAnnotations (parent : Action) (call : ControlCall) (accepted : Int) : Entries :=
  match call.operation with
  | none => []
  | some operation =>
    let seconds := (((requestedStart parent).bind TaskStart.control).map ControlScope.maxTimeoutSeconds).getD 30
    let deadline := (deadlineAnnotationKey,toString (accepted + seconds))
    match operation with
    | .networkPartition _ _ durationSeconds => [deadline,(expiresAnnotationKey,toString (accepted + durationSeconds))]
    | _ => [deadline]

/-- `child_action_at` -/
def childActionAt (parent : Action) (call : ControlCall) (accepted : Int) : Action where
  name := callName parent call
  uid := none
  labels := parent.labels.insert parentLabel (ownerLabel parent)
  annotations := (parentAnnotationKey,parent.name) :: (callAnnotationKey,Wire.callText call) ::
    timeAnnotations parent call accepted ++
      ((parent.annotations.get revisionAnnotationKey).map fun revision => (revisionAnnotationKey,revision)).toList
  spec := { parent.spec with
    operationId := callName parent call
    requestDigest := digestJson (.call call)
    acceptedAtUnix := accepted
    experimentId := ""
    sessionId := ""
    capability := (childWork parent call).1
    action := (childWork parent call).2 }
  status := none

/-- `child_matches` -/
def childMatches (parent : Action) (call : ControlCall) (child : Action) : Bool :=
  let expected := childActionAt parent call child.spec.acceptedAtUnix
  child.spec = expected.spec && child.name = expected.name &&
    (expected.annotations.all fun entry => child.annotations.get entry.1 = some entry.2) &&
    expected.labels.all fun entry => child.labels.get entry.1 = some entry.2

/-- Whether the deadline of a child has passed. -/
def deadlinePassed (child : Action) (now : Int) : Bool :=
  ((child.annotations.get deadlineAnnotationKey).bind parseI64).any fun deadline => deadline ≤ now

/-! ### A new child is the child of its call -/

end

end Proofstorm.Bridge
