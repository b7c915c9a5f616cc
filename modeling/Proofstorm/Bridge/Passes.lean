import Proofstorm.Bridge.Children
import Proofstorm.Interleaving

/-!
What the controller does about the calls of a task: a pass over a parent, and the
check of a child before it is executed. Both ask the manager of the workspace, in
whose pod they execute the runner, and the cluster. A pass is handed its parent as
it was when the pass began, and a check its cell. Which replies are lost on the
way is an argument, as is the time.
-/
namespace Proofstorm.Bridge
open Proofstorm.Core (Json)
open Proofstorm.Interleaving (Call Fallible query submit settle attempt)

structure Pod where
  name : String
  uid : String
  instanceKey : String
  component : String
  running : Bool
  deleting : Bool
  deriving DecidableEq

/-- The volume of a workspace: the key of an instance and a component of it. All
    pods of the component mount it. -/
abbrev Place := String × String

/-- What the API server holds. -/
structure Cluster where
  pods : List Pod
  cells : List Cell
  actions : List Action

structure World where
  managers : Place → Manager
  cluster : Cluster

/-- A record: the volume, the task and the call id. -/
abbrev CallKey := Place × String × String

inductive Statement
  | bridge (place : Place) (launch : Launch) (request : BridgeRequest)
  /-- `key` is not data: it names the record that the child is for. -/
  | create (key : CallKey) (child : Action)
  | cancel (name : String)
  | happens (place : Place) (event : ManagerEvent)
  /-- Others change what the API server holds, or what the API server of this model
      does not control: pods. -/
  | elsewhere (change : Cluster → Cluster)

@[reducible] def Statement.Answer : Statement → Type
  | .bridge .. => Except String Reply
  | _ => Unit

def World.manage (w : World) (place : Place) (m : Manager) : World :=
  { w with managers := fun other => if other = place then m else w.managers other }

def Cluster.find (cluster : Cluster) (name : String) : Option Action :=
  cluster.actions.find? fun action => action.name = name

section
variable [Wire]

def execute (statement : Statement) (w : World) : Except String (statement.Answer × World) :=
  match statement with
  | .bridge place launch request =>
    .ok (((w.managers place).bridge launch request).2,w.manage place ((w.managers place).bridge launch request).1)
  | .create _ child => do
    ensure (w.cluster.find child.name = none) "AlreadyExists"
    pure ((),{ w with cluster.actions := child :: w.cluster.actions })
  | .cancel name => do
    ensure (w.cluster.find name ≠ none) "NotFound"
    pure ((),{ w with cluster.actions := w.cluster.actions.map fun action =>
      if action.name = name then
        { action with annotations := action.annotations.insert cancelAnnotationKey "workspace-task-ended" }
      else action })
  | .happens place event => .ok ((),w.manage place ((w.managers place).happens event))
  | .elsewhere change => .ok ((),{ w with cluster := change w.cluster })
end

abbrev Program := Fallible World Statement String Statement.Answer

abbrev perform (statement : Statement) : Program statement.Answer := submit statement

/-- What a pass meets outside the documents. -/
structure Surroundings where
  now : Int
  /-- The requests of which the reply is lost. -/
  lost : List Ask
  deriving DecidableEq

/-- The reply of the manager, and whether the pod of the start was replaced. -/
structure Exchanged where
  reply : Reply
  replaced : Bool

/-- `Ok` or nothing, with the fields of a poll. -/
structure Polled where
  state : Option State
  pending : Option Record
  callCount : Option Nat
  replaced : Bool

def Exchanged.polled (exchanged : Exchanged) : Polled :=
  match exchanged.reply with
  | .poll state pending callCount => ⟨some state,pending,callCount,exchanged.replaced⟩
  | _ => ⟨none,none,none,exchanged.replaced⟩

/-- What a pass asks for when it ends. -/
inductive Next
  | awaitChange
  | requeue (seconds : Nat)
  deriving DecidableEq

def pollSeconds : Nat := 2

section
variable [Wire]

def taskComponent (parent : Action) : Option String :=
  match parent.spec.action with
  | .componentExecLive request => some request.component
  | _ => none

/-- The pod that `exchange` executes in, and whether it is the original. -/
def findPod (parent : Action) (reference : NativeExecution) (component : String) : Program Bool := do
  let original ← query fun w => .ok (w.cluster.pods.find? fun pod => pod.name = reference.pod)
  if original.map Pod.uid = some reference.podUid then pure true
  else
    let _ ← query fun w => require (w.cluster.pods.find? fun pod => pod.instanceKey = parent.spec.instanceKey &&
      pod.component = component && !pod.deleting && pod.running) "workspace is unavailable"
    pure false

/-- `exchange` -/
def exchange (around : Surroundings) (parent : Action) (start : TaskStart) (ask : Ask) : Program Exchanged := do
  let reference ← settle (require (parent.status.bind ActionStatus.nativeExecution) "workspace execution handle missing")
  let component ← settle (require (taskComponent parent) "workspace start expected")
  let samePod ← findPod parent reference component
  let answer ← perform (.bridge (parent.spec.instanceKey,component) ⟨false,false⟩
    (.ask start.taskId parent.spec.operationId ask))
  settle (ensure (ask ∉ around.lost) "invalid workspace bridge response")
  let reply ← settle (answer.mapError fun _ => "workspace bridge request refused")
  pure ⟨reply,!samePod⟩

/-- `owns_state` -/
def ownsState (parent : Action) (start : TaskStart) (poll : Polled) : Bool :=
  poll.state.any fun state =>
    state.controlOwner = some parent.spec.operationId && state.requestDigest = digestJson (.start start)

def isRunning (poll : Polled) : Bool := poll.state.any fun state => state.phase = .running

/-- `cancel_children` -/
def cancelChildren : List Action → Program Bool
  | [] => pure false
  | child :: rest => do
    if !needsCleanup child && child.ended then cancelChildren rest
    else
      perform (.cancel child.name)
      let _ ← cancelChildren rest
      pure true

/-- The receipt of a child that has ended. -/
def childReceipt (call : ControlCall) (name : String) (status : ActionStatus) : Json :=
  .object [("action_id",.str name),("artifact",status.artifact.getD .null),("call_id",.str call.callId),
    ("error",status.error.getD .null),("phase",.str status.phase.text)]

def dispatchOutcomeUnknown : String := "dispatch_outcome_unknown"
def workspaceControlClosed : String := "workspace_control_closed"

/-- The receipt of a call without a child. -/
def closedReceipt (call : ControlCall) (name code : String) : Json :=
  .object [("action_id",.str name),("call_id",.str call.callId),
    ("error",.object [("code",.str code),
      ("message",.str "command was not replayed; reconcile effects before using a new call ID")]),
    ("phase",.str "Failed")]

def permitted (start : TaskStart) (call : ControlCall) (callCount : Option Nat) : Bool :=
  (start.control.any fun scope => (scope.permits call).isOk) &&
    callCount.any fun count => count ≤ (start.control.map ControlScope.maxCalls).getD 0

/-- The rest of a pass that was shown a pending call. -/
def dispatch (around : Surroundings) (parent : Action) (start : TaskStart) (active : Bool) (record : Record)
    (callCount : Option Nat) : Program Next := do
  let call := record.call
  settle (ensure (permitted start call callCount) "workspace call exceeds its controller grant")
  let name := callName parent call
  match ← query fun w => .ok (w.cluster.find name) with
  | some child =>
    settle (ensure (childMatches parent call child) "workspace child identity mismatch")
    match child.status.filter fun status => status.phase.terminal with
    | some status => let _ ← exchange around parent start (.complete call.callId (childReceipt call name status))
    | none => pure ()
  | none =>
    if !active || record.claimed then
      let code := if active then dispatchOutcomeUnknown else workspaceControlClosed
      let _ ← exchange around parent start (.complete call.callId (closedReceipt call name code))
    else
      let claim ← exchange around parent start (.claim call.callId)
      if claim.reply = .claim true (digestJson (.call call)) then
        -- Only this transition may create. A crash between claim and create is uncertain, never replayed.
        let component ← settle (require (taskComponent parent) "workspace start expected")
        perform (.create ((parent.spec.instanceKey,component),start.taskId,call.callId)
          (childActionAt parent call around.now))
  pure (.requeue pollSeconds)

/-- Close a task whose revision or whose pod is gone. -/
def closeStale (around : Surroundings) (parent : Action) (start : TaskStart) (stale : Bool) : Program Unit := do
  if stale then
    let _ ← attempt (exchange around parent start .close)

def cancelInactive (children : List Action) (active : Bool) : Program Unit := do
  if !active then
    let _ ← cancelChildren children

/-- Report the faults that are left, where the grant allows any. -/
def reportFaults (around : Surroundings) (parent : Action) (start : TaskStart) (valid : Bool) (pendingFaults : Nat) :
    Program Unit := do
  if valid && start.control.any fun scope => scope.network ≠ [] then
    let _ ← exchange around parent start (.cleanup (min pendingFaults (2 ^ 32 - 1)))

/-- The part of `reconcile_with` about a parent that started a controlled task. -/
def reconcileStart (around : Surroundings) (parent : Action) (start : TaskStart) (children : List Action)
    (cell : Option Cell) : Program Next := do
  -- A duplicate task start returns the original owner. It must never attach another grant.
  let poll ← attempt (exchange around parent start .poll)
  let polled := (poll.toOption.map Exchanged.polled).getD ⟨none,none,none,false⟩
  let valid := poll.isOk && ownsState parent start polled
  let current := cell.any (currentRevision parent)
  let active := valid && !polled.replaced && isRunning polled && current
  let pendingFaults := (children.filter fun child => needsCleanup child).length
  closeStale around parent start (valid && (!current || polled.replaced))
  cancelInactive children active
  reportFaults around parent start valid pendingFaults
  if !poll.isOk then
    -- Transport loss closes new authority and cancels outstanding calls.
    pure (.requeue 5)
  else if !valid then pure .awaitChange
  else
    match polled.pending with
    | none =>
      let stopping := polled.state.any fun state => state.phase = .stopping
      pure (if active || pendingFaults > 0 || stopping then .requeue pollSeconds else .awaitChange)
    | some record => dispatch around parent start active record polled.callCount

/-- `reconcile` -/
def reconcile (around : Surroundings) (parent : Action) : Program Next := do
  if (parent.status.bind ActionStatus.nativeExecution).isNone then pure .awaitChange
  else
    let children ← query fun w => .ok (w.cluster.actions.filter fun action =>
      action.labels.get parentLabel = some (ownerLabel parent))
    let cell ← query fun w => .ok (w.cluster.cells.find? fun cell => cell.name = parent.spec.cellName)
    match (cell.filter fun cell => sameInstance parent cell).bind fun _ => requestedStart parent with
    | none => do
      let pending ← cancelChildren children
      pure (if pending then .requeue pollSeconds else .awaitChange)
    | some start => reconcileStart around parent start children cell

/-- `admit_child` -/
def admitChild (around : Surroundings) (child : Action) (cell : Cell) : Program Bool := do
  match child.annotations.get parentAnnotationKey with
  | none => pure false
  | some parentName =>
    match ← query fun w => .ok (w.cluster.find parentName) with
    | none => pure false
    | some parent =>
      match controlledStart parent cell, (child.annotations.get callAnnotationKey).bind Wire.parseCall with
      | some start, some call =>
        if !currentRevision parent cell || !(start.control.any fun scope => (scope.permits call).isOk) ||
            !childMatches parent call child || deadlinePassed child around.now then pure false
        else
          match ← attempt (exchange around parent start .poll) with
          | .error _ => pure false
          | .ok poll =>
            pure (ownsState parent start poll.polled && !poll.replaced && isRunning poll.polled &&
              poll.polled.pending.any fun record => record.digest = digestJson (.call call) && record.claimed)
      | _, _ => pure false

/-! ### Runs -/

/-- What is going on at a time: a pass, a check, a request of anyone who can
    execute the runner, and what happens elsewhere. `number` tells passes apart. -/
inductive Request
  | pass (number : Nat) (around : Surroundings) (parent : Action)
  | admission (around : Surroundings) (child : Action) (cell : Cell)
  | bridge (place : Place) (launch : Launch) (request : BridgeRequest)
  | happens (place : Place) (event : ManagerEvent)
  | elsewhere (change : Cluster → Cluster)

inductive Response
  | next (next : Next)
  | admitted (admitted : Bool)
  | answered (answer : Except String Reply)
  | done
  deriving DecidableEq

def program : Request → Program Response
  | .pass _ around parent => do return .next (← reconcile around parent)
  | .admission around child cell => do return .admitted (← admitChild around child cell)
  | .bridge place launch request => do return .answered (← perform (.bridge place launch request))
  | .happens place event => do
    perform (.happens place event)
    return .done
  | .elsewhere change => do
    perform (.elsewhere change)
    return .done

def code (request : Request) : Call World Statement String Statement.Answer (Except String Response) :=
  (program request).run
end

end Proofstorm.Bridge
