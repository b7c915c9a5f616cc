import Proofstorm.Actions.Runtime

/-!
The calls that submit an operation, cancel it and record what became of it, and
the passes of the controller that start an action and remove a finished one. All
of them can be cut off, and interleave, at each step that reads or writes the
store or the API server. Where an upload belongs to the operation, its staged
file is removed besides; that touches neither the journal nor the action.
-/
namespace Proofstorm.Actions
open Proofstorm.Core
open Proofstorm.Bridge (ActionPhase CellAction Entries Spec Wire parentAnnotationKey)
open Proofstorm.Interleaving

/-- `FINISHED_ACTION_RETENTION_SECONDS` -/
def finishedActionRetentionSeconds : Int := 3600

/-- `ACTION_START_DEADLINE_SECONDS` -/
def actionStartDeadlineSeconds : Int := 120

def revisionAnnotationKey : String := "proofstorm.dev/action-revision"

/-- `runtime_action_resource` -/
def runtimeActionResource (cell : CellInstance) (operation : CellOperation) (action : CellAction) : ActionResource where
  name := operation.resourceName
  labels := [("app.kubernetes.io/managed-by","proofstorm-mcp"),("proofstorm.dev/cell",cell.resourceName),
    ("proofstorm.dev/instance",cell.instanceKey)]
  annotations := [(revisionAnnotationKey,operation.revisionDigest)]
  spec :=
    { accessScope := none
      cellName := cell.resourceName
      workspaceId := operation.workspaceId
      instanceId := operation.instanceId
      instanceKey := cell.instanceKey
      experimentId := operation.experimentId
      sessionId := operation.sessionId
      principalId := operation.principalId
      sequence := operation.sequence
      operationId := operation.id
      requestDigest := operation.requestDigest
      capability := operation.capability
      acceptedAtUnix := operation.acceptedAtUnix
      action := action }

/-- `missing_action_artifact` -/
def missingActionArtifact (operation : CellOperation) : Json :=
  .object [("code",.str "action_runtime_not_found"),
    ("message",.str "the runtime action resource no longer exists; its outcome was not observed"),
    ("resource_name",.str operation.resourceName)]

/-- What a cancellation records of an operation that was not submitted. -/
def unsubmittedArtifact : Json :=
  .object [("cancelled",.bool true),("code",.str "action_cancelled"),("submitted",.bool false)]

/-- `require_open_cell` -/
def requireOpenCell (cell : Cell) : Except Failure PUnit :=
  ensure (¬ (cell.deleting = true ∨ cell.phase = some .closing ∨ cell.phase = some .cleanupBlocked))
    (.problem "cell_closing" "cell is closing; new actions are not admitted")

/-! ### Receipts of native commands -/

/-- The bytes of a character in a JSON string. -/
def encodedBytes (c : Char) : Nat :=
  if c ∈ ['"','\\','\n','\r','\t',Char.ofNat 8,Char.ofNat 12] then 2 else if c.toNat < 32 then 6 else c.utf8Size

/-- The characters of a stream that fit into 12 KiB with what is before them. -/
def retainedChars : Nat → List Char → List Char
  | _, [] => []
  | encoded, c :: rest =>
    if encoded + encodedBytes c > 12 * 1024 then [] else c :: retainedChars (encoded + encodedBytes c) rest

/-- `Map::insert` -/
def insertField (fields : List (String × Json)) (key : String) (value : Json) : List (String × Json) :=
  fields.takeWhile (fun field => field.1 < key) ++ (key,value) :: fields.dropWhile fun field => field.1 ≤ key

def capStream (receipt : Json) (field : String) : Json :=
  match receipt, receipt.get field with
  | .obj fields, some (.str text) =>
    let retained := retainedChars 2 text.toList
    if retained.length < text.toList.length then
      .object (insertField (insertField fields.toList field (.str (.ofList retained))) "output_truncated" (.bool true))
    else receipt
  | _, _ => receipt

/-- `cap_public_streams` -/
def capPublicStreams (receipt : Json) : Json := capStream (capStream receipt "stdout") "stderr"

/-! ### The application -/

section
variable [CoreFunctions]

/-- `private_access_once` -/
def privateAccessOnce (grant : PrivateAccessGrant) : Program Unit := do
  let found ← query fun world => .ok (world.cells.rows.filter fun cell =>
    cell.workspaceId = grant.workspaceId ∧ cell.instanceId = grant.instanceId)
  match found with
  | [cell] => do
    settle (requireOpenCell cell)
    let previous := cell.privateAccess.find? fun other => other.id = grant.id
    settle (ensure (∀ other, previous = some other → other.scope = grant.scope ∧ other.principalId = grant.principalId ∧
      other.instanceId = grant.instanceId) (.problem "invalid_operation" "private access identity conflict"))
    settle (ensure (∀ other, previous = some other → ¬ (other.revokedAtUnix.isSome ∧ grant.revokedAtUnix = none))
      (.problem "invalid_operation" "private access was revoked"))
    -- A registry that is too large is refused as any statement may be.
    if previous = some grant then pure () else exec (.publishAccess cell.name cell.resourceVersion grant)
  | _ => throw (.problem "invalid_operation" "private access cell unavailable")

/-- `private_access`: so many more attempts where the cell has changed meanwhile. -/
def privateAccess (grant : PrivateAccessGrant) : Nat → Program Unit
  | 0 => privateAccessOnce grant
  | attempts+1 => do
    match ← attempt (privateAccessOnce grant) with
    | .ok _ => pure ()
    | .error (.api 409) => privateAccess grant attempts
    | .error error => throw error

/-- `apply_action` -/
def applyAction (cell : CellInstance) (action : ActionResource) : Program Unit := do
  let open_ ← query fun world => require (world.cells.find cell.resourceName) (.api 404)
  settle (requireOpenCell open_)
  match ← query fun world => .ok (world.actions.find action.name) with
  | some existing =>
    settle (ensure (existing.spec = action.spec)
      (.problem "action_identity_conflict" s!"action resource {action.name} already exists with a different request"))
  | none => exec (.apply action)

/-- The last steps of `submit_action_resource`, with the scope of the access. -/
def sendAction (workspace : String) (cell : CellInstance) (operation : CellOperation) (resource : ActionResource)
    (scope : Option PrivateAccessGrant) : Program CellOperation := do
  applyAction cell { resource with spec := { resource.spec with accessScope := scope } }
  let now ← query fun world => .ok world.now
  store (Store.updateOperationPhase workspace operation.id .running now)

/-- `submit_action_resource` -/
def submitActionResource (workspace principal : String) (cell : CellInstance) (operation : CellOperation)
    (resource : ActionResource) : Program CellOperation := do
  if operation.phase ≠ .pending then pure operation
  else
    let current ← store (Store.operationForSubmission workspace principal operation.id)
    if current.phase ≠ .pending then pure current
    else
      match ← store (Store.operationAccessScope current) with
      | none => sendAction workspace cell operation resource none
      | some grant => do
        privateAccess grant 4
        -- Publishing the permission takes time; a cancellation during it must keep the action from being sent.
        let current ← store (Store.operationForSubmission workspace principal operation.id)
        if current.phase ≠ .pending then pure current
        else sendAction workspace cell operation resource (some grant)

/-- `terminal_action_observation` -/
def terminalActionObservation (status : ActionStatus) (native : Bool) : Option (OperationPhase × Json) :=
  let observed (phase : OperationPhase) (content : Option Json) (fallback : String) :=
    let artifact := content.getD (.object [("code",.str fallback)])
    some (phase,if native then capPublicStreams artifact else artifact)
  match status.phase with
  | .pending | .running => none
  | .succeeded => observed .succeeded status.artifact "terminal_artifact_missing"
  | .failed => observed .failed (if native then status.artifact.or status.error else status.error) "action_failed"
  | .cancelled => observed .cancelled (if native then status.artifact.or status.error else none) "action_cancelled"

/-- `vanished_action_outcome` -/
def vanishedActionOutcome (operation : CellOperation) (now : Int) : Option (OperationPhase × Json) :=
  if operation.phase = .running ∨ now > operation.acceptedAtUnix + finishedActionRetentionSeconds then
    some (.failed,missingActionArtifact operation)
  else none

/-- Whether the action is a command in a live component. -/
def isExecLive : CellAction → Bool
  | .componentExecLive _ => true
  | _ => false

/-- `action_status` -/
def actionStatus (operation : CellOperation) : Program (Option (OperationPhase × Json)) := do
  match ← query fun world => .ok (world.actions.find operation.resourceName) with
  | none => do
    let now ← query fun world => .ok world.now
    pure (vanishedActionOutcome operation now)
  | some action => pure (action.status.bind fun status => terminalActionObservation status (isExecLive action.spec.action))

def recordResult (workspace : String) (operation : CellOperation) (phase : OperationPhase) (artifact : Json) :
    Program CellOperation := do
  let now ← query fun world => .ok world.now
  store (Store.recordOperationResult workspace operation.id phase artifact now)

/-- What every observer of an operation does: `action_status`, and `journal::record` of its answer. -/
def observeOperation (workspace id : String) : Program Unit := do
  let operation ← store (query (Store.operationFrom workspace id))
  if operation.phase.active = false then pure ()
  else
    match ← actionStatus operation with
    | none => pure ()
    | some (phase,artifact) => do
      let _ ← recordResult workspace operation phase artifact
      pure ()

/-- `is_terminal_action` of a status that may be missing. -/
def isTerminal (status : Option ActionStatus) : Bool := status.any fun status => status.phase.terminal

/-- `request_action_cancellation` -/
def requestActionCancellation (operation : CellOperation) (token : String) : Program Bool := do
  match ← query fun world => .ok (world.actions.find operation.resourceName) with
  | none => pure false
  | some action => do
    settle (ensure (action.spec.workspaceId = operation.workspaceId ∧ action.spec.instanceId = operation.instanceId ∧
        action.spec.experimentId = operation.experimentId ∧ action.spec.operationId = operation.id ∧
        action.spec.principalId = operation.principalId ∧ action.spec.requestDigest = operation.requestDigest)
      (.problem "action_identity_conflict" "action cancellation identity does not match the journal"))
    if isTerminal action.status = true ∨ action.cancelRequested = true then pure true
    else do
      exec (.requestCancellation operation.resourceName token)
      pure true

/-- `request_cancellation` -/
def requestCancellation (workspace principal operationId key : String) : Program CellOperation := do
  store (query (Store.authorize workspace principal .actionCancel))
  let operation ← store (Store.operationForCancel workspace principal operationId)
  if operation.phase.active = false then pure operation
  else
    let token := digestJson (.json (.array [.str workspace,.str principal,.str operationId,.str key]))
    if ← requestActionCancellation operation token then pure operation
    else if operation.phase = .pending then recordResult workspace operation .cancelled unsubmittedArtifact
    else recordResult workspace operation .failed (missingActionArtifact operation)

/-! ### The controller -/

section
variable [Wire]

/-- `is_controlled_start` -/
def isControlledStart (action : Action) : Bool :=
  (Bridge.requestedStart ⟨action.name,some (toString action.uid),action.labels,action.annotations,action.spec,none⟩).isSome

/-- The reads and the tests that a Job runs, by their kind. -/
def jobKinds : List String :=
  ["component_logs","component_forensics","reachability_oracle","authentication_conformance",
    "authentication_protected_spend","authentication_replay"]

/-- `action_execution_started` -/
def actionExecutionStarted (status : Option ActionStatus) : Bool :=
  status.any fun status => status.phase = .running || status.jobName.isSome || status.startedAtUnix.isSome

/-- `finished_action_expiry` -/
def finishedActionExpiry (action : Action) : Option Int :=
  let oneOff : Bool := match action.spec.action with
    | .componentExecLive request => request.privatePayload.isNone && action.spec.accessScope.isNone &&
        !isControlledStart action && (Entries.get action.annotations parentAnnotationKey).isNone
    | .other kind _ => kind ∈ jobKinds
    | _ => false
  match action.status with
  | none => none
  | some status =>
    if oneOff && status.phase.terminal then
      some (status.completedAtUnix.getD action.spec.acceptedAtUnix + finishedActionRetentionSeconds)
    else none

/-- `expire_finished_action` -/
def expireFinishedAction (action : Action) : Program Unit := do
  match finishedActionExpiry action with
  | none => pure ()
  | some expiry => do
    let now ← query fun world => .ok world.now
    if expiry - now > 0 then pure ()
    else
      match ← attempt (exec (.delete action.name)) with
      | .ok _ | .error (.api 404) => pure ()
      | .error error => throw error

/-- `start_deadline_passed` -/
def startDeadlinePassed (action : Action) (now : Int) : Bool :=
  let oneOff : Bool := match action.spec.action with
    | .componentExecLive _ => true
    | .other kind _ => kind ∈ jobKinds
    | _ => false
  oneOff && !actionExecutionStarted action.status &&
    now > max action.spec.acceptedAtUnix action.creationTimestamp + actionStartDeadlineSeconds

/-- The status of an action that was not started. -/
def notStarted (now : Int) : ActionStatus :=
  { phase := .failed
    nativeExecution := none
    observedGeneration := none
    jobName := none
    startedAtUnix := none
    completedAtUnix := some now
    artifact := none
    error := some (.object [("code",.str "action_not_started")]) }

/-- The part of a pass over an action that may start it, or removes it. -/
def reconcileAction (name : String) : Program Unit := do
  match ← query fun world => .ok (world.actions.find name) with
  | none => pure ()
  | some action =>
    if isTerminal action.status then expireFinishedAction action
    else if action.cancelRequested then pure ()
    else do
      let now ← query fun world => .ok world.now
      if startDeadlinePassed action now then exec (.report name (notStarted now))
      else if actionExecutionStarted action.status then pure ()
      else exec (.start action)
end

end

end Proofstorm.Actions
