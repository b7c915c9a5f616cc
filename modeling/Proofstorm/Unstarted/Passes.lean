import Proofstorm.Unstarted.Server

/-!
The passes of the controller over one action. A pass is handed the action in a
version that the server once served. What it finds in the cell and in the pods is
a choice of the request (`Findings`); what it finds of the Job it reads. Between
the answer of the server and the next look at the clock nothing is awaited.
-/
namespace Proofstorm.Unstarted
open Proofstorm.Core (Json)
open Proofstorm.Actions (ActionStatus Failure NativeExecutionRef actionExecutionStarted finishedActionExpiry isControlledStart
  isTerminal startDeadlinePassed)
open Proofstorm.Bridge (Entries Wire parentAnnotationKey revisionAnnotationKey)
open Proofstorm.Interleaving

/-- The codes of `ActionAdmissionError`. -/
inductive AdmissionError
  | cellClosing | identity | invalidPlan | missingContract | prerequisiteUnsatisfied
  deriving DecidableEq

def AdmissionError.code : AdmissionError → String
  | .cellClosing => "cell_closing"
  | .identity => "action_identity_invalid"
  | .invalidPlan => "action_plan_invalid"
  | .missingContract => "action_admission_contract_missing"
  | .prerequisiteUnsatisfied => "action_prerequisite_unsatisfied"

/-- What the supervisor of a command answers. -/
inductive Reply
  /-- All places to poll are taken. -/
  | busy
  /-- The pod is another, and no receipt was kept. -/
  | podChanged
  | receipt (cleanupVerified cancelled custodyPending : Bool) (receipt : Json)
  | runnerError
  | unanswered
  deriving DecidableEq

/-- What becomes of a command after its start was claimed. -/
inductive Launch
  | custodyRefused | inputInterrupted | started
  deriving DecidableEq

/-- What a native pass without a handle comes to. -/
inductive Opening
  | busy
  | podNotReady
  | custodyRefused
  | invalid (message : String)
  /-- The supervisor could not be installed. -/
  | failed
  | ready (reference : NativeExecutionRef) (launch : Launch)
  deriving DecidableEq

/-- What a pass finds besides the action and its Job. -/
structure Findings where
  /-- `admit_child`, where it is asked. -/
  childAdmitted : Bool
  /-- The cell is past its first generation. -/
  edited : Bool
  /-- `action_cell` finds the configuration of the action. -/
  cellFound : Bool
  /-- `validate_delegated_action` -/
  delegated : Bool
  /-- `evaluate_action_admission`, with what `action_admission_failure` adds to the code. -/
  admission : Option (AdmissionError × List (String × Json))
  /-- What the reconciler of an action that the controller executes itself applies. -/
  direct : Option ActionStatus
  /-- `render_cell_action_job` -/
  rendered : Option String
  /-- The artifact of a Job that succeeded. -/
  artifact : Option Json
  /-- What a native pass refuses the action for. -/
  invalid : Option String
  reply : Reply
  opening : Opening

def problem (code message : String) : Json := .object [("code",.str code),("message",.str message)]

def clock : Program Int := query fun world => .ok world.now

section
variable (copy : Object)

/-- `patch_action_status` -/
def patchActionStatus (status : ActionStatus) : Program Unit :=
  if copy.status = some status then pure () else exec (.applyStatus status)

/-- The start time of the copy. -/
def startedAt : Option Int := copy.status.bind ActionStatus.startedAtUnix

/-- `patch_action_failure` -/
def patchActionFailure (code message : String) : Program Unit := do
  let now ← clock
  patchActionStatus copy { emptyStatus with
    phase := .failed
    observedGeneration := copy.generation
    startedAtUnix := startedAt copy
    completedAtUnix := some now
    error := some (problem code message) }

/-- `patch_invalid_action` -/
def patchInvalidAction (message : String) : Program Unit := patchActionFailure copy "invalid_action" message

/-- The status of an action that was not started in time. -/
def notStartedStatus (now : Int) : ActionStatus :=
  { emptyStatus with
    phase := .failed
    observedGeneration := copy.generation
    completedAtUnix := some now
    error := some (problem "action_not_started"
      "the runtime could not start this operation within 120 seconds of acceptance; nothing was run; submit a new operation if it is still wanted") }

/-- `expire_unstarted_action`: whether the pass ends here. -/
def expireUnstartedAction : Program Bool := do
  match ← query fun world => .ok (world.job,world.now) with
  | (some _,_) => pure false
  | (none,now) =>
    match ← attempt (exec (.mergeStatus copy.resourceVersion (notStartedStatus copy now))) with
    -- The action changed since this reconcile read it: look again.
    | .ok _ | .error (.api 409) => pure true
    | .error error => throw error

def cancelledStatus (now : Int) : ActionStatus :=
  { emptyStatus with
    phase := .cancelled
    observedGeneration := copy.generation
    jobName := copy.status.bind ActionStatus.jobName
    startedAtUnix := startedAt copy
    completedAtUnix := some now
    error := some (.object [("code",.str "action_cancelled")]) }

/-- `reconcile_action_cancellation` -/
def reconcileActionCancellation : Program Unit :=
  if executedDirectly copy.spec.action && actionExecutionStarted copy.status then
    patchActionFailure copy "direct_action_cancellation_inconclusive"
      "direct controller execution began before cancellation; inspect current state before issuing another action"
  else do
    match ← query fun world => .ok (world.job,world.now) with
    | (some _,_) => exec .deleteJob
    | (none,now) => patchActionStatus copy (cancelledStatus copy now)

/-- `native_exec::reconcile` with the handle of a command that was started. -/
def followNative (reference : NativeExecutionRef) (timeout : Nat) (reply : Reply) : Program Unit := do
  let started := (startedAt copy).getD copy.spec.acceptedAtUnix
  match reply with
  | .busy => pure ()
  | .podChanged =>
    patchActionFailure copy "native_execution_lost"
      "execution pod changed; process and mutation outcome are unknown; command was not replayed"
  | .receipt clean cancelled custodyPending receipt => do
    let now ← clock
    if custodyPending = true ∧ now ≤ started + timeout + 60 then
      patchActionStatus copy { emptyStatus with
        phase := .running
        nativeExecution := some reference
        startedAtUnix := some started
        artifact := some receipt }
    else
      patchActionStatus copy { emptyStatus with
        phase := if clean = false ∨ custodyPending = true then .failed else if cancelled then .cancelled else .succeeded
        nativeExecution := some reference
        observedGeneration := copy.generation
        startedAtUnix := startedAt copy
        completedAtUnix := some now
        artifact := some receipt
        error := if clean then none else some (.object [("code",.str "native_cleanup_unverified")]) }
  | .runnerError =>
    patchActionFailure copy "native_runner_failed"
      "supervisor did not establish verified process cleanup; inspect the cell before retrying"
  | .unanswered => do
    let now ← clock
    if now > started + timeout + 30 then
      patchActionFailure copy "native_receipt_unavailable"
        "no terminal supervisor receipt; process and mutation outcome are unknown; command was not replayed"
    else pure ()

/-- The claim of a start, which is fenced by the version of the copy. -/
def claimedStatus (reference : NativeExecutionRef) (now : Int) : ActionStatus :=
  { emptyStatus with
    phase := .running
    nativeExecution := some reference
    observedGeneration := copy.generation
    jobName := some "live-exec-started"
    startedAtUnix := some now }

/-- `native_exec::reconcile` without a handle. -/
def openNative (opening : Opening) : Program Unit :=
  if copy.status.bind ActionStatus.jobName = some "live-exec-started" then
    patchActionFailure copy "live_exec_interrupted" "legacy execution has no supervisor handle; command was not replayed"
  else
    match opening with
    | .busy => pure ()
    | .podNotReady => patchActionFailure copy "component_pod_not_ready" "no running component; command not started"
    | .custodyRefused =>
      patchActionFailure copy "private_transfer_refused"
        "private payload binding or private access permission refused; command not started"
    | .invalid message => patchInvalidAction copy message
    | .failed => throw (.problem "live_exec" "native supervisor unavailable")
    | .ready reference launch => do
      let now ← clock
      -- Overlapping controllers or a concurrent cancellation invalidate a stale start claim.
      exec (.mergeStatus copy.resourceVersion (claimedStatus copy reference now))
      match launch with
      | .custodyRefused =>
        patchActionFailure copy "private_transfer_refused"
          "private custody admission refused; native command not started"
      | .inputInterrupted =>
        patchActionFailure copy "private_input_interrupted"
          "private input transport interrupted; input was not replayed and native command was not started"
      | .started => exec (.startNative reference)

def nativeHandle : Option NativeExecutionRef := copy.status.bind ActionStatus.nativeExecution

def timeoutSeconds : Nat :=
  match copy.spec.action with
  | .componentExecLive request => request.timeoutSeconds
  | _ => 0

/-- `native_exec::reconcile` -/
def reconcileNative (findings : Findings) : Program Unit :=
  match findings.invalid with
  | some message => patchInvalidAction copy message
  | none =>
    match nativeHandle copy with
    | some reference => followNative copy reference (timeoutSeconds copy) findings.reply
    | none => openNative copy findings.opening

/-- The status of an action whose Job is gone. -/
def lostActionJobStatus (now : Int) : ActionStatus :=
  { emptyStatus with
    phase := .failed
    observedGeneration := copy.generation
    jobName := (copy.status.bind ActionStatus.jobName).or (some copy.name)
    startedAtUnix := startedAt copy
    completedAtUnix := some now
    error := some (problem "action_job_lost"
      "controller-owned Job disappeared after execution began; automatic replay refused") }

def runningStatus (started : Int) : ActionStatus :=
  { emptyStatus with
    phase := .running
    observedGeneration := copy.generation
    jobName := some copy.name
    startedAtUnix := some started }

/-- The status of an action whose Job has ended. -/
def endedStatus (now : Int) : Except Json Json → ActionStatus
  | .ok artifact => { emptyStatus with
      phase := .succeeded
      observedGeneration := copy.generation
      jobName := some copy.name
      startedAtUnix := startedAt copy
      completedAtUnix := some now
      artifact := some artifact }
  | .error error => { emptyStatus with
      phase := .failed
      observedGeneration := copy.generation
      jobName := some copy.name
      startedAtUnix := startedAt copy
      completedAtUnix := some now
      error := some error }

/-- The end of `reconcile_action`, for an action that a Job runs. -/
def reconcileJob (findings : Findings) : Program Unit :=
  match findings.rendered with
  | some message => do
    let now ← clock
    patchActionStatus copy { emptyStatus with
      phase := .failed
      observedGeneration := copy.generation
      completedAtUnix := some now
      error := some (problem "invalid_action" message) }
  | none => do
    match ← query fun world => .ok (world.job,world.now) with
    | (none,now) =>
      if actionExecutionStarted copy.status then patchActionStatus copy (lostActionJobStatus copy now)
      else do
        exec (.createJob copy.status)
        let now ← clock
        patchActionStatus copy (runningStatus copy now)
    | (some .active,now) => patchActionStatus copy (runningStatus copy ((startedAt copy).getD now))
    | (some (.failed failure details),now) =>
      patchActionStatus copy (endedStatus copy now (.error (.object (("code",.str failure.code) :: details))))
    | (some .succeeded,now) =>
      match findings.artifact with
      | some artifact => patchActionStatus copy (endedStatus copy now (.ok artifact))
      | none => patchActionStatus copy (endedStatus copy now (.error (.object [("code",.str "terminal_artifact_missing")])))

/-- `reconcile_action` from the read of the cell on. -/
def reconcileOpen (findings : Findings) : Program Unit :=
  if (Entries.get copy.annotations parentAnnotationKey).isSome = true ∧ nativeHandle copy = none ∧ findings.childAdmitted = false then
    patchActionFailure copy "workspace_control_closed"
      "task control is no longer active; effects already applied are not rolled back"
  else if ((Entries.get copy.annotations revisionAnnotationKey).getD "" = "") ∧ findings.edited = true then
    patchInvalidAction copy
      "Operation does not identify its configuration revision. Reconnect the MCP server and submit a new operation."
  else if findings.cellFound = false then throw (.problem "controller_invariant" "the configuration of the action is gone")
  -- Changed readiness must not discard a completed receipt or turn collection into a new start.
  else if route copy.spec.action = .native ∧ nativeHandle copy ≠ none then reconcileNative copy findings
  else if ¬ (∃ status, copy.status = some status ∧ status.phase = .running) ∧ findings.delegated = false then
    patchActionFailure copy "private_access_refused"
      "private access unavailable or action outside its scope; no new command started"
  else
    match findings.admission with
    | some (error,details) => do
      let now ← clock
      patchActionStatus copy { emptyStatus with
        phase := .failed
        observedGeneration := copy.generation
        completedAtUnix := some now
        error := some (.object (("code",.str error.code) :: details)) }
    | none =>
      match route copy.spec.action with
      | .direct => findings.direct.elim (pure ()) (patchActionStatus copy)
      | .native => reconcileNative copy findings
      | .job => reconcileJob copy findings

/-- `is_owned_network` -/
def isOwnedNetwork : Bool :=
  (Entries.get copy.annotations parentAnnotationKey).isSome &&
    match copy.spec.action with
    | .networkPartition .. | .networkHeal _ => true
    | _ => false

section
variable [Wire]

/-- `expire_finished_action` -/
def expireFinishedAction : Program Unit := do
  match finishedActionExpiry copy.toAction with
  | none => pure ()
  | some expiry => do
    let now ← clock
    if expiry - now > 0 then pure ()
    else
      match ← attempt (exec .deleteAction) with
      | .ok _ | .error (.api 404) => pure ()
      | .error error => throw error

/-- `reconcile_action` -/
def reconcileAction (findings : Findings) : Program Unit :=
  if isOwnedNetwork copy then findings.direct.elim (pure ()) (patchActionStatus copy)
  else if isTerminal copy.status then
    -- A pass over the parent of a task leaves its own status alone.
    if isControlledStart copy.toAction then pure () else expireFinishedAction copy
  else if copy.cancelRequested then
    if route copy.spec.action = .native ∧ nativeHandle copy ≠ none then reconcileNative copy findings
    else reconcileActionCancellation copy
  else do
    let now ← clock
    if startDeadlinePassed copy.toAction now then
      if ← expireUnstartedAction copy then pure () else reconcileOpen copy findings
    else reconcileOpen copy findings
end

end

end Proofstorm.Unstarted
