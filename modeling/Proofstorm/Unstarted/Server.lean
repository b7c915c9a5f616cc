import Proofstorm.Actions.Calls

/-!
One action on the API server, with its Job and the commands that were started
for it. The server gives the action a new version with every write. A status is
applied whatever the version is, where a field that is left out goes unless a
merge patch has set it; a merge patch names the version that it was made from
and is refused where the action has another.
-/
namespace Proofstorm.Unstarted
open Proofstorm.Core (Json)
open Proofstorm.Actions (Action ActionStatus Failure NativeExecutionRef)
open Proofstorm.Bridge (ActionPhase CellAction Entries)
open Proofstorm.Interleaving

/-- `ProofstormCellActionStatus::default` -/
def emptyStatus : ActionStatus := ⟨.pending,none,none,none,none,none,none,none⟩

/-- A status that is written over another: a field that is left out stays. -/
def overlay (status under : ActionStatus) : ActionStatus :=
  { phase := status.phase
    nativeExecution := status.nativeExecution.or under.nativeExecution
    observedGeneration := status.observedGeneration.or under.observedGeneration
    jobName := status.jobName.or under.jobName
    startedAtUnix := status.startedAtUnix.or under.startedAtUnix
    completedAtUnix := status.completedAtUnix.or under.completedAtUnix
    artifact := status.artifact.or under.artifact
    error := status.error.or under.error }

/-- The fields of a status that another does not set. -/
def without (status taken : ActionStatus) : ActionStatus :=
  { phase := status.phase
    nativeExecution := if taken.nativeExecution.isSome then none else status.nativeExecution
    observedGeneration := if taken.observedGeneration.isSome then none else status.observedGeneration
    jobName := if taken.jobName.isSome then none else status.jobName
    startedAtUnix := if taken.startedAtUnix.isSome then none else status.startedAtUnix
    completedAtUnix := if taken.completedAtUnix.isSome then none else status.completedAtUnix
    artifact := if taken.artifact.isSome then none else status.artifact
    error := if taken.error.isSome then none else status.error }

/-- A `ProofstormCellAction` in one of its versions. -/
structure Object extends Action where
  resourceVersion : Nat
  generation : Option Int
  /-- The fields of the status that are there by merge patches. -/
  merged : ActionStatus
  deriving DecidableEq

/-- A server-side apply of a status. -/
def Object.applied (object : Object) (status : ActionStatus) : Object :=
  { object with
    resourceVersion := object.resourceVersion + 1
    status := some (overlay status (without object.merged status))
    merged := without object.merged status }

/-- A merge patch of the status. -/
def Object.patched (object : Object) (status : ActionStatus) : Object :=
  { object with
    resourceVersion := object.resourceVersion + 1
    status := some (overlay status (object.status.getD emptyStatus))
    merged := overlay status object.merged }

def Object.annotated (object : Object) (key value : String) : Object :=
  { object with
    resourceVersion := object.resourceVersion + 1
    annotations := Entries.insert object.annotations key value }

/-- The codes of `action_failure`. -/
inductive JobFailure
  | containerFailed | actionDeadlineExceeded | actionFailed
  deriving DecidableEq

def JobFailure.code : JobFailure → String
  | .containerFailed => "container_failed"
  | .actionDeadlineExceeded => "action_deadline_exceeded"
  | .actionFailed => "action_failed"

inductive JobState
  | active
  | succeeded
  | failed (failure : JobFailure) (details : List (String × Json))
  deriving DecidableEq

structure World where
  now : Int
  action : Option Object
  job : Option JobState
  /-- Not on the server: the versions of the action that it served, the statuses
      that were recorded and the commands that were started, newest first. -/
  served : List Object
  recorded : List ActionStatus
  natives : List NativeExecutionRef

inductive Statement
  /-- `request_action_cancellation`, and whatever else annotates the action. -/
  | annotate (key value : String)
  /-- `patch_action_status`. -/
  | applyStatus (status : ActionStatus)
  | mergeStatus (version : Nat) (status : ActionStatus)
  /-- `seen` is not data: it is the status that the pass was handed. -/
  | createJob (seen : Option ActionStatus)
  | deleteJob
  /-- What becomes of a Job that is there. -/
  | happens (change : JobState → Option JobState)
  /-- The command of the action is started in the pod of a component. -/
  | startNative (reference : NativeExecutionRef)
  | deleteAction
  | tick (seconds : Nat)

@[reducible] def Statement.Answer : Statement → Type := fun _ => Unit

/-- The action has a new version, with this status where it was written. -/
def World.serve (world : World) (object : Object) (status : Option ActionStatus) : World :=
  { world with action := some object, served := object :: world.served, recorded := status.toList ++ world.recorded }

def execute : (statement : Statement) → World → Except Failure (statement.Answer × World)
  | .annotate key value, world => do
    let object ← require world.action (.api 404)
    pure ((),world.serve (object.annotated key value) none)
  | .applyStatus status, world => do
    let object ← require world.action (.api 404)
    pure ((),world.serve (object.applied status) (object.applied status).status)
  | .mergeStatus version status, world => do
    let object ← require world.action (.api 404)
    ensure (object.resourceVersion = version) (.api 409)
    pure ((),world.serve (object.patched status) (object.patched status).status)
  | .createJob _, world => .ok ((),{ world with job := some (world.job.getD .active) })
  -- The Job is there until its pods are gone.
  | .deleteJob, world => do
    ensure (world.job ≠ none) (.api 404)
    pure ((),world)
  | .happens change, world => .ok ((),{ world with job := world.job.bind change })
  | .startNative reference, world => .ok ((),{ world with natives := reference :: world.natives })
  | .deleteAction, world => do
    ensure (world.action ≠ none) (.api 404)
    pure ((),{ world with action := none })
  | .tick seconds, world => .ok ((),{ world with now := world.now + seconds })

abbrev Program := Fallible World Statement Failure Statement.Answer

abbrev exec (statement : Statement) : Program statement.Answer := submit statement

/-! ### What runs an action -/

inductive Route
  /-- A command in the pod of a component. -/
  | native
  /-- The controller itself. -/
  | direct
  | job
  deriving DecidableEq

def route : CellAction → Route
  | .componentExecLive _ => .native
  | .componentStart _ | .componentStop _ | .componentRestart _ | .networkPartition .. | .networkHeal _ => .direct
  | .other kind _ =>
    if kind ∈ ["node_start","node_stop","node_restart","component_logs","private_transfer"] then .direct else .job

/-- The kinds of which `reconcile_action_cancellation` says that their execution is direct. -/
def executedDirectly : CellAction → Bool
  | .other kind _ => kind ∈ ["node_start","node_stop","node_restart"]
  | _ => true

/-- The code of the error of a status. -/
def errorCode (status : ActionStatus) : Option String := (status.error.bind (Json.get · "code")).bind Json.asStr

/-- The status says that nothing was run. -/
def SaysUnstarted (status : ActionStatus) : Prop :=
  (status.phase = .failed ∧ errorCode status = some "action_not_started") ∨
    (status.phase = .cancelled ∧ status.startedAtUnix = none)

instance (status : ActionStatus) : Decidable (SaysUnstarted status) := inferInstanceAs (Decidable (_ ∨ _))
end Proofstorm.Unstarted
