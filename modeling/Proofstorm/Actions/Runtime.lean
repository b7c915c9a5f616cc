import Proofstorm.Embedding
import Proofstorm.Store.RunCalls
import Proofstorm.Bridge.Children

/-!
The journal of operations beside the actions that run them. An action is an
object of the API server under the resource name of its operation; the server
gives it a uid and the time of its creation. The calls of the application and of
the controller meet in one state: the store, the cells and actions of the control
namespace, and the clock.
-/
namespace Proofstorm.Actions
open Proofstorm.Core
open Proofstorm.Bridge (ActionPhase Entries Spec cancelAnnotationKey)
open Proofstorm.Interleaving

/-- `NativeExecutionRef` -/
structure NativeExecutionRef where
  pod : String
  podUid : String
  container : String
  directory : String
  runnerDigest : String
  deriving DecidableEq

/-- `ProofstormCellActionStatus` -/
structure ActionStatus where
  phase : ActionPhase
  nativeExecution : Option NativeExecutionRef
  observedGeneration : Option Int
  jobName : Option String
  startedAtUnix : Option Int
  completedAtUnix : Option Int
  artifact : Option Json
  error : Option Json
  deriving DecidableEq

/-- A `ProofstormCellAction` as it is sent. -/
structure ActionResource where
  name : String
  labels : Entries
  annotations : Entries
  spec : Spec
  deriving DecidableEq

/-- A `ProofstormCellAction` as the server keeps it. -/
structure Action extends ActionResource where
  uid : Nat
  creationTimestamp : Int
  status : Option ActionStatus
  deriving DecidableEq

instance : Keyed Action String := ⟨fun action => action.name⟩

inductive CellPhase
  | pending | blocked | ready | closing | cleanupBlocked
  deriving DecidableEq

/-- What is read of a `ProofstormCell`. -/
structure Cell where
  name : String
  resourceVersion : Nat
  workspaceId : String
  instanceId : String
  deleting : Bool
  phase : Option CellPhase
  /-- `PRIVATE_ACCESS_ANNOTATION` -/
  privateAccess : List PrivateAccessGrant
  deriving DecidableEq

instance : Keyed Cell String := ⟨Cell.name⟩

structure World where
  now : Int
  journal : Store.Db
  cells : Table Cell
  actions : Table Action
  /-- Not objects of the server: the actions that were created, newest first. -/
  created : List Action
  /-- The actions that have begun to execute, newest first. -/
  started : List Action

inductive Failure
  | store (error : Store.StoreError)
  | api (code : Nat)
  | problem (code message : String)
  deriving DecidableEq

inductive Statement
  | journal (statement : Store.Statement)
  /-- The merge patch of `private_access_once`. -/
  | publishAccess (cell : String) (version : Nat) (grant : PrivateAccessGrant)
  | apply (resource : ActionResource)
  /-- The merge patch of `request_action_cancellation`. -/
  | requestCancellation (name token : String)
  /-- The action begins to execute: its Job is created, or its command started. -/
  | start (action : Action)
  | report (name : String) (status : ActionStatus)
  | delete (name : String)
  | tick (seconds : Nat)

@[reducible] def Statement.Answer : Statement → Type
  | .journal statement => statement.Answer
  | _ => Unit

/-- The server makes an object of what was sent. -/
def World.create (world : World) (resource : ActionResource) : Action :=
  { resource with uid := world.created.length, creationTimestamp := world.now, status := none }

/-- A server-side apply to an action that is there. -/
def Action.applied (action : Action) (resource : ActionResource) : Action :=
  { action with
    labels := resource.labels ++ action.labels.filter fun entry => entry.1 ∉ resource.labels.map Prod.fst
    annotations := resource.annotations ++ action.annotations.filter fun entry => entry.1 ∉ resource.annotations.map Prod.fst
    spec := resource.spec }

def Action.cancelRequested (action : Action) : Bool := (Entries.get action.annotations cancelAnnotationKey).isSome

section
variable [CoreFunctions]

def execute : (statement : Statement) → World → Except Failure (statement.Answer × World)
  | .journal statement, world =>
    match Store.execute statement world.journal with
    | .ok (answer,journal) => .ok (answer,{ world with journal })
    | .error error => .error (.store error)
  | .publishAccess name version grant, world => do
    let cell ← require (world.cells.find name) (.api 404)
    ensure (cell.resourceVersion = version) (.api 409)
    pure ((),{ world with
      cells := world.cells.update (fun row => row.name = name)
        (fun row => { row with
          resourceVersion := row.resourceVersion + 1
          privateAccess := grant :: row.privateAccess.filter fun other => other.id ≠ grant.id }) (fun _ => rfl) })
  | .apply resource, world =>
    match world.actions.find resource.name with
    | none =>
      let action := world.create resource
      .ok ((),{ world with actions := world.actions.insert action, created := action :: world.created })
    | some _ => .ok ((),{ world with
        actions := world.actions.update (fun row => row.name = resource.name) (fun row => row.applied resource) fun _ => rfl })
  | .requestCancellation name token, world => do
    ensure (world.actions.find name ≠ none) (.api 404)
    pure ((),{ world with
      actions := world.actions.update (fun row => row.name = name)
        (fun row => { row with annotations := Entries.insert row.annotations cancelAnnotationKey token }) (fun _ => rfl) })
  | .start action, world => .ok ((),{ world with started := action :: world.started })
  | .report name status, world => do
    ensure (world.actions.find name ≠ none) (.api 404)
    pure ((),{ world with
      actions := world.actions.update (fun row => row.name = name) (fun row => { row with status := some status }) (fun _ => rfl) })
  | .delete name, world => do
    ensure (world.actions.find name ≠ none) (.api 404)
    pure ((),{ world with actions := world.actions.delete fun row => row.name = name })
  | .tick seconds, world => .ok ((),{ world with now := world.now + seconds })
end

abbrev Program := Fallible World Statement Failure Statement.Answer

abbrev exec (statement : Statement) : Program statement.Answer := submit statement

/-- What the server answers where it serves no request. -/
def unavailable : Failure := .api 503

/-- The error of a statement of the store, as the store has it. -/
def Failure.toStore : Failure → Store.StoreError
  | .store error => error
  | _ => .database "database is locked"

/-- The store in the state of the application. -/
def storePart : Part Store.Db Store.Statement Store.StoreError Store.Statement.Answer World Statement Failure Statement.Answer where
  view := World.journal
  statement := .journal
  answer _ answer := answer.mapError Failure.toStore
  error := .store

/-- A call of the store, as a part of a call of the application. -/
def store {α : Type} (call : Store.Program α) : Program α := storePart.call call
end Proofstorm.Actions
