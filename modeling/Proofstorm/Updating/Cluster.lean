import Proofstorm.Actions.Runtime
import Proofstorm.Store.CellCalls

/-!
The journal of one instance and the resource of its cell. An update is accepted
in the journal; a reconcile pass brings the resource to what the journal desires;
the controller reports what it made of the resource in its status. The server
gives the resource a new version with every write and refuses a replacement that
was made from an older one; a status is written whatever the version is.
-/
namespace Proofstorm.Updating
open Proofstorm.Core
open Proofstorm.Actions (CellPhase Failure)
open Proofstorm.Interleaving

/-- `ProofstormCellSpec` -/
structure ResourceSpec where
  workspaceId : String
  instanceId : String
  instanceKey : String
  revisionDigest : String
  lock : ResolvedLock
  cell : CellSpec
  deriving DecidableEq

/-- What is read of a `ProofstormCellStatus` to tell whether a cell is ready. -/
structure CellStatus where
  observedDesiredGeneration : Nat
  phase : CellPhase
  observedGeneration : Option Nat
  observedRevisionDigest : String
  deriving DecidableEq

/-- `ProofstormCellStatus::default` -/
def CellStatus.default : CellStatus := ⟨0,.pending,none,""⟩

/-- A `ProofstormCell`, with the values of the two annotations that updates write. -/
structure Cell where
  resourceVersion : Nat
  generation : Nat
  deleting : Bool
  spec : ResourceSpec
  /-- `GENERATION` -/
  desiredGeneration : Option Nat
  /-- `DELETE_DATA` -/
  deleteData : Option (List String)
  status : Option CellStatus
  deriving DecidableEq

/-- The generation that the resource was made for; without an annotation it is the first. -/
def Cell.desired (cell : Cell) : Nat := cell.desiredGeneration.getD 1

structure World where
  journal : Store.Db
  cell : Option Cell
  /-- Not on the server: the statuses that were written, with the copy of the cell
      that each is about, newest first. -/
  reports : List (Cell × CellStatus)

inductive Statement
  | journal (statement : Store.Statement)
  /-- `cells.replace`, with the version that the body was read at. -/
  | replace (body : Cell)
  /-- `patch_status` of the controller, about a copy of the cell. -/
  | patchStatus (copy : Cell) (status : CellStatus)

@[reducible] def Statement.Answer : Statement → Type
  | .journal statement => statement.Answer
  | .replace _ => Cell
  | .patchStatus _ _ => Unit

/-- The resource after a replacement: the status is not replaced with it. -/
def Cell.replaced (cell body : Cell) : Cell :=
  { cell with
    resourceVersion := cell.resourceVersion + 1
    generation := if body.spec = cell.spec then cell.generation else cell.generation + 1
    spec := body.spec
    desiredGeneration := body.desiredGeneration
    deleteData := body.deleteData }

def Cell.reported (cell : Cell) (status : CellStatus) : Cell :=
  { cell with resourceVersion := cell.resourceVersion + 1, status := some status }

section
variable [CoreFunctions]

def execute : (statement : Statement) → World → Except Failure (statement.Answer × World)
  | .journal statement, world =>
    match Store.execute statement world.journal with
    | .ok (answer,journal) => .ok (answer,{ world with journal })
    | .error error => .error (.store error)
  | .replace body, world =>
    match world.cell with
    | none => .error (.api 404)
    | some cell =>
      if cell.resourceVersion = body.resourceVersion then .ok (cell.replaced body,{ world with cell := some (cell.replaced body) })
      else .error (.api 409)
  | .patchStatus copy status, world =>
    match world.cell with
    | none => .error (.api 404)
    | some cell => .ok ((),{ world with cell := some (cell.reported status), reports := (copy,status) :: world.reports })
end

abbrev Program := Fallible World Statement Failure Statement.Answer

abbrev exec (statement : Statement) : Program statement.Answer := submit statement

/-- The journal in the state of the application. -/
def journalPart : Part Store.Db Store.Statement Store.StoreError Store.Statement.Answer World Statement Failure Statement.Answer where
  view := World.journal
  statement := .journal
  answer _ answer := answer.mapError Failure.toStore
  error := .store

/-- A call of the store, as a part of a call of the application. -/
def store {α : Type} (call : Store.Program α) : Program α := journalPart.call call

/-- Calls of the store that read, and between which nothing is awaited. -/
def atOnce [CoreFunctions] {α : Type} (call : Store.Program α) : Program α := journalPart.atOnce Store.execute call
end Proofstorm.Updating
