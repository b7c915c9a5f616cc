import Proofstorm.Updating.Cluster

/-!
The calls that bring the resource of a cell to what the journal desires, the
iterations of a wait for it, and the passes of the controller over it. What they
do to other objects, and how the controller finds a cell ready, leaves the journal
and the resource alone: it is a choice of the request (`Course`).
-/
namespace Proofstorm.Updating
open Proofstorm.Core
open Proofstorm.Actions (CellPhase Failure)
open Proofstorm.Interleaving

/-- The specification of a cell at a revision. -/
def specOf (workspace id key : String) (revision : PublishedRevision) : ResourceSpec :=
  ⟨workspace,id,key,revision.digest,revision.lock,revision.cell⟩

/-- `require_open_cell` -/
def requireOpenCell (cell : Cell) : Except Failure PUnit :=
  ensure (¬ (cell.deleting = true ∨ ∃ status, cell.status = some status ∧
      (status.phase = .closing ∨ status.phase = .cleanupBlocked)))
    (.problem "cell_closing" "cell is closing; new actions are not admitted")

/-- `status_from_resource`: the phase of the instance. `fresh` says that no
    observation of its components is missing or has expired. -/
def statusFromResource (cell : CellInstance) (resource : Cell) (fresh : Bool) : CellPhase :=
  let status := resource.status.getD .default
  let phase : CellPhase := if status.phase = .ready ∧ fresh = false then .pending else status.phase
  if (status.observedDesiredGeneration ≠ cell.generation ∨ status.observedRevisionDigest ≠ cell.revisionDigest ∨
      status.observedGeneration ≠ some resource.generation) ∧ phase = .ready then .pending
  else phase

/-- What a pass reads of the journal first: an instance, its update state and, unless it closes, its revision. -/
structure Desired where
  cell : CellInstance
  state : Store.CellUpdateState
  revision : Option PublishedRevision

section
variable [CoreFunctions]

def readDesired (workspace principal id : String) : Store.Program Desired := do
  let cell ← Store.readInstance workspace principal id
  let state ← Store.readUpdateState workspace principal id
  if state.closing then pure ⟨cell,state,none⟩
  else do
    let revision ← Store.revisionForMaterialize workspace principal cell.revisionDigest
    pure ⟨cell,state,some revision⟩

/-- The end of `reconcile_once`. -/
def acknowledge (workspace id : String) (cell : CellInstance) (generation : Nat) (fresh : Bool) (resource : Cell) :
    Program Unit :=
  if statusFromResource cell resource fresh = .ready then
    store (Store.markUpdateApplied workspace id generation (some cell.revisionDigest))
  else pure ()

/-- `reconcile_once` from the read of the deletions on. -/
def writeCell (workspace principal id : String) (cell : CellInstance) (generation : Nat) (revision : PublishedRevision)
    (fresh : Bool) (resource : Cell) : Program Unit := do
  let deleted ← atOnce (Store.pendingDeletedData workspace principal id)
  -- A replacement is refused where the resource has changed: an edit, a closing or a status.
  let resource ← exec (.replace { resource with
    spec := specOf workspace id cell.instanceKey revision
    desiredGeneration := some generation
    deleteData := some deleted })
  acknowledge workspace id cell generation fresh resource

/-- `reconcile_once` -/
def reconcileOnce (workspace principal id : String) (fresh : Bool) : Program Unit := do
  let desired ← atOnce (readDesired workspace principal id)
  match desired.revision with
  | none => pure ()
  | some revision => do
    match ← query fun world => .ok world.cell with
    | none => throw (.problem "cell_update_runtime_missing"
        "existing cell is absent; edit reconciliation will not recreate it")
    | some resource => do
      settle (requireOpenCell resource)
      settle (ensure (¬ resource.desired > desired.state.generation)
        (.problem "cell_update_superseded" "cluster already has a newer desired generation"))
      if resource.spec.revisionDigest ≠ revision.digest ∨ resource.desired ≠ desired.state.generation then
        writeCell workspace principal id desired.cell desired.state.generation revision fresh resource
      else acknowledge workspace id desired.cell desired.state.generation fresh resource

/-- One iteration of `Cells::wait` for a ready cell. -/
def waitOnce (workspace principal id key : String) (expected : Option Nat) (fresh : Bool) : Program Unit := do
  let cell ← atOnce (Store.readInstance workspace principal id)
  settle (ensure (cell.instanceKey = key) (.problem "stale_incarnation" "The cell was replaced; read its current status"))
  match ← query fun world => .ok world.cell with
  | none => throw (.problem "runtime_not_found" "cell instance has no runtime resource or teardown receipt")
  | some resource => do
    settle (ensure (resource.spec.instanceKey = cell.instanceKey ∧ resource.spec.workspaceId = cell.workspaceId ∧
        resource.spec.instanceId = cell.id)
      (.problem "stale_incarnation" "Runtime resource belongs to a different cell incarnation"))
    if expected.getD cell.generation ≠ cell.generation then pure ()
    else acknowledge workspace id cell cell.generation fresh resource

/-! ### The controller -/

/-- What becomes of a pass of the controller. -/
inductive Course
  /-- `observe_cell` found it so. -/
  | observed (ready : Bool)
  /-- An error that is reported. -/
  | failed
  /-- An error that is not. -/
  | silent
  deriving DecidableEq

/-- `patch_status`: nothing is written where the status is that of the copy. -/
def patchStatus (copy : Cell) (status : CellStatus) : Program Unit :=
  if copy.status = some status then pure () else exec (.patchStatus copy status)

/-- `reconciliation_failure_status` -/
def reconciliationFailureStatus (cell : Cell) : CellStatus :=
  { cell.status.getD .default with
    phase := .blocked
    observedGeneration := some cell.generation
    observedRevisionDigest := cell.spec.revisionDigest
    observedDesiredGeneration := cell.desired }

/-- The status that `observe_cell` writes. -/
def observedStatus (cell : Cell) (ready : Bool) : CellStatus :=
  { observedDesiredGeneration := cell.desired
    phase := if ready then .ready else .pending
    observedGeneration := some cell.generation
    observedRevisionDigest := cell.spec.revisionDigest }

/-- `apply` begins with a status for a revision or a generation that was not observed yet. -/
def intendedStatus (cell : Cell) : Option CellStatus :=
  if ∀ status, cell.status = some status →
      status.observedRevisionDigest ≠ cell.spec.revisionDigest ∨ status.observedDesiredGeneration ≠ cell.desired then
    some { cell.status.getD .default with phase := .pending }
  else none

/-- A pass of the controller over its copy of the cell. `applied` says that it
    remembers to have applied this cell. -/
def reconcileCell (applied : Bool) (course : Course) : Program Unit := do
  match ← query fun world => .ok world.cell with
  | none => pure ()
  | some cell => do
    let current ← match if applied then none else intendedStatus cell with
      | some status => do
        patchStatus cell status
        pure { cell with status := some status }
      | none => pure cell
    match course with
    | .observed ready => patchStatus current (observedStatus current ready)
    | .failed => patchStatus cell (reconciliationFailureStatus cell)
    | .silent => pure ()
end

end Proofstorm.Updating
