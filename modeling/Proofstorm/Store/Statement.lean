import Proofstorm.Interleaving
import Proofstorm.Store.Admission
import Proofstorm.Store.Lifecycle
import Proofstorm.Store.Workspaces

/-!
Every statement and transaction by which the store writes, as one type, with
what it answers and how the engine executes it. A transaction is atomic; so is a
statement outside of one, and other connections may write between two of them.
-/
namespace Proofstorm.Store
open Proofstorm.Core

inductive Statement
  | putWorkspace (workspace : Workspace)
  | putPrincipal (principal : String)
  | grant (workspace principal : String) (capability : Capability)
  | revoke (workspace principal : String) (capability : Capability)
  | replaceGrants (workspace principal : String) (capabilities : List Capability)
  | initializeActorOnce (workspace principal identity preset : String) (capabilities : List Capability)
  | insertDraft (draft : Draft)
  | insertClone (draft : Draft)
  | editDraft (workspace id : String) (expected : Nat) (cell : CellSpec)
  | insertRevision (row : RevisionRow)
  | insertInstance (row : InstanceRow)
  | recordIdempotency (workspace principal key operation : String) (request : Json) (response : Response)
  | insertPrivateAccess (workspace id : String) (grant : PrivateAccessGrant)
  | updatePrivateAccess (workspace id : String) (grant : PrivateAccessGrant)
  | createCandidateBuild (workspace principal : String) (candidate : CandidateBuild) (key : String)
  | recordCandidateRequest (workspace principal key inputDigest : String) (candidate : CandidateBuild)
  | updateCandidate (workspace : String) (current candidate : CandidateBuild)
  | removeCandidateBuild (workspace id : String)
  | insertExperiment (run : Experiment)
  | ensureImplicitRun (workspace principal instanceId id : String) (now : Int)
  | closeExperiment (workspace id : String) (now : Int)
  | trackSession (workspace principal experiment instanceId requested context id : String) (now : Int)
  | finishSession (workspace id : String) (now : Int)
  | finishCellSessions (workspace instanceId : String) (now : Int)
  | recordCapture (workspace principal requestDigest : String) (evidence : WorkspaceEvidence)
  | createOperation (admission : Admission)
  | recordOperationResult (workspace operationId session : String) (phase : OperationPhase)
      (artifact : OperationArtifact) (completedAt : Int)
  | updateOperationPhase (workspace operationId : String) (phase : OperationPhase) (now : Int)
  | insertUpdatePlan (workspace planId : String) (plan : CellUpdatePlan)
  | acceptUpdate (workspace principal key : String) (plan : CellUpdatePlan) (revision : PublishedRevision) (now : Int)
  | markUpdateApplied (workspace id : String) (generation : Nat) (converged : Option String)
  | beginInstanceClose (workspace id : String)
  | reserveCell (workspace principal name configDigest nonce : String)
  | setCellPhase (workspace principal : String) (handle : CellHandle) (phase : CellHandlePhase)
  | insertPreview (workspace principal : String) (preview : CellPreview)
  | insertSubmission (workspace principal requestId previewId digest : String)
  | reservePreview (workspace principal : String) (preview : CellPreview) (nonce : String)
  | bindRuntime (cell : CellInstance) (binding : RuntimeBinding)
  | purgeUnmaterializedHandle (workspace id : String)
  | insertPlanUse (cell : CellInstance) (plan : String)
  | purgeCell (cell : CellInstance)
  deriving DecidableEq

/-- What a statement returns: the count of its rows, or the record it resolved. -/
@[reducible] def Statement.Answer : Statement → Type
  | .initializeActorOnce .. => Bool
  | .insertDraft .. | .editDraft .. | .insertInstance .. | .updateCandidate .. | .insertExperiment ..
  | .recordOperationResult .. => Nat
  | .createCandidateBuild .. | .removeCandidateBuild .. => CandidateBuild
  | .trackSession .. => Session
  | .recordCapture .. => WorkspaceEvidence
  | .createOperation .. => CellOperation
  | .reserveCell .. | .reservePreview .. => CellHandle
  | _ => Unit

section
variable [CoreFunctions]

def execute : (statement : Statement) → Txn statement.Answer
  | .putWorkspace workspace => putWorkspaceStatement workspace
  | .putPrincipal principal => putPrincipalStatement principal
  | .grant workspace principal capability => grantStatement workspace principal capability
  | .revoke workspace principal capability => revokeStatement workspace principal capability
  | .replaceGrants workspace principal capabilities => replaceGrantsTx workspace principal capabilities
  | .initializeActorOnce workspace principal identity preset capabilities =>
    initializeActorOnceTx workspace principal identity preset capabilities
  | .insertDraft draft => insertDraft draft
  | .insertClone draft => insertClone draft
  | .editDraft workspace id expected cell => editDraftStatement workspace id expected cell
  | .insertRevision row => insertRevision row
  | .insertInstance row => insertInstance row
  | .recordIdempotency workspace principal key operation request response =>
    recordIdempotencyStatement workspace principal key operation request response
  | .insertPrivateAccess workspace id grant => insertPrivateAccess workspace id grant
  | .updatePrivateAccess workspace id grant => updatePrivateAccess workspace id grant
  | .createCandidateBuild workspace principal candidate key => createCandidateBuildTx workspace principal candidate key
  | .recordCandidateRequest workspace principal key inputDigest candidate =>
    recordCandidateRequestTx workspace principal key inputDigest candidate
  | .updateCandidate workspace current candidate => updateCandidateStatement workspace current candidate
  | .removeCandidateBuild workspace id => removeCandidateBuildTx workspace id
  | .insertExperiment run => insertExperiment run
  | .ensureImplicitRun workspace principal instanceId id now => ensureImplicitRunTx workspace principal instanceId id now
  | .closeExperiment workspace id now => closeExperimentTx workspace id now
  | .trackSession workspace principal experiment instanceId requested context id now =>
    trackSessionTx workspace principal experiment instanceId requested context id now
  | .finishSession workspace id now => finishSessions (fun row => row.workspaceId = workspace ∧ row.id = id) now
  | .finishCellSessions workspace instanceId now =>
    finishSessions (fun row => row.workspaceId = workspace ∧ row.instanceId = instanceId) now
  | .recordCapture workspace principal requestDigest evidence => recordCaptureTx workspace principal requestDigest evidence
  | .createOperation admission => createOperationTx admission
  | .recordOperationResult workspace operationId session phase artifact completedAt =>
    recordOperationResultTx workspace operationId session phase artifact completedAt
  | .updateOperationPhase workspace operationId phase now => updateOperationPhaseStatement workspace operationId phase now
  | .insertUpdatePlan workspace planId plan => insertUpdatePlan workspace planId plan
  | .acceptUpdate workspace principal key plan revision now => acceptUpdateTx workspace principal key plan revision now
  | .markUpdateApplied workspace id generation converged => markUpdateAppliedTx workspace id generation converged
  | .beginInstanceClose workspace id => beginInstanceCloseStatement workspace id
  | .reserveCell workspace principal name configDigest nonce => reserveCellTx workspace principal name configDigest nonce
  | .setCellPhase workspace principal handle phase => setCellPhaseTx workspace principal handle phase
  | .insertPreview workspace principal preview => insertPreview workspace principal preview
  | .insertSubmission workspace principal requestId previewId digest =>
    insertSubmission workspace principal requestId previewId digest
  | .reservePreview workspace principal preview nonce => reservePreviewTx workspace principal preview nonce
  | .bindRuntime cell binding => bindRuntimeTx cell binding
  | .purgeUnmaterializedHandle workspace id => purgeUnmaterializedHandleTx workspace id
  | .insertPlanUse cell plan => insertPlanUse cell plan
  | .purgeCell cell => purgeCellTx cell
end

end Proofstorm.Store
