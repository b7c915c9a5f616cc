import Proofstorm.Table
import Proofstorm.Outcome
import Proofstorm.Core.Digest

/-!
The tables of the store. A column that holds JSON holds the decoded record here;
the columns of `experiments` and `sessions` are the fields of their records. The
primary key of a table is the `Keyed` instance of its rows. Its other
constraints (unique columns, foreign keys) are checked by the statements that
could break them.
-/
namespace Proofstorm.Store
open Proofstorm.Core

inductive StoreError
  | cellUpdate (code : String) (message : String)
  | database (message : String)
  | serialization (message : String)
  | notFound (resource : String) (id : String)
  | accessDenied (workspace : String) (principal : String) (capability : Capability)
  | staleDraft (draft : String) (expected : Nat) (actual : Nat)
  | idempotencyConflict (key : String)
  | conflict (resource : String) (id : String)
  | validation (message : String)
  | catalog (message : String)
  | versionOverflow (version : Nat)
  | artifactTooLarge (actual : Nat) (maximum : Nat)
  | operationOwnerMismatch (operation : String) (owner : String) (principal : String)
  deriving DecidableEq

/-! ### Rows -/

structure Workspace where
  id : String
  name : String
  deriving DecidableEq

structure Principal where
  id : String
  deriving DecidableEq

structure GrantRow where
  workspaceId : String
  principalId : String
  capability : Capability
  deriving DecidableEq

structure Draft where
  id : String
  workspaceId : String
  version : Nat
  cell : CellSpec
  deriving DecidableEq

structure CandidateRow where
  workspaceId : String
  id : String
  principalId : String
  resourceName : String
  requestDigest : String
  build : CandidateBuild
  acceptedAt : Int
  deriving DecidableEq

structure RevisionRow where
  digest : String
  workspaceId : String
  draftId : String
  draftVersion : Nat
  revision : PublishedRevision
  deriving DecidableEq

structure InstanceRow where
  workspaceId : String
  id : String
  revisionDigest : String
  lockDigest : String
  instanceKey : String
  resourceName : String
  deriving DecidableEq

structure ActionRow where
  workspaceId : String
  id : String
  instanceId : String
  experimentId : String
  sessionId : String
  principalId : String
  sequence : Nat
  kind : OperationKind
  capability : Capability
  resourceName : String
  requestDigest : String
  request : Json
  phase : OperationPhase
  artifact : Option OperationArtifact
  acceptedAt : Int
  startedAt : Option Int
  completedAt : Option Int
  deriving DecidableEq

structure PrivateAccessRow where
  workspaceId : String
  id : String
  grant : PrivateAccessGrant
  deriving DecidableEq

inductive CellHandlePhase
  | opened | closing | closed
  deriving DecidableEq

structure CellHandle where
  name : String
  generation : Nat
  owner : String
  configDigest : String
  phase : CellHandlePhase
  instanceId : String
  deriving DecidableEq

structure CellHandleRow where
  workspaceId : String
  name : String
  generation : Nat
  owner : String
  configDigest : String
  phase : CellHandlePhase
  instanceId : String
  deriving DecidableEq

structure UpdateStateRow where
  workspaceId : String
  instanceId : String
  generation : Nat
  appliedGeneration : Nat
  convergedRevision : Option String
  closing : Bool
  deriving DecidableEq

structure UpdatePlanRow where
  workspaceId : String
  planId : String
  plan : CellUpdatePlan
  deriving DecidableEq

structure UpdateRow where
  workspaceId : String
  instanceId : String
  generation : Nat
  principalId : String
  requestKey : String
  plan : CellUpdatePlan
  acceptedAt : Int
  deriving DecidableEq

structure OperationRevisionRow where
  workspaceId : String
  operationId : String
  revisionDigest : String
  deriving DecidableEq

structure RetainedRow where
  workspaceId : String
  instanceId : String
  componentId : String
  deriving DecidableEq

structure PreviewRow where
  workspaceId : String
  principalId : String
  id : String
  preview : CellPreview
  deriving DecidableEq

structure AdmissionRow where
  workspaceId : String
  principalId : String
  planId : String
  instanceId : String
  deriving DecidableEq

structure SubmissionRow where
  workspaceId : String
  principalId : String
  requestId : String
  previewId : String
  previewDigest : String
  deriving DecidableEq

structure AutomaticRunRow where
  workspaceId : String
  instanceKey : String
  principalId : String
  ordinal : Nat
  id : String
  deriving DecidableEq

structure RunSealRow where
  workspaceId : String
  runId : String
  cell : CellInstance
  revision : PublishedRevision
  deriving DecidableEq

structure EvidenceRow where
  workspaceId : String
  captureId : String
  runId : String
  principalId : String
  requestDigest : String
  evidence : WorkspaceEvidence
  deriving DecidableEq

structure RuntimeBindingRow where
  workspaceId : String
  instanceId : String
  instanceKey : String
  source : String
  clusterUid : String
  resourceUid : Option String
  deriving DecidableEq

structure PlanUseRow where
  workspaceId : String
  instanceId : String
  instanceKey : String
  planId : String
  deriving DecidableEq

structure ActorPresetRow where
  principalId : String
  workspaceId : String
  identity : String
  preset : String
  deriving DecidableEq

/-! ### Receipts -/

/-- The recorded response of a request. -/
inductive Response
  | draft (draft : Draft)
  | revision (revision : PublishedRevision)
  | instance (cell : CellInstance)
  | experiment (run : Experiment)
  | session (session : Session)
  | operation (operation : CellOperation)
  | grant (grant : PrivateAccessGrant)
  | plan (plan : CellUpdatePlan)
  | candidate (candidate : CandidateBuild)
  deriving DecidableEq

structure ReceiptRow where
  workspaceId : String
  principalId : String
  key : String
  operation : String
  requestHash : String
  response : Response
  deriving DecidableEq

section
variable [CoreFunctions]

private def optional (key : String) : Option String → List (String × Json)
  | some text => [(key,.str text)]
  | none => []

/-- The recorded response as a document. Numbers, flags and enumerations are
    left out: no search of the store looks at them. -/
def Response.toJson : Response → Json
  | .draft d => .object [("id",.str d.id),("workspace_id",.str d.workspaceId),
      ("cell",CoreFunctions.cellJson d.cell)]
  | .revision r => .object [("workspace_id",.str r.workspaceId),("digest",.str r.digest),
      ("cell",CoreFunctions.cellJson r.cell),("lock",CoreFunctions.lockJson r.lock)]
  | .instance i => .object [("id",.str i.id),("workspace_id",.str i.workspaceId),
      ("revision_digest",.str i.revisionDigest),("lock_digest",.str i.lockDigest),
      ("instance_key",.str i.instanceKey),("resource_name",.str i.resourceName)]
  | .experiment e => .object [("id",.str e.id),("workspace_id",.str e.workspaceId),
      ("instance_id",.str e.instanceId),("owner_principal_id",.str e.ownerPrincipalId)]
  | .session s => .object [("id",.str s.id),("workspace_id",.str s.workspaceId),
      ("experiment_id",.str s.experimentId),("instance_id",.str s.instanceId),
      ("principal_id",.str s.principalId)]
  | .operation o => .object ([("revision_digest",.str o.revisionDigest),("id",.str o.id),
      ("workspace_id",.str o.workspaceId),("instance_id",.str o.instanceId),
      ("experiment_id",.str o.experimentId),("session_id",.str o.sessionId),
      ("principal_id",.str o.principalId),("resource_name",.str o.resourceName),
      ("request_digest",.str o.requestDigest),("request",o.request)] ++
      match o.artifact with
      | some artifact => [("artifact",.object [("media_type",.str artifact.mediaType),("digest",.str artifact.digest),
          ("content",artifact.content)])]
      | none => [])
  | .grant g => .object [("id",.str g.id),("workspace_id",.str g.workspaceId),
      ("instance_id",.str g.instanceId),("principal_id",.str g.principalId),
      ("scope",.object [("receive_command_digest",.str g.scope.receiveCommandDigest),
        ("issuer_principal_id",.str g.scope.issuerPrincipalId),("component",.str g.scope.component),
        ("mint",.str g.scope.mint),("reference",.str g.scope.reference)])]
  | .plan p => .object [("instance_key",.str p.instanceKey),
      ("target",.object [("instance_id",.str p.target.instanceId),
        ("delete_retained",.array (p.target.deleteRetained.map .str))]),
      ("base_revision",.str p.baseRevision),("target_revision",.str p.targetRevision),
      ("target_lock",.str p.targetLock),
      ("changes",.object [("added",.array (p.changes.added.map .str)),
        ("unchanged",.array (p.changes.unchanged.map .str)),
        ("restarted",.array (p.changes.restarted.map .str)),
        ("removed",.array (p.changes.removed.map .str)),
        ("deleted_data",.array (p.changes.deletedData.map .str)),
        ("unsupported",.array (p.changes.unsupported.map .str)),
        ("required_images",.array (p.changes.requiredImages.map .str))]),
      ("digest",.str p.digest)]
  | .candidate c => .object (
      (match c.diagnostics with | some document => [("diagnostics",document)] | none => []) ++
      [("api_version",.str c.apiVersion),("id",.str c.id),("workspace_id",.str c.workspaceId),
        ("principal_id",.str c.principalId),("implementation",.str c.implementation),
        ("base_version",.str c.baseVersion),("pull_request_url",.str c.pullRequestUrl),
        ("resource_name",.str c.resourceName),("request_digest",.str c.requestDigest)] ++
      (match c.provenance with | some provenance => [("provenance",provenance.document)] | none => []) ++
      optional "repository" c.repository ++ optional "commit_sha" c.commitSha ++
      optional "version" c.version ++ optional "image" c.image ++
      optional "error_code" c.errorCode ++ optional "error_message" c.errorMessage)
end

/-! ### Keys -/

instance : Keyed Workspace String := ⟨Workspace.id⟩
instance : Keyed Principal String := ⟨Principal.id⟩
instance : Keyed GrantRow (String × String × Capability) := ⟨fun r => (r.workspaceId,r.principalId,r.capability)⟩
instance : Keyed Draft (String × String) := ⟨fun r => (r.workspaceId,r.id)⟩
instance : Keyed CandidateRow (String × String) := ⟨fun r => (r.workspaceId,r.id)⟩
instance : Keyed RevisionRow String := ⟨RevisionRow.digest⟩
instance : Keyed InstanceRow (String × String) := ⟨fun r => (r.workspaceId,r.id)⟩
instance : Keyed Experiment (String × String) := ⟨fun r => (r.workspaceId,r.id)⟩
instance : Keyed Session (String × String) := ⟨fun r => (r.workspaceId,r.id)⟩
instance : Keyed ActionRow (String × String) := ⟨fun r => (r.workspaceId,r.id)⟩
instance : Keyed PrivateAccessRow (String × String) := ⟨fun r => (r.workspaceId,r.id)⟩
instance : Keyed ReceiptRow (String × String × String) := ⟨fun r => (r.workspaceId,r.principalId,r.key)⟩
instance : Keyed CellHandleRow (String × String) := ⟨fun r => (r.workspaceId,r.name)⟩
instance : Keyed UpdateStateRow (String × String) := ⟨fun r => (r.workspaceId,r.instanceId)⟩
instance : Keyed UpdatePlanRow (String × String) := ⟨fun r => (r.workspaceId,r.planId)⟩
instance : Keyed UpdateRow (String × String × Nat) := ⟨fun r => (r.workspaceId,r.instanceId,r.generation)⟩
instance : Keyed OperationRevisionRow (String × String) := ⟨fun r => (r.workspaceId,r.operationId)⟩
instance : Keyed RetainedRow (String × String × String) := ⟨fun r => (r.workspaceId,r.instanceId,r.componentId)⟩
instance : Keyed PreviewRow (String × String × String) := ⟨fun r => (r.workspaceId,r.principalId,r.id)⟩
instance : Keyed AdmissionRow (String × String × String) := ⟨fun r => (r.workspaceId,r.principalId,r.planId)⟩
instance : Keyed SubmissionRow (String × String × String) := ⟨fun r => (r.workspaceId,r.principalId,r.requestId)⟩
instance : Keyed AutomaticRunRow (String × String × String) := ⟨fun r => (r.workspaceId,r.instanceKey,r.principalId)⟩
instance : Keyed RunSealRow (String × String) := ⟨fun r => (r.workspaceId,r.runId)⟩
instance : Keyed EvidenceRow (String × String) := ⟨fun r => (r.workspaceId,r.captureId)⟩
instance : Keyed RuntimeBindingRow (String × String) := ⟨fun r => (r.workspaceId,r.instanceId)⟩
instance : Keyed PlanUseRow (String × String × String) := ⟨fun r => (r.workspaceId,r.instanceKey,r.planId)⟩
instance : Keyed ActorPresetRow String := ⟨ActorPresetRow.principalId⟩

/-! ### The database -/

structure Db where
  workspaces : Table Workspace
  principals : Table Principal
  grants : Table GrantRow
  drafts : Table Draft
  candidateBuilds : Table CandidateRow
  revisions : Table RevisionRow
  instances : Table InstanceRow
  experiments : Table Experiment
  sessions : Table Session
  actions : Table ActionRow
  privateAccessGrants : Table PrivateAccessRow
  idempotency : Table ReceiptRow
  cellHandles : Table CellHandleRow
  cellUpdateState : Table UpdateStateRow
  cellUpdatePlans : Table UpdatePlanRow
  cellUpdates : Table UpdateRow
  operationRevisions : Table OperationRevisionRow
  retainedComponents : Table RetainedRow
  cellPreviews : Table PreviewRow
  previewAdmissions : Table AdmissionRow
  cellSubmissionRequests : Table SubmissionRow
  automaticRuns : Table AutomaticRunRow
  runSeals : Table RunSealRow
  workspaceEvidence : Table EvidenceRow
  cellRuntimeBindings : Table RuntimeBindingRow
  cellPlanUses : Table PlanUseRow
  localActorPresets : Table ActorPresetRow
  deriving DecidableEq

/-- The store as it is created. -/
def Db.empty : Db :=
  ⟨.empty,.empty,.empty,.empty,.empty,.empty,.empty,.empty,.empty,.empty,.empty,.empty,.empty,.empty,.empty,.empty,
    .empty,.empty,.empty,.empty,.empty,.empty,.empty,.empty,.empty,.empty,.empty⟩

def noRows : StoreError := .database "Query returned no rows"
def foreignKey : StoreError := .database "FOREIGN KEY constraint failed"
def uniqueFailed : StoreError := .database "UNIQUE constraint failed"

/-- The first version that an integer column cannot hold. -/
def versionLimit : Nat := 2^63

/-- `sql_version`. -/
def sqlVersion (version : Nat) : Except StoreError Nat :=
  if version < versionLimit then .ok version else .error (.versionOverflow version)

@[simp] theorem sqlVersion_ok {version stored : Nat} :
    sqlVersion version = .ok stored ↔ version < versionLimit ∧ version = stored := by
  by_cases fits : version < versionLimit <;> simp [sqlVersion,fits]

/-- `is_slug`. -/
def isSlug (value : String) : Bool :=
  let chars := value.toList
  chars ≠ [] ∧ chars.length ≤ 63 ∧ chars.head? ≠ some '-' ∧ chars.getLast? ≠ some '-' ∧
    chars.all (fun c => c.isLower || c.isDigit || c == '-') ∧
    (chars.zip chars.tail).all (fun pair => ¬ (pair.1 = '-' ∧ pair.2 = '-'))

example : isSlug "run-7f" ∧ ¬ isSlug "run--7f" ∧ ¬ isSlug "-run" ∧ ¬ isSlug "Run" := by decide
end Proofstorm.Store
