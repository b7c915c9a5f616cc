import Proofstorm.Core.Json

/-!
The records of `proofstorm-core` that the store keeps: cells and their published
revisions, live instances, runs, sessions, operations, private grants, captures
and candidate builds. Names and fields are those of the source; ids and digests
are strings, versions and generations natural numbers that the store checks
against the width of its columns, and Unix times integers.
-/
namespace Proofstorm.Core

inductive Capability
  | catalogRead | candidateBuild | candidateRead | candidateCancel
  | cellRead | cellCreate | cellEdit | cellClone | cellValidate | cellPublish | cellMaterialize | cellStatus
  | cellClose | cellConnect | experimentCreate | experimentRead | experimentClose | cellOperate | actionCancel
  | topologyInspect | topologyMutate | nodeAdd | nodeRemove | nodeControl | componentControl | peerConnect
  | peerDisconnect | walletCreate | walletControl | walletFund | channelOpen | channelClose | channelForceClose
  | channelRebalance | chainMine | chainFee | chainReorg | networkDelay | networkDrop | networkPartition
  | networkHeal | componentLogs | componentExecLive | componentForensics | authenticationTest | trafficCapture
  | oracleList | oracleRun | artifactRead | policyRead | policyEdit | snapshotCreate | snapshotRestore
  | mintQuotePaymentOverride | mintNativeConfigOverride
  deriving DecidableEq

/-! ### Cells -/

inductive ComponentKind
  | bitcoin | lightning | arkServer | sparkServer | paymentProcessor | mint | database | identityProvider
  | wallet | workspace | proxy | oracle
  deriving DecidableEq

inductive ControlClass
  | cell | target | workspace | oracle
  deriving DecidableEq

/-- `config` holds the entries of an ordered map. -/
structure ComponentSpec where
  id : String
  kind : ComponentKind
  implementation : String
  version : Option String
  configVersion : String
  control : ControlClass
  config : List (String × Json)
  deriving DecidableEq

inductive LinkKind
  | bitcoinPeer | lightningPeer | chainBackend | arkBackend | sparkBackend | paymentBackend | databaseBackend
  | authenticationBackend | networkPath
  deriving DecidableEq

inductive BitcoinNetwork
  | regtest
  deriving DecidableEq

inductive PaymentMethod
  | bolt11 | bolt12 | onchain | custom (name : String)
  deriving DecidableEq

inductive DatabaseRole
  | primary | cache | authentication
  deriving DecidableEq

inductive AuthenticationProtocol
  | oidc
  deriving DecidableEq

inductive DependencyBinding
  | chain (network : BitcoinNetwork)
  | ark (network : BitcoinNetwork)
  | spark (network : BitcoinNetwork)
  | payment (method : PaymentMethod) (unit : String)
  | database (role : DatabaseRole) (database : Option String)
  | authentication (protocol : AuthenticationProtocol)
  deriving DecidableEq

structure LinkSpec where
  id : String
  kind : LinkKind
  «from» : String
  «to» : String
  binding : Option DependencyBinding
  deriving DecidableEq

structure CellLimits where
  maxComponents : Option Nat
  maxLinks : Option Nat
  maxConfigBytes : Option Nat
  deriving DecidableEq

structure CellPolicy where
  allow : List Capability
  limits : CellLimits
  deriving DecidableEq

structure CellSpec where
  apiVersion : String
  name : String
  components : List ComponentSpec
  links : List LinkSpec
  policy : CellPolicy
  deriving DecidableEq

/-- The ids of the components of a cell. -/
def CellSpec.ids (cell : CellSpec) : List String := cell.components.map ComponentSpec.id

/-! ### Locks and published revisions -/

structure CandidateSource where
  candidateId : String
  pullRequestUrl : String
  repository : String
  commitSha : String
  deriving DecidableEq

/-- What the store and the update plan read of a lock entry. `rest` is what they
    carry along: adapter and schema versions, features, provenance. -/
structure LockEntry where
  componentId : String
  catalogId : String
  version : String
  rolloutDigest : String
  image : String
  source : Option CandidateSource
  rest : Json
  deriving DecidableEq

structure ResolvedLock where
  apiVersion : String
  digest : String
  entries : List LockEntry
  deriving DecidableEq

structure PublishedRevision where
  workspaceId : String
  digest : String
  cell : CellSpec
  lock : ResolvedLock
  deriving DecidableEq

/-! ### Update plans and previews -/

structure CellUpdateTarget where
  instanceId : String
  expectedGeneration : Nat
  deleteData : Bool
  /-- Data retained by earlier removals that this update purges. -/
  deleteRetained : List String
  deriving DecidableEq

structure CellChanges where
  added : List String
  unchanged : List String
  restarted : List String
  removed : List String
  deletedData : List String
  connectionsChanged : Bool
  policyChanged : Bool
  unsupported : List String
  requiredImages : List String
  deriving DecidableEq

structure CellUpdatePlan where
  instanceKey : String
  target : CellUpdateTarget
  baseRevision : String
  targetRevision : String
  targetLock : String
  changes : CellChanges
  digest : String
  deriving DecidableEq

structure CellPreview where
  id : String
  requestDigest : String
  name : String
  cell : CellSpec
  revisionDigest : String
  lockDigest : String
  update : Option CellUpdatePlan
  deriving DecidableEq

/-! ### Instances, runs and sessions -/

structure CellInstance where
  generation : Nat
  id : String
  workspaceId : String
  revisionDigest : String
  lockDigest : String
  instanceKey : String
  resourceName : String
  deriving DecidableEq

inductive ExperimentPhase
  | active | closed
  deriving DecidableEq

structure Experiment where
  id : String
  workspaceId : String
  instanceId : String
  ownerPrincipalId : String
  phase : ExperimentPhase
  createdAtUnix : Int
  closedAtUnix : Option Int
  deriving DecidableEq

inductive SessionPhase
  | active | finished
  deriving DecidableEq

structure Session where
  id : String
  workspaceId : String
  experimentId : String
  instanceId : String
  principalId : String
  phase : SessionPhase
  startedAtUnix : Int
  lastActivityAtUnix : Int
  finishedAtUnix : Option Int
  deriving DecidableEq

/-! ### Operations -/

inductive OperationKind
  | nodeStart | nodeStop | nodeRestart | componentStart | componentStop | componentRestart | bootstrapLiquidity
  | peerConnect | peerDisconnect | channelOpen | channelPolicySet | channelClose | channelForceClose
  | channelRebalance | networkPartition | networkDelay | networkLoss | networkHeal | walletInitialize
  | walletBalance | walletFund | walletInvoice | walletPay | walletQuoteClaim | walletMeltQuoteRefresh
  | walletRoundTrip | conservationOracle | reachabilityOracle | componentForensics | componentExecLive
  | privateTransfer | componentLogs | authenticationConformance | authenticationProtectedSpend
  | authenticationReplay
  deriving DecidableEq

inductive OperationPhase
  | pending | running | succeeded | failed | cancelled
  deriving DecidableEq

/-- Pending or running. -/
def OperationPhase.active : OperationPhase → Bool
  | .pending | .running => true
  | _ => false

structure OperationArtifact where
  mediaType : String
  digest : String
  byteLength : Nat
  content : Json
  deriving DecidableEq

structure CellOperation where
  revisionDigest : String
  id : String
  workspaceId : String
  instanceId : String
  experimentId : String
  sessionId : String
  principalId : String
  sequence : Nat
  kind : OperationKind
  capability : Capability
  resourceName : String
  requestDigest : String
  request : Json
  phase : OperationPhase
  acceptedAtUnix : Int
  startedAtUnix : Option Int
  completedAtUnix : Option Int
  artifact : Option OperationArtifact
  deriving DecidableEq

/-! ### Private transfers -/

structure PrivateTransferScope where
  receiveCommandDigest : String
  issuerPrincipalId : String
  component : String
  mint : String
  reference : String
  deriving DecidableEq

structure PrivateAccessGrant where
  id : String
  workspaceId : String
  instanceId : String
  principalId : String
  scope : PrivateTransferScope
  createdAtUnix : Int
  revokedAtUnix : Option Int
  deriving DecidableEq

/-! ### Captures -/

/-- What the store reads of a task capture; `rest` is the captured tree. -/
structure TaskCapture where
  captureId : String
  captureRequestDigest : String
  rest : Json
  deriving DecidableEq

structure WorkspaceEvidenceContent where
  captureId : String
  runId : String
  principalId : String
  instanceId : String
  instanceKey : String
  revisionDigest : String
  component : String
  workspacePodUid : String
  snapshot : TaskCapture
  controllerObservedAtUnix : Int
  controllerActions : List Json
  deriving DecidableEq

structure WorkspaceEvidence where
  digest : String
  byteLength : Nat
  content : WorkspaceEvidenceContent
  deriving DecidableEq

/-! ### Candidate builds -/

inductive CandidateBuildPhase
  | pending | resolving | building | pushing | succeeded | failed | cancelled
  deriving DecidableEq

def CandidateBuildPhase.terminal : CandidateBuildPhase → Bool
  | .succeeded | .failed | .cancelled => true
  | _ => false

/-- The provenance record, with the two fields that the store reads by name. -/
structure CandidateProvenance where
  inputDigest : String
  baselineDigest : String
  document : Json
  deriving DecidableEq

structure CandidateBuild where
  diagnostics : Option Json
  apiVersion : String
  id : String
  workspaceId : String
  principalId : String
  implementation : String
  baseVersion : String
  pullRequestUrl : String
  resourceName : String
  requestDigest : String
  provenance : Option CandidateProvenance
  buildFeatures : List String
  phase : CandidateBuildPhase
  acceptedAtUnix : Int
  startedAtUnix : Option Int
  completedAtUnix : Option Int
  repository : Option String
  commitSha : Option String
  version : Option String
  image : Option String
  errorCode : Option String
  errorMessage : Option String
  deriving DecidableEq

end Proofstorm.Core
