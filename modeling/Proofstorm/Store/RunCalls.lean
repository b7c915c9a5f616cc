import Proofstorm.Store.CellCalls

/-!
The calls of `Store` on runs, sessions, operations, private grants, captures and
candidate builds. `createOperation` is the longest of them: it resolves a run and
a session in statements of their own before the admitting transaction.
-/
namespace Proofstorm.Store
open Proofstorm.Core
open Proofstorm.Interleaving (query settle attempt)

section
variable [CoreFunctions]

/-! ### Runs -/

def createExperiment (workspace principal id instanceId key : String) (now : Int) : Program Experiment := do
  query (authorize workspace principal .experimentCreate)
  settle (ensure (isSlug id)
    (.validation "experiment id must be a lowercase kebab-case identifier of 1..=63 bytes"))
  let _ ← query (instanceUnchecked workspace instanceId)
  let request := .object [("experimentId",.str id),("instanceId",.str instanceId)]
  retried workspace principal key "experiment.create" request (fun response => settle response.asExperiment) do
    let run : Experiment := ⟨id,workspace,instanceId,principal,.active,now,none⟩
    let inserted : Nat ← exec (.insertExperiment run)
    let created ← if inserted = 0 then query (experimentUnchecked workspace id) else pure run
    settle (ensure (created.instanceId = instanceId ∧ created.ownerPrincipalId = principal)
      (.conflict "experiment" id))
    exec (.recordIdempotency workspace principal key "experiment.create" request (.experiment created))
    pure created

def closeExperiment (workspace principal id key : String) (now : Int) : Program Experiment := do
  query (authorize workspace principal .experimentClose)
  let request := .object [("experimentId",.str id)]
  retried workspace principal key "experiment.close" request (fun response => settle response.asExperiment) do
    let _ ← query (experimentUnchecked workspace id)
    exec (.closeExperiment workspace id now)
    let run ← query (experimentUnchecked workspace id)
    exec (.recordIdempotency workspace principal key "experiment.close" request (.experiment run))
    pure run

def implicitRunId (workspace principal instanceId : String) : Program String := do
  let cell ← query (instanceUnchecked workspace instanceId)
  query fun db => (nextRun workspace cell.instanceKey principal db).map Prod.snd

def ensureImplicitRun (workspace principal instanceId id : String) (now : Int) : Program Unit := do
  exec (.ensureImplicitRun workspace principal instanceId id now)
  let run ← query (experimentUnchecked workspace id)
  settle (ensure (run.instanceId = instanceId ∧ run.ownerPrincipalId = principal ∧ run.phase = .active)
    (.validation "default run changed during admission; retry the same request"))

def ensureDefaultRun (workspace principal instanceId : String) (capability : Capability) (now : Int) :
    Program Experiment := do
  query (authorize workspace principal capability)
  let id ← implicitRunId workspace principal instanceId
  ensureImplicitRun workspace principal instanceId id now
  query (experimentUnchecked workspace id)

/-! ### Sessions -/

/-- `track_session`. `contextId` is that of the store's process. -/
def trackSession (workspace principal experiment requested contextId : String) (now : Int) : Program Session := do
  let run ← query (experimentUnchecked workspace experiment)
  let context := digestJson (.context workspace principal experiment contextId)
  let id := if requested = "" then sessionId context else requested
  settle (ensure (isSlug id) (.validation "session id must be a lowercase kebab-case identifier of 1..=63 bytes"))
  exec (.trackSession workspace principal experiment run.instanceId requested context id now)

def startSession (workspace principal experiment id key contextId : String) (now : Int) : Program Session := do
  query (authorize workspace principal .experimentRead)
  let request := .object [("experimentId",.str experiment),("sessionId",.str id)]
  retried workspace principal key "session.start" request
    (fun response => do
      let previous ← settle response.asSession
      query (sessionUnchecked workspace previous.id)) do
    let session ← trackSession workspace principal experiment id contextId now
    exec (.recordIdempotency workspace principal key "session.start" request (.session session))
    pure session

def finishSession (workspace principal id : String) (now : Int) : Program Session := do
  query (authorize workspace principal .experimentRead)
  let session ← query (sessionUnchecked workspace id)
  settle (ensure (session.principalId = principal) (.validation "only the recorded actor can finish their session"))
  exec (.finishSession workspace session.id now)
  query (sessionUnchecked workspace id)

def finishCellSessions (workspace principal instanceId : String) (now : Int) : Program Unit := do
  query (authorize workspace principal .cellClose)
  exec (.finishCellSessions workspace instanceId now)

/-- `Drop for Store`: the sessions that the process has tracked are finished, whatever fails. -/
def drop (sessions : List (String × String)) (now : Int) : Program Unit :=
  sessions.forM fun session => do
    let _ ← attempt (exec (.finishSession session.1 session.2 now))
    pure ()

/-! ### Operations -/

/-- `request.pointer(path)` along object keys. -/
def pointer (request : Json) : List String → Option Json
  | [] => some request
  | key :: rest => (request.get key).bind fun value => pointer value rest

/-- `PrivateTransferScope::permits`. -/
def permits (scope : PrivateTransferScope) (kind : OperationKind) (request : Json) : Bool :=
  let text (path : List String) := (pointer request path).bind Json.asStr
  match kind with
  | .privateTransfer =>
    text ["transfer","component"] = some scope.component ∧ text ["transfer","reference"] = some scope.reference ∧
      (text ["transfer","transferMethod"] = some "status" ∨ text ["transfer","transferMethod"] = some "deliver")
  | .componentExecLive =>
    text ["component"] = some scope.component ∧ text ["private_payload","kind"] = some "consume" ∧
      text ["private_payload","reference"] = some scope.reference ∧ text ["output","mode"] = some "private" ∧
      request.get "target_component" = none ∧ request.get "private_io" = none ∧
      (pointer request ["output","fields"] = none ∨ pointer request ["output","fields"] = some (.arr .nil)) ∧
      CoreFunctions.receiveCommandDigest request = some scope.receiveCommandDigest
  | _ => false

/-- `matching_access`: the first of the principal's grants that permits the request. -/
def matchingAccess (workspace principal instanceId : String) (kind : OperationKind) (request : Json) (db : Db) :
    Option PrivateAccessGrant :=
  let rows := db.privateAccessGrants.rows.filter fun row => row.workspaceId = workspace ∧
    row.grant.principalId = principal ∧ row.grant.instanceId = instanceId ∧ row.grant.revokedAtUnix = none
  ((rows.insertionSort fun a b => a.id ≤ b.id).map PrivateAccessRow.grant).find? fun grant =>
    permits grant.scope kind request

def authorizeOperationAccess (workspace principal instanceId : String) (kind : OperationKind) (request : Json) :
    Program PUnit := do
  match ← attempt (query (authorize workspace principal .cellOperate)) with
  | .ok _ => pure ⟨⟩
  | .error _ =>
    query fun db => ensure (matchingAccess workspace principal instanceId kind request db ≠ none)
      (.accessDenied workspace principal .cellOperate)

/-- `operation_for_submission`. -/
def operationForSubmission (workspace principal id : String) : Program CellOperation := do
  let operation ← query (operationFrom workspace id)
  query (authorize workspace principal operation.capability)
  settle (ensure (operation.principalId = principal) (.operationOwnerMismatch id operation.principalId principal))
  if operation.phase = .pending then
    authorizeOperationAccess workspace principal operation.instanceId operation.kind operation.request
  pure operation

/-- `operation_for_cancel`. -/
def operationForCancel (workspace principal id : String) : Program CellOperation := do
  query (authorize workspace principal .actionCancel)
  let operation ← query (operationFrom workspace id)
  settle (ensure (operation.principalId = principal) (.operationOwnerMismatch id operation.principalId principal))
  pure operation

/-- `operation_access_scope`. -/
def operationAccessScope (operation : CellOperation) : Program (Option PrivateAccessGrant) :=
  query fun db => .ok (matchingAccess operation.workspaceId operation.principalId operation.instanceId operation.kind
    operation.request db)

/-- What a caller of `create_operation` or `create_operation_at_revision` asks for. -/
structure OperationCall where
  workspace : String
  principal : String
  instanceId : String
  experimentId : String
  sessionId : String
  operationId : String
  kind : OperationKind
  request : Json
  key : String
  capability : Capability
  expectedRevision : Option String
  deriving DecidableEq

/-- The run of a request without one: that of the recorded operation, or the caller's automatic run. -/
def resolveRun (c : OperationCall) : Program String := do
  if c.experimentId = "" then
    -- Replays retain their original sealed run; new work rolls into the next run.
    match ← attempt (query (operationFrom c.workspace c.operationId)) with
    | .ok previous =>
      if previous.principalId = c.principal ∧ previous.instanceId = c.instanceId then pure previous.experimentId
      else implicitRunId c.workspace c.principal c.instanceId
    | .error (.notFound _ _) => implicitRunId c.workspace c.principal c.instanceId
    | .error error => throw error
  else pure c.experimentId

/-- The run is written into the fields of the request that name one. -/
def normalizeRequest (request : Json) (run : String) : Json :=
  match request with
  | .obj fields => .obj ((fields.replace "experiment_id" (.str run)).replace "run_id" (.str run))
  | other => other

/-- The admission of a call, once its run and session are known. -/
def OperationCall.admission (c : OperationCall) (run session : String) (acceptedAt : Int) : Admission :=
  { workspace := c.workspace
    principal := c.principal
    instanceId := c.instanceId
    experimentId := run
    requestedSession := c.sessionId
    sessionId := session
    operationId := c.operationId
    kind := c.kind
    request := normalizeRequest c.request run
    key := c.key
    capability := c.capability
    expectedRevision := c.expectedRevision
    acceptedAt := acceptedAt }

/-- The part of `create_operation_inner` after its first look for a receipt. -/
def admitFresh (c : OperationCall) (run contextId : String) (runAt sessionAt acceptedAt : Int) :
    Program CellOperation := do
  authorizeOperationAccess c.workspace c.principal c.instanceId c.kind (normalizeRequest c.request run)
  if c.experimentId = "" then ensureImplicitRun c.workspace c.principal c.instanceId run runAt
  let current ← query (experimentUnchecked c.workspace run)
  settle (ensure (current.instanceId = c.instanceId ∧ current.phase = .active)
    (.validation "action run must be open and belong to this cell"))
  let session ← trackSession c.workspace c.principal run c.sessionId contextId sessionAt
  exec (.createOperation (c.admission run session.id acceptedAt))

/-- `create_operation_inner`. -/
def createOperation (c : OperationCall) (contextId : String) (runAt sessionAt acceptedAt : Int) :
    Program CellOperation := do
  query (authorize c.workspace c.principal c.capability)
  settle (ensure (isSlug c.operationId)
    (.validation "operation id must be a lowercase kebab-case identifier of 1..=63 bytes"))
  let _ ← query (instanceUnchecked c.workspace c.instanceId)
  let run ← resolveRun c
  retried c.workspace c.principal c.key "cell.operation.create"
    (admissionEnvelope c.instanceId run c.sessionId c.operationId c.kind (normalizeRequest c.request run))
    (fun response => do
      let previous ← settle response.asOperation
      query (operationFrom c.workspace previous.id))
    (admitFresh c run contextId runAt sessionAt acceptedAt)

/-- `MAX_ARTIFACT_BYTES`. -/
def maxArtifactBytes : Nat := 32 * 1024

def recordOperationResult (workspace id : String) (phase : OperationPhase) (content : Json) (completedAt : Int) :
    Program CellOperation := do
  settle (ensure (phase.active = false) (.validation "operation result phase must be terminal"))
  let existing ← query (operationFrom workspace id)
  if existing.phase.active = false then pure existing
  else do
    let bytes := CoreFunctions.byteLength content
    settle (ensure (bytes ≤ maxArtifactBytes) (.artifactTooLarge bytes maxArtifactBytes))
    let artifact : OperationArtifact := ⟨"application/json",digestJson (.json content),bytes,content⟩
    let _ ← exec (.recordOperationResult workspace id existing.sessionId phase artifact completedAt)
    query (operationFrom workspace id)

def updateOperationPhase (workspace id : String) (phase : OperationPhase) (now : Int) : Program CellOperation := do
  settle (ensure (phase = .running) (.validation "operation phase update only accepts running"))
  exec (.updateOperationPhase workspace id phase now)
  query (operationFrom workspace id)

/-! ### Captures -/

def recordWorkspaceCapture (workspace principal requestDigest : String) (evidence : WorkspaceEvidence) :
    Program WorkspaceEvidence := do
  query (authorize workspace principal .componentExecLive)
  query (authorize workspace principal .experimentRead)
  query (authorize workspace principal .artifactRead)
  settle ((CoreFunctions.validateEvidence evidence).mapError .validation)
  settle (ensure (evidence.content.snapshot.captureRequestDigest = requestDigest)
    (.validation "capture request digest mismatch"))
  settle (ensure (evidence.content.principalId = principal) (.validation "capture principal mismatch"))
  exec (.recordCapture workspace principal requestDigest evidence)

/-! ### Private grants -/

/-- `is_ascii_hexdigit` of every character, and so many of them. -/
def isHex (length : Nat) (text : String) : Bool :=
  text.toList.length = length ∧ text.toList.all fun c => c.isDigit || ('a' ≤ c && c ≤ 'f') || ('A' ≤ c && c ≤ 'F')

def scopeValid (scope : PrivateTransferScope) (principal recipient : String) : Bool :=
  scope.issuerPrincipalId = principal ∧ principal ≠ recipient ∧ isSlug scope.component ∧ isSlug scope.mint ∧
    scope.reference ≠ "" ∧ scope.reference.utf8ByteSize ≤ 128 ∧
    scope.receiveCommandDigest.toList.take 7 = "sha256:".toList ∧
    isHex 64 (.ofList (scope.receiveCommandDigest.toList.drop 7))

def privateAccess (workspace principal id : String) : Program PrivateAccessGrant := do
  query (authorize workspace principal .experimentRead)
  query fun db => (require (db.privateAccessGrants.find (workspace,id)) (.notFound "private access grant" id)).map
    PrivateAccessRow.grant

def issuePrivateAccess (workspace principal recipient id instanceId : String) (scope : PrivateTransferScope)
    (key : String) (now : Int) : Program PrivateAccessGrant := do
  query (authorize workspace principal .cellOperate)
  query (authorize workspace principal .componentExecLive)
  query (authorize workspace recipient .componentExecLive)
  settle (ensure (isSlug id) (.validation "session id must be a lowercase kebab-case identifier of 1..=63 bytes"))
  settle (ensure (scopeValid scope principal recipient) (.validation "invalid private transfer permission"))
  query (authorize workspace principal .componentExecLive)
  let cell ← query (instanceUnchecked workspace instanceId)
  let revision ← query (revisionUnchecked workspace cell.revisionDigest)
  settle (ensure ((∃ c ∈ revision.cell.components, c.id = scope.component ∧ c.kind = .wallet) ∧
      ∃ c ∈ revision.cell.components, c.id = scope.mint ∧ c.kind = .mint)
    (.validation "private scope endpoints must belong to the cell"))
  let request := .object [("recipient",.str recipient),("id",.str id),("instance",.str instanceId),
    ("scope",.object [("receive_command_digest",.str scope.receiveCommandDigest),
      ("issuer_principal_id",.str scope.issuerPrincipalId),("component",.str scope.component),
      ("mint",.str scope.mint),("reference",.str scope.reference)])]
  retried workspace principal key "private_access.issue" request
    (fun response => do
      let previous ← settle response.asGrant
      privateAccess workspace principal previous.id) do
    match ← query fun db => .ok ((db.privateAccessGrants.find (workspace,id)).map PrivateAccessRow.grant) with
    | some previous => do
      settle (ensure (previous.instanceId = instanceId ∧ previous.principalId = recipient ∧ previous.scope = scope)
        (.conflict "private access grant" id))
      pure previous
    | none => do
      let issued : PrivateAccessGrant := ⟨id,workspace,instanceId,recipient,scope,now,none⟩
      exec (.insertPrivateAccess workspace id issued)
      exec (.recordIdempotency workspace principal key "private_access.issue" request (.grant issued))
      pure issued

def revokePrivateAccess (workspace principal id : String) (now : Int) : Program PrivateAccessGrant := do
  let grant ← privateAccess workspace principal id
  settle (ensure (principal = grant.principalId ∨ principal = grant.scope.issuerPrincipalId)
    (.validation "private access can only be revoked by its issuer or recipient"))
  let revoked := { grant with revokedAtUnix := some (grant.revokedAtUnix.getD now) }
  exec (.updatePrivateAccess workspace id revoked)
  pure revoked

/-! ### Candidate builds -/

/-- `validate_candidate_build`. -/
def validateCandidateBuild (workspace principal : String) (candidate : CandidateBuild) : Except StoreError PUnit := do
  let resolutionFailed : Prop := candidate.provenance.isSome ∧ candidate.phase = .failed ∧ candidate.commitSha = none ∧
    candidate.repository = none ∧ candidate.errorCode = some "candidate_source_resolution_failed" ∧
    candidate.errorMessage.isSome ∧ candidate.completedAtUnix.isSome
  ensure (candidate.apiVersion = candidateApiVersion ∧ candidate.workspaceId = workspace ∧
      candidate.principalId = principal ∧ isSlug candidate.id ∧ isSlug candidate.implementation ∧
      candidate.baseVersion ≠ "" ∧ (resolutionFailed ∨ candidate.phase = .pending) ∧
      (resolutionFailed ∨ candidate.repository.any (· ≠ "")) ∧ candidate.version.any (· ≠ "") ∧
      candidate.image = none ∧ (resolutionFailed ∨ (candidate.errorCode = none ∧ candidate.errorMessage = none)))
    (.validation "candidate build has an invalid immutable identity or initial state")
  ensure (candidate.provenance.isSome ∨
      candidate.pullRequestUrl.toList.take 19 = "https://github.com/".toList)
    (.validation "candidate pull request must be a public https://github.com URL")
  ensure (resolutionFailed ∨ isHex 40 (candidate.commitSha.getD ""))
    (.validation "candidate commit_sha must be a full 40-character Git SHA")
  let derived ← require (CoreFunctions.baseRelease candidate.implementation candidate.baseVersion)
    (.catalog s!"candidate base {candidate.implementation} {candidate.baseVersion} is not installed")
  ensure (derived = false) (.validation "candidate builds must derive from a built-in release")
  ensure (∀ provenance, candidate.provenance = some provenance →
      CoreFunctions.provenanceValid provenance = true ∧ CoreFunctions.provenanceConsistent candidate provenance = true)
    (.validation "candidate provenance is inconsistent or unsupported")

/-- The steps of a build that `validate_candidate_update` allows. -/
def phaseFollows : CandidateBuildPhase → CandidateBuildPhase → Bool
  | .pending, .resolving | .pending, .building | .pending, .succeeded | .pending, .failed | .pending, .cancelled
  | .resolving, .building | .resolving, .failed | .resolving, .cancelled
  | .building, .pushing | .building, .succeeded | .building, .failed | .building, .cancelled
  | .pushing, .succeeded | .pushing, .failed | .pushing, .cancelled => true
  | current, next => current = next

def phaseName : CandidateBuildPhase → String
  | .pending => "Pending" | .resolving => "Resolving" | .building => "Building" | .pushing => "Pushing"
  | .succeeded => "Succeeded" | .failed => "Failed" | .cancelled => "Cancelled"

/-- What follows the last occurrence of `mark`. -/
def afterLast (mark : List Char) : List Char → Option (List Char)
  | [] => none
  | c :: rest => (afterLast mark rest).or
      (if mark.isPrefixOf (c :: rest) then some ((c :: rest).drop mark.length) else none)

/-- An image with the digest that `@sha256:` introduces. -/
def imageImmutable (image : String) : Bool :=
  (afterLast "@sha256:".toList image.toList).any fun digest => isHex 64 (.ofList digest)

/-- `validate_candidate_update`. -/
def validateCandidateUpdate (current candidate : CandidateBuild) : Except StoreError PUnit := do
  ensure (candidate = { candidate with
      apiVersion := current.apiVersion, id := current.id, workspaceId := current.workspaceId
      principalId := current.principalId, implementation := current.implementation, baseVersion := current.baseVersion
      pullRequestUrl := current.pullRequestUrl, resourceName := current.resourceName
      requestDigest := current.requestDigest, provenance := current.provenance, buildFeatures := current.buildFeatures
      acceptedAtUnix := current.acceptedAtUnix, repository := current.repository, commitSha := current.commitSha
      version := current.version })
    (.conflict "candidate build" candidate.id)
  ensure (current.phase.terminal = true → current = candidate)
    (.validation "terminal candidate build state is immutable")
  ensure (phaseFollows current.phase candidate.phase = true) (.validation
    s!"invalid candidate build transition from {phaseName current.phase} to {phaseName candidate.phase}")
  ensure (candidate.phase = .succeeded → candidate.image.any imageImmutable = true)
    (.validation "successful candidate build must have an immutable sha256 image")

def candidateBuildUnchecked (workspace id : String) (db : Db) : Except StoreError CandidateBuild := do
  let row ← require (db.candidateBuilds.find (workspace,id)) (.notFound "candidate build" id)
  decodeCandidateBuild row.build

def createCandidateBuild (workspace principal : String) (candidate : CandidateBuild) (key : String) :
    Program CandidateBuild := do
  query (authorize workspace principal .candidateBuild)
  settle (validateCandidateBuild workspace principal candidate)
  exec (.createCandidateBuild workspace principal candidate key)

def recordCandidateRequest (workspace principal key inputDigest : String) (candidate : CandidateBuild) : Program Unit := do
  query (authorize workspace principal .candidateBuild)
  exec (.recordCandidateRequest workspace principal key inputDigest candidate)

def updateCandidateBuild (workspace : String) (candidate : CandidateBuild) : Program CandidateBuild := do
  let current ← query (candidateBuildUnchecked workspace candidate.id)
  settle (validateCandidateUpdate current candidate)
  let updated : Nat ← exec (.updateCandidate workspace current candidate)
  if updated = 0 then query (candidateBuildUnchecked workspace candidate.id) else pure candidate

def removeCandidateBuild (workspace principal id : String) : Program CandidateBuild := do
  query (authorize workspace principal .candidateCancel)
  exec (.removeCandidateBuild workspace id)
end

end Proofstorm.Store
