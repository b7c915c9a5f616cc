import Proofstorm.Store.Statement

/-!
All that a statement can do to the database (`Write`), with what it found there.
The invariants of the store are proved by cases on it. Tables that no invariant
reads are written together, by the case `elsewhere`.
-/
namespace Proofstorm.Store
open Proofstorm.Core

section
variable [CoreFunctions]

/-- The handle row and the preview admissions that a reservation leaves, with the id that it drew. -/
def Reserves (statement : Statement) (row : CellHandleRow) (db : Db) (admissions : Table AdmissionRow) : Prop :=
  match statement with
  | .reserveCell workspace principal name _ nonce =>
    row.workspaceId = workspace ∧ row.name = name ∧ row.owner = principal ∧
      row.instanceId = cellId (digestJson (.handle workspace name row.generation nonce)) ∧
      admissions = db.previewAdmissions
  | .reservePreview workspace principal preview nonce =>
    row.workspaceId = workspace ∧ row.name = preview.name ∧ row.owner = principal ∧
      row.instanceId = cellId (digestJson (.nonce workspace preview.name nonce)) ∧
      db.previewAdmissions.find (workspace,principal,preview.id) = none ∧
      admissions = db.previewAdmissions.insert ⟨workspace,principal,preview.id,row.instanceId⟩
  | _ => False

omit [CoreFunctions] in
/-- The statements that write candidate builds. -/
def Statement.writesBuilds : Statement → Bool
  | .createCandidateBuild .. | .updateCandidate .. | .removeCandidateBuild .. => true
  | _ => false

omit [CoreFunctions] in
/-- The statements that write private grants. -/
def Statement.writesAccess : Statement → Bool
  | .insertPrivateAccess .. | .updatePrivateAccess .. | .purgeCell .. => true
  | _ => false

/-- `Write statement db after`: the statement took `db` to `after`. -/
inductive Write : Statement → Db → Db → Prop
  /-- Tables without a bearing on instances, runs, operations and receipts. -/
  | elsewhere (statement : Statement) (db : Db) (workspaces : Table Workspace) (principals : Table Principal)
      (grants : Table GrantRow) (drafts : Table Draft) (builds : Table CandidateRow)
      (access : Table PrivateAccessRow) (plans : Table UpdatePlanRow) (previews : Table PreviewRow)
      (submissions : Table SubmissionRow) (bindings : Table RuntimeBindingRow) (uses : Table PlanUseRow)
      (presets : Table ActorPresetRow) (kept : ∀ row ∈ db.candidateBuilds, builds.has (key row))
      (bound : ∀ row ∈ db.cellSubmissionRequests, row ∈ submissions)
      (built : statement.writesBuilds = false → builds = db.candidateBuilds)
      (granted : statement.writesAccess = false → access = db.privateAccessGrants) :
    Write statement db { db with
      workspaces := workspaces, principals := principals, grants := grants, drafts := drafts
      candidateBuilds := builds, privateAccessGrants := access, cellUpdatePlans := plans, cellPreviews := previews
      cellSubmissionRequests := submissions, cellRuntimeBindings := bindings, cellPlanUses := uses
      localActorPresets := presets }
  | publish (row : RevisionRow) (db : Db) (f : RevisionRow → RevisionRow) (keeps : ∀ row, key (f row) = key row)
      (contents : ∀ row, (f row).revision = row.revision ∧ (f row).workspaceId = row.workspaceId) :
    Write (.insertRevision row) db { db with revisions := db.revisions.upsert row f keeps }
  | materialize (row : InstanceRow) (db : Db) (free : db.instances.find (row.workspaceId,row.id) = none)
      (unique : ∀ other ∈ db.instances, other.instanceKey ≠ row.instanceKey ∧ other.resourceName ≠ row.resourceName)
      (published : db.revisions.has row.revisionDigest) :
    Write (.insertInstance row) db { db with instances := db.instances.insert row }
  | receipt (workspace principal k operation : String) (request : Json) (response : Response) (db : Db)
      (free : db.idempotency.find (workspace,principal,k) = none) :
    Write (.recordIdempotency workspace principal k operation request response) db { db with
      idempotency := db.idempotency.insert ⟨workspace,principal,k,operation,digestJson (.json request),response⟩ }
  | candidateReceipt (statement : Statement) (workspace principal k : String) (request : Json) (candidate : CandidateBuild)
      (db : Db) (builds : Table CandidateRow) (free : db.idempotency.find (workspace,principal,k) = none)
      (kept : ∀ row ∈ db.candidateBuilds, builds.has (key row))
      (built : statement.writesBuilds = false → builds = db.candidateBuilds) :
    Write statement db { db with
      candidateBuilds := builds
      idempotency := db.idempotency.insert ⟨workspace,principal,k,"candidate.build",digestJson (.json request),
        .candidate candidate⟩ }
  | removeCandidate (workspace id : String) (db : Db) (unused : candidateUsers workspace id db = []) :
    Write (.removeCandidateBuild workspace id) db { db with
      idempotency := db.idempotency.delete fun row => row.workspaceId = workspace ∧ row.operation = "candidate.build" ∧
        row.response.toJson.get "id" = some (.str id)
      candidateBuilds := db.candidateBuilds.delete fun row => row.workspaceId = workspace ∧ row.id = id }
  | openRun (run : Experiment) (db : Db) (free : db.experiments.find (run.workspaceId,run.id) = none)
      (held : db.instances.has (run.workspaceId,run.instanceId)) :
    Write (.insertExperiment run) db { db with experiments := db.experiments.insert run }
  /-- The automatic run of a principal is chosen, and opened unless it is there. -/
  | automaticRun (workspace principal instanceId id : String) (now : Int) (db : Db) (cell : InstanceRow) (ordinal : Nat)
      (member : cell ∈ db.instances) (home : cell.workspaceId = workspace) (named : cell.id = instanceId)
      (open_ : ∀ handle ∈ db.cellHandles, handle.workspaceId = workspace → handle.instanceId = instanceId →
        handle.phase = .opened)
      (opened : (updateState workspace instanceId db).closing = false)
      (next : nextRun workspace cell.instanceKey principal db = .ok (ordinal,id)) :
    Write (.ensureImplicitRun workspace principal instanceId id now) db { db with
      experiments := db.experiments.insert ⟨id,workspace,instanceId,principal,.active,now,none⟩
      automaticRuns := db.automaticRuns.upsert ⟨workspace,cell.instanceKey,principal,ordinal,id⟩
        (fun old => { old with ordinal := ordinal, id := id }) (fun _ => rfl) }
  | closeRun (workspace id : String) (now : Int) (db : Db) (run : Experiment) (cell : InstanceRow) (revision : RevisionRow)
      (idle : ∀ action ∈ db.actions, action.workspaceId = workspace → action.experimentId = id →
        action.phase.active = false)
      (present : run ∈ db.experiments) (there : run.workspaceId = workspace) (same : run.id = id)
      (member : cell ∈ db.instances) (home : cell.workspaceId = workspace) (named : cell.id = run.instanceId)
      (published : revision ∈ db.revisions) (digest : revision.digest = cell.revisionDigest)
      (publisher : revision.workspaceId = workspace) :
    Write (.closeExperiment workspace id now) db { db with
      runSeals := db.runSeals.insert ⟨workspace,id,⟨(updateState workspace run.instanceId db).generation,
        run.instanceId,workspace,cell.revisionDigest,cell.lockDigest,cell.instanceKey,cell.resourceName⟩,
        revision.revision⟩
      experiments := db.experiments.update (fun row => row.workspaceId = workspace ∧ row.id = id)
        (fun row => { row with phase := .closed, closedAtUnix := row.closedAtUnix.or (some now) }) (fun _ => rfl) }
  | openSession (workspace principal experiment instanceId requested context id : String) (now : Int) (session : Session)
      (db : Db) (home : session.workspaceId = workspace) (own : session.principalId = principal)
      (run : session.experimentId = experiment) (there : session.instanceId = instanceId)
      (free : db.sessions.find (workspace,session.id) = none) (present : db.experiments.has (workspace,experiment))
      (held : db.instances.has (workspace,instanceId)) :
    Write (.trackSession workspace principal experiment instanceId requested context id now) db
      { db with sessions := db.sessions.insert session }
  | finishSessions (statement : Statement) (chosen : Session → Prop) [DecidablePred chosen] (now : Int) (db : Db) :
    Write statement db { db with
      sessions := db.sessions.update chosen
        (fun row => { row with phase := .finished, finishedAtUnix := row.finishedAtUnix.or (some now) }) (fun _ => rfl) }
  | capture (workspace principal requestDigest : String) (evidence : WorkspaceEvidence) (db : Db) (run : Experiment)
      (cell : InstanceRow) (present : run ∈ db.experiments) (there : run.workspaceId = workspace)
      (same : run.id = evidence.content.runId) (active : run.phase = .active) (member : cell ∈ db.instances)
      (home : cell.workspaceId = workspace) (named : cell.id = run.instanceId)
      (instance_ : run.instanceId = evidence.content.instanceId)
      (incarnation : cell.instanceKey = evidence.content.instanceKey)
      (digest : cell.revisionDigest = evidence.content.revisionDigest) :
    Write (.recordCapture workspace principal requestDigest evidence) db { db with
      workspaceEvidence := db.workspaceEvidence.insert
        ⟨workspace,evidence.content.captureId,evidence.content.runId,principal,requestDigest,evidence⟩ }
  /-- An operation that is there gets one more receipt. -/
  | repeatOperation (a : Admission) (operation : CellOperation) (db : Db)
      (free : db.idempotency.find (a.workspace,a.principal,a.key) = none)
      (read : operationFrom a.workspace a.operationId db = .ok operation) (repeats : a.Repeats operation) :
    Write (.createOperation a) db { db with
      idempotency := db.idempotency.insert ⟨a.workspace,a.principal,a.key,"cell.operation.create",
        digestJson (.json a.envelope),.operation operation⟩ }
  | newAction (a : Admission) (operation : CellOperation) (cell : InstanceRow) (db after : Db)
      (admitted : Admitted a operation cell db after) : Write (.createOperation a) db after
  | result (workspace operationId session : String) (phase : OperationPhase) (artifact : OperationArtifact)
      (completedAt : Int) (db : Db) :
    Write (.recordOperationResult workspace operationId session phase artifact completedAt) db
      { touchSession workspace session completedAt db with
        actions := db.actions.update
          (fun row => row.workspaceId = workspace ∧ row.id = operationId ∧ row.phase.active = true)
          (fun row => { row with phase := phase, artifact := some artifact, completedAt := some completedAt })
          (fun _ => rfl) }
  | start (workspace operationId : String) (phase : OperationPhase) (now : Int) (db : Db) :
    Write (.updateOperationPhase workspace operationId phase now) db { db with
      actions := db.actions.update (fun row => row.workspaceId = workspace ∧ row.id = operationId ∧ row.phase = .pending)
        (fun row => { row with phase := phase, startedAt := row.startedAt.or (some now) }) (fun _ => rfl) }
  /-- A receipt for an update plan without effect. -/
  | acknowledge (workspace principal k : String) (plan : CellUpdatePlan) (revision : PublishedRevision) (now : Int)
      (cell : InstanceRow) (db after : Db) (acknowledged : Acknowledged workspace principal k plan cell db after) :
    Write (.acceptUpdate workspace principal k plan revision now) db after
  | accept (workspace principal k : String) (plan : CellUpdatePlan) (revision : PublishedRevision) (now : Int)
      (cell : InstanceRow) (db after : Db) (accepted : Accepted workspace principal k plan revision now cell db after) :
    Write (.acceptUpdate workspace principal k plan revision now) db after
  | apply (workspace id : String) (generation : Nat) (converged : Option String) (db : Db)
      (current : (updateState workspace id db).generation = generation) :
    Write (.markUpdateApplied workspace id generation converged) db (withApplied workspace id generation converged db)
  | beginClose (workspace id : String) (db : Db) :
    Write (.beginInstanceClose workspace id) db (withClosing workspace id db)
  | reserve (statement : Statement) (row : CellHandleRow) (db : Db) (admissions : Table AdmissionRow)
      (reserved : Reserved row db) (drawn : Reserves statement row db admissions) :
    Write statement db { writeHandle row db with previewAdmissions := admissions }
  | setPhase (workspace principal : String) (handle : CellHandle) (phase : CellHandlePhase) (row : CellHandleRow) (db : Db)
      (member : row ∈ db.cellHandles) (home : row.workspaceId = workspace) (named : row.name = handle.name)
      (owner : row.owner = principal) (generation : row.generation = handle.generation) (open_ : row.phase ≠ .closed) :
    Write (.setCellPhase workspace principal handle phase) db { db with
      cellHandles := db.cellHandles.update (fun row => row.workspaceId = workspace ∧ row.name = handle.name)
        (fun row => { row with phase := phase }) (fun _ => rfl) }
  | purgeHandle (workspace id : String) (db : Db) (drafts : Table Draft)
      (absent : ¬ db.instances.has (workspace,id)) :
    Write (.purgeUnmaterializedHandle workspace id) db { db with
      cellHandles := db.cellHandles.delete fun row => row.workspaceId = workspace ∧ row.instanceId = id
      idempotency := db.idempotency.delete fun row => row.workspaceId = workspace ∧
        (row.response.toJson.get "id" = some (.str (draftId id)) ∨
          ∃ digest ∈ (db.revisions.rows.filter fun (row : RevisionRow) => row.workspaceId = workspace ∧
            row.draftId = draftId id).map RevisionRow.digest,
            row.response.toJson.get "digest" = some (.str digest))
      revisions := db.revisions.delete fun row => row.workspaceId = workspace ∧ row.draftId = draftId id ∧
        ∀ cell ∈ db.instances.rows, cell.revisionDigest ≠ row.digest
      drafts := drafts }
  | purge (cell : CellInstance) (db : Db)
      (current : ∃ row ∈ db.instances, row.workspaceId = cell.workspaceId ∧ row.id = cell.id ∧
        row.instanceKey = cell.instanceKey) (apart : ¬ Entangled cell db) :
    Write (.purgeCell cell) db (purged cell db)

variable {statement : Statement} {db after : Db} {principal : String} {candidate stored : CandidateBuild} {u : Unit}

/-- Tables that neither the builds nor the bound requests are among. -/
theorem Write.aside {workspaces : Table Workspace} {principals : Table Principal} {grants : Table GrantRow}
    {drafts : Table Draft} {access : Table PrivateAccessRow} {plans : Table UpdatePlanRow} {previews : Table PreviewRow}
    {bindings : Table RuntimeBindingRow} {uses : Table PlanUseRow} {presets : Table ActorPresetRow}
    (granted : statement.writesAccess = false → access = db.privateAccessGrants) :
    Write statement db { db with
      workspaces := workspaces, principals := principals, grants := grants, drafts := drafts
      privateAccessGrants := access, cellUpdatePlans := plans, cellPreviews := previews
      cellRuntimeBindings := bindings, cellPlanUses := uses, localActorPresets := presets } :=
  .elsewhere statement db _ _ _ _ _ _ _ _ _ _ _ _ (fun row member => ⟨row,member,rfl⟩) (fun _ member => member)
    (fun _ => rfl) granted

theorem Write.same (statement : Statement) (db : Db) : Write statement db db := aside fun _ => rfl

/-- Candidate builds are written by the statements on them only. -/
theorem Write.builds (write : Write statement db after)
    (other : statement.writesBuilds = false) : after.candidateBuilds = db.candidateBuilds := by
  cases write with
  | elsewhere _ _ _ _ _ _ _ _ _ _ _ _ _ _ _ _ built => exact built other
  | candidateReceipt _ _ _ _ _ _ _ _ _ _ built => exact built other
  | removeCandidate => cases other
  | newAction _ _ _ _ _ admitted => rw [admitted.result]; rfl
  | acknowledge _ _ _ _ _ _ _ _ _ acknowledged => rw [(recordUpdateReceipt_ok.mp acknowledged.result).2]
  | accept _ _ _ _ _ _ _ _ _ accepted => rw [accepted.after_eq]; rfl
  | _ => rfl

/-- Private grants are written by the statements on them and by the purge of their cell only. -/
theorem Write.access (write : Write statement db after)
    (other : statement.writesAccess = false) : after.privateAccessGrants = db.privateAccessGrants := by
  cases write with
  | elsewhere _ _ _ _ _ _ _ _ _ _ _ _ _ _ _ _ _ granted => exact granted other
  | purge => cases other
  | newAction _ _ _ _ _ admitted => rw [admitted.result]; rfl
  | acknowledge _ _ _ _ _ _ _ _ _ acknowledged => rw [(recordUpdateReceipt_ok.mp acknowledged.result).2]
  | accept _ _ _ _ _ _ _ _ _ accepted => rw [accepted.after_eq]; rfl
  | _ => rfl

omit [CoreFunctions] in
/-- A table of candidates keeps its rows where one is inserted. -/
private theorem kept_insert {builds : Table CandidateRow} (fresh : CandidateRow) :
    ∀ row ∈ builds, (builds.insert fresh).has (key row) :=
  fun row member => ⟨row,Table.mem_insert_of_mem member,rfl⟩

/-! ### Every execution is a write -/

private theorem createCandidate_write {workspace k : String}
    (created : createCandidateBuildTx workspace principal candidate k db = .ok (stored,after)) :
    Write (.createCandidateBuild workspace principal candidate k) db after := by
  rw [createCandidateBuildTx] at created
  cases known : db.candidateBuilds.find (workspace,candidate.id) with
  | some existing =>
    simp only [known,bind_ok,pure_ok,Prod.mk.injEq] at created
    obtain ⟨_,_,_,_,_,bound,_,rfl⟩ := created
    rcases bindCandidateRequest_ok bound with rfl | ⟨free,rfl⟩
    · exact .same _ _
    · exact .candidateReceipt _ _ _ _ _ _ db db.candidateBuilds free (fun row member => ⟨row,member,rfl⟩) fun _ => rfl
  | none =>
    simp only [known,bind_ok,pure_ok,Prod.mk.injEq] at created
    obtain ⟨_,_,_,_,_,bound,_,rfl⟩ := created
    rcases bindCandidateRequest_ok bound with rfl | ⟨free,rfl⟩
    · exact .elsewhere _ db _ _ _ _ _ _ _ _ _ _ _ _ (kept_insert _) (fun _ member => member) nofun fun _ => rfl
    · exact .candidateReceipt _ _ _ _ _ _ db _ free (kept_insert _) nofun

private theorem recordCandidate_write {workspace k inputDigest : String}
    (recorded : recordCandidateRequestTx workspace principal k inputDigest candidate db = .ok (u,after)) :
    Write (.recordCandidateRequest workspace principal k inputDigest candidate) db after := by
  simp only [recordCandidateRequestTx,bind_ok,pure_ok,Prod.mk.injEq] at recorded
  obtain ⟨_,bound,_,rfl⟩ := recorded
  rcases bindCandidateRequest_ok bound with rfl | ⟨free,rfl⟩
  · exact .same _ _
  · exact .candidateReceipt _ _ _ _ _ _ db db.candidateBuilds free (fun row member => ⟨row,member,rfl⟩) fun _ => rfl

private theorem removeCandidate_write {workspace id : String}
    (removed : removeCandidateBuildTx workspace id db = .ok (stored,after)) :
    Write (.removeCandidateBuild workspace id) db after := by
  simp only [removeCandidateBuildTx,bind_ok,pure_ok,Prod.mk.injEq] at removed
  obtain ⟨_,_,_,_,_,terminal,_,rfl⟩ := removed
  exact .removeCandidate workspace id db (ensure_ok.mp terminal).2

private theorem ensureImplicitRun_write {workspace instanceId id : String} {now : Int}
    (opened : ensureImplicitRunTx workspace principal instanceId id now db = .ok (u,after)) :
    Write (.ensureImplicitRun workspace principal instanceId id now) db after := by
  obtain ⟨cell,member,home,named,open_,latch,ordinal,middle,count,next,inserted,rfl⟩ := ensureImplicitRunTx_ok opened
  have write := Write.automaticRun workspace principal instanceId id now db cell ordinal member home named open_ latch next
  rcases insertRun_ok inserted with ⟨rfl,_,taken⟩ | ⟨_,_,_,_,rfl⟩
  · rw [Table.insert_of_taken taken] at write
    exact write
  · exact write

private theorem createOperation_write {a : Admission} {operation : CellOperation}
    (created : createOperationTx a db = .ok (operation,after)) : Write (.createOperation a) db after := by
  rcases createOperationTx_ok created with ⟨rfl,_⟩ | ⟨free,read,repeats,rfl⟩ | ⟨cell,admitted⟩
  · exact .same _ _
  · exact .repeatOperation a operation db free read repeats
  · exact .newAction a operation cell db after admitted

private theorem acceptUpdate_write {workspace k : String} {plan : CellUpdatePlan} {revision : PublishedRevision}
    {now : Int} (ran : acceptUpdateTx workspace principal k plan revision now db = .ok (u,after)) :
    Write (.acceptUpdate workspace principal k plan revision now) db after := by
  obtain ⟨cell,_,_,_,_,⟨rfl,_⟩ | acknowledged | accepted⟩ := acceptUpdateTx_ok ran
  · exact .same _ _
  · exact .acknowledge workspace principal k plan revision now cell db after acknowledged
  · exact .accept workspace principal k plan revision now cell db after accepted

/-- The statements that write tables of the case `elsewhere` only. -/
private theorem elsewhere_write {answer : statement.Answer}
    (executed : execute statement db = .ok (answer,after))
    (plain : match statement with
      | .putWorkspace .. | .putPrincipal .. | .grant .. | .revoke .. | .replaceGrants .. | .initializeActorOnce ..
      | .insertDraft .. | .insertClone .. | .editDraft .. | .insertPrivateAccess .. | .updatePrivateAccess ..
      | .updateCandidate .. | .insertUpdatePlan .. | .insertPreview .. | .insertSubmission .. | .bindRuntime ..
      | .insertPlanUse .. => True
      | _ => False) : Write statement db after := by
  cases statement with
  | insertSubmission =>
    cases executed
    exact .elsewhere _ db _ _ _ _ _ _ _ _ _ _ _ _ (fun row member => ⟨row,member,rfl⟩) (fun _ => Table.mem_insert_of_mem)
      (fun _ => rfl) fun _ => rfl
  | putWorkspace | putPrincipal | revoke | insertUpdatePlan | insertPreview | insertPlanUse =>
    cases executed
    exact .aside fun _ => rfl
  | grant =>
    obtain ⟨_,rfl⟩ := grantStatement_ok executed
    exact .aside fun _ => rfl
  | replaceGrants =>
    obtain ⟨_,rfl⟩ := replaceGrantsTx_ok executed
    exact .aside fun _ => rfl
  | initializeActorOnce =>
    obtain ⟨_,_,_,rfl⟩ := initializeActorOnceTx_ok executed
    exact .aside fun _ => rfl
  | insertDraft =>
    obtain ⟨_,rfl⟩ := insertDraft_ok executed
    exact .aside fun _ => rfl
  | insertClone =>
    obtain ⟨_,rfl⟩ := insertClone_ok executed
    exact .aside fun _ => rfl
  | editDraft =>
    obtain ⟨_,rfl⟩ := editDraftStatement_ok executed
    exact .aside fun _ => rfl
  | insertPrivateAccess =>
    obtain ⟨_,rfl⟩ := insertPrivateAccess_ok executed
    exact .aside nofun
  | updatePrivateAccess =>
    cases executed
    exact .aside nofun
  | updateCandidate =>
    obtain ⟨_,kept,rfl⟩ := updateCandidateStatement_ok executed
    exact .elsewhere _ db _ _ _ _ _ _ _ _ _ _ _ _ kept (fun _ member => member) nofun fun _ => rfl
  | bindRuntime cell binding =>
    obtain ⟨_,rfl⟩ := bindRuntimeTx_ok executed
    exact .aside fun _ => rfl
  | _ => exact plain.elim

/-- Whatever the engine executes is a write. -/
theorem execute_write {answer : statement.Answer}
    (executed : execute statement db = .ok (answer,after)) : Write statement db after := by
  cases statement with
  | insertRevision row =>
    obtain ⟨f,keeps,contents,rfl⟩ := insertRevision_ok executed
    exact .publish row db f keeps contents
  | insertInstance row =>
    rcases insertInstance_ok executed with ⟨_,rfl⟩ | ⟨free,unique,_,published,_,rfl⟩
    · exact .same _ _
    · exact .materialize row db free unique published
  | recordIdempotency workspace principal k operation request response =>
    obtain ⟨free,rfl⟩ := recordIdempotencyStatement_ok executed
    exact .receipt workspace principal k operation request response db free
  | createCandidateBuild => exact createCandidate_write executed
  | recordCandidateRequest => exact recordCandidate_write executed
  | removeCandidateBuild => exact removeCandidate_write executed
  | insertExperiment run =>
    rcases insertRun_ok executed with ⟨rfl,_⟩ | ⟨_,free,held,_,rfl⟩
    · exact .same _ _
    · exact .openRun run db free held
  | ensureImplicitRun => exact ensureImplicitRun_write executed
  | closeExperiment workspace id now =>
    obtain ⟨idle,run,present,there,same,cell,member,home,named,revision,published,digest,publisher,rfl⟩ :=
      closeExperimentTx_ok executed
    exact .closeRun workspace id now db run cell revision idle present there same member home named published digest
      publisher
  | trackSession workspace principal experiment instanceId requested context id now =>
    obtain ⟨_,home,own,run,_,rfl | ⟨free,there,present,held,_,rfl⟩⟩ := trackSessionTx_ok executed
    · exact .same _ _
    · exact .openSession workspace principal experiment instanceId requested context id now answer db home own run there
        free present held
  | finishSession =>
    cases executed
    exact .finishSessions _ _ _ db
  | finishCellSessions =>
    cases executed
    exact .finishSessions _ _ _ db
  | recordCapture workspace principal requestDigest evidence =>
    rcases recordCaptureTx_ok executed with
      rfl | ⟨run,present,there,same,active,cell,member,home,named,instance_,incarnation,digest,rfl⟩
    · exact .same _ _
    · exact .capture workspace principal requestDigest evidence db run cell present there same active member home named
        instance_ incarnation digest
  | createOperation a => exact createOperation_write executed
  | recordOperationResult workspace operationId session phase artifact completedAt =>
    rcases recordOperationResultTx_ok executed with ⟨_,rfl⟩ | ⟨_,rfl⟩
    · exact .same _ _
    · exact .result workspace operationId session phase artifact completedAt db
  | updateOperationPhase workspace operationId phase now =>
    cases executed
    exact .start workspace operationId phase now db
  | acceptUpdate => exact acceptUpdate_write executed
  | markUpdateApplied workspace id generation converged =>
    rcases markUpdateAppliedTx_ok executed with rfl | ⟨current,rfl⟩
    · exact .same _ _
    · exact .apply workspace id generation converged db current
  | beginInstanceClose workspace id =>
    cases executed
    exact .beginClose workspace id db
  | reserveCell workspace principal name configDigest nonce =>
    rcases reserveCellTx_ok executed with ⟨rfl,_⟩ | ⟨row,home,named,owner,drawn,reserved,rfl,_⟩
    · exact .same _ _
    · exact .reserve _ row db db.previewAdmissions reserved ⟨home,named,owner,drawn,rfl⟩
  | setCellPhase workspace principal handle phase =>
    obtain ⟨row,member,home,named,owner,generation,⟨_,rfl⟩ | ⟨open_,rfl⟩⟩ := setCellPhaseTx_ok.mp executed
    · exact .same _ _
    · exact .setPhase workspace principal handle phase row db member home named owner generation open_
  | reservePreview workspace principal preview nonce =>
    rcases reservePreviewTx_ok executed with ⟨rfl,_⟩ | ⟨row,home,named,owner,_,drawn,reserved,new,rfl,_⟩
    · exact .same _ _
    · exact .reserve _ row db _ reserved ⟨home,named,owner,drawn,new,rfl⟩
  | purgeUnmaterializedHandle workspace id =>
    obtain ⟨absent,rfl | rfl⟩ := purgeUnmaterializedHandleTx_ok executed
    · exact .same _ _
    · exact .purgeHandle workspace id db _ absent
  | purgeCell cell =>
    obtain ⟨current,apart,rfl⟩ := purgeCellTx_ok.mp executed
    exact .purge cell db current apart
  | _ => exact elsewhere_write executed trivial
end

end Proofstorm.Store
