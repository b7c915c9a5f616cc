import Proofstorm.Store.Writes

/-!
The calls of `Store` on workspaces, drafts, revisions, cells and their updates,
each with its reads and statements in the order of the source. What a call draws
at random and the clock it reads are arguments: times are not assumed to advance
and nonces not to differ.
-/
namespace Proofstorm.Store
open Proofstorm.Core
open Proofstorm.Interleaving (Fallible query submit settle attempt)

/-- A call on the store: reads and statements that may be interleaved with those of others. -/
abbrev Program := Fallible Db Statement StoreError Statement.Answer

/-- One statement, outside of a transaction or a whole one. -/
abbrev exec (statement : Statement) : Program statement.Answer := submit statement

section
variable [CoreFunctions]

/-- A retry is answered from its receipt; a new request is carried out. -/
def retried {α : Type} (workspace principal key operation : String) (request : Json) (again : Response → Program α)
    (fresh : Program α) : Program α := do
  match ← query (idempotentResponse workspace principal key operation request) with
  | some response => again response
  | none => fresh

/-! ### Workspaces and grants -/

def putWorkspace (workspace : Workspace) : Program Unit := exec (.putWorkspace workspace)

def putPrincipal (principal : String) : Program Unit := exec (.putPrincipal principal)

def grant (workspace principal : String) (capability : Capability) : Program Unit :=
  exec (.grant workspace principal capability)

def revoke (workspace principal : String) (capability : Capability) : Program Unit :=
  exec (.revoke workspace principal capability)

def replaceGrants (workspace principal : String) (capabilities : List Capability) : Program Unit :=
  exec (.replaceGrants workspace principal capabilities)

def initializeActorOnce (workspace principal identity preset : String) (capabilities : List Capability) : Program Bool :=
  exec (.initializeActorOnce workspace principal identity preset capabilities)

/-! ### Drafts and revisions -/

def createDraft (workspace principal id : String) (cell : CellSpec) (key : String) : Program Draft := do
  query (authorize workspace principal .cellCreate)
  let request := .object [("id",.str id),("cell",CoreFunctions.cellJson cell)]
  retried workspace principal key "cell.create" request (fun response => settle response.asDraft) do
    let draft : Draft := ⟨id,workspace,1,cell⟩
    let inserted : Nat ← exec (.insertDraft draft)
    settle (ensure (inserted ≠ 0) (.conflict "draft" id))
    exec (.recordIdempotency workspace principal key "cell.create" request (.draft draft))
    pure draft

def editDraft (workspace principal id : String) (expectedVersion : Nat) (cell : CellSpec) (key : String) :
    Program Draft := do
  query (authorize workspace principal .cellEdit)
  let request := .object [("id",.str id),("expectedVersion",.num (toString expectedVersion)),
    ("cell",CoreFunctions.cellJson cell)]
  retried workspace principal key "cell.edit" request (fun response => settle response.asDraft) do
    let changed : Nat ← exec (.editDraft workspace id expectedVersion cell)
    let draft ← query (readDraftUnchecked workspace id)
    settle (ensure (changed ≠ 0) (.staleDraft id expectedVersion draft.version))
    exec (.recordIdempotency workspace principal key "cell.edit" request (.draft draft))
    pure draft

def cloneDraft (workspace principal source target key : String) : Program Draft := do
  query (authorize workspace principal .cellClone)
  let request := .object [("source",.str source),("target",.str target)]
  retried workspace principal key "cell.clone" request (fun response => settle response.asDraft) do
    let source ← query (readDraftUnchecked workspace source)
    let draft : Draft := ⟨target,workspace,1,source.cell⟩
    exec (.insertClone draft)
    exec (.recordIdempotency workspace principal key "cell.clone" request (.draft draft))
    pure draft

/-- `effective_catalog_unchecked`: the built-in releases with the workspace's
    successful candidates, whose diagnostics are not read. -/
def effectiveCatalogUnchecked (workspace : String) (db : Db) : Except StoreError Catalog := do
  let succeeded := db.candidateBuilds.rows.filter fun row => row.workspaceId = workspace ∧ row.build.phase = .succeeded
  let sorted := succeeded.insertionSort fun a b => a.id ≤ b.id
  let candidates ← sorted.mapM fun row => decodeCandidateBuild { row.build with diagnostics := none }
  (CoreFunctions.effectiveCatalog candidates).mapError .catalog

def publish (workspace principal draftId : String) (expectedVersion : Nat) (key : String) : Program PublishedRevision := do
  query (authorize workspace principal .cellPublish)
  let request := .object [("draftId",.str draftId),("expectedVersion",.num (toString expectedVersion))]
  retried workspace principal key "cell.publish" request (fun response => settle response.asRevision) do
    let draft ← query (readDraftUnchecked workspace draftId)
    settle (ensure (draft.version = expectedVersion) (.staleDraft draftId expectedVersion draft.version))
    settle (match CoreFunctions.validateCell draft.cell with
      | some issues => .error (.validation issues)
      | none => .ok ())
    let catalog ← query (effectiveCatalogUnchecked workspace)
    let cell ← settle ((CoreFunctions.resolveEffectiveCell draft.cell catalog).mapError .catalog)
    let lock ← settle ((CoreFunctions.resolveLock cell catalog).mapError .catalog)
    let revision : PublishedRevision := ⟨workspace,publicationDigest workspace cell lock,cell,lock⟩
    exec (.insertRevision ⟨revision.digest,workspace,draftId,draft.version,revision⟩)
    exec (.recordIdempotency workspace principal key "cell.publish" request (.revision revision))
    pure revision

/-! ### Instances -/

def recordPlanUse (cell : CellInstance) (plan : Option String) : Program Unit := do
  query (requireIncarnation cell)
  let plan ← match plan with
    | some plan => pure plan
    | none => query fun db => (require (db.revisions.find cell.revisionDigest) noRows).map RevisionRow.draftId
  exec (.insertPlanUse cell plan)

/-- Whether the revision still has the draft it was published from. -/
def hasPlan (workspace digest : String) (db : Db) : Prop :=
  ∃ row ∈ db.revisions.rows, row.workspaceId = workspace ∧ row.digest = digest ∧
    db.drafts.has (row.workspaceId,row.draftId)

instance (workspace digest : String) (db : Db) : Decidable (hasPlan workspace digest db) := by
  unfold hasPlan
  infer_instance

/-- The cell of a revision with the versions of its lock. -/
def lockedCell (revision : PublishedRevision) : Except StoreError CellSpec := do
  let components ← revision.cell.components.mapM fun component => do
    let entry ← require (revision.lock.entries.find? fun entry => entry.componentId == component.id)
      (.catalog "component lock missing")
    pure { component with version := some entry.version }
  pure { revision.cell with components := components }

/-- The new instance of `materialize`. -/
def newInstance (workspace id : String) (revision : PublishedRevision) (revisionDigest nonce : String) : CellInstance :=
  let instanceKey := "i" ++ slice (digestJson (.nonce workspace id nonce)) 7 26
  { generation := 1
    id := id
    workspaceId := workspace
    revisionDigest := revisionDigest
    lockDigest := revision.lock.digest
    instanceKey := instanceKey
    resourceName := "cell-" ++ instanceKey }

def instanceRow (cell : CellInstance) : InstanceRow :=
  ⟨cell.workspaceId,cell.id,cell.revisionDigest,cell.lockDigest,cell.instanceKey,cell.resourceName⟩

/-- The part of `materialize` that creates the instance. -/
def createInstance (workspace principal id revisionDigest key nonce : String) (request : Json) : Program CellInstance := do
  let revision ← query (revisionUnchecked workspace revisionDigest)
  -- Deleted cells consume their plans; a stale request must not resurrect one through a shared revision.
  query fun db => ensure (hasPlan workspace revisionDigest db)
    (.notFound "creation plan; create a fresh plan" revisionDigest)
  let catalog ← query (effectiveCatalogUnchecked workspace)
  let locked ← settle (lockedCell revision)
  settle ((CoreFunctions.validateNewCellVersions locked catalog).mapError .catalog)
  let cell := newInstance workspace id revision revisionDigest nonce
  let inserted : Nat ← exec (.insertInstance (instanceRow cell))
  if inserted = 0 then
    let existing ← query (instanceUnchecked workspace id)
    settle (ensure (existing = cell) (.conflict "instance" id))
  recordPlanUse cell none
  exec (.recordIdempotency workspace principal key "cell.materialize" request (.instance cell))
  pure cell

def materialize (workspace principal id revisionDigest key nonce : String) : Program CellInstance := do
  query (authorize workspace principal .cellMaterialize)
  settle (ensure (isSlug id)
    (.validation "instance id must be a lowercase kebab-case identifier of 1..=63 bytes"))
  query fun db => ensure ((updateState workspace id db).closing = false) (updateError "cell_closing"
    "Closed cell cannot be recreated by replaying materialize; start a new cell incarnation")
  let request := .object [("instanceId",.str id),("revisionDigest",.str revisionDigest)]
  retried workspace principal key "cell.materialize" request
    (fun response => do
      let _ ← settle response.asInstance
      query (instanceUnchecked workspace id)) do
    match ← attempt (query (instanceUnchecked workspace id)) with
    | .ok existing => do
      settle (ensure (existing.revisionDigest = revisionDigest) (.conflict "instance" id))
      pure existing
    | .error _ => createInstance workspace principal id revisionDigest key nonce request

def bindRuntime (cell : CellInstance) (binding : RuntimeBinding) : Program Unit := exec (.bindRuntime cell binding)

def purgeUnmaterializedHandle (workspace id : String) : Program Unit := exec (.purgeUnmaterializedHandle workspace id)

def purgeCell (cell : CellInstance) : Program Unit := exec (.purgeCell cell)

/-! ### Updates -/

/-- The check that `plan_update` makes of each component it deletes or adds. -/
def checkRetained (workspace id : String) (plan : CellUpdatePlan) (revision : PublishedRevision) : Program Unit := do
  plan.target.deleteRetained.forM fun c =>
    query fun db => ensure (db.retainedComponents.has (workspace,id,c) ∧ c ∉ revision.cell.ids)
      (updateError "retained_component_conflict"
        "explicit retained deletion must identify removed data, never a current component")
  plan.changes.added.forM fun c =>
    query fun db => ensure (¬ db.retainedComponents.has (workspace,id,c))
      (updateError "retained_component_conflict"
        "component ID has retained state; use another ID or explicitly delete its retained data first")

def planUpdate (workspace principal : String) (target : CellUpdateTarget) (revision : PublishedRevision) :
    Program CellUpdatePlan := do
  query (authorize workspace principal .cellEdit)
  let cell ← query (instanceUnchecked workspace target.instanceId)
  let old ← query (revisionUnchecked workspace cell.revisionDigest)
  let current ← query fun db => .ok (updateState workspace target.instanceId db)
  settle (ensure (current.closing = false) (updateError "cell_closing" "closing cells cannot be edited"))
  settle (ensure (current.generation = target.expectedGeneration) (updateError "cell_update_conflict"
    "desired generation changed; read current configuration and replan"))
  let plan ← settle ((CellUpdatePlan.new target old revision).mapError .validation)
  let plan := plan.bindInstance cell.instanceKey
  checkRetained workspace plan.target.instanceId plan revision
  pure plan

def saveUpdatePlan (workspace principal id : String) (plan : CellUpdatePlan) : Program Unit := do
  query (authorize workspace principal .cellEdit)
  exec (.insertUpdatePlan workspace id plan)
  let old ← query fun db => (require (db.cellUpdatePlans.find (workspace,id)) noRows).map UpdatePlanRow.plan
  settle (ensure (old = plan) (updateError "cell_plan_id_conflict" "use a new plan ID for a changed update"))

def acceptUpdate (workspace principal : String) (plan : CellUpdatePlan) (key : String) (now : Int) :
    Program CellInstance := do
  query (authorize workspace principal .cellEdit)
  query (authorize workspace principal .cellMaterialize)
  settle (ensure (plan.changes.unsupported = [])
    (updateError "cell_update_unsupported" ("; ".intercalate plan.changes.unsupported)))
  let revision ← query (revisionUnchecked workspace plan.targetRevision)
  let old ← query (revisionUnchecked workspace plan.baseRevision)
  let verified ← settle ((CellUpdatePlan.new plan.target old revision).mapError .validation)
  settle (ensure (verified.bindInstance plan.instanceKey = plan)
    (updateError "cell_plan_digest_mismatch" "update plan does not match its immutable revisions"))
  exec (.acceptUpdate workspace principal key plan revision now)
  -- A retry returns the latest desired identity; it must never reapply an old revision.
  query (instanceUnchecked workspace plan.target.instanceId)

def markUpdateApplied (workspace id : String) (generation : Nat) (converged : Option String) : Program Unit :=
  exec (.markUpdateApplied workspace id generation converged)

/-- `instance`. -/
def readInstance (workspace principal id : String) : Program CellInstance := do
  query (authorize workspace principal .cellStatus)
  query (instanceUnchecked workspace id)

/-- `update_state`. -/
def readUpdateState (workspace principal id : String) : Program CellUpdateState := do
  query (authorize workspace principal .cellStatus)
  query fun db => .ok (updateState workspace id db)

def revisionForMaterialize (workspace principal digest : String) : Program PublishedRevision := do
  query (authorize workspace principal .cellMaterialize)
  query (revisionUnchecked workspace digest)

/-- The ids that the updates above the applied generation list for deletion, each once. -/
def deletedAbove (workspace id : String) (applied : Nat) (db : Db) : List String :=
  sortDedup ((pendingPlans workspace id applied db).flatMap fun plan => plan.changes.deletedData)

def pendingDeletedData (workspace principal id : String) : Program (List String) := do
  query (authorize workspace principal .cellStatus)
  query fun db => do
    let applied ← sqlVersion (updateState workspace id db).appliedGeneration
    pure (deletedAbove workspace id applied db)

def beginInstanceClose (workspace principal id : String) : Program Unit := do
  query (authorize workspace principal .cellClose)
  exec (.beginInstanceClose workspace id)

/-! ### Names and previews -/

def reserveCell (workspace principal name configDigest nonce : String) : Program CellHandle := do
  query (authorize workspace principal .cellCreate)
  settle (ensure (isSlug name) (.validation "cell name must be a lowercase kebab-case identifier of 1..=63 bytes"))
  exec (.reserveCell workspace principal name configDigest nonce)

def setCellPhase (workspace principal : String) (handle : CellHandle) (phase : CellHandlePhase) : Program Unit := do
  query (authorize workspace principal .cellClose)
  settle (ensure (phase ≠ .opened) (.validation "only up can create an open generation"))
  exec (.setCellPhase workspace principal handle phase)

def cellPreview (workspace principal id : String) : Program (Option CellPreview) := do
  query (authorize workspace principal .cellRead)
  query fun db => .ok ((db.cellPreviews.find (workspace,principal,id)).map PreviewRow.preview)

def saveCellPreview (workspace principal : String) (preview : CellPreview) : Program Unit := do
  query (authorize workspace principal .cellCreate)
  exec (.insertPreview workspace principal preview)
  let stored ← query fun db => (require (db.cellPreviews.find (workspace,principal,preview.id)) noRows).map
    PreviewRow.preview
  settle (ensure (stored = preview) (.idempotencyConflict preview.id))

def bindCellSubmission (workspace principal requestId : String) (preview : CellPreview) : Program Unit := do
  query (authorize workspace principal .cellCreate)
  let digest := digestJson (.preview preview)
  exec (.insertSubmission workspace principal requestId preview.id digest)
  let stored ← query fun db => require (db.cellSubmissionRequests.find (workspace,principal,requestId)) noRows
  settle (ensure (stored.previewId = preview.id ∧ stored.previewDigest = digest) (.idempotencyConflict requestId))

def reservePreview (workspace principal : String) (preview : CellPreview) (nonce : String) : Program CellHandle := do
  query (authorize workspace principal .cellCreate)
  query (authorize workspace principal .cellStatus)
  settle (ensure (isSlug preview.name ∧ preview.update = none)
    (.validation "creation requires a new lowercase kebab-case cell name"))
  let recorded ← cellPreview workspace principal preview.id
  settle (ensure (recorded = some preview) (.validation "preview does not match its immutable record"))
  exec (.reservePreview workspace principal preview nonce)
end

end Proofstorm.Store
