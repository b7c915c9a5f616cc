import Proofstorm.Store.Reads

/-!
The transactions of `lifecycle.rs`: binding a runtime, recording the use of a
plan, and the two purges. `purge_cell` collects the ids of everything that
belongs to an incarnation (`purgeIds`) and deletes by them; `purged` is the
database it leaves.
-/
namespace Proofstorm.Store
open Proofstorm.Core

def stale : StoreError :=
  .cellUpdate "stale_incarnation" "Cell incarnation changed; read the current cell and replan"

def requireIncarnation (cell : CellInstance) (db : Db) : Except StoreError PUnit :=
  ensure ((db.instances.find (cell.workspaceId,cell.id)).map InstanceRow.instanceKey = some cell.instanceKey) stale

structure RuntimeBinding where
  source : String
  clusterUid : String
  resourceUid : Option String
  deriving DecidableEq

/-- `ON CONFLICT DO UPDATE` of `bind_runtime`: a resource is added to a binding that agrees. -/
def bindResource (cell : CellInstance) (binding : RuntimeBinding) (old : RuntimeBindingRow) : RuntimeBindingRow :=
  if old.instanceKey = cell.instanceKey ∧ old.source = binding.source ∧ old.clusterUid = binding.clusterUid ∧
      (old.resourceUid = none ∨ (old.resourceUid.isSome ∧ old.resourceUid = binding.resourceUid)) then
    { old with resourceUid := binding.resourceUid.or old.resourceUid }
  else old

theorem bindResource_key (cell : CellInstance) (binding : RuntimeBinding) (old : RuntimeBindingRow) :
    key (bindResource cell binding old) = key old := by
  rw [bindResource]
  split <;> rfl

/-- The transaction of `bind_runtime`. -/
def bindRuntimeTx (cell : CellInstance) (binding : RuntimeBinding) : Txn Unit := fun db => do
  requireIncarnation cell db
  let bindings := db.cellRuntimeBindings.upsert
    ⟨cell.workspaceId,cell.id,cell.instanceKey,binding.source,binding.clusterUid,binding.resourceUid⟩
    (bindResource cell binding) (bindResource_key cell binding)
  let actual ← require (bindings.find (cell.workspaceId,cell.id)) noRows
  ensure (¬ (actual.source ≠ binding.source ∨ actual.clusterUid ≠ binding.clusterUid ∨
    (binding.resourceUid.isSome ∧ actual.resourceUid ≠ binding.resourceUid))) stale
  pure ((),{ db with cellRuntimeBindings := bindings })

/-- `format!("draft-{id}")`. -/
def draftId (id : String) : String := "draft-" ++ id

/-- The transaction of `purge_unmaterialized_handle`. -/
def purgeUnmaterializedHandleTx [CoreFunctions] (workspace id : String) : Txn Unit := fun db => do
  ensure (¬ db.instances.has (workspace,id)) stale
  if ∃ row ∈ db.cellHandles.rows, row.workspaceId = workspace ∧ row.instanceId = id then
    let draft := draftId id
    let digests := (db.revisions.rows.filter fun row => row.workspaceId = workspace ∧ row.draftId = draft).map
      RevisionRow.digest
    pure ((),{ db with
      cellHandles := db.cellHandles.delete fun row => row.workspaceId = workspace ∧ row.instanceId = id
      idempotency := db.idempotency.delete fun row => row.workspaceId = workspace ∧
        (row.response.toJson.get "id" = some (.str draft) ∨
          ∃ digest ∈ digests, row.response.toJson.get "digest" = some (.str digest))
      revisions := db.revisions.delete fun row => row.workspaceId = workspace ∧ row.draftId = draft ∧
        ∀ cell ∈ db.instances.rows, cell.revisionDigest ≠ row.digest
      drafts := db.drafts.delete fun row => row.workspaceId = workspace ∧ row.id = draft })
  else pure ((),db)

/-- The last statement of `record_plan_use`. -/
def insertPlanUse (cell : CellInstance) (plan : String) : Txn Unit := fun db =>
  .ok ((),{ db with
    cellPlanUses := db.cellPlanUses.insert ⟨cell.workspaceId,cell.id,cell.instanceKey,plan⟩ })

/-! ### Purging a cell -/

section
variable (cell : CellInstance) (db : Db)

/-- The rows of the instance in the tables that name it by its id. -/
def actionsOf : List ActionRow :=
  db.actions.rows.filter fun row => row.workspaceId = cell.workspaceId ∧ row.instanceId = cell.id
def sessionsOf : List Session :=
  db.sessions.rows.filter fun row => row.workspaceId = cell.workspaceId ∧ row.instanceId = cell.id
def runsOf : List Experiment :=
  db.experiments.rows.filter fun row => row.workspaceId = cell.workspaceId ∧ row.instanceId = cell.id
def updatesOf : List UpdateRow :=
  db.cellUpdates.rows.filter fun row => row.workspaceId = cell.workspaceId ∧ row.instanceId = cell.id

/-- The current revision, the revisions recorded for actions, and the base and target of every update. -/
def revisionsOf : List String :=
  (db.instances.rows.filter fun row => row.workspaceId = cell.workspaceId ∧ row.id = cell.id).map
      InstanceRow.revisionDigest ++
    (db.operationRevisions.rows.filter fun row => row.workspaceId = cell.workspaceId ∧
      row.operationId ∈ (actionsOf cell db).map ActionRow.id).map OperationRevisionRow.revisionDigest ++
    (updatesOf cell db).map (fun row => row.plan.baseRevision) ++
    (updatesOf cell db).map (fun row => row.plan.targetRevision)

/-- The plans recorded as used by the incarnation. -/
def usedPlans : List String :=
  (db.cellPlanUses.rows.filter fun row => row.workspaceId = cell.workspaceId ∧ row.instanceKey = cell.instanceKey).map
    PlanUseRow.planId

/-- The plans that the incarnation consumed: those recorded for it, or the
    drafts of its revisions where none is, and the saved updates that target it. -/
def consumedPlans : List String :=
  usedPlans cell db ++
    (if usedPlans cell db = [] then
      (revisionsOf cell db).filterMap fun digest => (revisionIn cell.workspaceId digest db).map RevisionRow.draftId
    else []) ++
    (db.cellUpdatePlans.rows.filter fun row => row.workspaceId = cell.workspaceId ∧
      row.plan.target.instanceId = cell.id).map UpdatePlanRow.planId

/-- The one set of ids by which receipts are deleted. -/
def purgeIds : List String :=
  cell.id :: (runsOf cell db).map Experiment.id ++ (sessionsOf cell db).map Session.id ++
    (actionsOf cell db).map ActionRow.id ++ consumedPlans cell db ++ revisionsOf cell db

/-- A row of another instance still refers to a session or run of this one. -/
def Entangled : Prop :=
  (∃ session ∈ sessionsOf cell db, ∃ action ∈ db.actions.rows, action.workspaceId = cell.workspaceId ∧
      action.sessionId = session.id ∧ action.instanceId ≠ cell.id) ∨
    (∃ run ∈ runsOf cell db, (∃ action ∈ db.actions.rows, action.workspaceId = cell.workspaceId ∧
        action.experimentId = run.id ∧ action.instanceId ≠ cell.id) ∨
      ∃ session ∈ db.sessions.rows, session.workspaceId = cell.workspaceId ∧ session.experimentId = run.id ∧
        session.instanceId ≠ cell.id)

instance : Decidable (Entangled cell db) := by
  unfold Entangled
  infer_instance
end

/-- The revision is still needed: the guard of the last deletions of `purge_cell`. -/
def Referenced (digest : String) (db : Db) : Prop :=
  (∃ row ∈ db.instances.rows, row.revisionDigest = digest) ∨
    (∃ row ∈ db.operationRevisions.rows, row.revisionDigest = digest) ∨
    (∃ row ∈ db.cellUpdatePlans.rows, row.plan.baseRevision = digest ∨ row.plan.targetRevision = digest) ∨
    ∃ row ∈ db.cellUpdates.rows, row.plan.baseRevision = digest ∨ row.plan.targetRevision = digest

instance (digest : String) (db : Db) : Decidable (Referenced digest db) := by
  unfold Referenced
  infer_instance

section
variable [CoreFunctions]

/-- The database without the rows of the incarnation, its revisions apart. -/
def withoutCell (cell : CellInstance) (db : Db) : Db :=
  let ids := purgeIds cell db
  let admitted := (db.previewAdmissions.rows.filter fun row => row.workspaceId = cell.workspaceId ∧
    row.instanceId = cell.id).map AdmissionRow.planId
  let runs := (runsOf cell db).map Experiment.id
  { db with
    idempotency := db.idempotency.delete fun row => row.workspaceId = cell.workspaceId ∧
      referencesIdentity ids row.response.toJson = true
    -- Preview content is cell-owned; retain only compact retry/admission tombstones.
    cellPreviews := db.cellPreviews.delete fun row => row.workspaceId = cell.workspaceId ∧
      (row.id ∈ admitted ∨ row.preview.update.map (fun plan => plan.target.instanceId) = some cell.id)
    automaticRuns := db.automaticRuns.delete fun row => row.workspaceId = cell.workspaceId ∧
      row.instanceKey = cell.instanceKey
    privateAccessGrants := db.privateAccessGrants.delete fun row => row.workspaceId = cell.workspaceId ∧
      row.grant.instanceId = cell.id
    operationRevisions := db.operationRevisions.delete fun row => row.workspaceId = cell.workspaceId ∧
      row.operationId ∈ (actionsOf cell db).map ActionRow.id
    actions := db.actions.delete fun row => row.workspaceId = cell.workspaceId ∧ row.instanceId = cell.id
    sessions := db.sessions.delete fun row => row.workspaceId = cell.workspaceId ∧ row.instanceId = cell.id
    experiments := db.experiments.delete fun row => row.workspaceId = cell.workspaceId ∧ row.instanceId = cell.id
    -- ON DELETE CASCADE of the runs.
    runSeals := db.runSeals.delete fun row => row.workspaceId = cell.workspaceId ∧ row.runId ∈ runs
    workspaceEvidence := db.workspaceEvidence.delete fun row => row.workspaceId = cell.workspaceId ∧ row.runId ∈ runs
    cellUpdates := db.cellUpdates.delete fun row => row.workspaceId = cell.workspaceId ∧ row.instanceId = cell.id
    cellUpdateState := db.cellUpdateState.delete fun row => row.workspaceId = cell.workspaceId ∧
      row.instanceId = cell.id
    retainedComponents := db.retainedComponents.delete fun row => row.workspaceId = cell.workspaceId ∧
      row.instanceId = cell.id
    cellRuntimeBindings := db.cellRuntimeBindings.delete fun row => row.workspaceId = cell.workspaceId ∧
      row.instanceId = cell.id
    cellPlanUses := db.cellPlanUses.delete fun row => row.workspaceId = cell.workspaceId ∧ row.instanceId = cell.id
    cellHandles := db.cellHandles.delete fun row => row.workspaceId = cell.workspaceId ∧ row.instanceId = cell.id
    cellUpdatePlans := db.cellUpdatePlans.delete fun row => row.workspaceId = cell.workspaceId ∧
      row.plan.target.instanceId = cell.id
    instances := db.instances.delete fun row => row.workspaceId = cell.workspaceId ∧ row.id = cell.id ∧
      row.instanceKey = cell.instanceKey
    -- A consumed plan is not a reusable template; old apply requests must replan.
    drafts := db.drafts.delete fun row => row.workspaceId = cell.workspaceId ∧ row.id ∈ consumedPlans cell db }

/-- The database after a purge. -/
def purged (cell : CellInstance) (db : Db) : Db :=
  { withoutCell cell db with
    revisions := db.revisions.delete fun row => row.workspaceId = cell.workspaceId ∧
      row.digest ∈ revisionsOf cell db ∧ ¬ Referenced row.digest (withoutCell cell db) }

/-- The transaction of `purge_cell`. -/
def purgeCellTx (cell : CellInstance) : Txn Unit := fun db => do
  requireIncarnation cell db
  ensure (¬ Entangled cell db) foreignKey
  pure ((),purged cell db)

/-! ### What the transactions can do -/

variable {cell : CellInstance} {db : Db} {u : Unit}

omit [CoreFunctions] in
theorem requireIncarnation_ok {u : PUnit} :
    requireIncarnation cell db = .ok u ↔
      ∃ row ∈ db.instances, row.workspaceId = cell.workspaceId ∧ row.id = cell.id ∧ row.instanceKey = cell.instanceKey := by
  simp only [requireIncarnation,ensure_ok,Option.map_eq_some_iff,Table.find_eq_some]
  constructor
  · rintro ⟨row,⟨member,keyed⟩,same⟩
    exact ⟨row,member,congrArg Prod.fst keyed,congrArg Prod.snd keyed,same⟩
  · rintro ⟨row,member,home,same,incarnation⟩
    exact ⟨row,⟨member,Prod.ext home same⟩,incarnation⟩

omit [CoreFunctions] in
theorem bindRuntimeTx_ok {binding : RuntimeBinding} {after : Db}
    (bound : bindRuntimeTx cell binding db = .ok (u,after)) :
    (∃ row ∈ db.instances, row.workspaceId = cell.workspaceId ∧ row.id = cell.id ∧ row.instanceKey = cell.instanceKey) ∧
      after = { db with
        cellRuntimeBindings := db.cellRuntimeBindings.upsert
          ⟨cell.workspaceId,cell.id,cell.instanceKey,binding.source,binding.clusterUid,binding.resourceUid⟩
          (bindResource cell binding) (bindResource_key cell binding) } := by
  simp only [bindRuntimeTx,bind_ok,requireIncarnation_ok,require_ok,ensure_ok,pure_ok,Prod.mk.injEq] at bound
  obtain ⟨_,current,_,_,_,_,_,rfl⟩ := bound
  exact ⟨current,rfl⟩

theorem purgeUnmaterializedHandleTx_ok {workspace id : String} {after : Db}
    (removed : purgeUnmaterializedHandleTx workspace id db = .ok (u,after)) :
    (¬ db.instances.has (workspace,id)) ∧ (after = db ∨ after = { db with
      cellHandles := db.cellHandles.delete fun row => row.workspaceId = workspace ∧ row.instanceId = id
      idempotency := db.idempotency.delete fun row => row.workspaceId = workspace ∧
        (row.response.toJson.get "id" = some (.str (draftId id)) ∨
          ∃ digest ∈ (db.revisions.rows.filter fun (row : RevisionRow) => row.workspaceId = workspace ∧
            row.draftId = draftId id).map RevisionRow.digest,
            row.response.toJson.get "digest" = some (.str digest))
      revisions := db.revisions.delete fun row => row.workspaceId = workspace ∧ row.draftId = draftId id ∧
        ∀ cell ∈ db.instances.rows, cell.revisionDigest ≠ row.digest
      drafts := db.drafts.delete fun row => row.workspaceId = workspace ∧ row.id = draftId id }) := by
  simp only [purgeUnmaterializedHandleTx,bind_ok,ensure_ok] at removed
  obtain ⟨_,absent,removed⟩ := removed
  refine ⟨absent,?_⟩
  split at removed <;> simp only [pure_ok,Prod.mk.injEq] at removed
  · exact .inr removed.2.symm
  · exact .inl removed.2.symm

theorem purgeCellTx_ok {after : Db} :
    purgeCellTx cell db = .ok (u,after) ↔
      (∃ row ∈ db.instances, row.workspaceId = cell.workspaceId ∧ row.id = cell.id ∧
        row.instanceKey = cell.instanceKey) ∧ ¬ Entangled cell db ∧ after = purged cell db := by
  simp only [purgeCellTx,bind_ok,requireIncarnation_ok,ensure_ok,pure_ok,Prod.mk.injEq,true_and]
  constructor
  · rintro ⟨_,current,_,apart,rfl⟩
    exact ⟨current,apart,rfl⟩
  · rintro ⟨current,apart,rfl⟩
    exact ⟨⟨⟩,current,⟨⟩,apart,rfl⟩
end

end Proofstorm.Store
