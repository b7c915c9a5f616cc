import Proofstorm.Store.Reads
import Proofstorm.Core.Update

/-!
The transactions of `updates.rs`: accepting an update plan, marking updates
applied, closing an instance, and the part of an operation's admission that
looks at pending updates. `acceptUpdateTx_ok` says what acceptance can do:
nothing, a receipt, or one new generation (`Accepted`).
-/
namespace Proofstorm.Store
open Proofstorm.Core

/-- `updates::error`. -/
def updateError (code message : String) : StoreError := .cellUpdate code message

/-- `pending_plans`: the accepted updates above a generation, in order. -/
def pendingPlans (workspace id : String) (applied : Nat) (db : Db) : List CellUpdatePlan :=
  ((db.cellUpdates.rows.filter fun row => row.workspaceId = workspace ∧ row.instanceId = id ∧ applied < row.generation)
    |>.insertionSort fun a b => a.generation ≤ b.generation).map UpdateRow.plan

theorem mem_pendingPlans {workspace id : String} {applied : Nat} {db : Db} {plan : CellUpdatePlan} :
    plan ∈ pendingPlans workspace id applied db ↔ ∃ row ∈ db.cellUpdates,
      row.workspaceId = workspace ∧ row.instanceId = id ∧ applied < row.generation ∧ row.plan = plan := by
  simp only [pendingPlans,List.mem_map,List.mem_insertionSort,List.mem_filter,decide_eq_true_eq]
  constructor
  · rintro ⟨row,⟨member,home,same,above⟩,rfl⟩
    exact ⟨row,member,home,same,above,rfl⟩
  · rintro ⟨row,member,home,same,above,rfl⟩
    exact ⟨row,⟨member,home,same,above⟩,rfl⟩

/-- The operations of an instance that are pending or running. -/
def activeActions (workspace id : String) (db : Db) : List ActionRow :=
  db.actions.rows.filter fun action => action.workspaceId = workspace ∧ action.instanceId = id ∧ action.phase.active

def recordUpdateReceipt [CoreFunctions] (workspace principal key : String) (plan : CellUpdatePlan) (db : Db) :
    Except StoreError Db := do
  ensure (¬ db.idempotency.has (workspace,principal,key)) uniqueFailed
  pure { db with
    idempotency := db.idempotency.insert
      { workspaceId := workspace
        principalId := principal
        key := key
        operation := "cell.update"
        requestHash := digestJson (.plan plan)
        response := .plan plan } }

/-- The rows that one accepted update writes, its receipt apart. -/
def advance [CoreFunctions] (workspace principal key : String) (plan : CellUpdatePlan) (revision : PublishedRevision)
    (generation : Nat) (now : Int) (db : Db) : Db :=
  let id := plan.target.instanceId
  { db with
    cellUpdateState := db.cellUpdateState.upsert ⟨workspace,id,generation,1,none,false⟩
      (fun row => { row with generation := generation }) (fun _ => rfl)
    instances := db.instances.update (fun row => row.workspaceId = workspace ∧ row.id = id)
      (fun row => { row with revisionDigest := revision.digest, lockDigest := revision.lock.digest }) (fun _ => rfl)
    cellHandles := db.cellHandles.update (fun row => row.workspaceId = workspace ∧ row.instanceId = id)
      (fun row => { row with configDigest := digestJson (.cell revision.cell) }) (fun _ => rfl)
    cellUpdates := db.cellUpdates.insert ⟨workspace,id,generation,principal,key,plan,now⟩
    retainedComponents := db.retainedComponents.insertAll
      (plan.changes.removed.map fun component => ⟨workspace,id,component⟩) }

/-- The transaction of `accept_update`, where no receipt has the key. -/
def acceptFresh [CoreFunctions] (workspace principal key : String) (plan : CellUpdatePlan)
    (revision : PublishedRevision) (now : Int) (db : Db) : Except StoreError Db := do
  let id := plan.target.instanceId
  let current := updateState workspace id db
  ensure (current.closing = false) (updateError "cell_closing" "closing cells cannot be edited")
  let row ← require (db.instances.find (workspace,id)) noRows
  ensure (current.generation = plan.target.expectedGeneration ∧ row.revisionDigest = plan.baseRevision)
    (updateError "cell_update_conflict" "desired configuration changed; replan")
  if plan.isNoop then recordUpdateReceipt workspace principal key plan db
  else
    let conflicts := (activeActions workspace id db).filter fun action => references plan.affected action.request
    let ids := ", ".intercalate (conflicts.map ActionRow.id)
    ensure (conflicts = []) (updateError "cell_update_active_operations"
      s!"finish or cancel affected operations: {ids}")
    ensure (∀ c ∈ plan.target.deleteRetained, db.retainedComponents.has (workspace,id,c) ∧ c ∉ revision.cell.ids)
      (updateError "retained_component_conflict" "retained deletion must identify removed data")
    ensure (∀ c ∈ plan.changes.added, ¬ db.retainedComponents.has (workspace,id,c))
      (updateError "retained_component_conflict" "component ID has retained state")
    ensure (current.generation + 1 < 2^64) (updateError "generation_exhausted" "cell generation exhausted")
    let generation ← sqlVersion (current.generation + 1)
    -- The new revision must still be there: `instances` refers to it.
    ensure (db.revisions.has revision.digest) foreignKey
    ensure (¬ db.cellUpdates.has (workspace,id,generation) ∧
      ∀ row ∈ db.cellUpdates.rows, ¬ (row.workspaceId = workspace ∧ row.principalId = principal ∧ row.requestKey = key))
      uniqueFailed
    recordUpdateReceipt workspace principal key plan (advance workspace principal key plan revision generation now db)

/-- The transaction of `accept_update`. -/
def acceptUpdateTx [CoreFunctions] (workspace principal key : String) (plan : CellUpdatePlan)
    (revision : PublishedRevision) (now : Int) : Txn Unit := fun db => do
  let keyNow := (db.instances.find (workspace,plan.target.instanceId)).map InstanceRow.instanceKey
  ensure (keyNow = some plan.instanceKey)
    (updateError "stale_incarnation" "This plan targets a deleted or replaced cell; replan")
  match db.idempotency.find (workspace,principal,key) with
  | some previous =>
    ensure (previous.response.asPlan = some plan)
      (updateError "idempotency_conflict" "request key belongs to a different edit")
    pure ((),db)
  | none =>
    let after ← acceptFresh workspace principal key plan revision now db
    pure ((),after)

/-- The database after the current generation of an instance is marked applied. -/
def withApplied (workspace id : String) (generation : Nat) (converged : Option String) (db : Db) : Db :=
  { db with
    retainedComponents := db.retainedComponents.delete fun row =>
      row.workspaceId = workspace ∧ row.instanceId = id ∧
        row.componentId ∈ (pendingPlans workspace id (updateState workspace id db).appliedGeneration db).flatMap
          fun plan => plan.changes.deletedData
    cellUpdateState := db.cellUpdateState.update
      (fun row => row.workspaceId = workspace ∧ row.instanceId = id ∧ row.generation = generation)
      (fun row => { row with
        appliedGeneration := max row.appliedGeneration generation
        convergedRevision := converged.or row.convergedRevision }) (fun _ => rfl) }

/-- The transaction of `mark_update_applied`. -/
def markUpdateAppliedTx (workspace id : String) (generation : Nat) (converged : Option String) : Txn Unit := fun db => do
  let current := updateState workspace id db
  if current.generation ≠ generation then pure ((),db)
  else
    let applied ← sqlVersion current.appliedGeneration
    let deleted := (pendingPlans workspace id applied db).flatMap fun plan => plan.changes.deletedData
    let generation ← sqlVersion generation
    pure ((),{ db with
      retainedComponents := db.retainedComponents.delete fun row =>
        row.workspaceId = workspace ∧ row.instanceId = id ∧ row.componentId ∈ deleted
      cellUpdateState := db.cellUpdateState.update
        (fun row => row.workspaceId = workspace ∧ row.instanceId = id ∧ row.generation = generation)
        (fun row => { row with
          appliedGeneration := max row.appliedGeneration generation
          convergedRevision := converged.or row.convergedRevision }) (fun _ => rfl) })

/-- The database after an instance has begun to close. -/
def withClosing (workspace id : String) (db : Db) : Db :=
  { db with
    cellUpdateState := db.cellUpdateState.upsert ⟨workspace,id,1,1,none,true⟩
      (fun row => { row with closing := true }) (fun _ => rfl) }

/-- The statement of `begin_instance_close`. -/
def beginInstanceCloseStatement (workspace id : String) : Txn Unit := fun db => .ok ((),withClosing workspace id db)

/-- The statement of `save_update_plan`. -/
def insertUpdatePlan (workspace planId : String) (plan : CellUpdatePlan) : Txn Unit := fun db =>
  .ok ((),{ db with cellUpdatePlans := db.cellUpdatePlans.insert ⟨workspace,planId,plan⟩ })

/-- `admit_operation`: no pending update changes a component that the request
    names, and the revision of the moment is recorded for the operation. -/
def admitOperation (workspace id operation : String) (request : Json) (kind : OperationKind) (db : Db) :
    Except StoreError (String × Db) := do
  let current := updateState workspace id db
  ensure (current.closing = false) (updateError "cell_closing" "new operations are not admitted")
  let applied ← sqlVersion current.appliedGeneration
  ensure (∀ plan ∈ pendingPlans workspace id applied db,
      ¬ (kind ≠ .componentLogs ∧ references plan.affected request = true))
    (updateError "component_updating" "component is scheduled for change; retry after reconciliation")
  let row ← require (db.instances.find (workspace,id)) noRows
  let db := { db with operationRevisions := db.operationRevisions.insert ⟨workspace,operation,row.revisionDigest⟩ }
  let recorded ← require (db.operationRevisions.find (workspace,operation)) noRows
  pure (recorded.revisionDigest,db)

/-! ### What acceptance can do -/

/-- An update was accepted: `db` passed the checks and `after` has one more generation. -/
structure Accepted [CoreFunctions] (workspace principal key : String) (plan : CellUpdatePlan)
    (revision : PublishedRevision) (now : Int) (row : InstanceRow) (db after : Db) : Prop where
  unrecorded : db.idempotency.find (workspace,principal,key) = none
  member : row ∈ db.instances
  home : row.workspaceId = workspace
  named : row.id = plan.target.instanceId
  incarnation : row.instanceKey = plan.instanceKey
  opened : (updateState workspace plan.target.instanceId db).closing = false
  generation : (updateState workspace plan.target.instanceId db).generation = plan.target.expectedGeneration
  base : row.revisionDigest = plan.baseRevision
  work : plan.isNoop = false
  idle : ∀ action ∈ db.actions, action.workspaceId = workspace → action.instanceId = plan.target.instanceId →
    action.phase.active = true → references plan.affected action.request = false
  retained : ∀ c ∈ plan.target.deleteRetained,
    db.retainedComponents.has (workspace,plan.target.instanceId,c) ∧ c ∉ revision.cell.ids
  fresh : ∀ c ∈ plan.changes.added, ¬ db.retainedComponents.has (workspace,plan.target.instanceId,c)
  published : db.revisions.has revision.digest
  fits : plan.target.expectedGeneration + 1 < versionLimit
  unused : ¬ db.cellUpdates.has (workspace,plan.target.instanceId,plan.target.expectedGeneration + 1)
  unkeyed : ∀ row ∈ db.cellUpdates, ¬ (row.workspaceId = workspace ∧ row.principalId = principal ∧ row.requestKey = key)
  result : recordUpdateReceipt workspace principal key plan
    (advance workspace principal key plan revision (plan.target.expectedGeneration + 1) now db) = .ok after

/-- The key of the plan is that of the instance, and nothing changed but a receipt for a plan without effect. -/
structure Acknowledged [CoreFunctions] (workspace principal key : String) (plan : CellUpdatePlan) (row : InstanceRow)
    (db after : Db) : Prop where
  unrecorded : db.idempotency.find (workspace,principal,key) = none
  member : row ∈ db.instances
  home : row.workspaceId = workspace
  named : row.id = plan.target.instanceId
  incarnation : row.instanceKey = plan.instanceKey
  noop : plan.isNoop = true
  result : recordUpdateReceipt workspace principal key plan db = .ok after

theorem recordUpdateReceipt_ok [CoreFunctions] {workspace principal k : String} {plan : CellUpdatePlan} {db after : Db} :
    recordUpdateReceipt workspace principal k plan db = .ok after ↔
      db.idempotency.find (workspace,principal,k) = none ∧
        after = { db with
          idempotency := db.idempotency.insert
            ⟨workspace,principal,k,"cell.update",digestJson (.plan plan),.plan plan⟩ } := by
  simp only [recordUpdateReceipt,bind_ok,ensure_ok,pure_ok,Table.not_has]
  constructor
  · rintro ⟨_,free,same⟩
    exact ⟨free,same.symm⟩
  · rintro ⟨free,same⟩
    exact ⟨⟨⟩,free,same.symm⟩

section
variable [CoreFunctions] {workspace principal k : String} {plan : CellUpdatePlan} {revision : PublishedRevision} {now : Int}
  {row : InstanceRow} {db after : Db}

/-- The database after an acceptance: one generation more, and its receipt. -/
theorem Accepted.after_eq (accepted : Accepted workspace principal k plan revision now row db after) :
    after = { advance workspace principal k plan revision (plan.target.expectedGeneration + 1) now db with
      idempotency := db.idempotency.insert
        ⟨workspace,principal,k,"cell.update",digestJson (.plan plan),.plan plan⟩ } :=
  (recordUpdateReceipt_ok.mp accepted.result).2

theorem Accepted.mem_cellUpdates (accepted : Accepted workspace principal k plan revision now row db after)
    {update : UpdateRow} : update ∈ after.cellUpdates ↔ update ∈ db.cellUpdates ∨
      update = ⟨workspace,plan.target.instanceId,plan.target.expectedGeneration + 1,principal,k,plan,now⟩ := by
  have free := Table.not_has.mp accepted.unused
  rw [accepted.after_eq]
  simp only [advance,Table.mem_insert]
  exact or_congr_right (and_iff_left free)

theorem Accepted.mem_instances (accepted : Accepted workspace principal k plan revision now row db after)
    {other : InstanceRow} : other ∈ after.instances ↔
      (other ∈ db.instances ∧ ¬ (other.workspaceId = workspace ∧ other.id = plan.target.instanceId)) ∨
        other = { row with revisionDigest := revision.digest, lockDigest := revision.lock.digest } := by
  rw [accepted.after_eq]
  simp only [advance]
  rw [Table.mem_update (by exact fun _ => rfl)]
  refine or_congr_right ⟨?_,?_⟩
  · rintro ⟨old,member,⟨home,named⟩,rfl⟩
    rw [Table.eq_of_key member accepted.member
      (Prod.ext (home.trans accepted.home.symm) (named.trans accepted.named.symm))]
  · rintro rfl
    exact ⟨row,accepted.member,⟨accepted.home,accepted.named⟩,rfl⟩
end

private theorem acceptFresh_ok [CoreFunctions] {workspace principal k : String} {plan : CellUpdatePlan}
    {revision : PublishedRevision} {now : Int} {row : InstanceRow} {db after : Db}
    (free : db.idempotency.find (workspace,principal,k) = none)
    (found : db.instances.find (workspace,plan.target.instanceId) = some row)
    (incarnation : row.instanceKey = plan.instanceKey)
    (fresh : acceptFresh workspace principal k plan revision now db = .ok after) :
    Acknowledged workspace principal k plan row db after ∨
      Accepted workspace principal k plan revision now row db after := by
  obtain ⟨member,keyed⟩ := Table.find_eq_some.mp found
  have home : row.workspaceId = workspace := congrArg Prod.fst keyed
  have same : row.id = plan.target.instanceId := congrArg Prod.snd keyed
  simp only [acceptFresh,found,require_some,ok_bind,bind_ok,ensure_ok] at fresh
  obtain ⟨_,opened,_,⟨generation,base⟩,fresh⟩ := fresh
  by_cases noop : plan.isNoop = true
  · rw [if_pos noop] at fresh
    exact .inl ⟨free,member,home,same,incarnation,noop,fresh⟩
  · rw [if_neg noop] at fresh
    simp only [bind_ok,ensure_ok,sqlVersion_ok] at fresh
    obtain ⟨_,idle,_,retained,_,fresh_,_,_,_,⟨fits,rfl⟩,_,published,_,⟨unused,unkeyed⟩,result⟩ := fresh
    rw [generation] at fits unused result
    refine .inr ⟨free,member,home,same,incarnation,opened,generation,base,by simpa using noop,?_,retained,fresh_,
      published,fits,unused,unkeyed,result⟩
    intro action present there here active
    have clear := List.filter_eq_nil_iff.mp idle action
    simpa [activeActions,Table.mem_rows,present,there,here,active] using clear

/-- What the transaction of `accept_update` can do. -/
theorem acceptUpdateTx_ok [CoreFunctions] {workspace principal k : String} {plan : CellUpdatePlan}
    {revision : PublishedRevision} {now : Int} {db after : Db} {u : Unit}
    (accepted : acceptUpdateTx workspace principal k plan revision now db = .ok (u,after)) :
    ∃ row ∈ db.instances, row.workspaceId = workspace ∧ row.id = plan.target.instanceId ∧
      row.instanceKey = plan.instanceKey ∧
        ((after = db ∧ ∃ receipt, db.idempotency.find (workspace,principal,k) = some receipt ∧
            receipt.response = .plan plan) ∨
          Acknowledged workspace principal k plan row db after ∨
          Accepted workspace principal k plan revision now row db after) := by
  simp only [acceptUpdateTx,bind_ok,ensure_ok] at accepted
  obtain ⟨_,current,accepted⟩ := accepted
  obtain ⟨row,found,incarnation⟩ := Option.map_eq_some_iff.mp current
  obtain ⟨member,keyed⟩ := Table.find_eq_some.mp found
  refine ⟨row,member,congrArg Prod.fst keyed,congrArg Prod.snd keyed,incarnation,?_⟩
  cases recorded : db.idempotency.find (workspace,principal,k) with
  | some previous =>
    simp only [recorded,bind_ok,ensure_ok,pure_ok,Prod.mk.injEq] at accepted
    obtain ⟨_,same,_,rfl⟩ := accepted
    refine .inl ⟨rfl,previous,rfl,?_⟩
    cases response : previous.response <;> simp [response,Response.asPlan] at same ⊢
    exact same
  | none =>
    simp only [recorded,bind_ok,pure_ok,Prod.mk.injEq] at accepted
    obtain ⟨_,fresh,_,rfl⟩ := accepted
    exact .inr (acceptFresh_ok recorded found incarnation fresh)

/-- What marking a generation applied can do. -/
theorem markUpdateAppliedTx_ok {workspace id : String} {generation : Nat} {converged : Option String} {db after : Db}
    {u : Unit} (marked : markUpdateAppliedTx workspace id generation converged db = .ok (u,after)) :
    after = db ∨ ((updateState workspace id db).generation = generation ∧
      after = withApplied workspace id generation converged db) := by
  rw [markUpdateAppliedTx] at marked
  split at marked
  · simp only [pure_ok,Prod.mk.injEq] at marked
    exact .inl marked.2.symm
  · rename_i current
    simp only [bind_ok,sqlVersion_ok,pure_ok,Prod.mk.injEq] at marked
    obtain ⟨_,⟨_,rfl⟩,_,⟨_,rfl⟩,_,rfl⟩ := marked
    exact .inr ⟨not_not.mp current,rfl⟩

/-- What an admission found and did. -/
theorem admitOperation_ok {workspace id operation : String} {request : Json} {kind : OperationKind} {db after : Db}
    {digest : String} (admitted : admitOperation workspace id operation request kind db = .ok (digest,after)) :
    (updateState workspace id db).closing = false ∧
    (kind ≠ .componentLogs → ∀ plan ∈ pendingPlans workspace id (updateState workspace id db).appliedGeneration db,
      references plan.affected request = false) ∧
    ∃ row ∈ db.instances, row.workspaceId = workspace ∧ row.id = id ∧
      after = { db with operationRevisions := db.operationRevisions.insert ⟨workspace,operation,row.revisionDigest⟩ } ∧
      ∃ recorded ∈ after.operationRevisions, recorded.workspaceId = workspace ∧ recorded.operationId = operation ∧
        recorded.revisionDigest = digest := by
  simp only [admitOperation,bind_ok,ensure_ok,sqlVersion_ok,require_ok,pure_ok,Prod.mk.injEq] at admitted
  obtain ⟨_,opened,_,⟨_,rfl⟩,_,clear,row,found,recorded,seen,rfl,rfl⟩ := admitted
  obtain ⟨member,keyed⟩ := Table.find_eq_some.mp found
  obtain ⟨kept,alike⟩ := Table.find_eq_some.mp seen
  refine ⟨opened,?_,row,member,congrArg Prod.fst keyed,congrArg Prod.snd keyed,rfl,recorded,kept,
    congrArg Prod.fst alike,congrArg Prod.snd alike,rfl⟩
  intro other plan pending
  simpa [other] using clear plan pending
end Proofstorm.Store
