import Proofstorm.Store.Updates
import Proofstorm.Store.Runs

/-!
The transactions of an operation: its admission (`create_operation_inner`), its
result and its phase. An admission repeats what was recorded before, by receipt
or by id, or inserts one action as the last of its instance (`Admitted`).
-/
namespace Proofstorm.Store
open Proofstorm.Core

/-- The name of a kind in JSON. -/
def OperationKind.name : OperationKind → String
  | .nodeStart => "node_start" | .nodeStop => "node_stop" | .nodeRestart => "node_restart"
  | .componentStart => "component_start" | .componentStop => "component_stop"
  | .componentRestart => "component_restart" | .bootstrapLiquidity => "bootstrap_liquidity"
  | .peerConnect => "peer_connect" | .peerDisconnect => "peer_disconnect" | .channelOpen => "channel_open"
  | .channelPolicySet => "channel_policy_set" | .channelClose => "channel_close"
  | .channelForceClose => "channel_force_close" | .channelRebalance => "channel_rebalance"
  | .networkPartition => "network_partition" | .networkDelay => "network_delay" | .networkLoss => "network_loss"
  | .networkHeal => "network_heal" | .walletInitialize => "wallet_initialize" | .walletBalance => "wallet_balance"
  | .walletFund => "wallet_fund" | .walletInvoice => "wallet_invoice" | .walletPay => "wallet_pay"
  | .walletQuoteClaim => "wallet_quote_claim" | .walletMeltQuoteRefresh => "wallet_melt_quote_refresh"
  | .walletRoundTrip => "wallet_round_trip" | .conservationOracle => "conservation_oracle"
  | .reachabilityOracle => "reachability_oracle" | .componentForensics => "component_forensics"
  | .componentExecLive => "component_exec_live" | .privateTransfer => "private_transfer"
  | .componentLogs => "component_logs" | .authenticationConformance => "authentication_conformance"
  | .authenticationProtectedSpend => "authentication_protected_spend"
  | .authenticationReplay => "authentication_replay"

/-- What the admission transaction is given: the caller's request, with the run
    and the session that were resolved for it. `requestedSession` is the session
    id as the caller gave it; it is empty for an automatic session. -/
structure Admission where
  workspace : String
  principal : String
  instanceId : String
  experimentId : String
  requestedSession : String
  sessionId : String
  operationId : String
  kind : OperationKind
  request : Json
  key : String
  capability : Capability
  expectedRevision : Option String
  acceptedAt : Int
  deriving DecidableEq

/-- The request that the receipt of an admission is for. -/
def admissionEnvelope (instanceId experimentId session operationId : String) (kind : OperationKind) (request : Json) : Json :=
  .object [("instanceId",.str instanceId),("experimentId",.str experimentId),("sessionId",.str session),
    ("operationId",.str operationId),("kind",.str (OperationKind.name kind)),("request",request)]

def Admission.envelope (a : Admission) : Json :=
  admissionEnvelope a.instanceId a.experimentId a.requestedSession a.operationId a.kind a.request

/-- `LAST_SEQUENCE`. -/
def lastSequence (workspace instanceId : String) (db : Db) : Nat :=
  ((db.actions.rows.filter fun row => row.workspaceId = workspace ∧ row.instanceId = instanceId).map
    ActionRow.sequence).foldl max 0

section
variable [CoreFunctions]

/-- The row of a new action. -/
def Admission.row (a : Admission) (sequence : Nat) : ActionRow :=
  { workspaceId := a.workspace
    id := a.operationId
    instanceId := a.instanceId
    experimentId := a.experimentId
    sessionId := a.sessionId
    principalId := a.principal
    sequence := sequence
    kind := a.kind
    capability := a.capability
    resourceName := "op-" ++ slice
      (digestJson (.operation a.workspace a.instanceId a.sessionId a.operationId a.kind a.request)) 7 26
    requestDigest := digestJson (.json a.request)
    request := a.request
    phase := .pending
    artifact := none
    acceptedAt := a.acceptedAt
    startedAt := none
    completedAt := none }

/-- `INSERT INTO actions`, with the trigger `capture_operation_revision`. -/
def insertAction (row : ActionRow) (db : Db) : Except StoreError Db := do
  ensure (¬ db.actions.has (row.workspaceId,row.id) ∧ ∀ other ∈ db.actions.rows, other.resourceName ≠ row.resourceName ∧
    ¬ (other.workspaceId = row.workspaceId ∧ other.experimentId = row.experimentId ∧ other.sequence = row.sequence))
    uniqueFailed
  let cell ← require (db.instances.find (row.workspaceId,row.instanceId)) foreignKey
  ensure (db.experiments.has (row.workspaceId,row.experimentId) ∧ db.sessions.has (row.workspaceId,row.sessionId)) foreignKey
  pure { db with
    actions := db.actions.insert row
    operationRevisions := db.operationRevisions.insert ⟨row.workspaceId,row.id,cell.revisionDigest⟩ }

/-- The admission of an operation that nothing was recorded for. -/
def insertOperation (a : Admission) (db : Db) : Except StoreError (CellOperation × Db) := do
  ensure (∃ run ∈ db.experiments.rows, run.workspaceId = a.workspace ∧ run.id = a.experimentId ∧
      run.instanceId = a.instanceId ∧ run.phase = .active)
    (.validation "run finished during operation admission; retry the same request")
  ensure (∀ handle, handleOf a.workspace a.instanceId db = some handle → handle.phase = .opened)
    (.validation "cell is closing; new actions are not admitted")
  let touched := touchSession a.workspace a.sessionId a.acceptedAt db
  let sequence := lastSequence a.workspace a.instanceId touched + 1
  let (revisionDigest,captured) ← admitOperation a.workspace a.instanceId a.operationId a.request a.kind touched
  ensure (∀ expected, a.expectedRevision = some expected → expected = revisionDigest)
    (updateError "cell_update_conflict"
      "Configuration changed during operation admission; retry against current configuration")
  let stored ← sqlVersion sequence
  let row := a.row stored
  let inserted ← insertAction row captured
  let operation := row.toOperation revisionDigest
  let after ← recordIdempotencyIn a.workspace a.principal a.key "cell.operation.create" a.envelope (.operation operation)
    inserted
  pure (operation,after)

/-- The recorded operation is the one requested. -/
def Admission.Repeats (a : Admission) (existing : CellOperation) : Prop :=
  existing.instanceId = a.instanceId ∧ existing.principalId = a.principal ∧ existing.experimentId = a.experimentId ∧
    existing.requestDigest = digestJson (.json a.request) ∧ existing.kind = a.kind ∧
    (a.requestedSession ≠ "" → existing.sessionId = a.sessionId)

instance (a : Admission) (existing : CellOperation) : Decidable (a.Repeats existing) := by
  unfold Admission.Repeats
  infer_instance

/-- The transaction of `create_operation_inner`. -/
def createOperationTx (a : Admission) : Txn CellOperation := fun db => do
  -- Another connection may have admitted this request since the first lookup.
  match ← idempotentResponse a.workspace a.principal a.key "cell.operation.create" a.envelope db with
  | some response =>
    let previous ← response.asOperation
    let operation ← operationFrom a.workspace previous.id db
    pure (operation,db)
  | none =>
    match operationFrom a.workspace a.operationId db with
    | .ok existing =>
      ensure (a.Repeats existing) (.conflict "operation" a.operationId)
      let after ← recordIdempotencyIn a.workspace a.principal a.key "cell.operation.create" a.envelope
        (.operation existing) db
      pure (existing,after)
    | .error (.notFound _ _) => insertOperation a db
    | .error error => .error error

/-- The transaction of `record_operation_result`: how many rows it changed. -/
def recordOperationResultTx (workspace operationId session : String) (phase : OperationPhase)
    (artifact : OperationArtifact) (completedAt : Int) : Txn Nat := fun db =>
  let changes := ∃ row ∈ db.actions.rows, row.workspaceId = workspace ∧ row.id = operationId ∧ row.phase.active = true
  if changes then
    let recorded := { db with
      actions := db.actions.update
        (fun row => row.workspaceId = workspace ∧ row.id = operationId ∧ row.phase.active = true)
        (fun row => { row with phase := phase, artifact := some artifact, completedAt := some completedAt })
        (fun _ => rfl) }
    .ok (1,touchSession workspace session completedAt recorded)
  else .ok (0,db)

/-- The statement of `update_operation_phase`. -/
def updateOperationPhaseStatement (workspace operationId : String) (phase : OperationPhase) (now : Int) : Txn Unit := fun db =>
  .ok ((),{ db with
    actions := db.actions.update
      (fun row => row.workspaceId = workspace ∧ row.id = operationId ∧ row.phase = .pending)
      (fun row => { row with phase := phase, startedAt := row.startedAt.or (some now) }) (fun _ => rfl) })

omit [CoreFunctions] in
theorem recordOperationResultTx_ok {workspace operationId session : String} {phase : OperationPhase}
    {artifact : OperationArtifact} {completedAt : Int} {db after : Db} {count : Nat}
    (recorded : recordOperationResultTx workspace operationId session phase artifact completedAt db = .ok (count,after)) :
    (count = 0 ∧ after = db) ∨ (count = 1 ∧ after = { touchSession workspace session completedAt db with
      actions := db.actions.update
        (fun row => row.workspaceId = workspace ∧ row.id = operationId ∧ row.phase.active = true)
        (fun row => { row with phase := phase, artifact := some artifact, completedAt := some completedAt })
        (fun _ => rfl) }) := by
  simp only [recordOperationResultTx] at recorded
  split at recorded
  · cases recorded
    exact .inr ⟨rfl,rfl⟩
  · cases recorded
    exact .inl ⟨rfl,rfl⟩

/-! ### What an admission can do -/

/-- An action was inserted: what the transaction found in `db` and wrote. -/
structure Admitted (a : Admission) (operation : CellOperation) (cell : InstanceRow) (db after : Db) : Prop where
  unrecorded : db.idempotency.find (a.workspace,a.principal,a.key) = none
  absent : db.actions.find (a.workspace,a.operationId) = none
  run : ∃ run ∈ db.experiments, run.workspaceId = a.workspace ∧ run.id = a.experimentId ∧
    run.instanceId = a.instanceId ∧ run.phase = .active
  open_ : ∀ handle, handleOf a.workspace a.instanceId db = some handle → handle.phase = .opened
  session : db.sessions.has (a.workspace,a.sessionId)
  member : cell ∈ db.instances
  home : cell.workspaceId = a.workspace
  named : cell.id = a.instanceId
  opened : (updateState a.workspace a.instanceId db).closing = false
  settled : a.kind ≠ .componentLogs →
    ∀ plan ∈ pendingPlans a.workspace a.instanceId (updateState a.workspace a.instanceId db).appliedGeneration db,
      references plan.affected a.request = false
  recorded : (∃ row ∈ db.operationRevisions, row.workspaceId = a.workspace ∧ row.operationId = a.operationId ∧
      row.revisionDigest = operation.revisionDigest) ∨
    (db.operationRevisions.find (a.workspace,a.operationId) = none ∧ operation.revisionDigest = cell.revisionDigest)
  operation_eq : operation = (a.row (lastSequence a.workspace a.instanceId db + 1)).toOperation operation.revisionDigest
  result : after = { touchSession a.workspace a.sessionId a.acceptedAt db with
    actions := db.actions.insert (a.row (lastSequence a.workspace a.instanceId db + 1))
    operationRevisions := db.operationRevisions.insert ⟨a.workspace,a.operationId,cell.revisionDigest⟩
    idempotency := db.idempotency.insert ⟨a.workspace,a.principal,a.key,"cell.operation.create",
      digestJson (.json a.envelope),.operation operation⟩ }

omit [CoreFunctions] in
theorem insertAction_ok {row : ActionRow} {db after : Db} (inserted : insertAction row db = .ok after) :
    db.actions.find (row.workspaceId,row.id) = none ∧
    ∃ cell ∈ db.instances, cell.workspaceId = row.workspaceId ∧ cell.id = row.instanceId ∧
      db.experiments.has (row.workspaceId,row.experimentId) ∧ db.sessions.has (row.workspaceId,row.sessionId) ∧
      after = { db with
        actions := db.actions.insert row
        operationRevisions := db.operationRevisions.insert ⟨row.workspaceId,row.id,cell.revisionDigest⟩ } := by
  simp only [insertAction,bind_ok,ensure_ok,require_ok,pure_ok,Table.not_has] at inserted
  obtain ⟨_,⟨free,_⟩,cell,found,_,⟨run,session⟩,rfl⟩ := inserted
  obtain ⟨member,keyed⟩ := Table.find_eq_some.mp found
  exact ⟨free,cell,member,congrArg Prod.fst keyed,congrArg Prod.snd keyed,run,session,rfl⟩

omit [CoreFunctions] in

omit [CoreFunctions] in
private theorem has_touched {db : Db} {workspace session : String} {now : Int} {k : String × String}
    (present : (touchSession workspace session now db).sessions.has k) : db.sessions.has k := by
  obtain ⟨row,member,same⟩ := present
  rcases mem_touchSession.mp member with ⟨old,_⟩ | ⟨old,held,_,rfl⟩
  · exact ⟨row,old,same⟩
  · exact ⟨old,held,same⟩

theorem insertOperation_ok {a : Admission} {db after : Db} {operation : CellOperation}
    (absent : db.actions.find (a.workspace,a.operationId) = none)
    (inserted : insertOperation a db = .ok (operation,after)) : ∃ cell, Admitted a operation cell db after := by
  simp only [insertOperation,bind_ok,ensure_ok,sqlVersion_ok,pure_ok,Prod.mk.injEq] at inserted
  obtain ⟨_,run,_,open_,⟨digest,captured⟩,passed,_,_,_,⟨_,rfl⟩,stored,insert,final,record,rfl,rfl⟩ := inserted
  obtain ⟨opened,settled,cell,member,home,named,rfl,recorded,kept,there,same,digest_⟩ := admitOperation_ok passed
  obtain ⟨_,again,held,again_home,again_named,_,session,rfl⟩ := insertAction_ok insert
  obtain ⟨unrecorded,rfl⟩ := recordIdempotencyIn_ok.mp record
  have one : again = cell :=
    Table.eq_of_key held member (Prod.ext (again_home.trans home.symm) (again_named.trans named.symm))
  subst one
  refine ⟨again,unrecorded,absent,run,open_,has_touched session,member,home,named,opened,settled,?_,rfl,?_⟩
  · rcases Table.mem_insert.mp kept with old | ⟨rfl,free⟩
    · exact .inl ⟨recorded,old,there,same,digest_⟩
    · exact .inr ⟨free,digest_.symm⟩
  · -- The trigger finds the row that `admit_operation` has just inserted.
    have twice : ∀ (t : Table OperationRevisionRow) (r : OperationRevisionRow), (t.insert r).insert r = t.insert r :=
      fun t r => Table.insert_of_taken (Table.has_insert t r)
    simp only [Admission.row,twice]
    rfl

/-- What the transaction of `create_operation` can do. -/
theorem createOperationTx_ok {a : Admission} {db after : Db} {operation : CellOperation}
    (created : createOperationTx a db = .ok (operation,after)) :
    (after = db ∧ ∃ receipt, db.idempotency.find (a.workspace,a.principal,a.key) = some receipt ∧
        receipt.operation = "cell.operation.create" ∧ receipt.requestHash = digestJson (.json a.envelope) ∧
        ∃ previous, receipt.response = .operation previous ∧ operationFrom a.workspace previous.id db = .ok operation) ∨
      (db.idempotency.find (a.workspace,a.principal,a.key) = none ∧
        operationFrom a.workspace a.operationId db = .ok operation ∧ a.Repeats operation ∧ after = { db with
          idempotency := db.idempotency.insert ⟨a.workspace,a.principal,a.key,"cell.operation.create",
            digestJson (.json a.envelope),.operation operation⟩ }) ∨
      ∃ cell, Admitted a operation cell db after := by
  simp only [createOperationTx,bind_ok] at created
  obtain ⟨response,lookup,created⟩ := created
  cases response with
  | some response =>
    simp only [bind_ok,pure_ok,Prod.mk.injEq] at created
    obtain ⟨previous,decoded,_,read,rfl,rfl⟩ := created
    rw [idempotentResponse] at lookup
    cases found : db.idempotency.find (a.workspace,a.principal,a.key) with
    | none => simp [found] at lookup
    | some receipt =>
      simp only [found] at lookup
      split at lookup
      · cases lookup
      · rename_i agrees
        obtain ⟨name,hash⟩ := not_or.mp agrees
        cases lookup
        refine .inl ⟨rfl,receipt,rfl,not_not.mp name,not_not.mp hash,previous,?_,read⟩
        cases kind : receipt.response <;> simp [kind,Response.asOperation] at decoded ⊢
        exact decoded
  | none =>
    have free : db.idempotency.find (a.workspace,a.principal,a.key) = none := by
      rw [idempotentResponse] at lookup
      cases found : db.idempotency.find (a.workspace,a.principal,a.key) with
      | none => rfl
      | some receipt =>
        simp only [found] at lookup
        split at lookup <;> cases lookup
    cases read : operationFrom a.workspace a.operationId db with
    | ok existing =>
      simp only [read,bind_ok,ensure_ok,pure_ok,Prod.mk.injEq] at created
      obtain ⟨_,repeats,final,record,rfl,rfl⟩ := created
      exact .inr (.inl ⟨free,rfl,repeats,(recordIdempotencyIn_ok.mp record).2⟩)
    | error error =>
      have absent : ∀ resource id, error = .notFound resource id → db.actions.find (a.workspace,a.operationId) = none := by
        rintro resource id rfl
        rw [operationFrom] at read
        cases found : db.actions.find (a.workspace,a.operationId) with
        | none => rfl
        | some row =>
          simp only [found] at read
          split at read <;> cases read
      simp only [read] at created
      cases error with
      | notFound resource id => exact .inr (.inr (insertOperation_ok (absent resource id rfl) created))
      | _ => cases created
end

end Proofstorm.Store
