import Proofstorm.Store.Frames
import Proofstorm.Store.Journal
import Proofstorm.Store.Tracking

/-!
Healing a network partition. `network_heal` asks that the partition succeeded in
the run that the heal is for, and an operation is admitted to an open run only.
So a partition can be healed for as long as its own run is open
(`partition_healable`); the closure of a run looks at operations in progress only,
and a partition that outlives its run cannot be healed any more (`healed_open`).
-/
namespace Proofstorm.Store
open Proofstorm.Core
open Proofstorm.Interleaving (query settle attempt)
open Proofstorm.Interleaving.Call (Alone alone_bind alone_pure alone_query alone_settle alone_submit alone_ite
  alone_attempt_query)

/-- `NetworkHealRequest`. -/
structure NetworkHealRequest where
  instanceId : String
  experimentId : String
  sessionId : String
  operationId : String
  partitionOperationId : String
  idempotencyKey : String
  deriving DecidableEq

/-- The request as it is recorded: without the session and the key, in the order of a map. -/
def NetworkHealRequest.payload (request : NetworkHealRequest) : Json :=
  .object [("name",.str request.instanceId),("partition_operation_id",.str request.partitionOperationId),
    ("request_id",.str request.operationId),("run_id",.str request.experimentId)]

/-- `admit_action`, for a heal. -/
def NetworkHealRequest.call (request : NetworkHealRequest) (workspace principal revisionDigest : String) : OperationCall :=
  { workspace := workspace
    principal := principal
    instanceId := request.instanceId
    experimentId := request.experimentId
    sessionId := request.sessionId
    operationId := request.operationId
    kind := .networkHeal
    request := request.payload
    key := request.idempotencyKey
    capability := .networkHeal
    expectedRevision := some revisionDigest }

/-- `invalid_operation`. -/
def invalidOperation (message : String) : StoreError := .cellUpdate "invalid_operation" message

section
variable [CoreFunctions]

/-- `operation_run_id`. -/
def operationRunId (workspace principal instanceId requested : String) (capability : Capability) : Program String := do
  query (authorize workspace principal capability)
  if requested = "" then implicitRunId workspace principal instanceId else pure requested

/-- `operation_context`. -/
def operationContext (workspace principal instanceId : String) (capability : Capability) :
    Program (CellInstance × PublishedRevision) := do
  query (authorize workspace principal capability)
  let cell ← query (instanceUnchecked workspace instanceId)
  let revision ← query (revisionUnchecked workspace cell.revisionDigest)
  pure (cell,revision)

/-- What `operation_context_for` makes of the operation that has the id, if any. -/
def contextOf (workspace principal instanceId operationId : String) (current : CellInstance × PublishedRevision) :
    Except StoreError CellOperation → Program (CellInstance × PublishedRevision)
  | .ok operation => do
    settle (ensure (¬ (operation.instanceId ≠ instanceId ∨ operation.principalId ≠ principal))
      (.conflict "operation" operationId))
    let revision ← query (revisionUnchecked workspace operation.revisionDigest)
    pure ({ current.1 with revisionDigest := revision.digest, lockDigest := revision.lock.digest },revision)
  | .error (.notFound _ _) => pure current
  | .error error => throw error

/-- `operation_context_for`: a replay is rendered against the configuration it was admitted with. -/
def operationContextFor (workspace principal instanceId operationId : String) (capability : Capability) :
    Program (CellInstance × PublishedRevision) := do
  let current ← operationContext workspace principal instanceId capability
  let found ← attempt (query (operationFrom workspace operationId))
  contextOf workspace principal instanceId operationId current found

/-- `Store::operation`. -/
def operation (workspace principal id : String) : Program CellOperation := do
  query (authorize workspace principal .artifactRead)
  query (operationFrom workspace id)

/-- `Cells::network_heal`, up to the submission of what it has admitted. -/
def networkHeal (workspace principal : String) (request : NetworkHealRequest) (contextId : String)
    (runAt sessionAt acceptedAt : Int) : Program CellOperation := do
  query (authorize workspace principal .networkHeal)
  let run ← operationRunId workspace principal request.instanceId request.experimentId .networkHeal
  let request := { request with experimentId := run }
  let (cell,_) ← operationContextFor workspace principal request.instanceId request.operationId .networkHeal
  let partition ← operation workspace principal request.partitionOperationId
  settle (ensure (¬ (partition.kind ≠ .networkPartition ∨ partition.instanceId ≠ request.instanceId ∨
      partition.experimentId ≠ request.experimentId ∨ partition.phase ≠ .succeeded))
    (invalidOperation "partition operation must be succeeded and belong to the same instance and experiment"))
  createOperation (request.call workspace principal cell.revisionDigest) contextId runAt sessionAt acceptedAt

/-! ### What healing asks for -/

/-- The capabilities that healing asks for. -/
def healing : List Capability := [.networkHeal,.artifactRead,.cellOperate]

/-- The cell is there and does not close. -/
structure OpenCell (workspace id : String) (db : Db) : Prop where
  live : db.instances.has (workspace,id)
  handles : ∀ handle ∈ db.cellHandles, handle.workspaceId = workspace → handle.instanceId = id → handle.phase = .opened
  opened : (updateState workspace id db).closing = false

/-- No heal of the partition is recorded as succeeded. -/
def Unhealed (partition : ActionRow) (db : Db) : Prop :=
  ∀ action ∈ db.actions, action.workspaceId = partition.workspaceId → action.kind = .networkHeal →
    action.phase = .succeeded → action.request.get "partition_operation_id" ≠ some (.str partition.id)

/-- The principal has a request to heal the partition that passes and is admitted. -/
def Healable (principal : String) (partition : ActionRow) (db : Db) : Prop :=
  ∃ request contextId runAt sessionAt acceptedAt operation after, request.partitionOperationId = partition.id ∧
    Alone execute (networkHeal partition.workspaceId principal request contextId runAt sessionAt acceptedAt) db operation
      after ∧ operation.kind = .networkHeal

/-! ### What an admitted heal shows -/

section
variable {db after : Db}

variable {principal instanceId requested contextId : String}

theorem authorizeOperationAccess_alone {workspace : String} {kind : OperationKind} {request : Json}
    {u : PUnit} (passed : Alone execute (authorizeOperationAccess workspace principal instanceId kind request) db u after) :
    after = db := by
  simp only [authorizeOperationAccess,alone_bind,alone_attempt_query] at passed
  obtain ⟨outcome,_,⟨_,rfl⟩,passed⟩ := passed
  cases outcome with
  | ok _ => exact (alone_pure.mp passed).2.symm
  | error _ => exact (alone_query.mp passed).2.symm

/-- Tracking a session writes sessions only. -/
theorem trackSession_alone {workspace experiment : String} {now : Int} {session : Session}
    (tracked : Alone execute (trackSession workspace principal experiment requested contextId now) db session after) :
    ∃ sessions, after = { db with sessions := sessions } := by
  simp only [trackSession,alone_bind,alone_query,alone_settle,alone_submit] at tracked
  obtain ⟨_,_,⟨_,rfl⟩,_,_,⟨_,rfl⟩,executed⟩ := tracked
  obtain ⟨_,_,_,_,_,rfl | ⟨_,_,_,_,_,rfl⟩⟩ := trackSessionTx_ok executed
  · exact ⟨after.sessions,rfl⟩
  · exact ⟨_,rfl⟩

omit [CoreFunctions] in
private theorem operationFrom_kind {workspace id : String} {operation : CellOperation}
    (read : operationFrom workspace id db = .ok operation) :
    ∃ old ∈ db.actions, old.workspaceId = workspace ∧ old.kind = operation.kind := by
  obtain ⟨row,member,_,_,home,_,_,_,rfl⟩ := operationFrom_ok.mp read
  exact ⟨row,member,home,rfl⟩

/-- What a run admits by itself: an operation of a kind that is there, or one of
    an open run that no pending update refuses. -/
theorem createOperation_alone {c : OperationCall} {runAt sessionAt acceptedAt : Int}
    {operation : CellOperation} (named : c.experimentId ≠ "") (work : c.kind ≠ .componentLogs)
    (ended : Alone execute (createOperation c contextId runAt sessionAt acceptedAt) db operation after) :
    (∃ old ∈ db.actions, old.workspaceId = c.workspace ∧ old.kind = operation.kind) ∨
      (∃ run ∈ db.experiments, run.workspaceId = c.workspace ∧ run.id = c.experimentId ∧ run.phase = .active) ∧
        ∀ plan ∈ pendingPlans c.workspace c.instanceId (updateState c.workspace c.instanceId db).appliedGeneration db,
          references plan.affected (normalizeRequest c.request c.experimentId) = false := by
  simp only [createOperation,resolveRun,if_neg named,alone_bind,alone_query,alone_settle,alone_pure] at ended
  obtain ⟨_,_,⟨_,rfl⟩,_,_,⟨_,rfl⟩,_,_,⟨_,rfl⟩,_,_,⟨rfl,rfl⟩,ended⟩ := ended
  simp only [retried,alone_bind,alone_query] at ended
  obtain ⟨response,_,⟨_,rfl⟩,ended⟩ := ended
  cases response with
  | some response =>
    simp only [alone_bind,alone_settle,alone_query] at ended
    obtain ⟨_,_,⟨_,rfl⟩,read,rfl⟩ := ended
    exact .inl (operationFrom_kind read)
  | none =>
    simp only [admitFresh,if_neg named,alone_bind,alone_query,alone_settle,alone_submit] at ended
    obtain ⟨_,_,passed,_,_,⟨_,rfl⟩,_,_,⟨_,rfl⟩,session,_,tracked,executed⟩ := ended
    obtain rfl := authorizeOperationAccess_alone passed
    obtain ⟨sessions,rfl⟩ := trackSession_alone tracked
    rcases createOperationTx_ok executed with ⟨_,_,_,_,_,_,_,read⟩ | ⟨_,read,_⟩ | ⟨cell,admitted⟩
    · exact .inl (operationFrom_kind read)
    · exact .inl (operationFrom_kind read)
    · obtain ⟨run,present,home,same,_,active⟩ := admitted.run
      exact .inr ⟨⟨run,present,home,same,active⟩,admitted.settled work⟩

theorem operationContextFor_alone {workspace operationId : String} {capability : Capability}
    {context : CellInstance × PublishedRevision}
    (read : Alone execute (operationContextFor workspace principal instanceId operationId capability) db context after) :
    after = db := by
  simp only [operationContextFor,operationContext,alone_bind,alone_query,alone_pure,alone_attempt_query] at read
  obtain ⟨_,_,⟨_,_,⟨_,rfl⟩,_,_,⟨_,rfl⟩,_,_,⟨_,rfl⟩,rfl,rfl⟩,found,_,⟨_,rfl⟩,read⟩ := read
  cases found with
  | ok operation =>
    simp only [contextOf,alone_bind,alone_settle,alone_query,alone_pure] at read
    obtain ⟨_,_,⟨_,rfl⟩,_,_,⟨_,rfl⟩,_,rfl⟩ := read
    rfl
  | error error =>
    cases error with
    | notFound => exact (alone_pure.mp read).2.symm
    | _ => cases read

theorem operationRunId_alone {workspace run : String} {capability : Capability}
    (resolved : Alone execute (operationRunId workspace principal instanceId requested capability) db run after) :
    after = db := by
  simp only [operationRunId,implicitRunId,alone_bind,alone_query,alone_ite,alone_pure] at resolved
  obtain ⟨_,_,⟨_,rfl⟩,resolved⟩ := resolved
  split at resolved
  · obtain ⟨_,_,⟨_,rfl⟩,_,rfl⟩ := resolved
    rfl
  · exact resolved.2.symm

omit [CoreFunctions] in
/-- The run of a heal is written into it already. -/
theorem normalize_payload (request : NetworkHealRequest) :
    normalizeRequest request.payload request.experimentId = request.payload := by
  simp [NetworkHealRequest.payload,normalizeRequest,Json.object,Fields.ofList,Fields.toList,Fields.replace]

omit [CoreFunctions] in
theorem references_payload (ids : List String) (request : NetworkHealRequest) :
    references ids request.payload = false ↔ request.instanceId ∉ ids ∧ request.partitionOperationId ∉ ids ∧
      request.operationId ∉ ids ∧ request.experimentId ∉ ids := by
  simp [NetworkHealRequest.payload,Json.object,Fields.ofList,references,referencesFields]

/-- A heal is admitted while the run of its partition is open and no pending
    update changes a component of the partition's id, unless one was before. -/
theorem healed_open {partition : ActionRow} (member : partition ∈ db.actions)
    (filed : partition.experimentId ≠ "") (healable : Healable principal partition db) :
    (∃ old ∈ db.actions, old.workspaceId = partition.workspaceId ∧ old.kind = .networkHeal) ∨
      (∃ run ∈ db.experiments, run.workspaceId = partition.workspaceId ∧ run.id = partition.experimentId ∧
        run.phase = .active) ∧
      ∀ plan ∈ pendingPlans partition.workspaceId partition.instanceId
        (updateState partition.workspaceId partition.instanceId db).appliedGeneration db, partition.id ∉ plan.affected := by
  obtain ⟨request,contextId,runAt,sessionAt,acceptedAt,operation,after,named,ended,kind⟩ := healable
  simp only [networkHeal,Store.operation,alone_bind,alone_query,alone_settle] at ended
  obtain ⟨_,_,⟨_,rfl⟩,run,_,resolved,context,_,read,found,_,⟨_,_,⟨_,rfl⟩,seen,rfl⟩,_,_,⟨checked,rfl⟩,ended⟩ := ended
  obtain rfl := operationRunId_alone resolved
  obtain rfl := operationContextFor_alone read
  obtain ⟨row,present,_,_,home,same,_,_,rfl⟩ := operationFrom_ok.mp seen
  obtain rfl : row = partition := Table.eq_of_key present member (Prod.ext home (same.trans named))
  simp only [ensure_ok,ActionRow.toOperation,not_or,not_not] at checked
  obtain ⟨_,here,there,_⟩ := checked
  rcases createOperation_alone (by exact there ▸ filed)
      (show OperationKind.networkHeal ≠ .componentLogs by decide) ended with ⟨old,before,where_,alike⟩ | ⟨open_,settled⟩
  · exact .inl ⟨old,before,where_,alike.trans kind⟩
  · refine .inr ⟨there ▸ open_,fun plan pending => ?_⟩
    have clear : references plan.affected ({ request with experimentId := run } : NetworkHealRequest).payload = false := by
      rw [← normalize_payload]
      exact settled plan (by rw [here] at pending; exact pending)
    exact named ▸ ((references_payload _ _).mp clear).2.1
end

/-! ### What admits a heal -/

/-- The id of the session that the search ends with. -/
def SessionSearch.id : SessionSearch → String
  | .found session => session.id
  | .free id => id

/-- The session that a request without one is filed under, where the search for it ends. -/
def automaticSession (workspace principal experiment contextId : String) (db : Db) : Option String :=
  let context := digestJson (.context workspace principal experiment contextId)
  (searchSession workspace principal experiment "" context db (db.sessions.rows.length + 2) (sessionId context) 0).map
    SessionSearch.id

theorem trackSession_ends {workspace principal experiment contextId session : String} (now : Int) {run : Experiment}
    (hex : HexDigests) (present : db.experiments.find (workspace,experiment) = some run)
    (search : automaticSession workspace principal experiment contextId db = some session)
    (workspaces : db.workspaces.has workspace) (principals : db.principals.has principal)
    (instances : db.instances.has (workspace,run.instanceId)) :
    ∃ stored sessions, Alone execute (trackSession workspace principal experiment "" contextId now) db stored
        { db with sessions := sessions } ∧ stored.id = session ∧ sessions.has (workspace,session) := by
  obtain ⟨result,ended,rfl⟩ := Option.map_eq_some_iff.mp search
  have slug := sessionId_slug hex (.context workspace principal experiment contextId)
  have home : db.experiments.has (workspace,experiment) := Table.has_of_find present
  have tracked : ∃ stored sessions, trackSessionTx workspace principal experiment run.instanceId ""
      (digestJson (.context workspace principal experiment contextId))
      (sessionId (digestJson (.context workspace principal experiment contextId))) now db =
        .ok (stored,{ db with sessions := sessions }) ∧ stored.id = result.id ∧ sessions.has (workspace,result.id) := by
    simp only [trackSessionTx,ended,require_some,ok_bind]
    cases result with
    | found stored =>
      obtain ⟨member,there,_⟩ := searchSession_found ended
      exact ⟨stored,db.sessions,rfl,rfl,stored,member,Prod.ext there rfl⟩
    | free id =>
      rw [ensure_of ⟨workspaces,principals,home,instances⟩]
      exact ⟨_,_,rfl,rfl,Table.has_insert db.sessions
        ⟨id,workspace,experiment,run.instanceId,principal,.active,now,now,none⟩⟩
  obtain ⟨stored,sessions,executed,same,there⟩ := tracked
  exact ⟨stored,sessions,trackSession_of present slug executed,same,there⟩

omit [CoreFunctions] in
private theorem le_foldl_max {list : List Nat} {start : Nat} :
    start ≤ list.foldl max start ∧ ∀ n ∈ list, n ≤ list.foldl max start := by
  induction list generalizing start with
  | nil => simp
  | cons head tail ih =>
    obtain ⟨above,all⟩ := @ih (max start head)
    refine ⟨(Nat.le_max_left _ _).trans above,fun n member => ?_⟩
    rcases List.mem_cons.mp member with rfl | later
    · exact (Nat.le_max_right _ _).trans above
    · exact all n later

omit [CoreFunctions] in
/-- The sequence numbers of an instance do not exceed the last. -/
theorem le_lastSequence {action : ActionRow} (member : action ∈ db.actions) :
    action.sequence ≤ lastSequence action.workspaceId action.instanceId db :=
  le_foldl_max.2 _ (List.mem_map_of_mem (List.mem_filter.mpr ⟨member,by simp⟩))

/-- An operation that nothing was recorded for is admitted. -/
theorem insertOperation_ends (a : Admission) (db : Db) {cell : InstanceRow} {run : Experiment}
    (unrecorded : db.idempotency.find (a.workspace,a.principal,a.key) = none)
    (unused : db.actions.find (a.workspace,a.operationId) = none)
    (untraced : db.operationRevisions.find (a.workspace,a.operationId) = none)
    (present : db.experiments.find (a.workspace,a.experimentId) = some run) (there : run.instanceId = a.instanceId)
    (active : run.phase = .active) (open_ : OpenCell a.workspace a.instanceId db)
    (live : db.instances.find (a.workspace,a.instanceId) = some cell) (session : db.sessions.has (a.workspace,a.sessionId))
    (applied : (updateState a.workspace a.instanceId db).appliedGeneration < versionLimit)
    (settled : ∀ plan ∈ pendingPlans a.workspace a.instanceId (updateState a.workspace a.instanceId db).appliedGeneration db,
      references plan.affected a.request = false)
    (expected : ∀ digest, a.expectedRevision = some digest → digest = cell.revisionDigest)
    (room : lastSequence a.workspace a.instanceId db + 1 < versionLimit)
    (resource : ∀ action ∈ db.actions, action.resourceName ≠ (a.row 0).resourceName)
    (alike : ∀ action ∈ db.actions, action.workspaceId = a.workspace → action.experimentId = a.experimentId →
      action.instanceId = a.instanceId) :
    ∃ after, insertOperation a db =
      .ok ((a.row (lastSequence a.workspace a.instanceId db + 1)).toOperation cell.revisionDigest,after) := by
  obtain ⟨held,keyed⟩ := Table.find_eq_some.mp present
  have sequence : ∀ action ∈ db.actions, action.workspaceId = a.workspace → action.experimentId = a.experimentId →
      action.sequence ≠ lastSequence a.workspace a.instanceId db + 1 := by
    intro action member home filed
    have below := le_lastSequence member
    rw [home,alike action member home filed] at below
    omega
  have recorded : (db.operationRevisions.insert ⟨a.workspace,a.operationId,cell.revisionDigest⟩).find
      (a.workspace,a.operationId) = some ⟨a.workspace,a.operationId,cell.revisionDigest⟩ := by
    rw [Table.find_insert,untraced,Option.none_or]
    exact if_pos rfl
  have admitted : admitOperation a.workspace a.instanceId a.operationId a.request a.kind
      (touchSession a.workspace a.sessionId a.acceptedAt db) = .ok (cell.revisionDigest,
        { touchSession a.workspace a.sessionId a.acceptedAt db with
          operationRevisions := db.operationRevisions.insert ⟨a.workspace,a.operationId,cell.revisionDigest⟩ }) := by
    simp only [admitOperation,bind_ok,ensure_ok,sqlVersion_ok,require_ok,pure_ok]
    have clear : ∀ plan ∈ pendingPlans a.workspace a.instanceId
        (updateState a.workspace a.instanceId db).appliedGeneration db,
        ¬ (a.kind ≠ .componentLogs ∧ references plan.affected a.request = true) :=
      fun plan pending refused => Bool.false_ne_true ((settled plan pending).symm.trans refused.2)
    exact ⟨⟨⟩,open_.opened,_,⟨applied,rfl⟩,⟨⟩,clear,cell,live,_,recorded,rfl⟩
  have touched : (touchSession a.workspace a.sessionId a.acceptedAt db).sessions.has (a.workspace,a.sessionId) := by
    obtain ⟨row,member,same⟩ := session
    obtain ⟨home,named⟩ := Prod.mk.inj same
    exact ⟨_,mem_touchSession.mpr (.inr ⟨row,member,⟨home,named⟩,rfl⟩),same⟩
  have free : ¬ db.actions.has (a.workspace,a.operationId) := Table.not_has.mpr unused
  have inserted : ∃ final, insertAction (a.row (lastSequence a.workspace a.instanceId db + 1))
      { touchSession a.workspace a.sessionId a.acceptedAt db with
        operationRevisions := db.operationRevisions.insert ⟨a.workspace,a.operationId,cell.revisionDigest⟩ } =
          .ok final ∧ final.idempotency.find (a.workspace,a.principal,a.key) = none := by
    simp only [insertAction,bind_ok,ensure_ok,require_ok,pure_ok]
    exact ⟨_,⟨⟨⟩,⟨free,fun other member => ⟨resource other member,fun same =>
      sequence other member same.1 same.2.1 same.2.2⟩⟩,cell,live,⟨⟩,⟨Table.has_of_find present,touched⟩,rfl⟩,unrecorded⟩
  obtain ⟨final,written,fresh⟩ := inserted
  simp only [insertOperation,bind_ok,ensure_ok,pure_ok,Prod.mk.injEq]
  refine ⟨_,⟨⟩,⟨run,held,congrArg Prod.fst keyed,congrArg Prod.snd keyed,there,active⟩,⟨⟩,?_,_,admitted,⟨⟩,expected,_,
    sqlVersion_ok.mpr ⟨room,rfl⟩,final,written,_,recordIdempotencyIn_ok.mpr ⟨fresh,rfl⟩,rfl,rfl⟩
  intro handle found
  obtain ⟨member,home,same⟩ := handleOf_eq_some found
  exact open_.handles handle member home same

/-- Where neither the key nor the id was used, the transaction inserts. -/
theorem createOperationTx_fresh {a : Admission} (unrecorded : db.idempotency.find (a.workspace,a.principal,a.key) = none)
    (unused : db.actions.find (a.workspace,a.operationId) = none) : createOperationTx a db = insertOperation a db := by
  have first : operationFrom a.workspace a.operationId db = .error (.notFound "operation" a.operationId) := by
    rw [operationFrom,unused]
  rw [createOperationTx,idempotentResponse_none.mpr unrecorded,ok_bind]
  simp only [first]

/-- The heal of a partition, filed under its own run. -/
def ActionRow.heal (partition : ActionRow) (id : String) : NetworkHealRequest :=
  ⟨partition.instanceId,partition.experimentId,"",id,partition.id,id⟩

/-- The id of a heal is new, and the short digests that its admission draws are not taken. -/
structure Unclaimed (principal : String) (partition : ActionRow) (id contextId session : String) (db : Db) : Prop where
  slug : isSlug id = true
  unused : db.actions.find (partition.workspaceId,id) = none
  unrecorded : db.idempotency.find (partition.workspaceId,principal,id) = none
  tracked : automaticSession partition.workspaceId principal partition.experimentId contextId db = some session
  resource : ∀ action ∈ db.actions, action.resourceName ≠ "op-" ++ slice (digestJson (.operation partition.workspaceId
    partition.instanceId session id .networkHeal (partition.heal id).payload)) 7 26

/-- The revision of a live instance is that of its workspace. -/
theorem revision_read {config : Config} (reached : Reached config) (distinct : CollisionFree config.log)
    {row : InstanceRow} (live : row ∈ config.state.instances) :
    ∃ revision, revisionUnchecked row.workspaceId row.revisionDigest config.state = .ok revision := by
  obtain ⟨vouched,_⟩ := reached.warranted _ reached.vetted
  obtain ⟨⟨stored,member,same⟩,revision,vetted,digest,home,_⟩ := (anchored_run reached).1 row live
  obtain ⟨agrees,publisher,published⟩ := vouched stored member
  have one : stored.revision = revision :=
    distinct _ published.2 _ vetted.2 (agrees.trans (Eq.trans same digest.symm))
  exact ⟨stored.revision,revisionUnchecked_ok.mpr ⟨stored,member,same,by rw [← publisher,one,home],rfl⟩⟩

/-- A principal with the capabilities of healing is let through to the admission. -/
theorem createOperation_ends {config : Config} (reached : Reached config) (hex : HexDigests) {partition : ActionRow}
    (member : partition ∈ config.state.actions) (open_ : OpenCell partition.workspaceId partition.instanceId config.state)
    {run : Experiment} (present : run ∈ config.state.experiments) (home : run.workspaceId = partition.workspaceId)
    (filed : run.id = partition.experimentId) (active : run.phase = .active) {principal : String}
    (holds : ∀ capability ∈ healing, config.state.grants.has (partition.workspaceId,principal,capability))
    {id contextId session : String} (unclaimed : Unclaimed principal partition id contextId session config.state)
    (room : lastSequence partition.workspaceId partition.instanceId config.state + 1 < versionLimit)
    (settled : ∀ plan ∈ pendingPlans partition.workspaceId partition.instanceId
      (updateState partition.workspaceId partition.instanceId config.state).appliedGeneration config.state,
      ∀ text ∈ [partition.instanceId,partition.experimentId,partition.id,id], text ∉ plan.affected)
    {cell : InstanceRow} (live : config.state.instances.find (partition.workspaceId,partition.instanceId) = some cell)
    (runAt sessionAt acceptedAt : Int) :
    ∃ operation after, Alone execute (createOperation ((partition.heal id).call partition.workspaceId principal
        cell.revisionDigest) contextId runAt sessionAt acceptedAt) config.state operation after ∧
      operation.kind = .networkHeal ∧ operation.id = id ∧ operation.phase = .pending ∧
        operation.request = (partition.heal id).payload := by
  have closed := reached.closed.1
  have journalled := journalled_run reached
  obtain ⟨enrolled,named⟩ := enrolled_run reached
  have foundRun : config.state.experiments.find (partition.workspaceId,partition.experimentId) = some run :=
    Table.find_eq_some.mpr ⟨present,Prod.ext home filed⟩
  have nonempty : partition.experimentId ≠ "" := filed ▸ named run present
  -- Actions of one run are of one instance.
  have alike : ∀ action ∈ config.state.actions, action.workspaceId = partition.workspaceId →
      action.experimentId = partition.experimentId → action.instanceId = run.instanceId := by
    intro action held there owner
    obtain ⟨other,is,home_,same,cell_⟩ := closed.owned action held
    have one := run_unique is present (home_.trans (there.trans home.symm)) (same.trans (owner.trans filed.symm))
    exact cell_.symm.trans (congrArg Experiment.instanceId one)
  have there : run.instanceId = partition.instanceId := (alike partition member rfl rfl).symm
  obtain ⟨granted,mem,same⟩ := holds .networkHeal (by simp [healing])
  obtain ⟨workspaces,principals⟩ := enrolled granted mem
  have ws : granted.workspaceId = partition.workspaceId := congrArg Prod.fst same
  have who : granted.principalId = principal := congrArg (fun k => k.2.1) same
  rw [ws] at workspaces
  rw [who] at principals
  have may : ∀ capability ∈ healing,
      (authorize partition.workspaceId principal capability config.state : Except StoreError Unit) = .ok () :=
    fun capability listed => ensure_of (holds capability listed)
  obtain ⟨stored,sessions,tracked,same_,here⟩ := trackSession_ends sessionAt hex foundRun unclaimed.tracked workspaces
    principals (there ▸ open_.live)
  have normal : normalizeRequest (partition.heal id).payload partition.experimentId = (partition.heal id).payload :=
    normalize_payload (partition.heal id)
  -- What the admitting transaction does.
  have admitted : ∃ operation after, createOperationTx (((partition.heal id).call partition.workspaceId principal
        cell.revisionDigest).admission partition.experimentId stored.id acceptedAt)
      { config.state with sessions := sessions } = .ok (operation,after) ∧ operation.kind = .networkHeal ∧
        operation.id = id ∧ operation.phase = .pending ∧ operation.request = (partition.heal id).payload := by
    have untraced : config.state.operationRevisions.find (partition.workspaceId,id) = none := by
      refine Table.not_has.mp fun ⟨row,recorded,keyed⟩ => ?_
      have taken := journalled.traced row recorded
      rw [show (row.workspaceId,row.operationId) = (partition.workspaceId,id) from keyed] at taken
      exact Table.not_has.mpr unclaimed.unused taken
    have clear : ∀ plan ∈ pendingPlans partition.workspaceId partition.instanceId
        (updateState partition.workspaceId partition.instanceId config.state).appliedGeneration config.state,
        references plan.affected (normalizeRequest (partition.heal id).payload partition.experimentId) = false := by
      intro plan pending
      have apart := settled plan pending
      rw [normal,references_payload]
      exact ⟨apart _ (by simp [ActionRow.heal]),apart _ (by simp [ActionRow.heal]),apart _ (by simp [ActionRow.heal]),
        apart _ (by simp [ActionRow.heal])⟩
    have resource : ∀ action ∈ config.state.actions, action.resourceName ≠
        ((((partition.heal id).call partition.workspaceId principal cell.revisionDigest).admission
          partition.experimentId stored.id acceptedAt).row 0).resourceName := by
      intro action held
      have free := unclaimed.resource action held
      rw [← same_,← normal] at free
      exact free
    obtain ⟨after,inserted⟩ := insertOperation_ends (((partition.heal id).call partition.workspaceId principal
      cell.revisionDigest).admission partition.experimentId stored.id acceptedAt) { config.state with sessions := sessions }
      unclaimed.unrecorded
      unclaimed.unused untraced foundRun there active ⟨open_.live,open_.handles,open_.opened⟩ live (same_ ▸ here)
      (journalled.applied _ _) clear (fun _ same => (Option.some.inj same).symm) room resource
      fun action held home owner => (alike action held home owner).trans there
    exact ⟨_,after,(createOperationTx_fresh unclaimed.unrecorded unclaimed.unused).trans inserted,rfl,rfl,rfl,normal⟩
  obtain ⟨operation,after,executed,facts⟩ := admitted
  refine ⟨operation,after,?_,facts⟩
  have filedRun : ((partition.heal id).call partition.workspaceId principal cell.revisionDigest).experimentId ≠ "" := nonempty
  simp only [createOperation,resolveRun,if_neg filedRun,retried,alone_bind,alone_query,alone_settle,alone_pure]
  obtain ⟨held,keyed⟩ := Table.find_eq_some.mp live
  refine ⟨(),_,⟨may .networkHeal (by simp [healing]),rfl⟩,(),_,⟨ensure_of unclaimed.slug,rfl⟩,_,_,
    ⟨instanceUnchecked_ok.mpr ⟨cell,held,congrArg Prod.fst keyed,congrArg Prod.snd keyed,rfl⟩,rfl⟩,_,_,⟨rfl,rfl⟩,none,_,
    ⟨idempotentResponse_none.mpr unclaimed.unrecorded,rfl⟩,?_⟩
  simp only [admitFresh,if_neg filedRun,alone_bind,alone_query,alone_settle,alone_submit]
  refine ⟨⟨⟩,_,?_,run,_,⟨?_,rfl⟩,⟨⟩,_,⟨ensure_of ⟨there,active⟩,rfl⟩,stored,_,tracked,executed⟩
  · simp only [authorizeOperationAccess,alone_bind,alone_attempt_query]
    exact ⟨.ok (),_,⟨may .cellOperate (by simp [healing]),rfl⟩,alone_pure.mpr ⟨rfl,rfl⟩⟩
  · exact require_ok.mpr foundRun

/-- The checks of `network_heal` let the heal of a partition pass. -/
theorem networkHeal_ends {config : Config} (reached : Reached config) (distinct : CollisionFree config.log)
    {partition : ActionRow} (member : partition ∈ config.state.actions) (kind : partition.kind = .networkPartition)
    (succeeded : partition.phase = .succeeded) {principal : String}
    (holds : ∀ capability ∈ healing, config.state.grants.has (partition.workspaceId,principal,capability))
    {id contextId session : String} (unclaimed : Unclaimed principal partition id contextId session config.state)
    {cell : InstanceRow} (live : config.state.instances.find (partition.workspaceId,partition.instanceId) = some cell)
    (filed : partition.experimentId ≠ "") {runAt sessionAt acceptedAt : Int} {operation : CellOperation} {after : Db}
    (admitted : Alone execute (createOperation ((partition.heal id).call partition.workspaceId principal
      cell.revisionDigest) contextId runAt sessionAt acceptedAt) config.state operation after) :
    Alone execute (networkHeal partition.workspaceId principal (partition.heal id) contextId runAt sessionAt acceptedAt)
      config.state operation after := by
  have may : ∀ capability ∈ healing,
      (authorize partition.workspaceId principal capability config.state : Except StoreError Unit) = .ok () :=
    fun capability listed => ensure_of (holds capability listed)
  obtain ⟨held,keyed⟩ := Table.find_eq_some.mp live
  have home : cell.workspaceId = partition.workspaceId := congrArg Prod.fst keyed
  have named : cell.id = partition.instanceId := congrArg Prod.snd keyed
  obtain ⟨revision,read⟩ := revision_read reached distinct held
  obtain ⟨recorded,traced,same⟩ := (journalled_run reached).revised partition member
  have first : operationFrom partition.workspaceId id config.state = .error (.notFound "operation" id) := by
    rw [operationFrom,unclaimed.unused]
  have seen : operationFrom partition.workspaceId partition.id config.state =
      .ok (partition.toOperation recorded.revisionDigest) :=
    operationFrom_ok.mpr ⟨partition,member,recorded,traced,rfl,rfl,congrArg Prod.fst same,congrArg Prod.snd same,rfl⟩
  obtain ⟨current,mine,digest⟩ : ∃ current, instanceUnchecked partition.workspaceId partition.instanceId config.state =
      .ok current ∧ current.revisionDigest = cell.revisionDigest :=
    ⟨_,instanceUnchecked_ok.mpr ⟨cell,held,home,named,rfl⟩,rfl⟩
  have resolved : Alone execute (operationRunId partition.workspaceId principal partition.instanceId
      partition.experimentId .networkHeal) config.state partition.experimentId config.state := by
    simp only [operationRunId,if_neg filed,alone_bind,alone_query,alone_pure,true_and]
    exact ⟨(),_,⟨may .networkHeal (by simp [healing]),rfl⟩,rfl⟩
  have context : Alone execute (operationContextFor partition.workspaceId principal partition.instanceId id .networkHeal)
      config.state (current,revision) config.state := by
    simp only [operationContextFor,operationContext,alone_bind,alone_query,alone_pure,alone_attempt_query]
    exact ⟨_,_,⟨(),_,⟨may .networkHeal (by simp [healing]),rfl⟩,_,_,⟨mine,rfl⟩,revision,_,⟨home ▸ digest ▸ read,rfl⟩,
      rfl,rfl⟩,_,_,⟨first,rfl⟩,alone_pure.mpr ⟨rfl,rfl⟩⟩
  simp only [networkHeal,Store.operation,alone_bind,alone_query,alone_settle]
  refine ⟨(),_,⟨may .networkHeal (by simp [healing]),rfl⟩,_,_,resolved,_,_,context,_,_,
    ⟨(),_,⟨may .artifactRead (by simp [healing]),rfl⟩,seen,rfl⟩,⟨⟩,_,⟨ensure_of ?_,rfl⟩,digest ▸ admitted⟩
  simp [ActionRow.toOperation,ActionRow.heal,kind,succeeded]

/-- No fault outlives the means to heal it while its run is open. The principal
    that made a partition, or any other with the capabilities, has a request that
    `network_heal` lets pass and that is admitted: the one that names the run of the
    partition, under an id that is new. -/
theorem partition_healable {config : Config} (reached : Reached config) (distinct : CollisionFree config.log)
    (hex : HexDigests) {partition : ActionRow} (member : partition ∈ config.state.actions)
    (kind : partition.kind = .networkPartition) (succeeded : partition.phase = .succeeded)
    (open_ : OpenCell partition.workspaceId partition.instanceId config.state) {run : Experiment}
    (present : run ∈ config.state.experiments) (home : run.workspaceId = partition.workspaceId)
    (filed : run.id = partition.experimentId) (active : run.phase = .active) {principal : String}
    (holds : ∀ capability ∈ healing, config.state.grants.has (partition.workspaceId,principal,capability))
    {id contextId session : String} (unclaimed : Unclaimed principal partition id contextId session config.state)
    (room : lastSequence partition.workspaceId partition.instanceId config.state + 1 < versionLimit)
    (settled : ∀ plan ∈ pendingPlans partition.workspaceId partition.instanceId
      (updateState partition.workspaceId partition.instanceId config.state).appliedGeneration config.state,
      ∀ text ∈ [partition.instanceId,partition.experimentId,partition.id,id], text ∉ plan.affected)
    (runAt sessionAt acceptedAt : Int) :
    ∃ operation after, Alone execute (networkHeal partition.workspaceId principal (partition.heal id) contextId runAt
        sessionAt acceptedAt) config.state operation after ∧
      operation.kind = .networkHeal ∧ operation.id = id ∧ operation.phase = .pending ∧
        operation.request = (partition.heal id).payload := by
  have nonempty : partition.experimentId ≠ "" := filed ▸ (enrolled_run reached).2 run present
  obtain ⟨cell,live⟩ := Option.isSome_iff_exists.mp (Table.find_isSome.mpr open_.live)
  obtain ⟨operation,after,admitted,facts⟩ := createOperation_ends reached hex member open_ present home filed active holds
    unclaimed room settled live runAt sessionAt acceptedAt
  exact ⟨operation,after,networkHeal_ends reached distinct member kind succeeded holds unclaimed live nonempty admitted,
    facts⟩

end

section
attribute [local instance] CoreFunctions.sample

/-- A cell of two nodes, whose owner may partition and heal it, with a partition
    that has succeeded under an id. -/
def partitioned (id : String) : List Request :=
  prepared [("one",["alice","bob"]),("two",["bob"])] ++
    ([Capability.networkPartition,.networkHeal,.artifactRead].map fun capability => .grant "w" "p" capability) ++
    [sampleInstance "cell-1" "n" "k1" ["alice","bob"],.createExperiment "w" "p" "run-1" "cell-1" "k2" 0,
      .createOperation ⟨"w","p","cell-1","run-1","",id,.networkPartition,.object [("name",.str "cell-1"),
        ("request_id",.str id),("run_id",.str "run-1")],id,.networkPartition,none⟩ "context" 0 1 1,
      .recordOperationResult "w" id .succeeded .null 2]

/-- The run of the partition is closed. -/
def stranded : Config := ran (inTurn (partitioned "outage" ++ [.closeExperiment "w" "p" "run-1" "k3" 3]))

/-- The partition has the id of a component that an update, not yet applied, removes. -/
def shadowed : Config :=
  ran (inTurn (partitioned "alice" ++ sampleEdit "p" "n" "k3" ⟨"cell-1",1,false,[]⟩ ["alice","bob"] ["bob"]))

/-- The property for the partitions of a kind. -/
def EveryHealable (kept : ActionRow → Db → Prop) : Prop :=
  ∀ config : Config, Reached config → ∀ partition ∈ config.state.actions, partition.kind = .networkPartition →
    partition.phase = .succeeded → OpenCell partition.workspaceId partition.instanceId config.state →
    Unhealed partition config.state →
    (∀ capability ∈ healing, config.state.grants.has (partition.workspaceId,partition.principalId,capability)) →
    kept partition config.state → Healable partition.principalId partition config.state

/-- What the two runs show of their only operation. -/
def Isolated (id : String) (db : Db) : Prop :=
  (∃ partition ∈ db.actions.rows, partition.kind = .networkPartition ∧ partition.phase = .succeeded ∧ partition.id = id ∧
    partition.workspaceId = "w" ∧ partition.instanceId = "cell-1" ∧ partition.experimentId = "run-1" ∧
    partition.principalId = "p") ∧ (∀ action ∈ db.actions.rows, action.kind ≠ .networkHeal) ∧
    db.instances.has ("w","cell-1") ∧ db.cellHandles.rows = [] ∧ (updateState "w" "cell-1" db).closing = false ∧
    ∀ capability ∈ healing, db.grants.has ("w","p",capability)

instance (id : String) (db : Db) : Decidable (Isolated id db) := by
  unfold Isolated
  infer_instance

/-- A run of which the only partition cannot be healed. -/
theorem Isolated.refutes {config : Config} (reached : Reached config) {id : String} (isolated : Isolated id config.state)
    {kept : ActionRow → Db → Prop}
    (holds : ∀ partition ∈ config.state.actions, partition.id = id → partition.experimentId = "run-1" →
      partition.workspaceId = "w" → kept partition config.state)
    (refused : (∃ run ∈ config.state.experiments.rows, run.workspaceId = "w" ∧ run.id = "run-1" ∧ run.phase = .active) →
      ∃ plan ∈ pendingPlans "w" "cell-1" (updateState "w" "cell-1" config.state).appliedGeneration config.state,
        id ∈ plan.affected) : ¬ EveryHealable kept := by
  obtain ⟨⟨partition,member,kind,succeeded,rfl,home,there,filed,owner⟩,unhealed,live,handles,opened,holds_⟩ := isolated
  intro every
  have healable := every config reached partition member kind succeeded
    (by rw [home,there]; exact ⟨live,fun handle held => absurd (Table.mem_rows.mpr held) (by simp [handles]),opened⟩)
    (fun action held _ heals => absurd heals (unhealed action held)) (by rw [home,owner]; exact holds_)
    (holds partition member rfl filed home)
  rcases healed_open member (by rw [filed]; decide) healable with ⟨old,held,_,heals⟩ | ⟨open_,settled⟩
  · exact unhealed old held heals
  · rw [home,filed] at open_
    rw [home,there] at settled
    obtain ⟨plan,pending,affected⟩ := refused open_
    exact settled plan pending affected

set_option maxRecDepth 100000 in
/-- The run of a partition can be closed before it is healed, and an update can
    be pending that changes a component of its id. -/
theorem partition_stranded : ¬ EveryHealable (fun _ _ => True) ∧
    ¬ EveryHealable (fun partition db => ∃ run ∈ db.experiments, run.workspaceId = partition.workspaceId ∧
      run.id = partition.experimentId ∧ run.phase = .active) := by
  have closed : Isolated "outage" stranded.state ∧
      ¬ ∃ run ∈ stranded.state.experiments.rows, run.workspaceId = "w" ∧ run.id = "run-1" ∧ run.phase = .active := by
    decide +kernel
  have pending : Isolated "alice" shadowed.state ∧
      (∃ run ∈ shadowed.state.experiments.rows, run.workspaceId = "w" ∧ run.id = "run-1" ∧ run.phase = .active) ∧
      ∃ plan ∈ pendingPlans "w" "cell-1" (updateState "w" "cell-1" shadowed.state).appliedGeneration shadowed.state,
        "alice" ∈ plan.affected := by
    decide +kernel
  have unclosed : Reached stranded := ran_reached _
  have changing : Reached shadowed := ran_reached _
  refine ⟨closed.1.refutes unclosed (fun _ _ _ _ _ => trivial) fun open_ => absurd open_ closed.2,
    pending.1.refutes changing (fun partition _ _ filed home => ?_) fun _ => pending.2.2⟩
  rw [filed,home]
  exact pending.2.1

/-- A partition whose run is open. -/
def healthy : Config := ran (inTurn (partitioned "outage"))

set_option maxRecDepth 100000 in
theorem partition_healable_healthy : ∃ partition ∈ healthy.state.actions, ∃ operation after,
    Alone execute (networkHeal partition.workspaceId "p" (partition.heal "heal") "context" 4 4 4) healthy.state operation
        after ∧
      operation.kind = .networkHeal ∧ operation.id = "heal" ∧ operation.phase = .pending ∧
        operation.request = (partition.heal "heal").payload := by
  have seen : Isolated "outage" healthy.state ∧ CollisionFree healthy.log ∧
      (∃ run ∈ healthy.state.experiments.rows, run.workspaceId = "w" ∧ run.id = "run-1" ∧ run.phase = .active) ∧
      pendingPlans "w" "cell-1" (updateState "w" "cell-1" healthy.state).appliedGeneration healthy.state = [] ∧
      lastSequence "w" "cell-1" healthy.state + 1 < versionLimit ∧
      healthy.state.actions.find ("w","heal") = none ∧ healthy.state.idempotency.find ("w","p","heal") = none ∧
      (automaticSession "w" "p" "run-1" "context" healthy.state).any (fun session =>
        ∀ action ∈ healthy.state.actions.rows, action.resourceName ≠ "op-" ++ slice (digestJson (.operation "w" "cell-1"
          session "heal" .networkHeal (NetworkHealRequest.payload ⟨"cell-1","run-1","","heal","outage","heal"⟩))) 7 26) =
        true := by
    decide +kernel
  obtain ⟨⟨⟨partition,member,kind,succeeded,named,home,there,filed,_⟩,_,live,handles,opened,holds⟩,distinct,
    ⟨run,present,run_home,run_named,active⟩,settled,room,unused,unrecorded,free⟩ := seen
  obtain ⟨session,tracked,resource⟩ := (Option.any_eq_true _ _).mp free
  have open_ : OpenCell partition.workspaceId partition.instanceId healthy.state := by
    rw [home,there]
    exact ⟨live,fun handle held => absurd (Table.mem_rows.mpr held) (by simp [handles]),opened⟩
  have unclaimed : Unclaimed "p" partition "heal" "context" session healthy.state := by
    refine ⟨by decide,home ▸ unused,home ▸ unrecorded,by rw [home,filed]; exact tracked,fun action held => ?_⟩
    rw [ActionRow.heal,home,there,filed,named]
    exact of_decide_eq_true resource action held
  have clear : ∀ plan ∈ pendingPlans partition.workspaceId partition.instanceId
      (updateState partition.workspaceId partition.instanceId healthy.state).appliedGeneration healthy.state,
      ∀ text ∈ [partition.instanceId,partition.experimentId,partition.id,"heal"], text ∉ plan.affected := by
    rw [home,there,settled]
    simp
  have reached : Reached healthy := ran_reached _
  exact ⟨partition,member,partition_healable reached distinct sample_hex member kind succeeded open_ present
    (run_home.trans home.symm) (run_named.trans filed.symm) active (by rw [home]; exact holds) unclaimed
    (by rw [home,there]; exact room) clear 4 4 4⟩
end

end Proofstorm.Store
