import Proofstorm.Store.Schema

/-!
The reads that the store's operations share: capabilities, the records of one
key, the update state of an instance and the receipts of retried requests.
-/
namespace Proofstorm.Store
open Proofstorm.Core

/-- `authorize`. -/
def authorize (workspace principal : String) (capability : Capability) (db : Db) : Except StoreError PUnit :=
  ensure (db.grants.has (workspace,principal,capability)) (.accessDenied workspace principal capability)

/-- `CellUpdateState`. -/
structure CellUpdateState where
  generation : Nat
  appliedGeneration : Nat
  convergedRevision : Option String
  closing : Bool
  deriving DecidableEq

/-- `updates::state`: an instance without a row is in its first generation. -/
def updateState (workspace id : String) (db : Db) : CellUpdateState :=
  match db.cellUpdateState.find (workspace,id) with
  | some row => ⟨row.generation,row.appliedGeneration,row.convergedRevision,row.closing⟩
  | none => ⟨1,1,none,false⟩

def instanceUnchecked (workspace id : String) (db : Db) : Except StoreError CellInstance :=
  match db.instances.find (workspace,id) with
  | some row => .ok
      { generation := (updateState workspace id db).generation
        id := id
        workspaceId := workspace
        revisionDigest := row.revisionDigest
        lockDigest := row.lockDigest
        instanceKey := row.instanceKey
        resourceName := row.resourceName }
  | none => .error (.notFound "instance" id)

/-- The revision under a digest, in the workspace that published it. -/
def revisionIn (workspace digest : String) (db : Db) : Option RevisionRow :=
  (db.revisions.find digest).filter (fun row => row.workspaceId = workspace)

variable {db : Db}

theorem revisionIn_eq_some {workspace digest : String} {row : RevisionRow} :
    revisionIn workspace digest db = some row ↔ row ∈ db.revisions ∧ row.digest = digest ∧ row.workspaceId = workspace := by
  simp only [revisionIn,Option.filter_eq_some_iff,Table.find_eq_some,decide_eq_true_eq,and_assoc]
  rfl

def revisionUnchecked (workspace digest : String) (db : Db) : Except StoreError PublishedRevision :=
  match revisionIn workspace digest db with
  | some row => .ok row.revision
  | none => .error (.notFound "revision" digest)

def readDraftUnchecked (workspace id : String) (db : Db) : Except StoreError Draft :=
  require (db.drafts.find (workspace,id)) (.notFound "draft" id)

def experimentUnchecked (workspace id : String) (db : Db) : Except StoreError Experiment :=
  require (db.experiments.find (workspace,id)) (.notFound "experiment" id)

/-- `sessions::read`. -/
def sessionUnchecked (workspace id : String) (db : Db) : Except StoreError Session :=
  require (db.sessions.find (workspace,id)) (.notFound "session" id)

def ActionRow.toOperation (row : ActionRow) (revisionDigest : String) : CellOperation :=
  { revisionDigest := revisionDigest
    id := row.id
    workspaceId := row.workspaceId
    instanceId := row.instanceId
    experimentId := row.experimentId
    sessionId := row.sessionId
    principalId := row.principalId
    sequence := row.sequence
    kind := row.kind
    capability := row.capability
    resourceName := row.resourceName
    requestDigest := row.requestDigest
    request := row.request
    phase := row.phase
    acceptedAtUnix := row.acceptedAt
    startedAtUnix := row.startedAt
    completedAtUnix := row.completedAt
    artifact := row.artifact }

/-- `operation_from`: the action with the revision recorded for it. -/
def operationFrom (workspace id : String) (db : Db) : Except StoreError CellOperation :=
  match db.actions.find (workspace,id) with
  | none => .error (.notFound "operation" id)
  | some row =>
    match db.operationRevisions.find (workspace,id) with
    | some recorded => .ok (row.toOperation recorded.revisionDigest)
    | none => .error (.database "Invalid column type Null at index: 15")

/-- `idempotent_response_from`, before the response is decoded. -/
def idempotentResponse [CoreFunctions] (workspace principal key operation : String) (request : Json) (db : Db) :
    Except StoreError (Option Response) :=
  match db.idempotency.find (workspace,principal,key) with
  | none => .ok none
  | some found =>
    if found.operation ≠ operation ∨ found.requestHash ≠ digestJson (.json request) then
      .error (.idempotencyConflict key)
    else .ok (some found.response)

/-- `record_idempotency_in`. -/
def recordIdempotencyIn [CoreFunctions] (workspace principal key operation : String) (request : Json)
    (response : Response) (db : Db) : Except StoreError Db := do
  ensure (¬ db.idempotency.has (workspace,principal,key)) uniqueFailed
  pure { db with
    idempotency := db.idempotency.insert
      { workspaceId := workspace
        principalId := principal
        key := key
        operation := operation
        requestHash := digestJson (.json request)
        response := response } }

/-- A statement or a transaction: what it returns and the database it leaves. An
    error leaves the database as it was. -/
abbrev Txn (α : Type) := Db → Except StoreError (α × Db)

/-! ### Decoding a recorded response -/

def undecodable : StoreError := .serialization "missing field"

def Response.asDraft : Response → Except StoreError Draft
  | .draft d => .ok d
  | _ => .error undecodable
def Response.asRevision : Response → Except StoreError PublishedRevision
  | .revision r => .ok r
  | _ => .error undecodable
def Response.asInstance : Response → Except StoreError CellInstance
  | .instance i => .ok i
  | _ => .error undecodable
def Response.asExperiment : Response → Except StoreError Experiment
  | .experiment e => .ok e
  | _ => .error undecodable
def Response.asSession : Response → Except StoreError Session
  | .session s => .ok s
  | _ => .error undecodable
def Response.asOperation : Response → Except StoreError CellOperation
  | .operation o => .ok o
  | _ => .error undecodable
def Response.asGrant : Response → Except StoreError PrivateAccessGrant
  | .grant g => .ok g
  | _ => .error undecodable
def Response.asPlan : Response → Option CellUpdatePlan
  | .plan p => some p
  | _ => none

/-! ### What the reads see -/

theorem authorize_ok {workspace principal : String} {capability : Capability} {u : PUnit} :
    authorize workspace principal capability db = .ok u ↔ db.grants.has (workspace,principal,capability) := by
  simp [authorize]

theorem instanceUnchecked_ok {workspace id : String} {cell : CellInstance} :
    instanceUnchecked workspace id db = .ok cell ↔ ∃ row ∈ db.instances, row.workspaceId = workspace ∧ row.id = id ∧
      cell = ⟨(updateState workspace id db).generation,id,workspace,row.revisionDigest,row.lockDigest,row.instanceKey,
        row.resourceName⟩ := by
  rw [instanceUnchecked]
  cases found : db.instances.find (workspace,id) with
  | none =>
    have absent := Table.find_eq_none.mp found
    simp only [reduceCtorEq,false_iff]
    rintro ⟨row,member,rfl,rfl,_⟩
    exact absent row member rfl
  | some row =>
    obtain ⟨member,keyed⟩ := Table.find_eq_some.mp found
    simp only [Except.ok.injEq]
    constructor
    · rintro rfl
      exact ⟨row,member,congrArg Prod.fst keyed,congrArg Prod.snd keyed,rfl⟩
    · rintro ⟨other,present,rfl,rfl,rfl⟩
      rw [Table.eq_of_key present member keyed.symm]

theorem revisionUnchecked_ok {workspace digest : String} {revision : PublishedRevision} :
    revisionUnchecked workspace digest db = .ok revision ↔
      ∃ row ∈ db.revisions, row.digest = digest ∧ row.workspaceId = workspace ∧ row.revision = revision := by
  rw [revisionUnchecked]
  cases found : revisionIn workspace digest db with
  | none =>
    simp only [reduceCtorEq,false_iff]
    rintro ⟨row,member,same,home,_⟩
    rw [revisionIn_eq_some.mpr ⟨member,same,home⟩] at found
    cases found
  | some row =>
    obtain ⟨member,same,home⟩ := revisionIn_eq_some.mp found
    simp only [Except.ok.injEq]
    constructor
    · rintro rfl
      exact ⟨row,member,same,home,rfl⟩
    · rintro ⟨other,present,alike,_,rfl⟩
      rw [Table.eq_of_key present member (alike.trans same.symm)]

theorem operationFrom_ok {workspace id : String} {operation : CellOperation} :
    operationFrom workspace id db = .ok operation ↔ ∃ row ∈ db.actions, ∃ recorded ∈ db.operationRevisions,
      row.workspaceId = workspace ∧ row.id = id ∧ recorded.workspaceId = workspace ∧ recorded.operationId = id ∧
        operation = row.toOperation recorded.revisionDigest := by
  rw [operationFrom]
  cases found : db.actions.find (workspace,id) with
  | none =>
    have absent := Table.find_eq_none.mp found
    simp only [reduceCtorEq,false_iff]
    rintro ⟨row,member,_,_,rfl,rfl,_⟩
    exact absent row member rfl
  | some row =>
    obtain ⟨member,keyed⟩ := Table.find_eq_some.mp found
    cases seen : db.operationRevisions.find (workspace,id) with
    | none =>
      have absent := Table.find_eq_none.mp seen
      simp only [reduceCtorEq,false_iff]
      rintro ⟨_,_,recorded,present,_,_,rfl,rfl,_⟩
      exact absent recorded present rfl
    | some recorded =>
      obtain ⟨kept,alike⟩ := Table.find_eq_some.mp seen
      simp only [Except.ok.injEq]
      constructor
      · rintro rfl
        exact ⟨row,member,recorded,kept,congrArg Prod.fst keyed,congrArg Prod.snd keyed,congrArg Prod.fst alike,
          congrArg Prod.snd alike,rfl⟩
      · rintro ⟨other,present,again,held,rfl,rfl,home,same,rfl⟩
        rw [Table.eq_of_key present member keyed.symm,
          Table.eq_of_key held kept ((Prod.ext home same : key again = (_,_)).trans alike.symm)]

theorem recordIdempotencyIn_ok [CoreFunctions] {workspace principal k operation : String} {request : Json}
    {response : Response} {db after : Db} :
    recordIdempotencyIn workspace principal k operation request response db = .ok after ↔
      db.idempotency.find (workspace,principal,k) = none ∧
        after = { db with
          idempotency := db.idempotency.insert
            ⟨workspace,principal,k,operation,digestJson (.json request),response⟩ } := by
  simp only [recordIdempotencyIn,bind_ok,ensure_ok,pure_ok,Table.not_has]
  constructor
  · rintro ⟨_,free,same⟩
    exact ⟨free,same.symm⟩
  · rintro ⟨free,same⟩
    exact ⟨⟨⟩,free,same.symm⟩
end Proofstorm.Store
