import Proofstorm.Store.Reads

/-!
The statements of `lib.rs` on workspaces, grants, drafts, published revisions
and new instances, and those of `delegation.rs`, `onboarding.rs` and the
candidate builds. Each inserts, rewrites or deletes rows of one or two tables.
-/
namespace Proofstorm.Store
open Proofstorm.Core

def putWorkspaceStatement (workspace : Workspace) : Txn Unit := fun db =>
  .ok ((),{ db with
    workspaces := db.workspaces.upsert workspace (fun old => { old with name := workspace.name }) (fun _ => rfl) })

def putPrincipalStatement (principal : String) : Txn Unit := fun db =>
  .ok ((),{ db with principals := db.principals.insert ⟨principal⟩ })

/-- `INSERT OR IGNORE INTO grants`. -/
def insertGrantRow (workspace principal : String) (capability : Capability) (db : Db) : Except StoreError Db := do
  ensure (db.grants.has (workspace,principal,capability) ∨ (db.workspaces.has workspace ∧ db.principals.has principal))
    foreignKey
  pure { db with grants := db.grants.insert ⟨workspace,principal,capability⟩ }

def grantStatement (workspace principal : String) (capability : Capability) : Txn Unit := fun db => do
  let after ← insertGrantRow workspace principal capability db
  pure ((),after)

def revokeStatement (workspace principal : String) (capability : Capability) : Txn Unit := fun db =>
  .ok ((),{ db with
    grants := db.grants.delete fun row =>
      row.workspaceId = workspace ∧ row.principalId = principal ∧ row.capability = capability })

/-- The transaction of `replace_grants`. -/
def replaceGrantsTx (workspace principal : String) (capabilities : List Capability) : Txn Unit := fun db => do
  let cleared := { db with
    grants := db.grants.delete fun row => row.workspaceId = workspace ∧ row.principalId = principal }
  let after ← capabilities.foldlM (fun db capability => insertGrantRow workspace principal capability db) cleared
  pure ((),after)

/-- The transaction of `initialize_actor_once`: whether the actor is new. -/
def initializeActorOnceTx (workspace principal identity preset : String) (capabilities : List Capability) :
    Txn Bool := fun db => do
  match db.localActorPresets.find principal with
  | some old =>
    ensure (¬ (old.workspaceId ≠ workspace ∨ old.identity ≠ identity ∨ old.preset ≠ preset))
      (.validation "attachment identity or preset changed; explicit migration required")
    pure (false,db)
  | none =>
    ensure (¬ db.principals.has principal)
      (.validation "refusing to adopt an existing manually configured actor")
    let created := { db with principals := db.principals.insert ⟨principal⟩ }
    let granted ← capabilities.foldlM (fun db capability => do
      ensure (¬ db.grants.has (workspace,principal,capability)) uniqueFailed
      insertGrantRow workspace principal capability db) created
    ensure (granted.workspaces.has workspace) foreignKey
    pure (true,{ granted with
      localActorPresets := granted.localActorPresets.insert ⟨principal,workspace,identity,preset⟩ })

/-! ### Drafts and revisions -/

/-- `INSERT INTO drafts … ON CONFLICT DO NOTHING`: how many rows it inserted. -/
def insertDraft (draft : Draft) : Txn Nat := fun db =>
  if db.drafts.has (draft.workspaceId,draft.id) then .ok (0,db)
  else do
    ensure (db.workspaces.has draft.workspaceId) foreignKey
    pure (1,{ db with drafts := db.drafts.insert draft })

/-- `INSERT INTO drafts` of `clone_draft`, which fails where the id is taken. -/
def insertClone (draft : Draft) : Txn Unit := fun db => do
  ensure (¬ db.drafts.has (draft.workspaceId,draft.id)) uniqueFailed
  ensure (db.workspaces.has draft.workspaceId) foreignKey
  pure ((),{ db with drafts := db.drafts.insert draft })

/-- `UPDATE drafts` of `edit_draft`: how many rows it changed. -/
def editDraftStatement (workspace id : String) (expected : Nat) (cell : CellSpec) : Txn Nat := fun db => do
  let expected ← sqlVersion expected
  if ∃ row ∈ db.drafts.rows, row.workspaceId = workspace ∧ row.id = id ∧ row.version = expected then
    pure (1,{ db with
      drafts := db.drafts.update (fun row => row.workspaceId = workspace ∧ row.id = id ∧ row.version = expected)
        (fun row => { row with version := row.version + 1, cell := cell }) (fun _ => rfl) })
  else pure (0,db)

/-- `INSERT INTO revisions` of `publish`. A digest that is there keeps its
    contents; it moves to the new draft where its own is gone. -/
def insertRevision (row : RevisionRow) : Txn Unit := fun db => do
  let version ← sqlVersion row.draftVersion
  let row := { row with draftVersion := version }
  ensure (db.revisions.has row.digest ∨ db.workspaces.has row.workspaceId) foreignKey
  pure ((),{ db with
    revisions := db.revisions.upsert row (fun old =>
      if db.drafts.has (old.workspaceId,old.draftId) then old
      else { old with draftId := row.draftId, draftVersion := row.draftVersion })
      (fun old => by split <;> rfl) })

/-- `INSERT OR IGNORE INTO instances`: how many rows it inserted. -/
def insertInstance (row : InstanceRow) : Txn Nat := fun db =>
  if db.instances.has (row.workspaceId,row.id) ∨
      ∃ other ∈ db.instances.rows, other.instanceKey = row.instanceKey ∨ other.resourceName = row.resourceName then
    .ok (0,db)
  else do
    ensure (db.workspaces.has row.workspaceId ∧ db.revisions.has row.revisionDigest) foreignKey
    pure (1,{ db with instances := db.instances.insert row })

/-- `record_idempotency`. -/
def recordIdempotencyStatement [CoreFunctions] (workspace principal key operation : String) (request : Json)
    (response : Response) : Txn Unit := fun db => do
  let after ← recordIdempotencyIn workspace principal key operation request response db
  pure ((),after)

/-! ### Private access -/

/-- `INSERT INTO private_access_grants`. -/
def insertPrivateAccess (workspace id : String) (grant : PrivateAccessGrant) : Txn Unit := fun db => do
  ensure (¬ db.privateAccessGrants.has (workspace,id)) uniqueFailed
  pure ((),{ db with privateAccessGrants := db.privateAccessGrants.insert ⟨workspace,id,grant⟩ })

/-- `UPDATE private_access_grants` of `revoke_private_access`. -/
def updatePrivateAccess (workspace id : String) (grant : PrivateAccessGrant) : Txn Unit := fun db =>
  .ok ((),{ db with
    privateAccessGrants := db.privateAccessGrants.update (fun row => row.workspaceId = workspace ∧ row.id = id)
      (fun row => { row with grant := grant }) (fun _ => rfl) })

/-! ### Candidate builds -/

/-- `candidate_request_identity`. -/
def candidateRequestIdentity (candidate : CandidateBuild) : Json :=
  match candidate.provenance with
  | some provenance => .str provenance.inputDigest
  | none => .object [("candidateId",.str candidate.id),("implementation",.str candidate.implementation),
      ("baseVersion",.str candidate.baseVersion),("pullRequestUrl",.str candidate.pullRequestUrl)]

def candidateApiVersion : String := "proofstorm/candidate-build/v1alpha1"

section
variable [CoreFunctions]

/-- `decode_candidate_build`. -/
def decodeCandidateBuild (candidate : CandidateBuild) : Except StoreError CandidateBuild := do
  ensure (¬ (candidate.apiVersion ≠ candidateApiVersion ∨
    ∃ provenance, candidate.provenance = some provenance ∧ CoreFunctions.provenanceValid provenance = false))
    (.validation "candidate_record_unsupported: stored candidate evidence is inconsistent or uses an unsupported version; the record was not changed")
  pure candidate

/-- `bind_candidate_request`. -/
def bindCandidateRequest (workspace principal key : String) (request : Json) (candidate : CandidateBuild) (db : Db) :
    Except StoreError Db :=
  match db.idempotency.find (workspace,principal,key) with
  | some row => do
    ensure (¬ (row.operation ≠ "candidate.build" ∨ row.requestHash ≠ digestJson (.json request))) (.idempotencyConflict key)
    pure db
  | none => recordIdempotencyIn workspace principal key "candidate.build" request (.candidate candidate) db

/-- The transaction of `create_candidate_build`. -/
def createCandidateBuildTx (workspace principal : String) (candidate : CandidateBuild) (key : String) :
    Txn CandidateBuild := fun db => do
  let request := candidateRequestIdentity candidate
  match db.candidateBuilds.find (workspace,candidate.id) with
  | some existing =>
    let existing ← decodeCandidateBuild existing.build
    ensure (¬ (existing.principalId ≠ principal ∨ candidateRequestIdentity existing ≠ request))
      (.conflict "candidate build" candidate.id)
    let after ← bindCandidateRequest workspace principal key request existing db
    pure (existing,after)
  | none =>
    ensure (∀ row ∈ db.candidateBuilds.rows, row.resourceName ≠ candidate.resourceName) uniqueFailed
    ensure (db.workspaces.has workspace ∧ db.principals.has principal) foreignKey
    let inserted := { db with
      candidateBuilds := db.candidateBuilds.insert ⟨workspace,candidate.id,principal,candidate.resourceName,
        candidate.requestDigest,candidate,candidate.acceptedAtUnix⟩ }
    let after ← bindCandidateRequest workspace principal key request candidate inserted
    pure (candidate,after)

/-- The transaction of `record_candidate_request`. -/
def recordCandidateRequestTx (workspace principal key inputDigest : String) (candidate : CandidateBuild) :
    Txn Unit := fun db => do
  let after ← bindCandidateRequest workspace principal key (.str inputDigest) candidate db
  pure ((),after)

omit [CoreFunctions] in
/-- `UPDATE candidate_builds … WHERE build_json = ?`: how many rows it changed. -/
def updateCandidateStatement (workspace : String) (current candidate : CandidateBuild) : Txn Nat := fun db =>
  if ∃ row ∈ db.candidateBuilds.rows, row.workspaceId = workspace ∧ row.id = candidate.id ∧ row.build = current then
    .ok (1,{ db with
      candidateBuilds := db.candidateBuilds.update
        (fun row => row.workspaceId = workspace ∧ row.id = candidate.id ∧ row.build = current)
        (fun row => { row with build := candidate }) (fun _ => rfl) })
  else .ok (0,db)

omit [CoreFunctions] in
/-- `candidate_users`: the instances whose current revision runs the candidate. -/
def candidateUsers (workspace id : String) (db : Db) : List InstanceRow :=
  db.instances.rows.filter fun cell => cell.workspaceId = workspace ∧
    ∃ row ∈ db.revisions.rows, row.digest = cell.revisionDigest ∧
      ∃ entry ∈ row.revision.lock.entries, entry.source.map CandidateSource.candidateId = some id

/-- The transaction of `remove_candidate_build`. -/
def removeCandidateBuildTx (workspace id : String) : Txn CandidateBuild := fun db => do
  let row ← require (db.candidateBuilds.find (workspace,id)) (.notFound "candidate build" id)
  let candidate ← decodeCandidateBuild row.build
  ensure (candidate.phase.terminal = true ∧ candidateUsers workspace id db = [])
    (.validation "only a finished candidate that no cell uses can be removed")
  pure (candidate,{ db with
    idempotency := db.idempotency.delete fun row => row.workspaceId = workspace ∧ row.operation = "candidate.build" ∧
      row.response.toJson.get "id" = some (.str id)
    candidateBuilds := db.candidateBuilds.delete fun row => row.workspaceId = workspace ∧ row.id = id })
end

/-! ### What the statements can do -/

variable {db after : Db}

variable {principal : String} {u : Unit} {capabilities : List Capability} {draft : Draft}

theorem insertGrantRow_ok {workspace : String} {capability : Capability}
    (inserted : insertGrantRow workspace principal capability db = .ok after) :
    ∃ grants, after = { db with grants := grants } := by
  simp only [insertGrantRow,bind_ok,pure_ok] at inserted
  obtain ⟨_,_,rfl⟩ := inserted
  exact ⟨_,rfl⟩

theorem grantStatement_ok {workspace : String} {capability : Capability}
    (granted : grantStatement workspace principal capability db = .ok (u,after)) :
    ∃ grants, after = { db with grants := grants } := by
  simp only [grantStatement,bind_ok,pure_ok,Prod.mk.injEq] at granted
  obtain ⟨_,inserted,_,rfl⟩ := granted
  exact insertGrantRow_ok inserted

/-- A loop of grants writes grants only. -/
theorem foldlM_grants {f : Db → Capability → Except StoreError Db}
    (each : ∀ db capability after, f db capability = .ok after → ∃ grants, after = { db with grants := grants })
    {list : List Capability} (ran : list.foldlM f db = .ok after) :
    ∃ grants, after = { db with grants := grants } := by
  induction list generalizing db with
  | nil =>
    simp only [List.foldlM_nil,pure_ok] at ran
    exact ⟨db.grants,ran.symm⟩
  | cons capability rest ih =>
    simp only [List.foldlM_cons,bind_ok] at ran
    obtain ⟨middle,first,others⟩ := ran
    obtain ⟨_,rfl⟩ := each _ _ _ first
    obtain ⟨grants,rfl⟩ := ih others
    exact ⟨grants,rfl⟩

theorem replaceGrantsTx_ok {workspace : String}
    (replaced : replaceGrantsTx workspace principal capabilities db = .ok (u,after)) :
    ∃ grants, after = { db with grants := grants } := by
  simp only [replaceGrantsTx,bind_ok,pure_ok,Prod.mk.injEq] at replaced
  obtain ⟨_,ran,_,rfl⟩ := replaced
  obtain ⟨grants,rfl⟩ := foldlM_grants (fun _ _ _ inserted => insertGrantRow_ok inserted) ran
  exact ⟨grants,rfl⟩

theorem initializeActorOnceTx_ok {workspace identity preset : String}
    {new : Bool}
    (initialized : initializeActorOnceTx workspace principal identity preset capabilities db = .ok (new,after)) :
    ∃ principals grants presets,
      after = { db with principals := principals, grants := grants, localActorPresets := presets } := by
  rw [initializeActorOnceTx] at initialized
  cases known : db.localActorPresets.find principal with
  | some old =>
    simp only [known,bind_ok,pure_ok,Prod.mk.injEq] at initialized
    obtain ⟨_,_,_,rfl⟩ := initialized
    exact ⟨db.principals,db.grants,db.localActorPresets,rfl⟩
  | none =>
    simp only [known,bind_ok,pure_ok,Prod.mk.injEq] at initialized
    obtain ⟨_,_,granted,ran,_,_,_,rfl⟩ := initialized
    have each : ∀ (db : Db) (capability : Capability) (after : Db),
        (ensure (¬ db.grants.has (workspace,principal,capability)) uniqueFailed >>= fun _ =>
          insertGrantRow workspace principal capability db) = .ok after → ∃ grants, after = { db with grants := grants } := by
      intro db capability after inserted
      simp only [bind_ok] at inserted
      obtain ⟨_,_,inserted⟩ := inserted
      exact insertGrantRow_ok inserted
    obtain ⟨grants,rfl⟩ := foldlM_grants each ran
    exact ⟨_,grants,_,rfl⟩

theorem insertDraft_ok {count : Nat}
    (inserted : insertDraft draft db = .ok (count,after)) : ∃ drafts, after = { db with drafts := drafts } := by
  rw [insertDraft] at inserted
  split at inserted
  · cases inserted
    exact ⟨db.drafts,rfl⟩
  · simp only [bind_ok,pure_ok,Prod.mk.injEq] at inserted
    obtain ⟨_,_,_,rfl⟩ := inserted
    exact ⟨_,rfl⟩

theorem insertClone_ok (inserted : insertClone draft db = .ok (u,after)) :
    ∃ drafts, after = { db with drafts := drafts } := by
  simp only [insertClone,bind_ok,pure_ok,Prod.mk.injEq] at inserted
  obtain ⟨_,_,_,_,_,rfl⟩ := inserted
  exact ⟨_,rfl⟩

theorem editDraftStatement_ok {workspace id : String} {expected : Nat} {cell : CellSpec} {count : Nat}
    (edited : editDraftStatement workspace id expected cell db = .ok (count,after)) :
    ∃ drafts, after = { db with drafts := drafts } := by
  simp only [editDraftStatement,bind_ok] at edited
  obtain ⟨_,_,edited⟩ := edited
  split at edited
  · simp only [pure_ok,Prod.mk.injEq] at edited
    exact ⟨_,edited.2.symm⟩
  · simp only [pure_ok,Prod.mk.injEq] at edited
    exact ⟨db.drafts,edited.2.symm⟩

theorem insertRevision_ok {row : RevisionRow} (inserted : insertRevision row db = .ok (u,after)) :
    ∃ f keeps, (∀ old : RevisionRow, (f old).revision = old.revision ∧ (f old).workspaceId = old.workspaceId) ∧
      after = { db with revisions := db.revisions.upsert row f keeps } := by
  simp only [insertRevision,bind_ok,sqlVersion_ok,pure_ok,Prod.mk.injEq] at inserted
  obtain ⟨_,⟨_,rfl⟩,_,_,_,rfl⟩ := inserted
  exact ⟨_,_,fun old => by split <;> exact ⟨rfl,rfl⟩,rfl⟩

theorem insertPrivateAccess_ok {workspace id : String} {grant : PrivateAccessGrant}
    (inserted : insertPrivateAccess workspace id grant db = .ok (u,after)) :
    ∃ access, after = { db with privateAccessGrants := access } := by
  simp only [insertPrivateAccess,bind_ok,pure_ok,Prod.mk.injEq] at inserted
  obtain ⟨_,_,_,rfl⟩ := inserted
  exact ⟨_,rfl⟩

theorem updateCandidateStatement_ok {workspace : String} {current candidate : CandidateBuild} {count : Nat}
    (updated : updateCandidateStatement workspace current candidate db = .ok (count,after)) :
    ∃ builds : Table CandidateRow, (∀ row ∈ db.candidateBuilds, builds.has (key row)) ∧
      after = { db with candidateBuilds := builds } := by
  rw [updateCandidateStatement] at updated
  split at updated
  · cases updated
    refine ⟨_,fun row member => ?_,rfl⟩
    by_cases chosen : row.workspaceId = workspace ∧ row.id = candidate.id ∧ row.build = current
    · exact ⟨_,(Table.mem_update _).mpr (.inr ⟨row,member,chosen,rfl⟩),rfl⟩
    · exact ⟨row,(Table.mem_update _).mpr (.inl ⟨member,chosen⟩),rfl⟩
  · cases updated
    exact ⟨db.candidateBuilds,fun row member => ⟨row,member,rfl⟩,rfl⟩

theorem recordIdempotencyStatement_ok [CoreFunctions] {workspace principal k operation : String} {request : Json}
    {response : Response} {u : Unit}
    (recorded : recordIdempotencyStatement workspace principal k operation request response db = .ok (u,after)) :
    db.idempotency.find (workspace,principal,k) = none ∧ after = { db with
      idempotency := db.idempotency.insert ⟨workspace,principal,k,operation,digestJson (.json request),response⟩ } := by
  simp only [recordIdempotencyStatement,bind_ok,pure_ok,Prod.mk.injEq] at recorded
  obtain ⟨_,recorded,_,rfl⟩ := recorded
  exact recordIdempotencyIn_ok.mp recorded

theorem insertInstance_ok {row : InstanceRow} {count : Nat}
    (inserted : insertInstance row db = .ok (count,after)) : (count = 0 ∧ after = db) ∨
      (db.instances.find (row.workspaceId,row.id) = none ∧
        (∀ other ∈ db.instances, other.instanceKey ≠ row.instanceKey ∧ other.resourceName ≠ row.resourceName) ∧
        db.workspaces.has row.workspaceId ∧ db.revisions.has row.revisionDigest ∧ count = 1 ∧
        after = { db with instances := db.instances.insert row }) := by
  rw [insertInstance] at inserted
  split at inserted
  · simp only [Except.ok.injEq,Prod.mk.injEq] at inserted
    exact .inl ⟨inserted.1.symm,inserted.2.symm⟩
  · rename_i conflict
    obtain ⟨free,unique⟩ := not_or.mp conflict
    simp only [bind_ok,ensure_ok,pure_ok,Prod.mk.injEq] at inserted
    obtain ⟨_,⟨home,published⟩,rfl,rfl⟩ := inserted
    refine .inr ⟨Table.not_has.mp free,fun other member => ?_,home,published,rfl,rfl⟩
    constructor
    · exact fun same => unique ⟨other,member,.inl same⟩
    · exact fun same => unique ⟨other,member,.inr same⟩

theorem bindCandidateRequest_ok [CoreFunctions] {workspace principal k : String} {request : Json}
    {candidate : CandidateBuild}
    (bound : bindCandidateRequest workspace principal k request candidate db = .ok after) :
    after = db ∨ (db.idempotency.find (workspace,principal,k) = none ∧ after = { db with
      idempotency := db.idempotency.insert ⟨workspace,principal,k,"candidate.build",digestJson (.json request),
        .candidate candidate⟩ }) := by
  rw [bindCandidateRequest] at bound
  cases known : db.idempotency.find (workspace,principal,k) with
  | some row =>
    simp only [known,bind_ok,pure_ok] at bound
    obtain ⟨_,_,rfl⟩ := bound
    exact .inl rfl
  | none =>
    simp only [known] at bound
    exact .inr ⟨rfl,(recordIdempotencyIn_ok.mp bound).2⟩
end Proofstorm.Store
