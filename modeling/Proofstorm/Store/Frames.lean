import Proofstorm.Store.System

/-!
What statements have to do with receipts. A statement looks at one receipt at
most, that of its own key, and only the purges and the removal of a candidate
delete receipts; so two databases that differ in other receipts are changed
alike (`execute_alongside`).
-/
namespace Proofstorm.Store
open Proofstorm.Core

def Db.withReceipts (db : Db) (receipts : Table ReceiptRow) : Db := { db with idempotency := receipts }

/-- The outcome of a statement on a database with other receipts. -/
def swapped {α : Type} (receipts : Table ReceiptRow) (outcome : α × Db) : α × Db :=
  (outcome.1,outcome.2.withReceipts receipts)

@[simp] theorem withReceipts_idempotency (db : Db) (receipts : Table ReceiptRow) :
    (db.withReceipts receipts).idempotency = receipts := rfl

@[simp] theorem withReceipts_self (db : Db) : db.withReceipts db.idempotency = db := rfl

/-- The key whose receipt a statement looks up. -/
def Statement.receiptKey : Statement → Option (String × String × String)
  | .recordIdempotency workspace principal k _ _ _ | .createCandidateBuild workspace principal _ k
  | .recordCandidateRequest workspace principal k _ _ | .acceptUpdate workspace principal k _ _ _ =>
    some (workspace,principal,k)
  | .createOperation a => some (a.workspace,a.principal,a.key)
  | _ => none

def Statement.isPurge : Statement → Bool
  | .purgeCell _ | .purgeUnmaterializedHandle _ _ => true
  | _ => false

/-- What a statement does to the receipts `a` of one database and `b` of another:
    nothing, an insertion under its key, or a deletion of the same rows. -/
inductive Alongside (statement : Statement) :
    Table ReceiptRow → Table ReceiptRow → Table ReceiptRow → Table ReceiptRow → Prop
  | same (a b : Table ReceiptRow) : Alongside statement a a b b
  | insert (a b : Table ReceiptRow) (row : ReceiptRow) (keyed : statement.receiptKey = some (key row))
      (freeA : a.find (key row) = none) (freeB : b.find (key row) = none) :
    Alongside statement a (a.insert row) b (b.insert row)
  | delete (a b : Table ReceiptRow) (gone : ReceiptRow → Prop) [DecidablePred gone]
      (only : ∀ row, gone row → statement.isPurge = true ∨ row.operation = "candidate.build") :
    Alongside statement a (a.delete gone) b (b.delete gone)

section
variable {ε α β : Type} {statement : Statement} {db after : Db} {receipts : Table ReceiptRow}

private theorem map_guarded {f : α → β} {condition : Prop} [Decidable condition] {a b : Except ε α} :
    f <$> (if condition then a else b) = if condition then f <$> a else f <$> b := by
  split <;> rfl

/-! ### Statements without receipts -/

private theorem insertGrantRow_frame (receipts : Table ReceiptRow) (workspace principal : String) (db : Db)
    (capability : Capability) : insertGrantRow workspace principal capability (db.withReceipts receipts) =
      (Db.withReceipts · receipts) <$> insertGrantRow workspace principal capability db := by
  simp only [insertGrantRow,map_bind,map_pure]
  rfl

private theorem foldlM_frame {f : Db → Capability → Except StoreError Db} (receipts : Table ReceiptRow)
    (each : ∀ db capability, f (db.withReceipts receipts) capability = (Db.withReceipts · receipts) <$> f db capability)
    (list : List Capability) (db : Db) :
    list.foldlM f (db.withReceipts receipts) = (Db.withReceipts · receipts) <$> list.foldlM f db := by
  induction list generalizing db with
  | nil => rfl
  | cons capability rest ih => simp only [List.foldlM_cons,each,map_bind,bind_map_left,ih]

private theorem insertRun_frame (receipts : Table ReceiptRow) (run : Experiment) (db : Db) :
    insertRun run (db.withReceipts receipts) = swapped receipts <$> insertRun run db := by
  simp only [insertRun,map_guarded,map_bind,map_pure]
  rfl

private theorem recordCapture_frame (receipts : Table ReceiptRow) (workspace principal requestDigest : String)
    (evidence : WorkspaceEvidence) (db : Db) :
    recordCaptureTx workspace principal requestDigest evidence (db.withReceipts receipts) =
      swapped receipts <$> recordCaptureTx workspace principal requestDigest evidence db := by
  have same : (db.withReceipts receipts).workspaceEvidence = db.workspaceEvidence := rfl
  unfold recordCaptureTx
  simp only [same]
  cases db.workspaceEvidence.find (workspace,evidence.content.captureId) <;> simp only [map_bind,map_pure] <;> rfl

private theorem initializeActorOnce_frame (receipts : Table ReceiptRow) (workspace principal identity preset : String)
    (capabilities : List Capability) (db : Db) :
    initializeActorOnceTx workspace principal identity preset capabilities (db.withReceipts receipts) =
      swapped receipts <$> initializeActorOnceTx workspace principal identity preset capabilities db := by
  have same : (db.withReceipts receipts).localActorPresets = db.localActorPresets := rfl
  unfold initializeActorOnceTx
  rw [same]
  cases db.localActorPresets.find principal with
  | some old =>
    simp only [map_bind,map_pure]
    rfl
  | none =>
    simp only [map_bind,map_pure]
    refine bind_congr fun _ => ?_
    have folded := foldlM_frame receipts (f := fun db capability => do
        ensure (¬ db.grants.has (workspace,principal,capability)) uniqueFailed
        insertGrantRow workspace principal capability db) (fun db capability => by
      simp only [insertGrantRow_frame,map_bind]
      rfl) capabilities { db with principals := db.principals.insert ⟨principal⟩ }
    refine (congrArg (· >>= _) folded).trans ?_
    simp only [bind_map_left]
    rfl

variable [CoreFunctions]

private theorem trackSession_frame (receipts : Table ReceiptRow)
    (workspace principal experiment instanceId requested context id : String) (now : Int) (db : Db) :
    trackSessionTx workspace principal experiment instanceId requested context id now (db.withReceipts receipts) =
      swapped receipts <$> trackSessionTx workspace principal experiment instanceId requested context id now db := by
  have same : ∀ fuel id generation,
      searchSession workspace principal experiment requested context (db.withReceipts receipts) fuel id generation =
        searchSession workspace principal experiment requested context db fuel id generation := by
    intro fuel
    induction fuel with
    | zero => exact fun _ _ => rfl
    | succ fuel ih =>
      intro id generation
      simp only [searchSession,ih]
      rfl
  unfold trackSessionTx
  simp only [same,map_bind]
  refine bind_congr fun search => ?_
  cases search with
  | found => rfl
  | free =>
    simp only [map_bind,map_pure]
    rfl

private theorem reserveCell_frame (receipts : Table ReceiptRow) (workspace principal name configDigest nonce : String)
    (db : Db) : reserveCellTx workspace principal name configDigest nonce (db.withReceipts receipts) =
      swapped receipts <$> reserveCellTx workspace principal name configDigest nonce db := by
  have same : readHandle workspace name (db.withReceipts receipts) = readHandle workspace name db := rfl
  have reserve : ∀ generation,
      reserveCellTx.reserve workspace principal name configDigest nonce generation (db.withReceipts receipts) =
        swapped receipts <$> reserveCellTx.reserve workspace principal name configDigest nonce generation db := by
    intro generation
    simp only [reserveCellTx.reserve,map_bind,map_pure]
    rfl
  unfold reserveCellTx
  simp only [same]
  cases readHandle workspace name db with
  | none => exact reserve 1
  | some handle =>
    simp only [map_bind,map_guarded,map_pure,reserve]
    rfl

private theorem reservePreview_frame (receipts : Table ReceiptRow) (workspace principal : String) (preview : CellPreview)
    (nonce : String) (db : Db) : reservePreviewTx workspace principal preview nonce (db.withReceipts receipts) =
      swapped receipts <$> reservePreviewTx workspace principal preview nonce db := by
  have same : (db.withReceipts receipts).previewAdmissions = db.previewAdmissions := rfl
  unfold reservePreviewTx
  simp only [same]
  cases db.previewAdmissions.find (workspace,principal,preview.id) <;> simp only [map_bind,map_pure] <;> rfl

/-- The statement neither looks at receipts nor writes any. -/
def Statement.Plain : Statement → Prop
  | .recordIdempotency .. | .createCandidateBuild .. | .recordCandidateRequest .. | .removeCandidateBuild ..
  | .createOperation .. | .acceptUpdate .. | .purgeUnmaterializedHandle .. | .purgeCell .. => False
  | _ => True

/-- A plain statement does the same whatever receipts there are. -/
theorem execute_plain (plain : statement.Plain) (db : Db) (receipts : Table ReceiptRow) :
    execute statement (db.withReceipts receipts) = swapped receipts <$> execute statement db := by
  cases statement with
  | recordIdempotency | createCandidateBuild | recordCandidateRequest | removeCandidateBuild | createOperation
  | acceptUpdate | purgeUnmaterializedHandle | purgeCell => exact plain.elim
  | putWorkspace | putPrincipal | revoke | updatePrivateAccess | finishSession | finishCellSessions
  | updateOperationPhase | insertUpdatePlan | beginInstanceClose | insertPreview | insertSubmission | insertPlanUse => rfl
  | grant | insertDraft | insertClone | insertRevision | insertInstance | insertPrivateAccess | closeExperiment
  | bindRuntime =>
    simp only [execute,grantStatement,insertGrantRow,insertDraft,insertClone,insertRevision,insertInstance,
      insertPrivateAccess,closeExperimentTx,bindRuntimeTx,map_guarded,map_bind,map_pure,bind_assoc,pure_bind]
    rfl
  | editDraft | updateCandidate | markUpdateApplied | setCellPhase | recordOperationResult =>
    simp only [execute,editDraftStatement,updateCandidateStatement,markUpdateAppliedTx,setCellPhaseTx,
      recordOperationResultTx,map_guarded,map_bind,map_pure]
    rfl
  | replaceGrants workspace principal capabilities =>
    have folded := foldlM_frame receipts (f := fun db capability => insertGrantRow workspace principal capability db)
      (insertGrantRow_frame receipts workspace principal) capabilities
      { db with grants := db.grants.delete fun row => row.workspaceId = workspace ∧ row.principalId = principal }
    simp only [execute,replaceGrantsTx,map_bind,map_pure]
    refine (congrArg (· >>= _) folded).trans ?_
    simp only [bind_map_left]
    rfl
  | initializeActorOnce workspace principal identity preset capabilities =>
    exact initializeActorOnce_frame receipts workspace principal identity preset capabilities db
  | insertExperiment run => exact insertRun_frame receipts run db
  | ensureImplicitRun =>
    simp only [execute,ensureImplicitRunTx,map_bind,map_pure]
    refine bind_congr fun row => bind_congr fun next => bind_congr fun _ => bind_congr fun _ => ?_
    refine (congrArg (· >>= _) (insertRun_frame receipts _ db)).trans ?_
    simp only [bind_map_left]
    rfl
  | trackSession workspace principal experiment instanceId requested context id now =>
    exact trackSession_frame receipts workspace principal experiment instanceId requested context id now db
  | recordCapture workspace principal requestDigest evidence =>
    exact recordCapture_frame receipts workspace principal requestDigest evidence db
  | reserveCell workspace principal name configDigest nonce =>
    exact reserveCell_frame receipts workspace principal name configDigest nonce db
  | reservePreview workspace principal preview nonce => exact reservePreview_frame receipts workspace principal preview nonce db

/-! ### Statements with a receipt -/

private theorem recordIdempotencyIn_frame {workspace principal k operation : String} {request : Json}
    {response : Response} (recorded : recordIdempotencyIn workspace principal k operation request response db = .ok after)
    (free : receipts.find (workspace,principal,k) = none) :
    recordIdempotencyIn workspace principal k operation request response (db.withReceipts receipts) =
      .ok (after.withReceipts
        (receipts.insert ⟨workspace,principal,k,operation,digestJson (.json request),response⟩)) := by
  obtain ⟨_,rfl⟩ := recordIdempotencyIn_ok.mp recorded
  exact recordIdempotencyIn_ok.mpr ⟨free,rfl⟩

/-- Where a step inserts a receipt under the key of the statement, so does it beside other receipts. -/
private theorem Alongside.recorded (statement : Statement) {workspace principal k operation : String} {request : Json} {response : Response}
    (keyed : statement.receiptKey = some (workspace,principal,k))
    (recorded : recordIdempotencyIn workspace principal k operation request response db = .ok after)
    (free : receipts.find (workspace,principal,k) = none) : Alongside statement db.idempotency after.idempotency receipts
      (receipts.insert ⟨workspace,principal,k,operation,digestJson (.json request),response⟩) := by
  obtain ⟨taken,rfl⟩ := recordIdempotencyIn_ok.mp recorded
  exact .insert db.idempotency receipts ⟨workspace,principal,k,operation,digestJson (.json request),response⟩ keyed taken free

variable {workspace principal k : String}

private theorem bindCandidateRequest_frame (statement : Statement) {request : Json} {candidate : CandidateBuild}
    (keyed : statement.receiptKey = some (workspace,principal,k))
    (bound : bindCandidateRequest workspace principal k request candidate db = .ok after)
    (alike : receipts.find (workspace,principal,k) = db.idempotency.find (workspace,principal,k)) :
    ∃ now, bindCandidateRequest workspace principal k request candidate (db.withReceipts receipts) =
      .ok (after.withReceipts now) ∧ Alongside statement db.idempotency after.idempotency receipts now := by
  rw [bindCandidateRequest] at bound
  rw [bindCandidateRequest,withReceipts_idempotency,alike]
  cases known : db.idempotency.find (workspace,principal,k) with
  | some row =>
    simp only [known,bind_ok,ensure_ok,pure_ok] at bound ⊢
    obtain ⟨_,same,rfl⟩ := bound
    exact ⟨receipts,⟨⟨⟩,same,rfl⟩,.same _ _⟩
  | none =>
    simp only [known] at bound ⊢
    have free := alike.trans known
    exact ⟨_,recordIdempotencyIn_frame bound free,.recorded statement keyed bound free⟩

variable {stored : CandidateBuild} {request : Json} {a : Admission} {plan : CellUpdatePlan}
  {revision : PublishedRevision} {u : Unit}

private theorem createCandidate_frame {candidate : CandidateBuild}
    (created : createCandidateBuildTx workspace principal candidate k db = .ok (stored,after))
    (alike : receipts.find (workspace,principal,k) = db.idempotency.find (workspace,principal,k)) :
    ∃ now, createCandidateBuildTx workspace principal candidate k (db.withReceipts receipts) =
      .ok (stored,after.withReceipts now) ∧
      Alongside (.createCandidateBuild workspace principal candidate k) db.idempotency after.idempotency receipts now := by
  have same : (db.withReceipts receipts).candidateBuilds = db.candidateBuilds := rfl
  rw [createCandidateBuildTx] at created
  simp only [createCandidateBuildTx,same]
  cases known : db.candidateBuilds.find (workspace,candidate.id) with
  | some existing =>
    simp only [known,bind_ok,ensure_ok,pure_ok,Prod.mk.injEq] at created ⊢
    obtain ⟨decoded,read,_,agrees,middle,bound,rfl,rfl⟩ := created
    obtain ⟨now,again,moved⟩ := bindCandidateRequest_frame
      (.createCandidateBuild workspace principal candidate k) rfl bound alike
    exact ⟨now,⟨decoded,read,⟨⟩,agrees,_,again,rfl,rfl⟩,moved⟩
  | none =>
    simp only [known,bind_ok,ensure_ok,pure_ok,Prod.mk.injEq] at created ⊢
    obtain ⟨_,unique,_,present,middle,bound,rfl,rfl⟩ := created
    obtain ⟨now,again,moved⟩ := bindCandidateRequest_frame
      (.createCandidateBuild workspace principal candidate k) rfl bound alike
    exact ⟨now,⟨⟨⟩,unique,⟨⟩,present,_,again,rfl,rfl⟩,moved⟩

omit [CoreFunctions] in
private theorem admitOperation_frame (receipts : Table ReceiptRow) (workspace id operation : String) (request : Json)
    (kind : OperationKind) (db : Db) : admitOperation workspace id operation request kind (db.withReceipts receipts) =
      swapped receipts <$> admitOperation workspace id operation request kind db := by
  simp only [admitOperation,map_bind,map_pure]
  rfl

omit [CoreFunctions] in
private theorem insertAction_frame (receipts : Table ReceiptRow) (row : ActionRow) (db : Db) :
    insertAction row (db.withReceipts receipts) = (Db.withReceipts · receipts) <$> insertAction row db := by
  simp only [insertAction,map_bind,map_pure]
  rfl

omit [CoreFunctions] in
/-- An admission leaves the receipts alone until it records its own. -/
private theorem admitted_receipts {workspace id operation digest : String} {kind : OperationKind}
    {row : ActionRow} {inserted : Db} (admitted : admitOperation workspace id operation request kind db = .ok (digest,after))
    (acted : insertAction row after = .ok inserted) : inserted.idempotency = db.idempotency := by
  obtain ⟨_,_,_,_,_,_,rfl,_⟩ := admitOperation_ok admitted
  simp only [insertAction,bind_ok,pure_ok] at acted
  obtain ⟨_,_,_,_,_,_,rfl⟩ := acted
  rfl

private theorem insertOperation_frame {operation : CellOperation}
    (made : insertOperation a db = .ok (operation,after)) (free : receipts.find (a.workspace,a.principal,a.key) = none) :
    ∃ now, insertOperation a (db.withReceipts receipts) = .ok (operation,after.withReceipts now) ∧
      Alongside (.createOperation a) db.idempotency after.idempotency receipts now := by
  have touched : touchSession a.workspace a.sessionId a.acceptedAt (db.withReceipts receipts) =
      (touchSession a.workspace a.sessionId a.acceptedAt db).withReceipts receipts := rfl
  rw [insertOperation] at made
  simp only [insertOperation,touched,admitOperation_frame]
  simp only [bind_ok,ensure_ok,pure_ok,Prod.mk.injEq] at made ⊢
  obtain ⟨_,running,_,open_,⟨digest,captured⟩,admitted,_,expected,stored,fits,inserted,acted,middle,recorded,rfl,rfl⟩ := made
  have kept : inserted.idempotency = (touchSession a.workspace a.sessionId a.acceptedAt db).idempotency :=
    admitted_receipts admitted acted
  have beside := insertAction_frame receipts (a.row stored) captured
  rw [acted] at beside
  refine ⟨_,⟨⟨⟩,running,⟨⟩,open_,(digest,captured.withReceipts receipts),?_,⟨⟩,expected,stored,fits,_,beside,_,
    recordIdempotencyIn_frame recorded free,rfl,rfl⟩,?_⟩
  · rw [admitted]
    rfl
  · have moved := Alongside.recorded (.createOperation a) rfl recorded free
    rw [kept] at moved
    exact moved

/-- No receipt is found exactly where there is none under the key. -/
theorem idempotentResponse_none {workspace operation : String} :
    idempotentResponse workspace principal k operation request db = .ok none ↔
      db.idempotency.find (workspace,principal,k) = none := by
  rw [idempotentResponse]
  cases db.idempotency.find (workspace,principal,k) with
  | none => simp
  | some found => by_cases other : found.operation ≠ operation ∨ found.requestHash ≠ digestJson (.json request) <;> simp [other]

private theorem createOperation_frame {operation : CellOperation}
    (created : createOperationTx a db = .ok (operation,after))
    (alike : receipts.find (a.workspace,a.principal,a.key) = db.idempotency.find (a.workspace,a.principal,a.key)) :
    ∃ now, createOperationTx a (db.withReceipts receipts) = .ok (operation,after.withReceipts now) ∧
      Alongside (.createOperation a) db.idempotency after.idempotency receipts now := by
  have looked : idempotentResponse a.workspace a.principal a.key "cell.operation.create" a.envelope
      (db.withReceipts receipts) =
        idempotentResponse a.workspace a.principal a.key "cell.operation.create" a.envelope db := by
    simp only [idempotentResponse,withReceipts_idempotency,alike]
  have read : ∀ id, operationFrom a.workspace id (db.withReceipts receipts) = operationFrom a.workspace id db :=
    fun _ => rfl
  rw [createOperationTx] at created
  simp only [createOperationTx,looked,read]
  cases found : idempotentResponse a.workspace a.principal a.key "cell.operation.create" a.envelope db with
  | error error =>
    rw [found] at created
    cases created
  | ok recorded =>
    simp only [found,ok_bind] at created ⊢
    cases recorded with
    | some response =>
      simp only [bind_ok,pure_ok,Prod.mk.injEq] at created ⊢
      obtain ⟨previous,decoded,repeated,same,rfl,rfl⟩ := created
      exact ⟨receipts,⟨previous,decoded,repeated,same,rfl,rfl⟩,.same _ _⟩
    | none =>
      have free : receipts.find (a.workspace,a.principal,a.key) = none := by
        rw [alike]
        exact idempotentResponse_none.mp found
      cases present : operationFrom a.workspace a.operationId db with
      | ok existing =>
        simp only [present,bind_ok,ensure_ok,pure_ok,Prod.mk.injEq] at created ⊢
        obtain ⟨_,repeats,middle,recorded,rfl,rfl⟩ := created
        exact ⟨_,⟨⟨⟩,repeats,_,recordIdempotencyIn_frame recorded free,rfl,rfl⟩,.recorded _ rfl recorded free⟩
      | error error =>
        simp only [present] at created ⊢
        cases error with
        | notFound => exact insertOperation_frame created free
        | _ => cases created

private theorem recordUpdateReceipt_frame (statement : Statement) {plan : CellUpdatePlan}
    (keyed : statement.receiptKey = some (workspace,principal,k))
    (recorded : recordUpdateReceipt workspace principal k plan db = .ok after)
    (free : receipts.find (workspace,principal,k) = none) :
    ∃ now, recordUpdateReceipt workspace principal k plan (db.withReceipts receipts) = .ok (after.withReceipts now) ∧
      Alongside statement db.idempotency after.idempotency receipts now := by
  obtain ⟨taken,rfl⟩ := recordUpdateReceipt_ok.mp recorded
  refine ⟨_,recordUpdateReceipt_ok.mpr ⟨free,rfl⟩,?_⟩
  exact .insert db.idempotency receipts ⟨workspace,principal,k,"cell.update",digestJson (.plan plan),.plan plan⟩ keyed
    taken free

private theorem acceptFresh_frame
    {now : Int} (accepted : acceptFresh workspace principal k plan revision now db = .ok after)
    (free : receipts.find (workspace,principal,k) = none) :
    ∃ beside, acceptFresh workspace principal k plan revision now (db.withReceipts receipts) =
      .ok (after.withReceipts beside) ∧ Alongside (.acceptUpdate workspace principal k plan revision now)
        db.idempotency after.idempotency receipts beside := by
  rw [acceptFresh] at accepted
  rw [acceptFresh]
  simp only [bind_ok,ensure_ok] at accepted ⊢
  obtain ⟨_,opened,row,found,_,current,accepted⟩ := accepted
  by_cases noop : plan.isNoop = true
  · rw [if_pos noop] at accepted
    obtain ⟨beside,again,moved⟩ := recordUpdateReceipt_frame
      (.acceptUpdate workspace principal k plan revision now) rfl accepted free
    refine ⟨beside,⟨⟨⟩,opened,row,found,⟨⟩,current,?_⟩,moved⟩
    rw [if_pos noop]
    exact again
  · rw [if_neg noop] at accepted
    simp only [bind_ok,ensure_ok] at accepted
    obtain ⟨_,idle,_,retained,_,fresh,_,fits,generation,stored,_,published,_,unused,recorded⟩ := accepted
    obtain ⟨beside,again,moved⟩ := recordUpdateReceipt_frame
      (.acceptUpdate workspace principal k plan revision now) rfl recorded free
    refine ⟨beside,⟨⟨⟩,opened,row,found,⟨⟩,current,?_⟩,moved⟩
    rw [if_neg noop]
    simp only [bind_ok,ensure_ok]
    exact ⟨⟨⟩,idle,⟨⟩,retained,⟨⟩,fresh,⟨⟩,fits,generation,stored,⟨⟩,published,⟨⟩,unused,again⟩

private theorem acceptUpdate_frame
    {now : Int} (accepted : acceptUpdateTx workspace principal k plan revision now db = .ok (u,after))
    (alike : receipts.find (workspace,principal,k) = db.idempotency.find (workspace,principal,k)) :
    ∃ beside, acceptUpdateTx workspace principal k plan revision now (db.withReceipts receipts) =
      .ok (u,after.withReceipts beside) ∧ Alongside (.acceptUpdate workspace principal k plan revision now)
        db.idempotency after.idempotency receipts beside := by
  rw [acceptUpdateTx] at accepted
  rw [acceptUpdateTx,withReceipts_idempotency,alike]
  simp only [bind_ok,ensure_ok] at accepted ⊢
  obtain ⟨_,incarnation,accepted⟩ := accepted
  cases recorded : db.idempotency.find (workspace,principal,k) with
  | some previous =>
    simp only [recorded,bind_ok,ensure_ok,pure_ok,Prod.mk.injEq] at accepted ⊢
    obtain ⟨_,same,_,rfl⟩ := accepted
    exact ⟨receipts,⟨⟨⟩,incarnation,⟨⟩,same,trivial,rfl⟩,.same _ _⟩
  | none =>
    simp only [recorded,bind_ok,pure_ok,Prod.mk.injEq] at accepted ⊢
    obtain ⟨middle,fresh,_,rfl⟩ := accepted
    obtain ⟨beside,again,moved⟩ := acceptFresh_frame fresh (alike.trans recorded)
    exact ⟨beside,⟨⟨⟩,incarnation,_,again,trivial,rfl⟩,moved⟩

/-! ### Deletions -/

private theorem removeCandidate_frame {workspace id : String}
    (removed : removeCandidateBuildTx workspace id db = .ok (stored,after)) (receipts : Table ReceiptRow) :
    ∃ now, removeCandidateBuildTx workspace id (db.withReceipts receipts) = .ok (stored,after.withReceipts now) ∧
      Alongside (.removeCandidateBuild workspace id) db.idempotency after.idempotency receipts now := by
  simp only [removeCandidateBuildTx,bind_ok,ensure_ok,pure_ok,Prod.mk.injEq] at removed ⊢
  obtain ⟨row,found,candidate,decoded,_,terminal,rfl,rfl⟩ := removed
  refine ⟨_,⟨row,found,candidate,decoded,⟨⟩,terminal,rfl,rfl⟩,.delete _ _ _ fun row gone => .inr gone.2.1⟩

private theorem purgeHandle_frame {workspace id : String}
    (removed : purgeUnmaterializedHandleTx workspace id db = .ok (u,after)) (receipts : Table ReceiptRow) :
    ∃ now, purgeUnmaterializedHandleTx workspace id (db.withReceipts receipts) = .ok (u,after.withReceipts now) ∧
      Alongside (.purgeUnmaterializedHandle workspace id) db.idempotency after.idempotency receipts now := by
  have same : (db.withReceipts receipts).cellHandles = db.cellHandles := rfl
  rw [purgeUnmaterializedHandleTx] at removed
  rw [purgeUnmaterializedHandleTx,same]
  simp only [bind_ok,ensure_ok] at removed ⊢
  obtain ⟨_,absent,removed⟩ := removed
  by_cases handled : ∃ row ∈ db.cellHandles.rows, row.workspaceId = workspace ∧ row.instanceId = id
  · rw [if_pos handled] at removed
    simp only [if_pos handled,pure_ok,Prod.mk.injEq] at removed ⊢
    obtain ⟨_,rfl⟩ := removed
    exact ⟨_,⟨⟨⟩,absent,trivial,rfl⟩,.delete _ _ _ fun _ _ => .inl rfl⟩
  · rw [if_neg handled] at removed
    simp only [if_neg handled,pure_ok,Prod.mk.injEq] at removed ⊢
    obtain ⟨_,rfl⟩ := removed
    exact ⟨receipts,⟨⟨⟩,absent,trivial,rfl⟩,.same _ _⟩

private theorem purge_frame {cell : CellInstance} (removed : purgeCellTx cell db = .ok (u,after))
    (receipts : Table ReceiptRow) :
    ∃ now, purgeCellTx cell (db.withReceipts receipts) = .ok (u,after.withReceipts now) ∧
      Alongside (.purgeCell cell) db.idempotency after.idempotency receipts now := by
  obtain ⟨current,apart,rfl⟩ := purgeCellTx_ok.mp removed
  exact ⟨_,purgeCellTx_ok.mpr ⟨current,apart,rfl⟩,.delete _ _ _ fun _ _ => .inl rfl⟩

/-! ### Every statement -/

/-- A statement that finds the same receipt under its key does the same beside
    other receipts. -/
theorem execute_alongside {answer : statement.Answer} (executed : execute statement db = .ok (answer,after))
    (alike : ∀ k, statement.receiptKey = some k → receipts.find k = db.idempotency.find k) :
    ∃ now, execute statement (db.withReceipts receipts) = .ok (answer,after.withReceipts now) ∧
      Alongside statement db.idempotency after.idempotency receipts now := by
  by_cases plain : statement.Plain
  · have kept : after.idempotency = db.idempotency := by
      have own := execute_plain plain db db.idempotency
      rw [withReceipts_self,executed] at own
      have same : after = after.withReceipts db.idempotency := congrArg Prod.snd (Except.ok.inj own)
      rw [same]
      rfl
    refine ⟨receipts,?_,kept ▸ .same _ _⟩
    rw [execute_plain plain,executed]
    rfl
  · cases statement with
    | recordIdempotency workspace principal k operation request response =>
      simp only [execute,recordIdempotencyStatement,bind_ok,pure_ok,Prod.mk.injEq] at executed ⊢
      obtain ⟨middle,recorded,_,rfl⟩ := executed
      have free : receipts.find (workspace,principal,k) = none :=
        (alike _ rfl).trans (recordIdempotencyIn_ok.mp recorded).1
      exact ⟨_,⟨_,recordIdempotencyIn_frame recorded free,trivial,rfl⟩,.recorded _ rfl recorded free⟩
    | createCandidateBuild => exact createCandidate_frame executed (alike _ rfl)
    | recordCandidateRequest workspace principal k inputDigest candidate =>
      simp only [execute,recordCandidateRequestTx,bind_ok,pure_ok,Prod.mk.injEq] at executed ⊢
      obtain ⟨middle,bound,_,rfl⟩ := executed
      obtain ⟨now,again,moved⟩ := bindCandidateRequest_frame
        (.recordCandidateRequest workspace principal k inputDigest candidate) rfl bound (alike _ rfl)
      exact ⟨now,⟨_,again,trivial,rfl⟩,moved⟩
    | removeCandidateBuild => exact removeCandidate_frame executed receipts
    | createOperation => exact createOperation_frame executed (alike _ rfl)
    | acceptUpdate => exact acceptUpdate_frame executed (alike _ rfl)
    | purgeUnmaterializedHandle => exact purgeHandle_frame executed receipts
    | purgeCell => exact purge_frame executed receipts
    | _ => exact absurd trivial plain
end

end Proofstorm.Store
