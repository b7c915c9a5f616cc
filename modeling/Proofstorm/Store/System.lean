import Proofstorm.Store.RunCalls

/-!
The store as a system: any number of calls by any number of processes on one
database, interleaved at their reads and statements. `Reached` are the
configurations of its runs; `Reached.warranted` is what every run keeps of
revisions and what every statement may rely on of its arguments.
-/
namespace Proofstorm.Store
open Proofstorm.Core
open Proofstorm.Interleaving (Throughout Reachable Call Keeps keeps_bind keeps_query keeps_settle keeps_ite
  keeps_attempt_query keeps_submit keeps_pure keeps_mono keeps_forM)

inductive Request
  | putWorkspace (workspace : Workspace)
  | putPrincipal (principal : String)
  | grant (workspace principal : String) (capability : Capability)
  | revoke (workspace principal : String) (capability : Capability)
  | replaceGrants (workspace principal : String) (capabilities : List Capability)
  | initializeActorOnce (workspace principal identity preset : String) (capabilities : List Capability)
  | createDraft (workspace principal id : String) (cell : CellSpec) (key : String)
  | editDraft (workspace principal id : String) (expectedVersion : Nat) (cell : CellSpec) (key : String)
  | cloneDraft (workspace principal source target key : String)
  | publish (workspace principal draftId : String) (expectedVersion : Nat) (key : String)
  | materialize (workspace principal id revisionDigest key nonce : String)
  | recordPlanUse (cell : CellInstance) (plan : Option String)
  | bindRuntime (cell : CellInstance) (binding : RuntimeBinding)
  | purgeUnmaterializedHandle (workspace id : String)
  | purgeCell (cell : CellInstance)
  | planUpdate (workspace principal : String) (target : CellUpdateTarget) (revision : PublishedRevision)
  | saveUpdatePlan (workspace principal id : String) (plan : CellUpdatePlan)
  | acceptUpdate (workspace principal : String) (plan : CellUpdatePlan) (key : String) (now : Int)
  | markUpdateApplied (workspace id : String) (generation : Nat) (converged : Option String)
  | beginInstanceClose (workspace principal id : String)
  | reserveCell (workspace principal name configDigest nonce : String)
  | setCellPhase (workspace principal : String) (handle : CellHandle) (phase : CellHandlePhase)
  | saveCellPreview (workspace principal : String) (preview : CellPreview)
  | bindCellSubmission (workspace principal requestId : String) (preview : CellPreview)
  | reservePreview (workspace principal : String) (preview : CellPreview) (nonce : String)
  | createExperiment (workspace principal id instanceId key : String) (now : Int)
  | closeExperiment (workspace principal id key : String) (now : Int)
  | ensureDefaultRun (workspace principal instanceId : String) (capability : Capability) (now : Int)
  | startSession (workspace principal experiment id key contextId : String) (now : Int)
  | trackSession (workspace principal experiment requested contextId : String) (now : Int)
  | finishSession (workspace principal id : String) (now : Int)
  | finishCellSessions (workspace principal instanceId : String) (now : Int)
  | drop (sessions : List (String × String)) (now : Int)
  | createOperation (call : OperationCall) (contextId : String) (runAt sessionAt acceptedAt : Int)
  | recordOperationResult (workspace id : String) (phase : OperationPhase) (content : Json) (completedAt : Int)
  | updateOperationPhase (workspace id : String) (phase : OperationPhase) (now : Int)
  | recordWorkspaceCapture (workspace principal requestDigest : String) (evidence : WorkspaceEvidence)
  | issuePrivateAccess (workspace principal recipient id instanceId : String) (scope : PrivateTransferScope)
      (key : String) (now : Int)
  | revokePrivateAccess (workspace principal id : String) (now : Int)
  | createCandidateBuild (workspace principal : String) (candidate : CandidateBuild) (key : String)
  | recordCandidateRequest (workspace principal key inputDigest : String) (candidate : CandidateBuild)
  | updateCandidateBuild (workspace : String) (candidate : CandidateBuild)
  | removeCandidateBuild (workspace principal id : String)
  deriving DecidableEq

inductive Reply
  | done
  | new (flag : Bool)
  | draft (draft : Draft)
  | revision (revision : PublishedRevision)
  | instance (cell : CellInstance)
  | plan (plan : CellUpdatePlan)
  | handle (handle : CellHandle)
  | experiment (run : Experiment)
  | session (session : Session)
  | operation (operation : CellOperation)
  | capture (evidence : WorkspaceEvidence)
  | grant (grant : PrivateAccessGrant)
  | candidate (candidate : CandidateBuild)
  deriving DecidableEq

section
variable [CoreFunctions]

def program : Request → Program Reply
  | .putWorkspace workspace => do putWorkspace workspace; pure .done
  | .putPrincipal principal => do putPrincipal principal; pure .done
  | .grant workspace principal capability => do grant workspace principal capability; pure .done
  | .revoke workspace principal capability => do revoke workspace principal capability; pure .done
  | .replaceGrants workspace principal capabilities => do replaceGrants workspace principal capabilities; pure .done
  | .initializeActorOnce workspace principal identity preset capabilities => do
    return .new (← initializeActorOnce workspace principal identity preset capabilities)
  | .createDraft workspace principal id cell key => do return .draft (← createDraft workspace principal id cell key)
  | .editDraft workspace principal id expectedVersion cell key => do
    return .draft (← editDraft workspace principal id expectedVersion cell key)
  | .cloneDraft workspace principal source target key => do
    return .draft (← cloneDraft workspace principal source target key)
  | .publish workspace principal draftId expectedVersion key => do
    return .revision (← publish workspace principal draftId expectedVersion key)
  | .materialize workspace principal id revisionDigest key nonce => do
    return .instance (← materialize workspace principal id revisionDigest key nonce)
  | .recordPlanUse cell plan => do recordPlanUse cell plan; pure .done
  | .bindRuntime cell binding => do bindRuntime cell binding; pure .done
  | .purgeUnmaterializedHandle workspace id => do purgeUnmaterializedHandle workspace id; pure .done
  | .purgeCell cell => do purgeCell cell; pure .done
  | .planUpdate workspace principal target revision => do
    return .plan (← planUpdate workspace principal target revision)
  | .saveUpdatePlan workspace principal id plan => do saveUpdatePlan workspace principal id plan; pure .done
  | .acceptUpdate workspace principal plan key now => do
    return .instance (← acceptUpdate workspace principal plan key now)
  | .markUpdateApplied workspace id generation converged => do
    markUpdateApplied workspace id generation converged
    pure .done
  | .beginInstanceClose workspace principal id => do beginInstanceClose workspace principal id; pure .done
  | .reserveCell workspace principal name configDigest nonce => do
    return .handle (← reserveCell workspace principal name configDigest nonce)
  | .setCellPhase workspace principal handle phase => do setCellPhase workspace principal handle phase; pure .done
  | .saveCellPreview workspace principal preview => do saveCellPreview workspace principal preview; pure .done
  | .bindCellSubmission workspace principal requestId preview => do
    bindCellSubmission workspace principal requestId preview
    pure .done
  | .reservePreview workspace principal preview nonce => do
    return .handle (← reservePreview workspace principal preview nonce)
  | .createExperiment workspace principal id instanceId key now => do
    return .experiment (← createExperiment workspace principal id instanceId key now)
  | .closeExperiment workspace principal id key now => do
    return .experiment (← closeExperiment workspace principal id key now)
  | .ensureDefaultRun workspace principal instanceId capability now => do
    return .experiment (← ensureDefaultRun workspace principal instanceId capability now)
  | .startSession workspace principal experiment id key contextId now => do
    return .session (← startSession workspace principal experiment id key contextId now)
  | .trackSession workspace principal experiment requested contextId now => do
    return .session (← trackSession workspace principal experiment requested contextId now)
  | .finishSession workspace principal id now => do return .session (← finishSession workspace principal id now)
  | .finishCellSessions workspace principal instanceId now => do
    finishCellSessions workspace principal instanceId now
    pure .done
  | .drop sessions now => do drop sessions now; pure .done
  | .createOperation call contextId runAt sessionAt acceptedAt => do
    return .operation (← createOperation call contextId runAt sessionAt acceptedAt)
  | .recordOperationResult workspace id phase content completedAt => do
    return .operation (← recordOperationResult workspace id phase content completedAt)
  | .updateOperationPhase workspace id phase now => do return .operation (← updateOperationPhase workspace id phase now)
  | .recordWorkspaceCapture workspace principal requestDigest evidence => do
    return .capture (← recordWorkspaceCapture workspace principal requestDigest evidence)
  | .issuePrivateAccess workspace principal recipient id instanceId scope key now => do
    return .grant (← issuePrivateAccess workspace principal recipient id instanceId scope key now)
  | .revokePrivateAccess workspace principal id now => do
    return .grant (← revokePrivateAccess workspace principal id now)
  | .createCandidateBuild workspace principal candidate key => do
    return .candidate (← createCandidateBuild workspace principal candidate key)
  | .recordCandidateRequest workspace principal key inputDigest candidate => do
    recordCandidateRequest workspace principal key inputDigest candidate
    pure .done
  | .updateCandidateBuild workspace candidate => do return .candidate (← updateCandidateBuild workspace candidate)
  | .removeCandidateBuild workspace principal id => do
    return .candidate (← removeCandidateBuild workspace principal id)

def code (request : Request) : Call Db Statement StoreError Statement.Answer (Except StoreError Reply) :=
  (program request).run
end

/-- What the engine answers where another connection holds the lock for too long. -/
def busy : StoreError := .database "database is locked"

abbrev Config := Interleaving.Config Request Db Statement StoreError Statement.Answer (Except StoreError Reply)
abbrev Event := Interleaving.Event Request Db Statement (Except StoreError Reply)

section
variable [CoreFunctions]

/-- The configurations of the runs of a new store. -/
abbrev Reached (config : Config) : Prop := Reachable execute busy code Db.empty config

/-! ### What statements rely on of their arguments -/

/-- The rows of published revisions agree with their contents, which are `known`. -/
def Vouched (known : PublishedRevision → Prop) (db : Db) : Prop :=
  ∀ row ∈ db.revisions, row.revision.digest = row.digest ∧ row.revision.workspaceId = row.workspaceId ∧
    known row.revision

/-- What a call has made sure of before it executes a statement. -/
def Warranted (known : PublishedRevision → Prop) : Statement → Prop
  | .insertRevision row => row.revision.digest = row.digest ∧ row.revision.workspaceId = row.workspaceId ∧
      row.revision.Genuine
  | .insertInstance row => ∃ revision, known revision ∧ revision.digest = row.revisionDigest ∧
      revision.workspaceId = row.workspaceId ∧ revision.lock.digest = row.lockDigest
  | .acceptUpdate workspace _ _ plan revision _ => plan.changes.unsupported = [] ∧ known revision ∧
      revision.workspaceId = workspace ∧ ∃ old, known old ∧ old.workspaceId = workspace ∧ plan.Describes old revision
  | .insertExperiment run => run.phase = .active ∧ run.closedAtUnix = none
  | .recordIdempotency _ _ _ operation _ _ => operation ≠ "cell.operation.create" ∧ operation ≠ "cell.update"
  | .recordOperationResult _ _ _ phase _ _ => phase.active = false
  | .updateOperationPhase _ _ phase _ => phase = .running
  | .setCellPhase _ _ _ phase => phase ≠ .opened
  | _ => True

/-- An admission is executed by its own call only, with what the call asks for. -/
def Issued (source : Request) : Statement → Prop
  | .createOperation a =>
    match source with
    | .createOperation call _ _ _ acceptedAt => ∃ run session, a = call.admission run session acceptedAt
    | _ => False
  | _ => True

/-- What a call may execute. -/
def Fits (known : PublishedRevision → Prop) (source : Request) (statement : Statement) : Prop :=
  Warranted known statement ∧ Issued source statement

variable {known : PublishedRevision → Prop} {source : Request}

omit [CoreFunctions] in
theorem Vouched.read {db : Db} (vouched : Vouched known db) {workspace digest : String} {revision : PublishedRevision}
    (read : revisionUnchecked workspace digest db = .ok revision) :
    revision.digest = digest ∧ revision.workspaceId = workspace ∧ known revision := by
  obtain ⟨row,member,rfl,rfl,rfl⟩ := revisionUnchecked_ok.mp read
  exact vouched row member

theorem keeps_retried {α : Type} {fact : Db → Prop} {allowed : Statement → Prop} {workspace principal k operation : String}
    {request : Json} {again : Response → Program α} {fresh : Program α} {post : α → Prop}
    (repeated : ∀ response, Keeps fact allowed (again response) post) (new : Keeps fact allowed fresh post) :
    Keeps fact allowed (retried workspace principal k operation request again fresh) post := by
  simp only [retried,keeps_bind,keeps_query]
  intro db _ found _
  cases found with
  | some response => exact repeated response
  | none => exact new

/-- A call executes only statements that are warranted. -/
abbrev Warrants (known : PublishedRevision → Prop) (source : Request) {α : Type} (call : Program α) : Prop :=
  Keeps (Vouched known) (Fits known source) call fun _ => True

private theorem recordPlanUse_warrants (cell : CellInstance) (plan : Option String) :
    Warrants known source (recordPlanUse cell plan) := by
  cases plan <;> simp [recordPlanUse,Fits,Warranted,Issued]

private theorem createInstance_warrants (workspace principal id revisionDigest k nonce : String) (request : Json) :
    Warrants known source (createInstance workspace principal id revisionDigest k nonce request) := by
  simp only [createInstance,keeps_bind,keeps_query]
  intro db vouched revision read
  obtain ⟨digest,home,vetted⟩ := vouched.read read
  have warranted : Warranted known (.insertInstance (instanceRow (newInstance workspace id revision revisionDigest nonce))) :=
    ⟨revision,vetted,digest,home,rfl⟩
  have used : ∀ cell, Warrants known source (recordPlanUse cell none) :=
    fun cell => recordPlanUse_warrants cell none
  simp only [keeps_bind,keeps_query,keeps_settle,keeps_submit,keeps_ite,keeps_pure]
  intro _ _ _ _ _ _ _ _ _ _ _ _
  exact ⟨⟨warranted,trivial⟩,fun _ => by simp [used,Fits,Warranted,Issued]⟩

private theorem materialize_warrants (workspace principal id revisionDigest k nonce : String) :
    Warrants known source (materialize workspace principal id revisionDigest k nonce) := by
  simp only [materialize,keeps_bind,keeps_query,keeps_settle]
  intro _ _ _ _ _ _ _ _ _ _
  refine keeps_retried (by simp) ?_
  simp only [keeps_bind,keeps_attempt_query]
  intro db _
  cases instanceUnchecked workspace id db with
  | ok existing => simp
  | error error => simp [createInstance_warrants]

private theorem planUpdate_warrants (workspace principal : String) (target : CellUpdateTarget)
    (revision : PublishedRevision) : Warrants known source (planUpdate workspace principal target revision) := by
  have checked : ∀ id plan, Warrants known source (checkRetained workspace id plan revision) := by
    intro id plan
    simp only [checkRetained,keeps_bind]
    exact keeps_mono (keeps_forM (by simp)) fun _ _ => keeps_forM (by simp)
  simp [planUpdate,checked]

private theorem acceptUpdate_warrants (workspace principal : String) (plan : CellUpdatePlan) (k : String) (now : Int) :
    Warrants known source (acceptUpdate workspace principal plan k now) := by
  simp only [acceptUpdate,keeps_bind,keeps_query,keeps_settle,ensure_ok,mapError_ok]
  intro _ _ _ _ _ _ _ _ _ supported _ vouchedNew revision readNew _ vouchedOld old readOld verified built _ same
  obtain ⟨_,home,vetted⟩ := vouchedNew.read readNew
  obtain ⟨_,there,vettedOld⟩ := vouchedOld.read readOld
  have describes : plan.Describes old revision := same ▸ (new_describes built).1.bindInstance plan.instanceKey
  have warranted : Warranted known (.acceptUpdate workspace principal k plan revision now) :=
    ⟨supported,vetted,home,old,vettedOld,there,describes⟩
  simp [Fits,warranted,Issued]

private theorem drop_warrants (sessions : List (String × String)) (now : Int) : Warrants known source (drop sessions now) :=
  keeps_forM fun _ => by simp [Fits,Warranted,Issued]

private theorem resolveRun_warrants (c : OperationCall) : Warrants known source (resolveRun c) := by
  simp only [resolveRun,keeps_ite,keeps_bind,keeps_attempt_query]
  refine ⟨fun _ db _ => ?_,fun _ => by simp⟩
  cases operationFrom c.workspace c.operationId db with
  | ok previous => simp [implicitRunId]
  | error error => cases error <;> simp [implicitRunId]

private theorem createOperation_warrants (c : OperationCall) (contextId : String) (runAt sessionAt acceptedAt : Int) :
    Warrants known (.createOperation c contextId runAt sessionAt acceptedAt) (createOperation c contextId runAt sessionAt acceptedAt) := by
  have allowed : ∀ request, Warrants known (.createOperation c contextId runAt sessionAt acceptedAt)
      (authorizeOperationAccess c.workspace c.principal c.instanceId c.kind request) := by
    intro request
    simp only [authorizeOperationAccess,keeps_bind,keeps_attempt_query]
    intro db _
    cases authorize c.workspace c.principal .cellOperate db <;> simp
  simp only [createOperation,keeps_bind,keeps_query,keeps_settle]
  intro _ _ _ _ _ _ _ _ _ _
  refine keeps_mono (resolveRun_warrants c) fun run _ => keeps_retried (by simp) ?_
  simp [admitFresh,allowed,ensureImplicitRun,trackSession,Fits,Warranted,Issued,OperationCall.admission]

private theorem issuePrivateAccess_warrants (workspace principal recipient id instanceId : String)
    (scope : PrivateTransferScope) (k : String) (now : Int) :
    Warrants known source (issuePrivateAccess workspace principal recipient id instanceId scope k now) := by
  simp only [issuePrivateAccess,keeps_bind,keeps_query,keeps_settle]
  intros
  refine keeps_retried (by simp [privateAccess]) ?_
  simp only [keeps_bind,keeps_query]
  intro _ _ found _
  cases found <;> simp [Fits,Warranted,Issued]

/-- Whatever the calls of others do, a call executes only statements that are warranted. -/
theorem program_warrants (request : Request) : Warrants known request (program request) := by
  cases request with
  | materialize => simp [program,materialize_warrants]
  | recordPlanUse => simp [program,recordPlanUse_warrants]
  | planUpdate => simp [program,planUpdate_warrants]
  | acceptUpdate => simp [program,acceptUpdate_warrants]
  | drop => simp [program,drop_warrants]
  | createOperation => simp [program,createOperation_warrants]
  | issuePrivateAccess => simp [program,issuePrivateAccess_warrants]
  | putWorkspace | putPrincipal | grant | revoke | replaceGrants | initializeActorOnce =>
    simp [program,putWorkspace,putPrincipal,grant,revoke,replaceGrants,initializeActorOnce,Fits,Warranted,Issued]
  | createDraft | editDraft | cloneDraft | publish =>
    simp [program,keeps_retried,createDraft,editDraft,cloneDraft,publish,Fits,Warranted,Issued,PublishedRevision.Genuine]
  | bindRuntime | purgeUnmaterializedHandle | purgeCell =>
    simp [program,bindRuntime,purgeUnmaterializedHandle,purgeCell,Fits,Warranted,Issued]
  | saveUpdatePlan | markUpdateApplied | beginInstanceClose =>
    simp [program,saveUpdatePlan,markUpdateApplied,beginInstanceClose,Fits,Warranted,Issued]
  | reserveCell | setCellPhase | saveCellPreview | bindCellSubmission | reservePreview =>
    simp [program,reserveCell,setCellPhase,saveCellPreview,bindCellSubmission,reservePreview,cellPreview,Fits,Warranted,Issued]
  | createExperiment | closeExperiment | ensureDefaultRun =>
    simp [program,keeps_retried,createExperiment,closeExperiment,ensureDefaultRun,implicitRunId,ensureImplicitRun,
      Fits,Warranted,Issued]
  | startSession | trackSession | finishSession | finishCellSessions =>
    simp [program,keeps_retried,startSession,trackSession,finishSession,finishCellSessions,Fits,Warranted,Issued]
  | recordOperationResult | updateOperationPhase | recordWorkspaceCapture | revokePrivateAccess =>
    simp +contextual [program,recordOperationResult,updateOperationPhase,recordWorkspaceCapture,revokePrivateAccess,
      privateAccess,Fits,Warranted,Issued]
  | createCandidateBuild | recordCandidateRequest | updateCandidateBuild | removeCandidateBuild =>
    simp [program,createCandidateBuild,recordCandidateRequest,updateCandidateBuild,removeCandidateBuild,Fits,Warranted,Issued]

/-! ### What holds in every run -/

/-- A statement keeps the revisions vouched for. -/
theorem Vouched.write {statement : Statement} {db after : Db} (vouched : Vouched known db)
    (warranted : Warranted known statement) (assumed : ∀ row, statement = .insertRevision row → known row.revision)
    (write : Write statement db after) : Vouched known after := by
  cases write with
  | publish row db f keeps contents =>
    intro other member
    rcases (Table.mem_upsert keeps).mp member with ⟨old,_⟩ | ⟨old,there,same,rfl⟩ | ⟨rfl,_⟩
    · exact vouched other old
    · obtain ⟨revision,home⟩ := contents old
      obtain ⟨digest,publisher,vetted⟩ := vouched old there
      rw [revision,home]
      exact ⟨digest.trans (keeps old).symm,publisher,vetted⟩
    · exact ⟨warranted.1,warranted.2.1,assumed other rfl⟩
  | purgeHandle => exact fun row member => vouched row (Table.mem_delete.mp member).1
  | purge => exact fun row member => vouched row (Table.mem_delete.mp member).1
  | newAction _ _ _ _ _ admitted => exact admitted.result ▸ vouched
  | acknowledge _ _ _ _ _ _ _ _ _ acknowledged => exact (recordUpdateReceipt_ok.mp acknowledged.result).2 ▸ vouched
  | accept _ _ _ _ _ _ _ _ _ accepted => exact (recordUpdateReceipt_ok.mp accepted.result).2 ▸ vouched
  | _ => exact vouched

/-- In every run whose publications are `known`, so are the revisions of every
    state, and every statement that was executed was warranted. -/
theorem Reached.warranted {config : Config} (reached : Reached config) (known : PublishedRevision → Prop)
    (given : Throughout (fun _ event => ∀ row, event.did = some (.insertRevision row) → known row.revision) config.log) :
    Vouched known config.state ∧ Throughout (fun _ event => Vouched known event.before ∧
      ∀ statement, event.did = some statement → Warranted known statement ∧ Issued event.request statement ∧
        Write statement event.before event.after) config.log := by
  obtain ⟨now,_,log⟩ := Reachable.invariant (Vouched known)
    (fun statement _ => ∀ row, statement = .insertRevision row → known row.revision)
    (fun request statement _ => Fits known request statement) (fun _ _ => True) reached
    (given.mono fun _ _ all _ did row same => all row (did.trans (congrArg some same)))
    (fun row member => absurd member (Table.not_mem_empty row))
    (fun request => (program_warrants request).mono (fun _ _ holds => holds) fun _ _ => trivial)
    (fun _ statement _ state _ after vouched ⟨warranted,_⟩ assumed executed =>
      vouched.write warranted assumed (execute_write executed))
  refine ⟨now,log.mono fun _ event ⟨before,_,answered,_⟩ => ⟨before,fun statement did => ?_⟩⟩
  obtain ⟨_,answer,⟨warranted,issued⟩,executed,_⟩ := answered statement did
  exact ⟨warranted,issued,execute_write executed⟩

/-! ### Runs to evaluate -/

/-- The calls one after the other, each to its end. -/
def inTurn (requests : List Request) : List (Interleaving.Move Request) :=
  requests.flatMap fun request => [.start request,.finish 0]

/-- The configuration at the end of a schedule. -/
def ran (moves : List (Interleaving.Move Request)) : Config := Interleaving.play execute code Db.empty moves

theorem ran_reached (moves : List (Interleaving.Move Request)) : Reached (ran moves) := Reachable.play moves
end

section
attribute [local instance] CoreFunctions.sample

/-- A workspace with two principals that may do everything a cell needs, and a
    published revision for each of the given lists of components. -/
def prepared (cells : List (String × List String)) : List Request :=
  [.putWorkspace ⟨"w","w"⟩,.putPrincipal "p",.putPrincipal "q"] ++
    (["p","q"].flatMap fun principal => [Capability.cellCreate,.cellPublish,.cellMaterialize,.cellEdit,.cellOperate,.cellClose,
      .cellStatus,.cellRead,.experimentCreate,.experimentClose].map fun capability => .grant "w" principal capability) ++
    cells.flatMap fun cell => [.createDraft "w" "p" cell.1 (sampleCell cell.2) (cell.1 ++ "-draft"),
      .publish "w" "p" cell.1 1 (cell.1 ++ "-publish")]

/-- The revision that publishing a sample cell gives. -/
def sampleRevision (ids : List String) : PublishedRevision :=
  let lock := match CoreFunctions.resolveLock (sampleCell ids) ⟨.null⟩ with
    | .ok lock => lock
    | .error _ => ⟨"","",[]⟩
  ⟨"w",publicationDigest "w" (sampleCell ids) lock,sampleCell ids,lock⟩

/-- A cell with the given components, under the incarnation of a nonce. -/
def sampleInstance (id nonce k : String) (ids : List String) : Request :=
  .materialize "w" "p" id (sampleRevision ids).digest k nonce

/-- The plan of an edit from one list of components to another. -/
def samplePlan (nonce : String) (target : CellUpdateTarget) (old new : List String) : Option CellUpdatePlan :=
  let key := (newInstance "w" target.instanceId (sampleRevision old) "" nonce).instanceKey
  match CellUpdatePlan.new target (sampleRevision old) (sampleRevision new) with
  | .ok plan => some (plan.bindInstance key)
  | .error _ => none

def sampleEdit (principal nonce k : String) (target : CellUpdateTarget) (old new : List String) : List Request :=
  (samplePlan nonce target old new).toList.map fun plan => .acceptUpdate "w" principal plan k 0
end

end Proofstorm.Store
