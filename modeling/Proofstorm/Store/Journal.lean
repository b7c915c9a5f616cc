import Proofstorm.Store.DraftSteps
import Proofstorm.Store.Sealed
import Proofstorm.Store.UpdateChain

/-!
What every state of the store has of its actions: the instance, the recorded
revision and a name for the run of each (`Journalled`), generations that fit
their column, and for every grant the principal and the workspace that it names
(`Enrolled`). A later call that reads back what an earlier one recorded finds it
there. What a call has checked before it executes a statement is in `program_checks`.
-/
namespace Proofstorm.Store
open Proofstorm.Core
open Proofstorm.Interleaving (Throughout Reachable Call Keeps keeps_bind keeps_query keeps_settle keeps_ite
  keeps_attempt_query keeps_submit keeps_pure keeps_mono keeps_forM)

/-- Every action has its instance and a recorded revision, nothing else has a
    recorded revision, and the generations of an instance fit their column. -/
structure Journalled (db : Db) : Prop where
  housed : ∀ action ∈ db.actions, db.instances.has (action.workspaceId,action.instanceId)
  revised : ∀ action ∈ db.actions, db.operationRevisions.has (action.workspaceId,action.id)
  traced : ∀ row ∈ db.operationRevisions, db.actions.has (row.workspaceId,row.operationId)
  counted : ∀ row ∈ db.cellUpdateState, row.generation < versionLimit ∧ row.appliedGeneration < versionLimit

theorem one_fits : 1 < versionLimit := by decide

section
variable {db after : Db}

section
variable (journalled : Journalled db)
include journalled

theorem Journalled.congr (actions : after.actions = db.actions)
    (instances : ∀ row ∈ db.instances, after.instances.has (key row))
    (revisions : after.operationRevisions = db.operationRevisions)
    (generations : after.cellUpdateState = db.cellUpdateState) : Journalled after := by
  refine ⟨fun action member => ?_,?_,?_,?_⟩
  · obtain ⟨row,live,same⟩ := journalled.housed action (actions ▸ member)
    exact same ▸ instances row live
  · rw [actions,revisions]; exact journalled.revised
  · rw [actions,revisions]; exact journalled.traced
  · rw [generations]; exact journalled.counted

/-- Actions that are rewritten in place stay journalled. -/
theorem Journalled.rewrite {p : ActionRow → Prop} [DecidablePred p] {f : ActionRow → ActionRow}
    (keeps : ∀ row, key (f row) = key row) (sessions : Table Session) (same : ∀ row, (f row).instanceId = row.instanceId) :
    Journalled { db with sessions := sessions, actions := db.actions.update p f keeps } := by
  have origin : ∀ action ∈ db.actions.update p f keeps, ∃ old ∈ db.actions,
      old.workspaceId = action.workspaceId ∧ old.id = action.id ∧ old.instanceId = action.instanceId := by
    intro action member
    rcases (Table.mem_update keeps).mp member with ⟨old,_⟩ | ⟨old,held,_,rfl⟩
    · exact ⟨action,old,rfl,rfl,rfl⟩
    · exact ⟨old,held,(congrArg Prod.fst (keeps old)).symm,(congrArg Prod.snd (keeps old)).symm,(same old).symm⟩
  refine ⟨fun action member => ?_,fun action member => ?_,fun row member => ?_,journalled.counted⟩
  · obtain ⟨old,held,home,_,there⟩ := origin action member
    exact home ▸ there ▸ journalled.housed old held
  · obtain ⟨old,held,home,named,_⟩ := origin action member
    exact home ▸ named ▸ journalled.revised old held
  · obtain ⟨old,held,keyed⟩ := journalled.traced row member
    by_cases chosen : p old
    · exact ⟨f old,(Table.mem_update keeps).mpr (.inr ⟨old,held,chosen,rfl⟩),(keeps old).trans keyed⟩
    · exact ⟨old,(Table.mem_update keeps).mpr (.inl ⟨held,chosen⟩),keyed⟩

theorem Journalled.admit [CoreFunctions] {a : Admission} {operation : CellOperation}
    {cell : InstanceRow} (admitted : Admitted a operation cell db after) : Journalled after := by
  rw [admitted.result]
  refine ⟨fun action member => ?_,fun action member => ?_,fun row member => ?_,journalled.counted⟩
  · rcases Table.mem_insert.mp member with old | ⟨rfl,_⟩
    · exact journalled.housed action old
    · exact ⟨cell,admitted.member,Prod.ext admitted.home admitted.named⟩
  · rcases Table.mem_insert.mp member with old | ⟨rfl,_⟩
    · obtain ⟨row,held,same⟩ := journalled.revised action old
      exact ⟨row,Table.mem_insert_of_mem held,same⟩
    · exact Table.has_insert db.operationRevisions ⟨a.workspace,a.operationId,cell.revisionDigest⟩
  · rcases Table.mem_insert.mp member with old | ⟨rfl,_⟩
    · obtain ⟨action,held,same⟩ := journalled.traced row old
      exact ⟨action,Table.mem_insert_of_mem held,same⟩
    · exact Table.has_insert db.actions (a.row (lastSequence a.workspace a.instanceId db + 1))

/-- A purge takes the recorded revisions of the actions that it takes. -/
theorem Journalled.purge [CoreFunctions] (cell : CellInstance) : Journalled (purged cell db) := by
  refine ⟨fun action member => ?_,fun action member => ?_,fun row member => ?_,fun row member => ?_⟩
  · obtain ⟨held,apart⟩ := Table.mem_delete.mp member
    obtain ⟨row,live,same⟩ := journalled.housed action held
    refine ⟨row,mem_purged_instances.mpr ⟨live,fun gone => apart ?_⟩,same⟩
    exact ⟨(congrArg Prod.fst same).symm.trans gone.1,(congrArg Prod.snd same).symm.trans gone.2.1⟩
  · obtain ⟨held,apart⟩ := Table.mem_delete.mp member
    obtain ⟨row,recorded,same⟩ := journalled.revised action held
    refine ⟨row,Table.mem_delete.mpr ⟨recorded,fun gone => ?_⟩,same⟩
    obtain ⟨other,listed,named⟩ := List.mem_map.mp gone.2
    obtain ⟨present,mine⟩ := List.mem_filter.mp listed
    obtain ⟨home,here⟩ := of_decide_eq_true mine
    have one : other = action := Table.eq_of_key present held
      (Prod.ext (home.trans (gone.1.symm.trans (congrArg Prod.fst same))) (named.trans (congrArg Prod.snd same)))
    exact apart (one ▸ ⟨home,here⟩)
  · obtain ⟨held,apart⟩ := Table.mem_delete.mp member
    obtain ⟨action,present,same⟩ := journalled.traced row held
    refine ⟨action,Table.mem_delete.mpr ⟨present,fun gone => apart ⟨(congrArg Prod.fst same).symm.trans gone.1,?_⟩⟩,same⟩
    have listed : action ∈ actionsOf cell db := List.mem_filter.mpr ⟨present,decide_eq_true gone⟩
    have named : action.id = row.operationId := congrArg Prod.snd same
    rw [← named]
    exact List.mem_map_of_mem listed
  · exact journalled.counted row (Table.mem_delete.mp member).1

theorem Journalled.write [CoreFunctions] {statement : Statement}
    (write : Write statement db after) : Journalled after := by
  have live : ∀ row ∈ db.instances, db.instances.has (key row) := fun row member => ⟨row,member,rfl⟩
  cases write with
  | materialize row _ free unique published =>
    exact journalled.congr rfl (fun old member => ⟨old,Table.mem_insert_of_mem member,rfl⟩) rfl rfl
  | newAction a operation cell db after admitted => exact journalled.admit admitted
  | result => exact journalled.rewrite _ _ fun _ => rfl
  | start => exact journalled.rewrite _ _ fun _ => rfl
  | acknowledge _ _ _ _ _ _ _ db after acknowledged =>
    rw [(recordUpdateReceipt_ok.mp acknowledged.result).2]
    exact journalled.congr rfl live rfl rfl
  | accept workspace principal k plan revision now cell db after accepted =>
    have fits := accepted.fits
    rw [accepted.after_eq]
    refine ⟨fun action member => ?_,journalled.revised,journalled.traced,fun row member => ?_⟩
    · obtain ⟨row,held,same⟩ := journalled.housed action member
      by_cases chosen : row.workspaceId = workspace ∧ row.id = plan.target.instanceId
      · exact ⟨_,(Table.mem_update (by exact fun _ => rfl)).mpr (.inr ⟨row,held,chosen,rfl⟩),same⟩
      · exact ⟨row,(Table.mem_update (by exact fun _ => rfl)).mpr (.inl ⟨held,chosen⟩),same⟩
    · rcases (Table.mem_upsert (by exact fun _ => rfl)).mp member with ⟨old,_⟩ | ⟨old,held,_,rfl⟩ | ⟨rfl,_⟩
      · exact journalled.counted row old
      · exact ⟨fits,(journalled.counted old held).2⟩
      · exact ⟨fits,one_fits⟩
  | apply workspace id generation converged db current =>
    refine ⟨journalled.housed,journalled.revised,journalled.traced,fun row member => ?_⟩
    rcases (Table.mem_update (by exact fun _ => rfl)).mp member with ⟨old,_⟩ | ⟨old,held,⟨_,_,same⟩,rfl⟩
    · exact journalled.counted row old
    · obtain ⟨reached,applied⟩ := journalled.counted old held
      exact ⟨reached,max_lt applied (same ▸ reached)⟩
  | beginClose workspace id db =>
    refine ⟨journalled.housed,journalled.revised,journalled.traced,fun row member => ?_⟩
    rcases (Table.mem_upsert (by exact fun _ => rfl)).mp member with ⟨old,_⟩ | ⟨old,held,_,rfl⟩ | ⟨rfl,_⟩
    · exact journalled.counted row old
    · exact journalled.counted old held
    · exact ⟨one_fits,one_fits⟩
  | purge cell db => exact journalled.purge cell
  | _ => exact journalled.congr rfl live rfl rfl
end

theorem journalled_run [CoreFunctions] {config : Config} (reached : Reached config) : Journalled config.state := by
  have first : Journalled Db.empty := by
    constructor <;> exact fun row member => absurd member (Table.not_mem_empty row)
  exact (reached.always Journalled first fun _ _ _ _ _ write journalled => journalled.write write).1

theorem Journalled.applied (journalled : Journalled db) (workspace id : String) :
    (updateState workspace id db).appliedGeneration < versionLimit := by
  rw [updateState]
  cases found : db.cellUpdateState.find (workspace,id) with
  | none => decide
  | some row => exact (journalled.counted row (Table.find_eq_some.mp found).1).2
end

/-! ### Grants -/

/-- Every grant names a workspace and a principal that are there. -/
def Enrolled (db : Db) : Prop :=
  ∀ row ∈ db.grants, db.workspaces.has row.workspaceId ∧ db.principals.has row.principalId

theorem Enrolled.grantRow {db after : Db} {workspace principal : String} {capability : Capability} (enrolled : Enrolled db)
    (granted : insertGrantRow workspace principal capability db = .ok after) : Enrolled after := by
  simp only [insertGrantRow,bind_ok,ensure_ok,pure_ok] at granted
  obtain ⟨_,named,rfl⟩ := granted
  intro row member
  rcases Table.mem_insert.mp member with old | ⟨rfl,free⟩
  · exact enrolled row old
  · exact named.resolve_left (Table.not_has.mpr free)

theorem Enrolled.grants {f : Db → Capability → Except StoreError Db}
    (each : ∀ db capability after, f db capability = .ok after → Enrolled db → Enrolled after) {list : List Capability}
    {db after : Db} (enrolled : Enrolled db) (ran : list.foldlM f db = .ok after) : Enrolled after := by
  induction list generalizing db with
  | nil =>
    simp only [List.foldlM_nil,pure_ok] at ran
    exact ran ▸ enrolled
  | cons capability rest ih =>
    simp only [List.foldlM_cons,bind_ok] at ran
    obtain ⟨middle,first,others⟩ := ran
    exact ih (each db capability middle first enrolled) others

theorem Enrolled.actorOnce {db after : Db} {workspace principal identity preset : String} {capabilities : List Capability}
    {new : Bool} (enrolled : Enrolled db)
    (initialized : initializeActorOnceTx workspace principal identity preset capabilities db = .ok (new,after)) :
    Enrolled after := by
  rw [initializeActorOnceTx] at initialized
  cases known : db.localActorPresets.find principal with
  | some old =>
    simp only [known,bind_ok,pure_ok,Prod.mk.injEq] at initialized
    obtain ⟨_,_,_,rfl⟩ := initialized
    exact enrolled
  | none =>
    simp only [known,bind_ok,pure_ok,Prod.mk.injEq] at initialized
    obtain ⟨_,_,granted,ran,_,_,_,rfl⟩ := initialized
    have created : Enrolled { db with principals := db.principals.insert ⟨principal⟩ } := by
      intro row member
      obtain ⟨home,caller,present,same⟩ := enrolled row member
      exact ⟨home,caller,Table.mem_insert_of_mem present,same⟩
    have all : Enrolled granted := created.grants (fun db capability after inserted enrolled => by
      simp only [bind_ok] at inserted
      obtain ⟨_,_,inserted⟩ := inserted
      exact enrolled.grantRow inserted) ran
    exact all

section
variable [CoreFunctions] {db after : Db}

theorem Enrolled.candidate {workspace principal k : String} {candidate stored : CandidateBuild} (enrolled : Enrolled db)
    (created : createCandidateBuildTx workspace principal candidate k db = .ok (stored,after)) : Enrolled after := by
  rw [createCandidateBuildTx] at created
  cases known : db.candidateBuilds.find (workspace,candidate.id) <;>
    simp only [known,bind_ok,pure_ok,Prod.mk.injEq] at created <;>
    obtain ⟨_,_,_,_,_,bound,_,rfl⟩ := created <;>
    rcases bindCandidateRequest_ok bound with rfl | ⟨_,rfl⟩ <;> exact enrolled

/-- Workspaces and principals are never deleted, and a grant is inserted for those that are there only. -/
theorem Enrolled.execute {statement : Statement} {answer : statement.Answer} (enrolled : Enrolled db)
    (executed : execute statement db = .ok (answer,after)) : Enrolled after := by
  cases statement with
  | putWorkspace workspace =>
    cases executed
    intro row member
    obtain ⟨⟨home,present,same⟩,caller⟩ := enrolled row member
    refine ⟨?_,caller⟩
    by_cases chosen : key home = key workspace
    · exact ⟨_,(Table.mem_upsert (by exact fun _ => rfl)).mpr (.inr (.inl ⟨home,present,chosen,rfl⟩)),same⟩
    · exact ⟨home,(Table.mem_upsert (by exact fun _ => rfl)).mpr (.inl ⟨present,chosen⟩),same⟩
  | putPrincipal principal =>
    cases executed
    intro row member
    obtain ⟨home,caller,present,same⟩ := enrolled row member
    exact ⟨home,caller,Table.mem_insert_of_mem present,same⟩
  | grant =>
    simp only [Store.execute,grantStatement,bind_ok,pure_ok,Prod.mk.injEq] at executed
    obtain ⟨_,granted,_,rfl⟩ := executed
    exact enrolled.grantRow granted
  | revoke =>
    cases executed
    exact fun row member => enrolled row (Table.mem_delete.mp member).1
  | replaceGrants workspace principal capabilities =>
    simp only [Store.execute,replaceGrantsTx,bind_ok,pure_ok,Prod.mk.injEq] at executed
    obtain ⟨_,ran,_,rfl⟩ := executed
    have cleared : Enrolled { db with
        grants := db.grants.delete fun row => row.workspaceId = workspace ∧ row.principalId = principal } :=
      fun row member => enrolled row (Table.mem_delete.mp member).1
    exact cleared.grants (fun _ _ _ inserted enrolled => enrolled.grantRow inserted) ran
  | initializeActorOnce => exact enrolled.actorOnce executed
  | insertSubmission | updatePrivateAccess | insertUpdatePlan | insertPreview | insertPlanUse | finishSession
  | finishCellSessions | updateOperationPhase | beginInstanceClose =>
    cases executed
    exact enrolled
  | insertDraft =>
    obtain ⟨_,rfl⟩ := insertDraft_ok executed
    exact enrolled
  | insertClone =>
    obtain ⟨_,rfl⟩ := insertClone_ok executed
    exact enrolled
  | editDraft =>
    obtain ⟨_,rfl⟩ := editDraftStatement_ok executed
    exact enrolled
  | insertPrivateAccess =>
    obtain ⟨_,rfl⟩ := insertPrivateAccess_ok executed
    exact enrolled
  | updateCandidate =>
    obtain ⟨_,_,rfl⟩ := updateCandidateStatement_ok executed
    exact enrolled
  | bindRuntime =>
    obtain ⟨_,rfl⟩ := bindRuntimeTx_ok executed
    exact enrolled
  | insertRevision =>
    obtain ⟨_,_,_,rfl⟩ := insertRevision_ok executed
    exact enrolled
  | insertInstance =>
    rcases insertInstance_ok executed with ⟨_,rfl⟩ | ⟨_,_,_,_,_,rfl⟩ <;> exact enrolled
  | recordIdempotency =>
    obtain ⟨_,rfl⟩ := recordIdempotencyStatement_ok executed
    exact enrolled
  | createCandidateBuild => exact enrolled.candidate executed
  | recordCandidateRequest =>
    simp only [Store.execute,recordCandidateRequestTx,bind_ok,pure_ok,Prod.mk.injEq] at executed
    obtain ⟨_,bound,_,rfl⟩ := executed
    rcases bindCandidateRequest_ok bound with rfl | ⟨_,rfl⟩ <;> exact enrolled
  | removeCandidateBuild =>
    simp only [Store.execute,removeCandidateBuildTx,bind_ok,pure_ok,Prod.mk.injEq] at executed
    obtain ⟨_,_,_,_,_,_,_,rfl⟩ := executed
    exact enrolled
  | insertExperiment =>
    rcases insertRun_ok executed with ⟨rfl,_⟩ | ⟨_,_,_,_,rfl⟩ <;> exact enrolled
  | ensureImplicitRun =>
    obtain ⟨_,_,_,_,_,_,_,_,_,_,inserted,rfl⟩ := ensureImplicitRunTx_ok executed
    rcases insertRun_ok inserted with ⟨rfl,_⟩ | ⟨_,_,_,_,rfl⟩ <;> exact enrolled
  | closeExperiment =>
    obtain ⟨_,_,_,_,_,_,_,_,_,_,_,_,_,rfl⟩ := closeExperimentTx_ok executed
    exact enrolled
  | trackSession =>
    obtain ⟨_,_,_,_,_,rfl | ⟨_,_,_,_,_,rfl⟩⟩ := trackSessionTx_ok executed <;> exact enrolled
  | recordCapture =>
    rcases recordCaptureTx_ok executed with rfl | ⟨_,_,_,_,_,_,_,_,_,_,_,_,rfl⟩ <;> exact enrolled
  | createOperation =>
    rcases createOperationTx_ok executed with ⟨rfl,_⟩ | ⟨_,_,_,rfl⟩ | ⟨cell,admitted⟩
    · exact enrolled
    · exact enrolled
    · exact admitted.result ▸ enrolled
  | recordOperationResult =>
    rcases recordOperationResultTx_ok executed with ⟨_,rfl⟩ | ⟨_,rfl⟩ <;> exact enrolled
  | acceptUpdate =>
    obtain ⟨cell,_,_,_,_,⟨rfl,_⟩ | acknowledged | accepted⟩ := acceptUpdateTx_ok executed
    · exact enrolled
    · exact (recordUpdateReceipt_ok.mp acknowledged.result).2 ▸ enrolled
    · exact accepted.after_eq ▸ enrolled
  | markUpdateApplied =>
    rcases markUpdateAppliedTx_ok executed with rfl | ⟨_,rfl⟩ <;> exact enrolled
  | reserveCell =>
    rcases reserveCellTx_ok executed with ⟨rfl,_⟩ | ⟨_,_,_,_,_,_,rfl,_⟩ <;> exact enrolled
  | setCellPhase =>
    obtain ⟨_,_,_,_,_,_,⟨_,rfl⟩ | ⟨_,rfl⟩⟩ := setCellPhaseTx_ok.mp executed <;> exact enrolled
  | reservePreview =>
    rcases reservePreviewTx_ok executed with ⟨rfl,_⟩ | ⟨_,_,_,_,_,_,_,_,rfl,_⟩ <;> exact enrolled
  | purgeUnmaterializedHandle =>
    obtain ⟨_,rfl | rfl⟩ := purgeUnmaterializedHandleTx_ok executed <;> exact enrolled
  | purgeCell =>
    obtain ⟨_,_,rfl⟩ := purgeCellTx_ok.mp executed
    exact enrolled

/-! ### Names of runs -/

/-- An empty run id means that a request names no run: no run has it. -/
def NamedRuns (db : Db) : Prop := ∀ run ∈ db.experiments, run.id ≠ ""

/-- A run that a call opens by itself has a name. -/
def Names : Statement → Prop
  | .insertExperiment run => run.id ≠ ""
  | _ => True

omit [CoreFunctions] in
theorem prefixed_ne_empty {text rest : String} (named : text.toList ≠ []) : text ++ rest ≠ "" := by
  intro same
  have chars := congrArg String.toList same
  simp only [String.toList_append] at chars
  exact named (List.append_eq_nil_iff.mp (chars.trans (by simp))).1

omit [CoreFunctions] in
theorem ne_empty_of_isSlug {id : String} (slug : isSlug id = true) : id ≠ "" := by
  rintro rfl
  exact absurd slug (by decide)

theorem NamedRuns.write {statement : Statement} (named : NamedRuns db) (names : Names statement)
    (write : Write statement db after) : NamedRuns after := by
  cases write with
  | openRun run db free held =>
    intro other member
    rcases Table.mem_insert.mp member with old | ⟨rfl,_⟩
    · exact named other old
    · exact names
  | automaticRun workspace principal instanceId id now db cell ordinal member home named_ open_ opened next =>
    intro other present
    rcases Table.mem_insert.mp present with old | ⟨rfl,free⟩
    · exact named other old
    · rw [nextRun] at next
      split at next
      · cases next
        exact prefixed_ne_empty (by simp)
      · rename_i run found
        split at next
        · -- The automatic run is open, so it is there.
          rename_i active
          cases next
          obtain ⟨row,held,_⟩ := Option.map_eq_some_iff.mp active
          exact absurd held (by simp [show db.experiments.find (workspace,run.id) = none from free])
        · split at next
          · cases next
            exact prefixed_ne_empty (by simp)
          · cases next
  | closeRun workspace id now db run cell revision =>
    intro other member
    rcases (Table.mem_update (by exact fun _ => rfl)).mp member with ⟨old,_⟩ | ⟨old,held,_,rfl⟩
    · exact named other old
    · exact named old held
  | newAction a operation cell db after admitted => exact admitted.result ▸ named
  | acknowledge _ _ _ _ _ _ _ db after acknowledged => exact (recordUpdateReceipt_ok.mp acknowledged.result).2 ▸ named
  | accept workspace principal k plan revision now cell db after accepted => exact accepted.after_eq ▸ named
  | purge cell db => exact fun run member => named run (Table.mem_delete.mp member).1
  | _ => exact named

/-! ### What calls have checked -/

/-- A run that a call opens by itself has a name, a candidate that it writes is
    one that the update allows, and a grant that it writes back is revoked. -/
def Checks (statement : Statement) : Prop :=
  Names statement ∧
    match statement with
    | .updateCandidate _ current candidate =>
      validateCandidateUpdate current candidate = .ok () ∧ decodeCandidateBuild current = .ok current
    | .updatePrivateAccess _ _ grant => grant.revokedAtUnix.isSome = true
    | _ => True

/-- The statement has been checked, and records no draft. -/
def Ordinary (statement : Statement) : Prop := Checks statement ∧ statement.Foreign

/-- A call executes only ordinary statements. -/
abbrev Checked {α : Type} (call : Program α) : Prop := Keeps (fun _ => True) Ordinary call fun _ => True

/-- The record under an id is read where it is there and decodes. -/
theorem candidateBuildUnchecked_ok {workspace id : String} {candidate : CandidateBuild} :
    candidateBuildUnchecked workspace id db = .ok candidate ↔ decodeCandidateBuild candidate = .ok candidate ∧
      ∃ row ∈ db.candidateBuilds, row.workspaceId = workspace ∧ row.id = id ∧ row.build = candidate := by
  have decoded : ∀ {stored : CandidateBuild}, decodeCandidateBuild stored = .ok candidate → stored = candidate := by
    intro stored ended
    simp only [decodeCandidateBuild,bind_ok,pure_ok] at ended
    obtain ⟨_,_,same⟩ := ended
    exact same
  simp only [candidateBuildUnchecked,bind_ok,require_ok,Table.find_eq_some]
  constructor
  · rintro ⟨row,⟨member,keyed⟩,ended⟩
    obtain rfl := decoded ended
    exact ⟨ended,row,member,congrArg Prod.fst keyed,congrArg Prod.snd keyed,rfl⟩
  · rintro ⟨ended,row,member,home,named,rfl⟩
    exact ⟨row,⟨member,Prod.ext home named⟩,ended⟩

section
attribute [local simp] Ordinary Checks Names Statement.Foreign draftOperations

private theorem recordPlanUse_checks (cell : CellInstance) (plan : Option String) : Checked (recordPlanUse cell plan) := by
  cases plan <;> simp [recordPlanUse]

private theorem materialize_checks (workspace principal id revisionDigest k nonce : String) :
    Checked (materialize workspace principal id revisionDigest k nonce) := by
  simp only [materialize,keeps_bind,keeps_query,keeps_settle]
  intro _ _ _ _ _ _ _ _ _ _
  refine keeps_retried (by simp) ?_
  simp only [keeps_bind,keeps_attempt_query]
  intro db _
  cases instanceUnchecked workspace id db with
  | ok existing => simp
  | error error => simp [createInstance,recordPlanUse_checks]

private theorem planUpdate_checks (workspace principal : String) (target : CellUpdateTarget) (revision : PublishedRevision) :
    Checked (planUpdate workspace principal target revision) := by
  have checked : ∀ id plan, Checked (checkRetained workspace id plan revision) := by
    intro id plan
    simp only [checkRetained,keeps_bind]
    exact keeps_mono (keeps_forM (by simp)) fun _ _ => keeps_forM (by simp)
  simp [planUpdate,checked]

private theorem resolveRun_checks (c : OperationCall) : Checked (resolveRun c) := by
  simp only [resolveRun,keeps_ite,keeps_bind,keeps_attempt_query]
  refine ⟨fun _ db _ => ?_,fun _ => by simp⟩
  cases operationFrom c.workspace c.operationId db with
  | ok previous => simp [implicitRunId]
  | error error => cases error <;> simp [implicitRunId]

private theorem createOperation_checks (c : OperationCall) (contextId : String) (runAt sessionAt acceptedAt : Int) :
    Checked (createOperation c contextId runAt sessionAt acceptedAt) := by
  have allowed : ∀ request, Checked
      (authorizeOperationAccess c.workspace c.principal c.instanceId c.kind request) := by
    intro request
    simp only [authorizeOperationAccess,keeps_bind,keeps_attempt_query]
    intro db _
    cases authorize c.workspace c.principal .cellOperate db <;> simp
  simp only [createOperation,keeps_bind,keeps_query,keeps_settle]
  intro _ _ _ _ _ _ _ _ _ _
  refine keeps_mono (resolveRun_checks c) fun run _ => keeps_retried (by simp) ?_
  simp [admitFresh,allowed,ensureImplicitRun,trackSession]

private theorem createExperiment_checks (workspace principal id instanceId k : String) (now : Int) :
    Checked (createExperiment workspace principal id instanceId k now) := by
  simp only [createExperiment,keeps_bind,keeps_query,keeps_settle,ensure_ok]
  intro _ _ _ _ _ slug _ _ _ _
  refine keeps_retried (by simp) ?_
  simp [Ordinary,Checks,Names,Statement.Foreign,draftOperations,ne_empty_of_isSlug slug]

private theorem issuePrivateAccess_checks (workspace principal recipient id instanceId : String)
    (scope : PrivateTransferScope) (k : String) (now : Int) :
    Checked (issuePrivateAccess workspace principal recipient id instanceId scope k now) := by
  simp only [issuePrivateAccess,keeps_bind,keeps_query,keeps_settle]
  intros
  refine keeps_retried (by simp [privateAccess]) ?_
  simp only [keeps_bind,keeps_query]
  intro _ _ found _
  cases found <;> simp

private theorem updateCandidateBuild_checks (workspace : String) (candidate : CandidateBuild) :
    Checked (updateCandidateBuild workspace candidate) := by
  simp only [updateCandidateBuild,keeps_bind,keeps_query,keeps_settle,keeps_submit]
  intro db _ current read _ valid
  exact ⟨⟨⟨trivial,valid,(candidateBuildUnchecked_ok.mp read).1⟩,trivial⟩,fun updated => by simp⟩

theorem program_foreign {request : Request} (other : request.draftCall = none) : Checked (program request) := by
  cases request with
  | createDraft | editDraft | cloneDraft => exact nomatch other
  | materialize => simp [program,materialize_checks]
  | recordPlanUse => simp [program,recordPlanUse_checks]
  | planUpdate => simp [program,planUpdate_checks]
  | drop => simpa [program,drop] using keeps_forM fun _ => by simp
  | createOperation => simp [program,createOperation_checks]
  | createExperiment => simp [program,createExperiment_checks]
  | issuePrivateAccess => simp [program,issuePrivateAccess_checks]
  | putWorkspace | putPrincipal | grant | revoke | replaceGrants | initializeActorOnce =>
    simp [program,putWorkspace,putPrincipal,grant,revoke,replaceGrants,initializeActorOnce]
  | publish => simp [program,keeps_retried,publish]
  | bindRuntime | purgeUnmaterializedHandle | purgeCell =>
    simp [program,bindRuntime,purgeUnmaterializedHandle,purgeCell]
  | saveUpdatePlan | acceptUpdate | markUpdateApplied | beginInstanceClose =>
    simp [program,saveUpdatePlan,acceptUpdate,markUpdateApplied,beginInstanceClose]
  | reserveCell | setCellPhase | saveCellPreview | bindCellSubmission | reservePreview =>
    simp [program,reserveCell,setCellPhase,saveCellPreview,bindCellSubmission,reservePreview,cellPreview]
  | closeExperiment | ensureDefaultRun =>
    simp [program,keeps_retried,closeExperiment,ensureDefaultRun,implicitRunId,ensureImplicitRun]
  | startSession | trackSession | finishSession | finishCellSessions =>
    simp [program,keeps_retried,startSession,trackSession,finishSession,finishCellSessions]
  | recordOperationResult | updateOperationPhase | recordWorkspaceCapture | revokePrivateAccess =>
    simp [program,recordOperationResult,updateOperationPhase,recordWorkspaceCapture,revokePrivateAccess,privateAccess]
  | updateCandidateBuild => simp [program,updateCandidateBuild_checks]
  | createCandidateBuild | recordCandidateRequest | removeCandidateBuild =>
    simp [program,createCandidateBuild,recordCandidateRequest,removeCandidateBuild]

theorem program_checks (request : Request) : Keeps (fun _ => True) Checks (program request) fun _ => True := by
  cases drafts : request.draftCall with
  | none => exact (program_foreign drafts).mono (fun _ _ allowed => allowed.1) fun _ ended => ended
  | some call =>
    cases request with
    | createDraft | editDraft | cloneDraft =>
      simp [program,keeps_retried,createDraft,editDraft,cloneDraft]
    | _ => cases drafts
end

/-- In every state runs have names and grants are enrolled. -/
theorem enrolled_run {config : Config} (reached : Reached config) : Enrolled config.state ∧ NamedRuns config.state := by
  have first : Enrolled Db.empty ∧ NamedRuns Db.empty :=
    ⟨fun row member => absurd member (Table.not_mem_empty row),fun row member => absurd member (Table.not_mem_empty row)⟩
  have noted : Throughout (fun _ event => ∀ statement, event.did = some statement → True) config.log :=
    Interleaving.throughout_iff.mpr fun _ _ _ _ _ _ => trivial
  refine (Reachable.invariant (fun db => Enrolled db ∧ NamedRuns db) (fun _ _ => True)
    (fun _ statement _ => Checks statement) (fun _ _ => True) reached noted first (fun request => ?_)
    (fun _ statement _ state _ after holds checks _ executed =>
      ⟨holds.1.execute executed,holds.2.write checks.1 (execute_write executed)⟩)).1
  exact ((program_checks request).mono (fun _ _ allowed => allowed) fun _ _ => trivial).narrow fun _ _ => trivial
end

end Proofstorm.Store
