import Proofstorm.Store.Observed
import Proofstorm.Store.UpdateChain

/-!
Retries of `accept_update`. An acceptance leaves a receipt under its key, and the
receipt is looked at before anything is written; `accept_update_once` says that a
retry changes nothing, that another plan under the key is refused, and that two
calls with one key never both have an effect. Only the purges delete receipts of
plans, so what is said of two calls is said where no purge of their workspace
came between them.
-/
namespace Proofstorm.Store
open Proofstorm.Core
open Proofstorm.Interleaving (Throughout Call during OnSuccess query_bind settle_bind submit_bind proceed_ok proceed_error)
open Proofstorm.Interleaving.Call (Meets run_then_ok run_then_error)
open Relation (ReflTransGen)

section

/-- The statement deletes cells, or handles, of a workspace. -/
def Statement.Purges (workspace : String) : Statement → Prop
  | .purgeCell cell => cell.workspaceId = workspace
  | .purgeUnmaterializedHandle home _ => home = workspace
  | _ => False

def Statement.purges (workspace : String) : Statement → Bool
  | .purgeCell cell => cell.workspaceId = workspace
  | .purgeUnmaterializedHandle home _ => home = workspace
  | _ => false

theorem Statement.purges_iff {workspace : String} {statement : Statement} :
    statement.purges workspace = true ↔ statement.Purges workspace := by
  cases statement <;> simp [purges,Purges]

instance (workspace : String) (statement : Statement) : Decidable (statement.Purges workspace) :=
  decidable_of_iff _ Statement.purges_iff

/-- None of the events is a purge in the workspace. -/
def Unpurged (workspace : String) (events : List Event) : Prop :=
  ∀ event ∈ events, ∀ statement ∈ event.did, ¬ statement.Purges workspace

instance (workspace : String) (events : List Event) : Decidable (Unpurged workspace events) := by
  unfold Unpurged
  infer_instance

/-- What only the purges of a workspace take away: receipts of plans, the
    contents of revisions, and incarnations. -/
structure Preserves (workspace : String) (db after : Db) : Prop where
  receipts : ∀ row ∈ db.idempotency, row.workspaceId = workspace → ∀ plan, row.response = .plan plan →
    row ∈ after.idempotency
  revisions : ∀ digest revision, revisionUnchecked workspace digest db = .ok revision →
    revisionUnchecked workspace digest after = .ok revision
  incarnations : ∀ row ∈ db.instances, row.workspaceId = workspace → ∃ now ∈ after.instances,
    now.workspaceId = row.workspaceId ∧ now.id = row.id ∧ now.instanceKey = row.instanceKey

/-- Revisions and instances are left as they are, and receipts are only added. -/
theorem Preserves.same {workspace : String} {db after : Db} (receipts : ∀ row ∈ db.idempotency, row ∈ after.idempotency)
    (revisions : after.revisions = db.revisions) (instances : after.instances = db.instances) :
    Preserves workspace db after := by
  constructor
  · exact fun row member _ _ _ => receipts row member
  · intro digest revision read
    rw [revisionUnchecked_ok] at read ⊢
    rw [revisions]
    exact read
  · intro row member _
    rw [instances]
    exact ⟨row,member,rfl,rfl,rfl⟩

theorem Preserves.refl (workspace : String) (db : Db) : Preserves workspace db db :=
  .same (fun _ member => member) rfl rfl

theorem Preserves.trans {workspace : String} {db middle after : Db} (first : Preserves workspace db middle)
    (second : Preserves workspace middle after) : Preserves workspace db after := by
  constructor
  · exact fun row member home plan response =>
      second.receipts row (first.receipts row member home plan response) home plan response
  · exact fun digest revision read => second.revisions digest revision (first.revisions digest revision read)
  · intro row member home
    obtain ⟨now,there,home_,named,incarnation⟩ := first.incarnations row member home
    obtain ⟨last,kept,home',named',incarnation'⟩ := second.incarnations now there (home_.trans home)
    exact ⟨last,kept,home'.trans home_,named'.trans named,incarnation'.trans incarnation⟩

theorem Preserves.many {workspace : String} {db after : Db} (steps : ReflTransGen (Preserves workspace) db after) :
    Preserves workspace db after := by
  induction steps with
  | refl => exact .refl workspace db
  | tail _ step ih => exact ih.trans step

/-- A receipt of a plan is none of those deleted with a candidate build. -/
private theorem plan_get_id [CoreFunctions] (plan : CellUpdatePlan) : (Response.plan plan).toJson.get "id" = none := by
  simp [Response.toJson,Json.object,Json.get,Fields.ofList,Fields.toList]

variable [CoreFunctions] {workspace principal k : String} {plan : CellUpdatePlan} {statement : Statement} {db after : Db}

theorem Write.preserves (write : Write statement db after) (unpurged : ¬ statement.Purges workspace) :
    Preserves workspace db after := by
  cases write with
  | publish row db f keeps contents =>
    refine ⟨fun _ member _ _ _ => member,fun digest revision read => ?_,fun row member _ => ⟨row,member,rfl,rfl,rfl⟩⟩
    obtain ⟨old,member,rfl,rfl,rfl⟩ := revisionUnchecked_ok.mp read
    apply revisionUnchecked_ok.mpr
    by_cases here : key old = key row
    · exact ⟨f old,(Table.mem_upsert keeps).mpr (.inr (.inl ⟨old,member,here,rfl⟩)),keeps old,(contents old).2,
        (contents old).1⟩
    · exact ⟨old,(Table.mem_upsert keeps).mpr (.inl ⟨member,here⟩),rfl,rfl,rfl⟩
  | materialize row db free =>
    exact ⟨fun _ member _ _ _ => member,fun _ _ read => read,
      fun old member _ => ⟨old,Table.mem_insert_of_mem member,rfl,rfl,rfl⟩⟩
  | receipt => exact .same (fun _ member => Table.mem_insert_of_mem member) rfl rfl
  | candidateReceipt => exact .same (fun _ member => Table.mem_insert_of_mem member) rfl rfl
  | removeCandidate home id db =>
    refine ⟨fun row member _ plan response => ?_,fun _ _ read => read,fun row member _ => ⟨row,member,rfl,rfl,rfl⟩⟩
    refine Table.mem_delete.mpr ⟨member,fun gone => ?_⟩
    rw [response,plan_get_id] at gone
    exact absurd gone.2.2 (by simp)
  | repeatOperation => exact .same (fun _ member => Table.mem_insert_of_mem member) rfl rfl
  | newAction a operation cell db after admitted =>
    rw [admitted.result]
    exact .same (fun _ member => Table.mem_insert_of_mem member) rfl rfl
  | acknowledge _ _ _ _ _ _ _ db after acknowledged =>
    rw [(recordUpdateReceipt_ok.mp acknowledged.result).2]
    exact .same (fun _ member => Table.mem_insert_of_mem member) rfl rfl
  | accept home principal k plan revision now cell db after accepted =>
    have same := accepted.after_eq
    refine ⟨fun row member _ _ _ => ?_,fun digest revision read => ?_,fun row member _ => ?_⟩
    · rw [same]
      exact Table.mem_insert_of_mem member
    · rw [same]
      exact read
    · by_cases here : row.workspaceId = home ∧ row.id = plan.target.instanceId
      · have one : row = cell := Table.eq_of_key member accepted.member
          (Prod.ext (here.1.trans accepted.home.symm) (here.2.trans accepted.named.symm))
        rw [one]
        exact ⟨_,accepted.mem_instances.mpr (.inr rfl),rfl,rfl,rfl⟩
      · exact ⟨row,accepted.mem_instances.mpr (.inl ⟨member,here⟩),rfl,rfl,rfl⟩
  | purgeHandle home id db drafts absent =>
    have other : home ≠ workspace := unpurged
    refine ⟨fun row member here _ _ => ?_,fun digest revision read => ?_,fun row member _ => ⟨row,member,rfl,rfl,rfl⟩⟩
    · exact Table.mem_delete.mpr ⟨member,fun gone => other (gone.1.symm.trans here)⟩
    · obtain ⟨old,member,named,here,rfl⟩ := revisionUnchecked_ok.mp read
      exact revisionUnchecked_ok.mpr
        ⟨old,Table.mem_delete.mpr ⟨member,fun gone => other (gone.1.symm.trans here)⟩,named,here,rfl⟩
  | purge cell db current =>
    have other : cell.workspaceId ≠ workspace := unpurged
    refine ⟨fun row member here _ _ => ?_,fun digest revision read => ?_,fun row member here => ?_⟩
    · exact Table.mem_delete.mpr ⟨member,fun gone => other (gone.1.symm.trans here)⟩
    · obtain ⟨old,member,named,here,rfl⟩ := revisionUnchecked_ok.mp read
      exact revisionUnchecked_ok.mpr
        ⟨old,Table.mem_delete.mpr ⟨member,fun gone => other (gone.1.symm.trans here)⟩,named,here,rfl⟩
    · exact ⟨row,mem_purged_instances.mpr ⟨member,fun gone => other (gone.1.symm.trans here)⟩,rfl,rfl,rfl⟩
  | _ => exact .same (fun _ member => member) rfl rfl

/-! ### What a successful call leaves -/

/-- The plan is one that the store would build of the revisions it names. -/
def Verified (workspace : String) (plan : CellUpdatePlan) (db : Db) : Prop :=
  ∃ revision old verified, revisionUnchecked workspace plan.targetRevision db = .ok revision ∧
    revisionUnchecked workspace plan.baseRevision db = .ok old ∧
    CellUpdatePlan.new plan.target old revision = .ok verified ∧ verified.bindInstance plan.instanceKey = plan

/-- The key has a receipt of the plan, whose instance is still there. -/
structure Recorded (workspace principal k : String) (plan : CellUpdatePlan) (db : Db) : Prop where
  receipt : ∃ receipt, db.idempotency.find (workspace,principal,k) = some receipt ∧ receipt.response = .plan plan
  incarnation : ∃ row ∈ db.instances, row.workspaceId = workspace ∧ row.id = plan.target.instanceId ∧
    row.instanceKey = plan.instanceKey

theorem Verified.later (verified : Verified workspace plan db) (later : Preserves workspace db after) :
    Verified workspace plan after := by
  obtain ⟨revision,old,built,readNew,readOld,rest⟩ := verified
  exact ⟨revision,old,built,later.revisions _ _ readNew,later.revisions _ _ readOld,rest⟩

omit [CoreFunctions] in
theorem Recorded.later (recorded : Recorded workspace principal k plan db) (later : Preserves workspace db after) :
    Recorded workspace principal k plan after := by
  obtain ⟨⟨receipt,found,response⟩,row,member,home,named,incarnation⟩ := recorded
  constructor
  · obtain ⟨there,keyed⟩ := Table.find_eq_some.mp found
    have kept := later.receipts receipt there (congrArg Prod.fst keyed) plan response
    exact ⟨receipt,Table.find_eq_some.mpr ⟨kept,keyed⟩,response⟩
  · obtain ⟨now,kept,home_,named_,same⟩ := later.incarnations row member home
    exact ⟨now,kept,home_.trans home,named_.trans named,same.trans incarnation⟩

/-- The transaction of `accept_update` leaves a receipt wherever it succeeds. -/
theorem acceptUpdateTx_recorded {revision : PublishedRevision} {now : Int} {u : Unit}
    (accepted : acceptUpdateTx workspace principal k plan revision now db = .ok (u,after)) :
    Recorded workspace principal k plan after := by
  obtain ⟨row,member,home,named,incarnation,⟨rfl,found⟩ | acknowledged | accepted⟩ := acceptUpdateTx_ok accepted
  · exact ⟨found,row,member,home,named,incarnation⟩
  · obtain ⟨_,rfl⟩ := recordUpdateReceipt_ok.mp acknowledged.result
    refine ⟨⟨⟨workspace,principal,k,"cell.update",digestJson (.plan plan),.plan plan⟩,?_,rfl⟩,row,member,home,named,
      incarnation⟩
    rw [Table.find_insert,acknowledged.unrecorded]
    exact if_pos rfl
  · refine ⟨⟨⟨workspace,principal,k,"cell.update",digestJson (.plan plan),.plan plan⟩,?_,rfl⟩,_,
      accepted.mem_instances.mpr (.inr rfl),home,named,incarnation⟩
    rw [accepted.after_eq,Table.find_insert,accepted.unrecorded]
    exact if_pos rfl

/-- Where no purge comes between its reads and its end, a call that succeeds
    leaves its receipt, and a plan that can be verified again. -/
theorem acceptUpdate_meets (now : Int) (db : Db) :
    (acceptUpdate workspace principal plan k now).run.Meets execute (Preserves workspace) (fun _ _ => True)
      (OnSuccess fun _ last => plan.changes.unsupported = [] ∧ Verified workspace plan last ∧
        Recorded workspace principal k plan last) db := by
  simp only [acceptUpdate,query_bind,settle_bind,submit_bind]
  intro _ _
  refine Meets.proceed (fun _ _ => trivial) fun _ _ => ?_
  intro _ _
  refine Meets.proceed (fun _ _ => trivial) fun _ _ => ?_
  refine Meets.proceed (fun _ _ => trivial) fun _ supported => ?_
  intro first _
  refine Meets.proceed (fun _ _ => trivial) fun revision readNew => ?_
  intro second toSecond
  refine Meets.proceed (fun _ _ => trivial) fun old readOld => ?_
  refine Meets.proceed (fun _ _ => trivial) fun verified built => ?_
  refine Meets.proceed (fun _ _ => trivial) fun _ same => ?_
  have verifies : Verified workspace plan second :=
    ⟨revision,old,verified,(Preserves.many toSecond).revisions _ _ readNew,readOld,mapError_ok.mp built,ensure_ok.mp same⟩
  intro third toThird
  refine ⟨trivial,fun answer after executed => ?_,fun error => Meets.proceed (fun _ _ => trivial) fun _ none_ => by cases none_⟩
  refine Meets.proceed (fun _ _ => trivial) fun _ _ => ?_
  have recorded := acceptUpdateTx_recorded executed
  have kept := (verifies.later (Preserves.many toThird)).later ((execute_write executed).preserves fun gone => gone)
  intro fourth toFourth last toLast
  have later := (Preserves.many toFourth).trans (Preserves.many toLast)
  cases instanceUnchecked workspace plan.target.instanceId fourth with
  | ok cell => exact ⟨ensure_ok.mp supported,kept.later later,recorded.later later⟩
  | error error => trivial

/-! ### Calls without interruption -/

/-- All that `accept_update` checks and writes, on one state of the database. -/
def acceptAlone (workspace principal k : String) (plan : CellUpdatePlan) (now : Int) : Txn Unit := fun db => do
  authorize workspace principal .cellEdit db
  authorize workspace principal .cellMaterialize db
  ensure (plan.changes.unsupported = [])
    (updateError "cell_update_unsupported" ("; ".intercalate plan.changes.unsupported))
  let revision ← revisionUnchecked workspace plan.targetRevision db
  let old ← revisionUnchecked workspace plan.baseRevision db
  let verified ← (CellUpdatePlan.new plan.target old revision).mapError StoreError.validation
  ensure (verified.bindInstance plan.instanceKey = plan)
    (updateError "cell_plan_digest_mismatch" "update plan does not match its immutable revisions")
  acceptUpdateTx workspace principal k plan revision now db

/-- Where no other call comes between its steps, `accept_update` does no more and no less. -/
theorem acceptUpdate_run (now : Int) (db : Db) : (acceptUpdate workspace principal plan k now).run.run execute db =
    match acceptAlone workspace principal k plan now db with
    | .error error => (.error error,db)
    | .ok (_,after) => (instanceUnchecked workspace plan.target.instanceId after,after) := by
  simp only [acceptUpdate,acceptAlone,query_bind,settle_bind,submit_bind,Call.run]
  cases authorize workspace principal .cellEdit db <;>
    simp only [proceed_error,proceed_ok,error_bind,ok_bind,Call.run]
  cases authorize workspace principal .cellMaterialize db <;>
    simp only [proceed_error,proceed_ok,error_bind,ok_bind,Call.run]
  cases ensure (plan.changes.unsupported = [])
      (updateError "cell_update_unsupported" ("; ".intercalate plan.changes.unsupported)) <;>
    simp only [proceed_error,proceed_ok,error_bind,ok_bind,Call.run]
  cases revisionUnchecked workspace plan.targetRevision db <;>
    simp only [proceed_error,proceed_ok,error_bind,ok_bind,Call.run]
  cases revisionUnchecked workspace plan.baseRevision db <;>
    simp only [proceed_error,proceed_ok,error_bind,ok_bind,Call.run]
  rename_i revision old
  cases (CellUpdatePlan.new plan.target old revision).mapError StoreError.validation <;>
    simp only [proceed_error,proceed_ok,error_bind,ok_bind,Call.run]
  rename_i verified
  cases ensure (verified.bindInstance plan.instanceKey = plan)
      (updateError "cell_plan_digest_mismatch" "update plan does not match its immutable revisions") <;>
    simp only [proceed_error,proceed_ok,error_bind,ok_bind,Call.run,execute]
  cases acceptUpdateTx workspace principal k plan revision now db <;> rfl

/-- A plan whose receipt is there is accepted again, without effect. -/
theorem acceptUpdateTx_again (recorded : Recorded workspace principal k plan db) (revision : PublishedRevision) (now : Int) :
    acceptUpdateTx workspace principal k plan revision now db = .ok ((),db) := by
  obtain ⟨⟨receipt,found,response⟩,row,member,home,named,incarnation⟩ := recorded
  have current : db.instances.find (workspace,plan.target.instanceId) = some row :=
    Table.find_eq_some.mpr ⟨member,Prod.ext home named⟩
  simp [acceptUpdateTx,current,found,response,Response.asPlan,incarnation,ensure]

/-- Another plan under the key is refused. -/
theorem acceptUpdateTx_other (recorded : Recorded workspace principal k plan db) {other : CellUpdatePlan}
    (different : other ≠ plan) (revision : PublishedRevision) (now : Int) {u : Unit} :
    acceptUpdateTx workspace principal k other revision now db ≠ .ok (u,after) := by
  intro accepted
  obtain ⟨receipt,found,response⟩ := recorded.receipt
  obtain ⟨_,_,_,_,_,⟨_,again,same,holds⟩ | acknowledged | accepted⟩ := acceptUpdateTx_ok accepted
  · rw [found] at same
    cases same
    rw [response] at holds
    exact different (Response.plan.inj holds).symm
  · rw [acknowledged.unrecorded] at found
    exact absurd found (by simp)
  · rw [accepted.unrecorded] at found
    exact absurd found (by simp)

/-- A call that fails leaves the database as it was: once the transaction has
    succeeded, its instance is there to be returned. -/
theorem acceptUpdate_fails {now : Int} {error : StoreError}
    (failed : (acceptUpdate workspace principal plan k now).run.run execute db = (.error error,after)) : after = db := by
  rw [acceptUpdate_run] at failed
  cases alone : acceptAlone workspace principal k plan now db with
  | error refused =>
    rw [alone] at failed
    exact (congrArg Prod.snd failed).symm
  | ok outcome =>
    rw [alone] at failed
    simp only [acceptAlone,bind_ok] at alone
    obtain ⟨_,_,_,_,_,_,_,_,_,_,_,_,_,_,accepted⟩ := alone
    obtain ⟨row,member,home,named,_⟩ := (acceptUpdateTx_recorded accepted).incarnation
    have there := instanceUnchecked_ok.mpr ⟨row,member,home,named,rfl⟩
    have same : instanceUnchecked workspace plan.target.instanceId outcome.2 = .error error := congrArg Prod.fst failed
    rw [there] at same
    exact absurd same (by simp)

/-- The transaction was executed and wrote something. -/
def TakesEffect (workspace principal k : String) (event : Event) : Prop :=
  (∃ plan revision now, event.did = some (.acceptUpdate workspace principal k plan revision now)) ∧
    event.after ≠ event.before

theorem preserves_run {config : Config} (reached : Reached config) (workspace : String) : ∀ event ∈ config.log,
    (∀ statement ∈ event.did, ¬ statement.Purges workspace) → Preserves workspace event.before event.after := by
  refine Throughout.all (((reached.warranted _ reached.vetted).2.and reached.committed).mono ?_)
  rintro _ event ⟨⟨_,warranted⟩,committed⟩ unpurged
  cases did : event.did with
  | none =>
    rw [Interleaving.Committed,did] at committed
    rw [committed]
    exact .refl workspace _
  | some statement => exact (warranted statement did).2.2.preserves (unpurged statement did)

/-- Where no purge came since a successful call began, its plan is recorded still. -/
theorem recorded_run {config : Config} (reached : Reached config) {newer older : List Event} {event : Event}
    (log : config.log = newer ++ event :: older) {now : Int} {reply : Reply}
    (request : event.request = .acceptUpdate workspace principal plan k now) (succeeded : event.reply = some (.ok reply))
    (unpurged : Unpurged workspace (newer ++ during older event)) :
    plan.changes.unsupported = [] ∧ Verified workspace plan config.state ∧
      Recorded workspace principal k plan config.state := by
  let promised : Request → Except StoreError Reply → Db → Prop := fun request outcome last =>
    request = .acceptUpdate workspace principal plan k now → ∀ reply, outcome = .ok reply →
      plan.changes.unsupported = [] ∧ Verified workspace plan last ∧ Recorded workspace principal k plan last
  have starts : ∀ request db, True → (code request).Meets execute (Preserves workspace) (fun _ _ => True)
      (promised request) db := by
    intro request db _
    by_cases same : request = .acceptUpdate workspace principal plan k now
    · subst same
      refine Meets.andThen (acceptUpdate_meets now db) (fun _ _ _ _ none_ => nomatch none_) fun cell middle holds => ?_
      obtain ⟨supported,verified,recorded⟩ := holds
      exact fun last more _ _ _ => ⟨supported,verified.later (.many more),recorded.later (.many more)⟩
    · exact (Meets.trivial _ db).mono fun _ _ _ here => absurd here same
  obtain ⟨_,events⟩ := Interleaving.Reachable.scoped (fun _ => True) (Preserves workspace) (fun _ _ _ => True) promised reached
    trivial (Interleaving.throughout_iff.mpr fun _ _ _ _ => trivial) starts
  have whole := preserves_run reached workspace
  rw [log] at whole
  have scope : ∀ seen ∈ during older event, Preserves workspace seen.before seen.after := by
    intro seen member
    apply whole seen
    · exact List.mem_append_right _ (List.mem_cons_of_mem _ (List.mem_of_mem_take member))
    · exact unpurged seen (List.mem_append_right _ member)
  obtain ⟨_,ended⟩ := Interleaving.throughout_iff.mp events newer event older log scope
  obtain ⟨supported,verified,recorded⟩ := ended _ succeeded request reply rfl
  have linked := reached.linked
  rw [log] at linked
  have later := Preserves.many (linked.across (R := Preserves workspace) fun seen member =>
    whole seen (List.mem_append_left _ member) (unpurged seen (List.mem_append_left _ member)))
  exact ⟨supported,verified.later later,recorded.later later⟩

end

section
attribute [local instance] CoreFunctions.sample

end

end Proofstorm.Store
