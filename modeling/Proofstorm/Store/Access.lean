import Proofstorm.Store.Journal

/-!
Revocation of private access. A grant is rewritten only by calls that revoke it,
is never inserted over one that is there, and is deleted only with its cell. So a
grant that a call has revoked stays revoked for as long as its cell is not purged,
and authorization goes on as if it were not there (`revocation_lasts`).
-/
namespace Proofstorm.Store
open Proofstorm.Core
open Proofstorm.Interleaving (Throughout Reachable Keeps keeps_bind keeps_query keeps_settle
  keeps_attempt_query keeps_ite keeps_pure during query_bind settle_bind submit_bind)
open Proofstorm.Interleaving.Call (Meets)
open Relation (ReflTransGen)

/-- The grant is there and revoked. -/
def Revoked (workspace id : String) (db : Db) : Prop :=
  ∃ row, db.privateAccessGrants.find (workspace,id) = some row ∧ row.grant.revokedAtUnix.isSome = true

/-- A grant that is there stays there, and revoked if it is. -/
def Endures (workspace id : String) (db after : Db) : Prop :=
  ∀ row, db.privateAccessGrants.find (workspace,id) = some row →
    ∃ now, after.privateAccessGrants.find (workspace,id) = some now ∧
      (row.grant.revokedAtUnix.isSome = true → now.grant.revokedAtUnix.isSome = true)

/-- The event purges the cell of the grant. -/
def Purges (workspace id : String) (event : Event) : Prop :=
  ∃ cell row, event.did = some (.purgeCell cell) ∧ event.before.privateAccessGrants.find (workspace,id) = some row ∧
    cell.workspaceId = workspace ∧ cell.id = row.grant.instanceId

section
variable {workspace id : String} {db after : Db}

theorem Endures.of_eq (same : after.privateAccessGrants = db.privateAccessGrants) : Endures workspace id db after :=
  fun row found => ⟨row,same ▸ found,fun revoked => revoked⟩

theorem Endures.many (steps : ReflTransGen (Endures workspace id) db after) : Endures workspace id db after := by
  induction steps with
  | refl => exact .of_eq rfl
  | tail _ step ih =>
    intro row found
    obtain ⟨middle,there,early⟩ := ih row found
    obtain ⟨now,here,late⟩ := step middle there
    exact ⟨now,here,fun revoked => late (early revoked)⟩

theorem Revoked.endures (revoked : Revoked workspace id db) (endures : Endures workspace id db after) :
    Revoked workspace id after := by
  obtain ⟨row,found,ended⟩ := revoked
  obtain ⟨now,there,still⟩ := endures row found
  exact ⟨now,there,still ended⟩

theorem updatePrivateAccess_find {home named : String} {grant : PrivateAccessGrant} {row : PrivateAccessRow} {u : Unit}
    (updated : updatePrivateAccess home named grant db = .ok (u,after))
    (found : db.privateAccessGrants.find (workspace,id) = some row) :
    after.privateAccessGrants.find (workspace,id) =
      some (if row.workspaceId = home ∧ row.id = named then { row with grant := grant } else row) := by
  cases updated
  exact Table.find_update_some (by exact fun _ => rfl) found

variable [CoreFunctions]

/-- A statement keeps a grant, unless it purges its cell. -/
theorem execute_endures {statement : Statement} {answer : statement.Answer} (checks : Checks statement)
    (spared : ∀ cell row, statement = .purgeCell cell → db.privateAccessGrants.find (workspace,id) = some row →
      cell.workspaceId = workspace → cell.id ≠ row.grant.instanceId)
    (executed : execute statement db = .ok (answer,after)) : Endures workspace id db after := by
  cases other : statement.writesAccess with
  | false => exact .of_eq ((execute_write executed).access other)
  | true =>
    intro row found
    cases statement with
    | insertPrivateAccess home named grant =>
      simp only [execute,insertPrivateAccess,bind_ok,pure_ok,Prod.mk.injEq] at executed
      obtain ⟨_,_,_,rfl⟩ := executed
      exact ⟨row,by simp [Table.find_insert,found],fun revoked => revoked⟩
    | updatePrivateAccess home named grant =>
      refine ⟨_,updatePrivateAccess_find executed found,fun revoked => ?_⟩
      split
      · exact checks.2
      · exact revoked
    | purgeCell cell =>
      obtain ⟨_,_,rfl⟩ := purgeCellTx_ok.mp executed
      have keyed : row.workspaceId = workspace := congrArg Prod.fst (Table.find_eq_some.mp found).2
      have apart : ¬ (row.workspaceId = cell.workspaceId ∧ row.grant.instanceId = cell.id) :=
        fun gone => spared cell row rfl found (gone.1.symm.trans keyed) gone.2.symm
      refine ⟨row,?_,fun revoked => revoked⟩
      simpa [purged,withoutCell,Table.find_delete,found] using not_and_or.mp apart
    | _ => cases other

/-- Every event of a run keeps a grant, unless it purges its cell. -/
theorem Reached.endures {config : Config} (reached : Reached config) (workspace id : String) :
    ∀ event ∈ config.log, ¬ Purges workspace id event → Endures workspace id event.before event.after := by
  have noted : Throughout (fun _ event => ∀ statement, event.did = some statement → True) config.log :=
    Interleaving.throughout_iff.mpr fun _ _ _ _ _ _ => trivial
  have starts : ∀ request, (code request).Within (fun _ => True) (fun statement _ => Checks statement) fun _ => True :=
    fun request => (program_checks request).mono (fun _ _ checks => checks) fun _ _ => trivial
  have facts := (Reachable.invariant (fun _ => True) (fun _ _ => True) (fun _ statement _ => Checks statement)
    (fun _ _ => True) reached noted trivial starts fun _ _ _ _ _ _ _ _ _ _ => trivial).2.2.and reached.committed
  intro event member spared
  obtain ⟨⟨_,_,answered,_⟩,committed⟩ := facts.all event member
  cases did : event.did with
  | none =>
    rw [Interleaving.Committed,did] at committed
    exact .of_eq (by rw [committed])
  | some statement =>
    obtain ⟨_,answer,checks,executed,_⟩ := answered statement did
    exact execute_endures checks (fun cell row same found home there =>
      spared ⟨cell,row,did.trans (congrArg some same),found,home,there⟩) executed

/-! ### The call -/

/-- A reply that revokes the grant leaves it revoked. -/
def Revokes (workspace id : String) (request : Request) (reply : Except StoreError Reply) (db : Db) : Prop :=
  ∀ principal now value, request = .revokePrivateAccess workspace principal id now → reply = .ok value →
    Revoked workspace id db

theorem revokePrivateAccess_meets (principal : String) (now : Int) (db : Db) :
    (code (.revokePrivateAccess workspace principal id now)).Meets execute (Endures workspace id) (fun _ _ => True)
      (Revokes workspace id (.revokePrivateAccess workspace principal id now)) db := by
  have failed : ∀ error db, Revokes workspace id (.revokePrivateAccess workspace principal id now) (.error error) db :=
    fun _ _ _ _ _ _ same => nomatch same
  simp only [code,program,revokePrivateAccess,privateAccess,bind_assoc,query_bind,settle_bind,submit_bind]
  intro _ _
  refine Meets.proceed failed fun _ _ => ?_
  intro seen _
  refine Meets.proceed failed fun grant read => ?_
  refine Meets.proceed failed fun _ _ => ?_
  intro before steps
  refine ⟨trivial,fun _ after executed => ?_,fun error => Meets.proceed failed fun _ none_ => by cases none_⟩
  intro last later principal now value _ _
  -- The row that was read is still there when the statement finds it.
  obtain ⟨row,there⟩ : ∃ row, seen.privateAccessGrants.find (workspace,id) = some row := by
    cases there : seen.privateAccessGrants.find (workspace,id) with
    | some row => exact ⟨row,rfl⟩
    | none => simp [there,require,Except.map] at read
  obtain ⟨current,found,_⟩ := Endures.many steps row there
  have keyed := (Table.find_eq_some.mp found).2
  have chosen : current.workspaceId = workspace ∧ current.id = id :=
    ⟨congrArg Prod.fst keyed,congrArg Prod.snd keyed⟩
  have written := updatePrivateAccess_find executed found
  rw [if_pos chosen] at written
  have revoked : Revoked workspace id after := ⟨_,written,rfl⟩
  exact revoked.endures (Endures.many later)

theorem Reached.revokes {config : Config} (reached : Reached config) (workspace id : String) :
    Throughout (fun older event =>
      (∀ seen ∈ during older event, Endures workspace id seen.before seen.after) →
        ∀ reply, event.reply = some reply → Revokes workspace id event.request reply event.after) config.log := by
  have starts : ∀ request db, True → (code request).Meets execute (Endures workspace id) (fun _ _ => True)
      (Revokes workspace id request) db := by
    intro request db _
    by_cases asked : ∃ principal now, request = .revokePrivateAccess workspace principal id now
    · obtain ⟨principal,now,rfl⟩ := asked
      exact revokePrivateAccess_meets principal now db
    · exact (Meets.trivial _ db).mono fun _ _ _ principal now _ same => absurd ⟨principal,now,same⟩ asked
  have all : Throughout (fun _ event => True) config.log := Interleaving.throughout_iff.mpr fun _ _ _ _ => trivial
  have events := (Interleaving.Reachable.scoped (fun _ => True) (Endures workspace id) (fun _ _ _ => True)
    (Revokes workspace id) reached trivial all starts).2
  exact events.mono fun _ _ holds steps => (holds steps).2

/-! ### Authorization -/

/-- The grants apart from the one under the id. -/
def withoutAccess (workspace id : String) (db : Db) : Db :=
  { db with privateAccessGrants := db.privateAccessGrants.delete fun row => row.workspaceId = workspace ∧ row.id = id }

/-- A revoked grant is nobody's match. -/
theorem Revoked.matchingAccess_eq (revoked : Revoked workspace id db) (principal instanceId : String)
    (kind : OperationKind) (request : Json) :
    matchingAccess workspace principal instanceId kind request db =
      matchingAccess workspace principal instanceId kind request (withoutAccess workspace id db) := by
  obtain ⟨row,found,ended⟩ := revoked
  obtain ⟨member,keyed⟩ := Table.find_eq_some.mp found
  have rows : db.privateAccessGrants.rows.filter (fun row => row.workspaceId = workspace ∧
        row.grant.principalId = principal ∧ row.grant.instanceId = instanceId ∧ row.grant.revokedAtUnix = none) =
      (withoutAccess workspace id db).privateAccessGrants.rows.filter fun row => row.workspaceId = workspace ∧
        row.grant.principalId = principal ∧ row.grant.instanceId = instanceId ∧ row.grant.revokedAtUnix = none := by
    simp only [withoutAccess,Table.delete,List.filter_filter]
    refine List.filter_congr fun other present => ?_
    by_cases same : other.workspaceId = workspace ∧ other.id = id
    · have one : other = row := Table.eq_of_key present member ((Prod.ext same.1 same.2 : key other = _).trans keyed.symm)
      have live : other.grant.revokedAtUnix ≠ none := by
        rw [one]
        exact Option.isSome_iff_ne_none.mp ended
      simp [live]
    · simp [same]
  rw [matchingAccess,matchingAccess,rows]

/-- The principal has no leave to submit the operation but, perhaps, by the grant under the id. -/
structure Powerless (workspace principal id : String) (operation : CellOperation) (db : Db) : Prop where
  unprivileged : ¬ db.grants.has (workspace,principal,.cellOperate)
  others : matchingAccess workspace principal operation.instanceId operation.kind operation.request
    (withoutAccess workspace id db) = none

/-- The states after the event up to which no purge of its cell has taken the
    grant since the call of the event began. -/
def After (workspace id : String) (older : List Event) (event : Event) (db : Db) : Prop :=
  ∃ (config : Config) (newer : List Event), Reached config ∧ config.log = newer ++ event :: older ∧
    (∀ seen ∈ newer ++ during older event, ¬ Purges workspace id seen) ∧ config.state = db

theorem After.revoked {principal : String} {now : Int} {older : List Event} {event : Event} {value : Reply}
    (after : After workspace id older event db) (asked : event.request = .revokePrivateAccess workspace principal id now)
    (replied : event.reply = some (.ok value)) : Revoked workspace id db := by
  obtain ⟨config,newer,reached,log,spared,rfl⟩ := after
  have each := reached.endures workspace id
  have linked := reached.linked
  rw [log] at each linked
  have ended := Interleaving.throughout_iff.mp (reached.revokes workspace id) newer event older log
    (fun seen before => each seen (List.mem_append_right _ (List.mem_cons_of_mem _ (List.mem_of_mem_take before)))
      (spared seen (List.mem_append_right _ before))) _ replied
  have revoked : Revoked workspace id event.after := ended principal now value asked rfl
  exact revoked.endures (Endures.many (linked.across (R := Endures workspace id) fun seen later =>
    each seen (List.mem_append_left _ later) (spared seen (List.mem_append_left _ later))))

/-- The submission of an operation that the principal is not otherwise allowed. -/
theorem operationForSubmission_refused {fact : Db → Prop} {principal operationId : String} {operation : CellOperation}
    (revoked : ∀ db, fact db → Revoked workspace id db)
    (powerless : ∀ db, fact db → Powerless workspace principal id operation db) :
    Keeps fact (fun _ => False) (operationForSubmission workspace principal operationId)
      fun submitted => submitted.phase = .pending → submitted.instanceId = operation.instanceId →
        submitted.kind = operation.kind → submitted.request ≠ operation.request := by
  simp only [operationForSubmission,authorizeOperationAccess,keeps_bind,keeps_query,keeps_settle,keeps_ite,
    keeps_attempt_query,keeps_pure]
  intro _ _ submitted _ _ _ _ _ _ _
  refine ⟨fun _ db holds => ?_,fun moved pending => absurd pending moved⟩
  cases allowed : authorize workspace principal .cellOperate db with
  | ok => exact absurd (ensure_ok.mp allowed) (powerless db holds).unprivileged
  | error =>
    refine keeps_query.mpr fun now later _ matched _ here kind request => ensure_ok.mp matched ?_
    rw [here,kind,request,(revoked now later).matchingAccess_eq]
    exact (powerless now later).others

/-- After a call has revoked a grant, and until the purge of its cell deletes it,
    the grant is there and revoked, and every operation is matched as if it were
    not. The submission of a pending operation fails wherever its principal has
    neither the capability nor another grant for it, whatever other calls do
    between its reads. -/
theorem revocation_lasts {workspace principal id : String} {now : Int} {older : List Event} {event : Event} {value : Reply}
    (asked : event.request = .revokePrivateAccess workspace principal id now)
    (replied : event.reply = some (.ok value)) :
    (∀ db, After workspace id older event db → Revoked workspace id db ∧
      ∀ submitter instanceId kind request, matchingAccess workspace submitter instanceId kind request db =
        matchingAccess workspace submitter instanceId kind request (withoutAccess workspace id db)) ∧
    ∀ submitter operationId operation,
      Keeps (fun db => After workspace id older event db ∧ Powerless workspace submitter id operation db) (fun _ => False)
        (operationForSubmission workspace submitter operationId)
        fun submitted => submitted.phase = .pending → submitted.instanceId = operation.instanceId →
          submitted.kind = operation.kind → submitted.request ≠ operation.request := by
  refine ⟨fun db after => ?_,fun submitter operationId operation => ?_⟩
  · have revoked := after.revoked asked replied
    exact ⟨revoked,revoked.matchingAccess_eq⟩
  · exact operationForSubmission_refused (fun db holds => holds.1.revoked asked replied) fun db holds => holds.2
end

section
attribute [local instance] CoreFunctions.sample

/-- The sample cell of `alice` with a wallet and a mint. -/
def payingCell : CellSpec :=
  { sampleCell ["alice"] with
    components := (sampleCell ["alice"]).components ++
      [⟨"wallet",.wallet,"cdk-cli",some "0.1","cdk-cli/v1",.cell,[]⟩,⟨"mint",.mint,"cdk-mintd",some "0.1","cdk-mintd/v1",.cell,[]⟩] }

def payingRevision : PublishedRevision :=
  let lock := match CoreFunctions.resolveLock payingCell ⟨.null⟩ with
    | .ok lock => lock
    | .error _ => ⟨"","",[]⟩
  ⟨"w",publicationDigest "w" payingCell lock,payingCell,lock⟩

/-- What `q` is allowed to transfer. -/
def samplePermission : PrivateTransferScope :=
  ⟨"sha256:0123456789012345678901234567890123456789012345678901234567890123","p","wallet","mint","tip"⟩

def sampleTransfer : Json :=
  .object [("transfer",.object [("component",.str "wallet"),("reference",.str "tip"),("transferMethod",.str "deliver")])]

/-- A cell is opened from its draft. -/
def paying (draft nonce : String) : List Request :=
  [.createDraft "w" "p" draft payingCell (draft ++ "-draft"),.publish "w" "p" draft 1 (draft ++ "-publish"),
    .materialize "w" "p" "cell-1" payingRevision.digest (draft ++ "-cell") nonce]

/-- `p` gives `q` leave for a transfer. -/
def issuing (k : String) : Request := .issuePrivateAccess "w" "p" "q" "leave" "cell-1" samplePermission k 1

def leave : PrivateAccessGrant := ⟨"leave","w","cell-1","q",samplePermission,1,none⟩

/-- `q` has a transfer admitted before its leave is revoked, and `p` issues it anew in vain. -/
def revoking : List Request :=
  [.putWorkspace ⟨"w","w"⟩,.putPrincipal "p",.putPrincipal "q"] ++
    [Capability.cellCreate,.cellPublish,.cellMaterialize,.cellOperate,.componentExecLive,.experimentRead].map
      (.grant "w" "p") ++
    [Capability.componentExecLive,.experimentRead].map (.grant "w" "q") ++ paying "one" "n" ++
    [issuing "k1",.createOperation ⟨"w","q","cell-1","","","pay",.privateTransfer,sampleTransfer,"k2",
        .componentExecLive,none⟩ "context" 1 1 1,
      .revokePrivateAccess "w" "p" "leave" 5,issuing "k1",issuing "k3"]

/-- The run has the call that revoked the leave. -/
def LeaveRevoked (config : Config) : Prop :=
  ∃ event ∈ config.log, event.request = .revokePrivateAccess "w" "p" "leave" 5 ∧
    event.reply = some (.ok (.grant { leave with revokedAtUnix := some 5 }))

instance (config : Config) : Decidable (LeaveRevoked config) := by
  unfold LeaveRevoked
  infer_instance

def purgesNone (events : List Event) : Bool :=
  events.all fun event => match event.did with
    | some (.purgeCell _) => false
    | _ => true

set_option maxRecDepth 100000 in
/-- The transfer is still pending, and is not submitted. -/
theorem revocation_lasts_revoking : ∃ operation older event,
    operationFrom "w" "pay" (ran (inTurn revoking)).state = .ok operation ∧ operation.phase = .pending ∧
    After "w" "leave" older event (ran (inTurn revoking)).state ∧
    Powerless "w" "q" "leave" operation (ran (inTurn revoking)).state ∧
    Revoked "w" "leave" (ran (inTurn revoking)).state ∧
    Keeps (fun db => After "w" "leave" older event db ∧ Powerless "w" "q" "leave" operation db) (fun _ => False)
      (operationForSubmission "w" "q" "pay")
      fun submitted => submitted.phase = .pending → submitted.instanceId = operation.instanceId →
        submitted.kind = operation.kind → submitted.request ≠ operation.request := by
  have seen : LeaveRevoked (ran (inTurn revoking)) ∧ purgesNone (ran (inTurn revoking)).log = true ∧
      (match operationFrom "w" "pay" (ran (inTurn revoking)).state with
        | .ok operation => decide (operation.phase = .pending ∧
            matchingAccess "w" "q" operation.instanceId operation.kind operation.request
              (withoutAccess "w" "leave" (ran (inTurn revoking)).state) = none)
        | .error _ => false) = true ∧ ¬ (ran (inTurn revoking)).state.grants.has ("w","q",.cellOperate) := by
    decide +kernel
  obtain ⟨⟨event,member,asked,replied⟩,none_,there,unprivileged⟩ := seen
  cases read : operationFrom "w" "pay" (ran (inTurn revoking)).state with
  | error => simp [read] at there
  | ok operation =>
    simp only [read,decide_eq_true_eq] at there
    obtain ⟨newer,older,log⟩ := List.append_of_mem member
    have after : After "w" "leave" older event (ran (inTurn revoking)).state := by
      refine ⟨_,newer,ran_reached _,log,fun seen present => ?_,rfl⟩
      have inside : seen ∈ (ran (inTurn revoking)).log := by
        rw [log]
        rcases List.mem_append.mp present with later | before
        · exact List.mem_append_left _ later
        · exact List.mem_append_right _ (List.mem_cons_of_mem _ (List.mem_of_mem_take before))
      rintro ⟨cell,_,did,_⟩
      have spared := List.all_eq_true.mp none_ seen inside
      simp [did] at spared
    obtain ⟨lasting,refused⟩ := @revocation_lasts _ "w" "p" "leave" 5 older event _ asked replied
    exact ⟨operation,older,event,rfl,there.1,after,⟨unprivileged,there.2⟩,(lasting _ after).1,refused "q" "pay" operation⟩

/-- The cell is purged and opened again, and `p` gives the leave anew. -/
def reissuing : List Request :=
  revoking ++ [.purgeCell (newInstance "w" "cell-1" payingRevision payingRevision.digest "n")] ++ paying "two" "m" ++
    [issuing "k4"]

set_option maxRecDepth 100000 in
/-- A grant that was revoked can match again. -/
theorem not_always_revoked : ¬ ∀ config : Config, Reached config → ∀ event ∈ config.log,
    ∀ workspace principal id now grant, event.request = .revokePrivateAccess workspace principal id now →
      event.reply = some (.ok (.grant grant)) → ∀ submitter instanceId kind request,
        matchingAccess workspace submitter instanceId kind request config.state ≠
          some { grant with revokedAtUnix := none } := by
  intro always
  have seen : LeaveRevoked (ran (inTurn reissuing)) ∧
      matchingAccess "w" "q" "cell-1" .privateTransfer sampleTransfer (ran (inTurn reissuing)).state = some leave := by
    decide +kernel
  obtain ⟨⟨event,member,asked,replied⟩,matched⟩ := seen
  exact always _ (ran_reached _) event member "w" "p" "leave" 5 _ asked replied "q" "cell-1" .privateTransfer
    sampleTransfer matched
end

end Proofstorm.Store
