import Proofstorm.Actions.Calls

/-!
The runs of the calls about the operations of a journal. A call that submits an
operation looks at the journal before it sends the action, so once the phase is
no longer pending no call that begins then sends it (`notices`); a call that was
past its look still may.
-/
namespace Proofstorm.Actions
open Proofstorm.Core
open Proofstorm.Bridge (CellAction Wire grantAnnotationKey)
open Proofstorm.Interleaving

/-- The journal as it is before the run: resource names are unique in it. -/
structure Journal where
  db : Store.Db
  unique : ∀ a ∈ db.actions, ∀ b ∈ db.actions, a.resourceName = b.resourceName → a = b

/-- The operation is one of the journal's. -/
def Journal.Records (journal : Journal) (operation : CellOperation) : Prop :=
  ∃ row ∈ journal.db.actions, row.workspaceId = operation.workspaceId ∧ row.id = operation.id ∧
    row.resourceName = operation.resourceName

/-- A submission has the operation that its admission, now or at an earlier call,
    has returned; a task that may control others is marked with its grant. -/
inductive Request (journal : Journal)
  | submit (principal : String) (cell : CellInstance) (operation : CellOperation) (recorded : journal.Records operation)
      (action : CellAction) (grant : Option String)
  | cancel (workspace principal operationId key : String)
  | observe (workspace operationId : String)
  | reconcile (name : String)
  /-- Whatever else the controller writes of an action. -/
  | report (name : String) (status : ActionStatus)
  | tick (seconds : Nat)

/-- Whether the call may send an action. -/
def Request.submits {journal : Journal} : Request journal → Bool
  | .submit .. => true
  | _ => false

/-- The resource that a submission sends, but for its access scope. -/
def submittedResource (cell : CellInstance) (operation : CellOperation) (action : CellAction) (grant : Option String) :
    ActionResource :=
  let resource := runtimeActionResource cell operation action
  { resource with annotations := resource.annotations ++ grant.toList.map fun digest => (grantAnnotationKey,digest) }

section
variable [CoreFunctions] [Wire] {journal : Journal}

def body : Request journal → Program Unit
  | .submit principal cell operation _ action grant => do
    let _ ← submitActionResource operation.workspaceId principal cell operation
      (submittedResource cell operation action grant)
    pure ()
  | .cancel workspace principal operationId key => do
    let _ ← requestCancellation workspace principal operationId key
    pure ()
  | .observe workspace operationId => observeOperation workspace operationId
  | .reconcile name => reconcileAction name
  | .report name status => exec (.report name status)
  | .tick seconds => exec (.tick seconds)

def code (request : Request journal) : Call World Statement Failure Statement.Answer (Except Failure Unit) :=
  (body request).run

variable (journal) in
abbrev Config := Interleaving.Config (Request journal) World Statement Failure Statement.Answer (Except Failure Unit)

variable (journal) in
abbrev Event := Interleaving.Event (Request journal) World Statement (Except Failure Unit)

/-- The state before the run: no action has been created. -/
def Journal.world (journal : Journal) (now : Int) (cells : Table Cell) : World :=
  ⟨now,journal.db,cells,.empty,[],[]⟩

/-! ### What a statement does -/

/-- Whether an action is sent. -/
def Statement.sends : Statement → Bool
  | .apply _ => true
  | _ => false

/-- Whether no action comes or goes, or starts, and the journal stays. -/
def Statement.minor : Statement → Bool
  | .publishAccess .. | .requestCancellation .. | .report .. | .tick _ => true
  | _ => false

/-- The effect of a statement that the server, or the store, executes. -/
inductive Effect (world : World) : Statement → World → Prop
  | journal (statement : Store.Statement) (answer : statement.Answer) (db : Store.Db)
    (executed : Store.execute statement world.journal = .ok (answer,db)) :
    Effect world (.journal statement) { world with journal := db }
  | create (resource : ActionResource) (free : world.actions.find resource.name = none) :
    Effect world (.apply resource)
      { world with actions := world.actions.insert (world.create resource), created := world.create resource :: world.created }
  | resend (resource : ActionResource) :
    Effect world (.apply resource) { world with
      actions := world.actions.update (fun row => row.name = resource.name) (fun row => row.applied resource) fun _ => rfl }
  | rewrite (statement : Statement) (minor : statement.minor = true) (name : String) (f : Action → Action)
    (keeps : ∀ row, Keyed.key (f row) = Keyed.key row) (same : ∀ row, (f row).spec = row.spec ∧ (f row).uid = row.uid) :
    Effect world statement { world with actions := world.actions.update (fun row => row.name = name) f keeps }
  | delete (name : String) :
    Effect world (.delete name) { world with actions := world.actions.delete fun row => row.name = name }
  | start (action : Action) : Effect world (.start action) { world with started := action :: world.started }
  | beside (statement : Statement) (minor : statement.minor = true) (cells : Table Cell) (now : Int) :
    Effect world statement { world with cells, now }

omit [Wire] in
theorem execute_effect {world after : World} {statement : Statement} {answer : statement.Answer}
    (executed : execute statement world = .ok (answer,after)) : Effect world statement after := by
  cases statement with
  | journal statement =>
    simp only [execute] at executed
    split at executed
    · rename_i done
      cases executed
      exact .journal statement _ _ done
    · cases executed
  | apply resource =>
    simp only [execute] at executed
    split at executed
    · rename_i free
      cases executed
      exact .create resource free
    · cases executed
      exact .resend resource
  | start action => cases executed; exact .start action
  | tick seconds => cases executed; exact .beside _ rfl world.cells _
  | publishAccess name version grant =>
    simp only [execute,bind_ok,require_ok,ensure_ok,pure_ok,Prod.mk.injEq] at executed
    obtain ⟨_,_,_,_,_,rfl⟩ := executed
    exact .beside _ rfl _ world.now
  | requestCancellation name token =>
    simp only [execute,bind_ok,ensure_ok,pure_ok,Prod.mk.injEq] at executed
    obtain ⟨_,_,_,rfl⟩ := executed
    exact .rewrite _ rfl name _ _ fun _ => ⟨rfl,rfl⟩
  | report name status =>
    simp only [execute,bind_ok,ensure_ok,pure_ok,Prod.mk.injEq] at executed
    obtain ⟨_,_,_,rfl⟩ := executed
    exact .rewrite _ rfl name _ _ fun _ => ⟨rfl,rfl⟩
  | delete name =>
    simp only [execute,bind_ok,ensure_ok,pure_ok,Prod.mk.injEq] at executed
    obtain ⟨_,_,_,rfl⟩ := executed
    exact .delete name

/-! ### What the calls execute -/

/-- The action runs this operation. -/
def Runs (workspace id : String) (spec : Bridge.Spec) : Prop := spec.workspaceId = workspace ∧ spec.operationId = id

instance (workspace id : String) (spec : Bridge.Spec) : Decidable (Runs workspace id spec) :=
  inferInstanceAs (Decidable (_ ∧ _))

/-- The statements of these calls: what is sent is the resource of an operation
    of the journal, and of the journal only phases change. -/
def Permitted (journal : Journal) : Statement → Prop
  | .apply resource => ∃ operation, journal.Records operation ∧ resource.name = operation.resourceName ∧
      Runs operation.workspaceId operation.id resource.spec
  | .journal (.recordOperationResult _ _ _ phase _ _) => phase.active = false
  | .journal (.updateOperationPhase _ _ phase _) => phase = .running
  | .journal _ => False
  | _ => True

/-- The action of the operation is not sent. -/
def Withholds (workspace id : String) : Statement → Prop
  | .apply resource => ¬ Runs workspace id resource.spec
  | _ => True

/-- The operation is in the journal and no longer pending. -/
def Past (workspace id : String) (world : World) : Prop :=
  ∃ row, world.journal.actions.find (workspace,id) = some row ∧ row.phase ≠ .pending

/-- The action that is started was on the server in a state with this fact. -/
def Sighted (fact : World → Prop) : Statement → Prop
  | .start action => ∃ world, fact world ∧ action ∈ world.actions
  | _ => True

section
variable {fact : World → Prop} {allowed : Statement → Prop}

omit [CoreFunctions] [Wire] in
theorem keeps_store {α : Type} {call : Store.Program α} {permitted : Store.Statement → Prop} {post : α → Prop}
    (keeps : Keeps (fun db => ∃ world, fact world ∧ world.journal = db) permitted call post)
    (among : ∀ statement, permitted statement → allowed (.journal statement)) : Keeps fact allowed (store call) post :=
  keeps_part keeps (fun world holds => ⟨world,holds,rfl⟩) among

omit [CoreFunctions] [Wire] in
/-- A call of the store that writes nothing. -/
theorem keeps_storeRead {α : Type} {call : Store.Program α} {post : α → Prop}
    (keeps : Keeps (fun db => ∃ world, fact world ∧ world.journal = db) (fun _ => False) call post) :
    Keeps fact allowed (store call) post :=
  keeps_store keeps fun _ => False.elim

omit [CoreFunctions] [Wire] in
theorem keeps_operationFrom {workspace id : String} :
    Keeps fact allowed (store (query (Store.operationFrom workspace id))) fun operation =>
      ∃ world, fact world ∧ Store.operationFrom workspace id world.journal = .ok operation :=
  keeps_storeRead (keeps_query.mpr fun _ ⟨world,holds,same⟩ _ read => ⟨world,holds,same ▸ read⟩)

omit [Wire] in
theorem keeps_operationForSubmission {workspace principal id : String} :
    Keeps fact allowed (store (Store.operationForSubmission workspace principal id)) fun operation =>
      ∃ world, fact world ∧ Store.operationFrom workspace id world.journal = .ok operation := by
  refine keeps_storeRead ?_
  simp only [Store.operationForSubmission,Store.authorizeOperationAccess,keeps_bind,keeps_query,keeps_settle,keeps_ite,
    keeps_attempt_query,keeps_pure]
  rintro db ⟨world,holds,rfl⟩ operation read _ _ _ _ _ _
  refine ⟨fun _ db _ => ?_,fun _ => ⟨world,holds,read⟩⟩
  cases Store.authorize workspace principal .cellOperate db with
  | ok => exact keeps_pure.mpr ⟨world,holds,read⟩
  | error => exact keeps_query.mpr fun _ _ _ _ => ⟨world,holds,read⟩

omit [CoreFunctions] [Wire] in
theorem keeps_authorize {workspace principal : String} {capability : Capability} :
    Keeps fact allowed (store (query (Store.authorize workspace principal capability))) fun _ => True :=
  keeps_storeRead (keeps_query.mpr fun _ _ _ _ => trivial)

omit [CoreFunctions] [Wire] in
theorem keeps_operationForCancel {workspace principal id : String} :
    Keeps fact allowed (store (Store.operationForCancel workspace principal id)) fun _ => True :=
  keeps_storeRead (by simp [Store.operationForCancel])

omit [Wire] in
theorem keeps_operationAccessScope {operation : CellOperation} :
    Keeps fact allowed (store (Store.operationAccessScope operation)) fun _ => True :=
  keeps_storeRead (keeps_query.mpr fun _ _ _ _ => trivial)

omit [CoreFunctions] [Wire] in
theorem keeps_privateAccess (publish : ∀ name version grant, allowed (.publishAccess name version grant))
    (grant : PrivateAccessGrant) (attempts : Nat) : Keeps fact allowed (privateAccess grant attempts) fun _ => True := by
  have once : Keeps fact allowed (privateAccessOnce grant) fun _ => True := by
    simp only [privateAccessOnce,keeps_bind,keeps_query]
    intro _ _ found _
    split
    · simp [publish]
    · exact keeps_throw
  induction attempts with
  | zero => exact once
  | succ attempts ih =>
    rw [privateAccess,keeps_bind]
    refine keeps_attempt once fun outcome => ?_
    cases outcome with
    | ok => exact keeps_pure.mpr trivial
    | error error =>
      split
      · exact keeps_pure.mpr trivial
      · exact ih
      · exact keeps_throw

-- What sends no action is allowed where it is permitted.
section
variable (others : ∀ statement, statement.sends = false → Permitted journal statement → Sighted fact statement → allowed statement)
include others

omit [CoreFunctions] [Wire] in
/-- A call of the store that changes only phases. -/
theorem keeps_storeWrite {α : Type} {call : Store.Program α}
    (keeps : Keeps (fun db => ∃ world, fact world ∧ world.journal = db)
      (fun statement => Permitted journal (.journal statement)) call fun _ => True) :
    Keeps fact allowed (store call) fun _ => True :=
  keeps_store keeps fun _ permitted => others _ rfl permitted trivial

omit [Wire] in
theorem keeps_recordResult (workspace : String) (operation : CellOperation) (phase : OperationPhase) (artifact : Json) :
    Keeps fact allowed (recordResult workspace operation phase artifact) fun _ => True := by
  rw [recordResult,keeps_bind,keeps_query]
  intro _ _ now _
  refine keeps_storeWrite others ?_
  simp +contextual [Store.recordOperationResult,Permitted]

omit [CoreFunctions] [Wire] in
theorem keeps_requestActionCancellation (operation : CellOperation) (token : String) :
    Keeps fact allowed (requestActionCancellation operation token) fun _ => True := by
  simp only [requestActionCancellation,keeps_bind,keeps_query]
  intro _ _ found _
  cases found with
  | none => exact keeps_pure.mpr trivial
  | some action =>
    simp only [keeps_bind,keeps_settle,keeps_ite,keeps_pure,keeps_submit]
    exact fun _ _ => ⟨fun _ => trivial,fun _ => ⟨others _ rfl trivial trivial,fun _ => trivial⟩⟩

omit [Wire] in
theorem keeps_requestCancellation (workspace principal operationId k : String) :
    Keeps fact allowed (requestCancellation workspace principal operationId k) fun _ => True := by
  simp only [requestCancellation,keeps_bind,keeps_ite,keeps_pure]
  refine keeps_mono keeps_authorize fun _ _ => ?_
  refine keeps_mono keeps_operationForCancel fun operation _ => ⟨fun _ => trivial,fun _ => ?_⟩
  have record : ∀ phase artifact, Keeps fact allowed (recordResult workspace operation phase artifact) fun _ => True :=
    keeps_recordResult others workspace operation
  exact keeps_mono (keeps_requestActionCancellation others operation _) fun _ _ =>
    ⟨fun _ => trivial,fun _ => ⟨fun _ => record _ _,fun _ => record _ _⟩⟩

omit [Wire] in
theorem keeps_observeOperation (workspace id : String) :
    Keeps fact allowed (observeOperation workspace id) fun _ => True := by
  simp only [observeOperation,actionStatus,keeps_bind,keeps_ite,keeps_pure,keeps_query]
  refine keeps_mono keeps_operationFrom fun operation _ => ⟨fun _ => trivial,fun _ _ _ found _ => ?_⟩
  have recorded (phase : OperationPhase) (artifact : Json) : Keeps fact allowed (do
      let _ ← recordResult workspace operation phase artifact
      pure ()) fun _ => True :=
    keeps_bind.mpr (keeps_mono (keeps_recordResult others workspace operation phase artifact)
      fun _ _ => keeps_pure.mpr trivial)
  cases found with
  | none =>
    simp only [keeps_bind,keeps_query,keeps_pure]
    intro _ _ outcome _
    split
    · exact keeps_pure.mpr trivial
    · rename_i phase artifact _
      exact recorded phase artifact
  | some action =>
    refine keeps_pure.mpr ?_
    split
    · exact keeps_pure.mpr trivial
    · rename_i phase artifact _
      exact recorded phase artifact

omit [CoreFunctions] in
theorem keeps_reconcileAction (name : String) : Keeps fact allowed (reconcileAction name) fun _ => True := by
  simp only [reconcileAction,keeps_bind,keeps_query]
  intro world holds found read
  cases found with
  | none => exact keeps_pure.mpr trivial
  | some action =>
    have there : world.actions.find name = some action := Except.ok.inj read
    simp only [keeps_ite,keeps_bind,keeps_query,keeps_pure,keeps_submit]
    refine ⟨fun _ => ?_,fun _ => ⟨fun _ => trivial,fun _ _ _ now _ => ⟨fun _ => ⟨others _ rfl trivial trivial,fun _ => trivial⟩,
      fun _ => ⟨fun _ => trivial,fun _ =>
        ⟨others _ rfl trivial ⟨world,holds,(Table.find_eq_some.mp there).1⟩,fun _ => trivial⟩⟩⟩⟩⟩
    rw [expireFinishedAction]
    cases finishedActionExpiry action with
    | none => exact keeps_pure.mpr trivial
    | some expiry =>
      simp only [keeps_bind,keeps_query,keeps_ite,keeps_pure,keeps_attempt_submit]
      refine fun _ _ now _ => ⟨fun _ => trivial,fun _ => ⟨others _ rfl trivial trivial,fun answer => ?_⟩⟩
      split
      · exact keeps_pure.mpr trivial
      · exact keeps_pure.mpr trivial
      · exact keeps_throw

/-- A call that submits nothing. -/
theorem keeps_others (request : Request journal) (other : request.submits = false) :
    Keeps fact allowed (body request) fun _ => True := by
  cases request with
  | submit => exact nomatch other
  | cancel workspace principal operationId k =>
    exact keeps_bind.mpr (keeps_mono (keeps_requestCancellation others workspace principal operationId k)
      fun _ _ => keeps_pure.mpr trivial)
  | observe workspace operationId => exact keeps_observeOperation others workspace operationId
  | reconcile name => exact keeps_reconcileAction others name
  | report name status => exact keeps_submit.mpr ⟨others _ rfl trivial trivial,fun _ => trivial⟩
  | tick seconds => exact keeps_submit.mpr ⟨others _ rfl trivial trivial,fun _ => trivial⟩
end

/-- What is asked of a set of statements so that every call keeps to it: it has
    those that are permitted, but for the actions of operations that are nowhere
    pending. -/
structure Admits (journal : Journal) (fact : World → Prop) (allowed : Statement → Prop) : Prop where
  others : ∀ statement, statement.sends = false → Permitted journal statement → Sighted fact statement → allowed statement
  sends : ∀ operation, journal.Records operation →
    (∃ world current, fact world ∧ Store.operationFrom operation.workspaceId operation.id world.journal = .ok current ∧
      current.phase = .pending) →
    ∀ resource : ActionResource, resource.name = operation.resourceName →
      Runs operation.workspaceId operation.id resource.spec → allowed (.apply resource)

section
variable (admits : Admits journal fact allowed)
include admits

variable {cell : CellInstance} {resource : ActionResource}

omit [CoreFunctions] [Wire] in
theorem keeps_sendAction {workspace : String} {operation : CellOperation}
    {scope : Option PrivateAccessGrant} (recorded : journal.Records operation)
    (pending : ∃ world current, fact world ∧
      Store.operationFrom operation.workspaceId operation.id world.journal = .ok current ∧ current.phase = .pending)
    (named : resource.name = operation.resourceName) (runs : Runs operation.workspaceId operation.id resource.spec) :
    Keeps fact allowed (sendAction workspace cell operation resource scope) fun _ => True := by
  simp only [sendAction,applyAction,keeps_bind,keeps_query,keeps_settle]
  intro _ _ _ _ _ _ _ _ existing _
  have phase : ∀ now, Keeps fact allowed (store (Store.updateOperationPhase workspace operation.id .running now))
      fun _ => True := fun now => keeps_storeWrite admits.others (by simp [Store.updateOperationPhase,Permitted])
  cases existing with
  | some existing => exact keeps_settle.mpr fun _ _ _ _ now _ => phase now
  | none => exact keeps_submit.mpr ⟨admits.sends operation recorded pending _ named runs,fun _ _ _ now _ => phase now⟩

omit [Wire] in
theorem keeps_submitActionResource {principal : String} {operation : CellOperation}
    (recorded : journal.Records operation) (named : resource.name = operation.resourceName)
    (runs : Runs operation.workspaceId operation.id resource.spec) :
    Keeps fact allowed (submitActionResource operation.workspaceId principal cell operation resource) fun _ => True := by
  simp only [submitActionResource,keeps_ite,keeps_pure,keeps_bind]
  refine ⟨fun _ => trivial,fun _ => keeps_mono keeps_operationForSubmission ?_⟩
  rintro current ⟨world,holds,read⟩
  refine ⟨fun _ => trivial,fun pending => ?_⟩
  have first : Keeps fact allowed (sendAction operation.workspaceId cell operation resource none) fun _ => True :=
    keeps_sendAction admits recorded ⟨world,current,holds,read,not_not.mp pending⟩ named runs
  refine keeps_mono keeps_operationAccessScope fun scope _ => ?_
  cases scope with
  | none => exact first
  | some grant =>
    simp only [keeps_bind,keeps_ite,keeps_pure]
    refine keeps_mono (keeps_privateAccess (fun _ _ _ => admits.others _ rfl trivial trivial) grant 4) fun _ _ => ?_
    refine keeps_mono keeps_operationForSubmission ?_
    rintro again ⟨world,holds,read⟩
    exact ⟨fun _ => trivial,fun pending =>
      keeps_sendAction admits recorded ⟨world,again,holds,read,not_not.mp pending⟩ named runs⟩

/-- Every call keeps to what is admitted. -/
theorem body_keeps (request : Request journal) : Keeps fact allowed (body request) fun _ => True := by
  cases request with
  | submit principal cell operation recorded action grant =>
    exact keeps_bind.mpr (keeps_mono (keeps_submitActionResource admits recorded rfl ⟨rfl,rfl⟩) fun _ _ => keeps_pure.mpr trivial)
  | _ => exact keeps_others admits.others _ rfl
end

end

end

/-! ### A journal with one operation -/

def sampleRow : Store.ActionRow where
  workspaceId := "local"
  id := "op"
  instanceId := "instance"
  experimentId := "run"
  sessionId := "session"
  principalId := "p"
  sequence := 1
  kind := .componentLogs
  capability := .componentLogs
  resourceName := "action-op"
  requestDigest := ""
  request := .object []
  phase := .pending
  artifact := none
  acceptedAt := 0
  startedAt := none
  completedAt := none

/-- The principal may read logs, operate the cell and cancel. -/
def sampleJournal : Journal where
  db := { Store.Db.empty with
    grants := ⟨[⟨"local","p",.componentLogs⟩,⟨"local","p",.cellOperate⟩,⟨"local","p",.actionCancel⟩],by decide⟩
    actions := ⟨[sampleRow],by decide⟩
    operationRevisions := ⟨[⟨"local","op","sha256:revision"⟩],by decide⟩ }
  unique := by
    intro a left b right _
    rw [List.mem_singleton.mp left,List.mem_singleton.mp right]

def sampleOperation : CellOperation := sampleRow.toOperation "sha256:revision"

theorem sample_recorded : sampleJournal.Records sampleOperation := ⟨sampleRow,List.mem_singleton_self _,rfl,rfl,rfl⟩

def sampleInstance : CellInstance := ⟨1,"instance","local","sha256:revision","sha256:lock","i0","cell"⟩

def sampleCells : Table Cell := ⟨[⟨"cell",1,"local","instance",false,some .ready,[]⟩],by decide⟩

def sampleSubmit : Request sampleJournal :=
  .submit "p" sampleInstance sampleOperation sample_recorded (.other "component_logs" (.object [])) none

def sampleCancel : Request sampleJournal := .cancel "local" "p" "op" "cancel-1"

def sampleWorld : World := sampleJournal.world 0 sampleCells
end Proofstorm.Actions
