import Proofstorm.Bridge.Mailbox
import Proofstorm.Sequenced

/-!
The manager of the tasks of a workspace. A task is a directory with its state and,
when its supervisor has ended, the receipt of the supervisor; the manager writes
the state, and the supervisor writes the receipt. A session (`serve`) is one process
of the manager: it recovers what it finds, answers requests, reaps the supervisors
that have exited and is shut down, and can be cut off between any two operations.
The lock that a session takes is free only when the last manager is gone, and its
supervisors with it.
-/
namespace Proofstorm.Tasks
open Proofstorm.Bridge (Phase TaskStart Wire digestJson validateTaskId)
open Proofstorm.Interleaving

/-! ### Files -/

/-- `receipt.json`: what the manager reads of it. -/
structure Receipt where
  exitCode : Option Int
  exitSignal : Option Int
  cleanupVerified : Bool
  timedOut : Bool
  cancelled : Bool
  deriving DecidableEq

/-- `state.json`. -/
structure State where
  taskId : String
  requestDigest : String
  sourceDigest : String
  runtimeImage : String
  phase : Phase
  createdAtUnix : Nat
  outputPath : String
  controlOwner : Option String
  startedAtUnix : Option Nat
  completedAtUnix : Option Nat
  reason : Option String
  exitCode : Option Int
  exitSignal : Option Int
  cleanupVerified : Option Bool
  timedOut : Option Bool
  cancelled : Option Bool
  deriving DecidableEq

/-- A directory under `.proofstorm/tasks`. -/
structure Task where
  start : TaskStart
  state : State
  receipt : Option Receipt
  cancel : Option String

instance : Keyed Task String := ⟨fun task => task.start.taskId⟩

inductive Failure
  | refused (message : String)
  | notFound
  | io
  deriving DecidableEq

inductive Request
  /-- A start by the workspace itself, or by the controller for an owner. -/
  | start (start : TaskStart) (owner : Option String)
  | status (taskId : String)
  | stop (taskId : String)
  | list (after : Option String)

inductive Reply
  | task (state : State)
  | tasks (states : List State) (nextAfter : Option String)

def Reply.states : Reply → List State
  | .task state => [state]
  | .tasks states _ => states

structure World where
  /-- `now`. -/
  now : Nat
  /-- The nanoseconds of `SystemTime::now`. -/
  nanos : Nat
  runtimeImage : String
  /-- What `local_path` makes of a path, and whether a directory is there. -/
  located : String → Except String Bool
  /-- What `snapshot` makes of the directory at a path. -/
  snapshot : String → Except String String
  tasks : Table Task
  /-- The staging directories. -/
  stages : List (String × Nat)
  /-- The tasks whose supervisors are alive. -/
  alive : List String
  /-- Not of the workspace: the tasks that supervisors were launched for, newest first. -/
  launched : List String
  /-- Not of the workspace: the states that were written or replied, newest first. -/
  observed : List State
  /-- Not of the workspace: the replies, newest first. -/
  replies : List (Request × Except Failure Reply)

def stateOf (id : String) (world : World) : Option State := (world.tasks.find id).map Task.state

def receiptOf (id : String) (world : World) : Option Receipt := (world.tasks.find id).bind Task.receipt

inductive Statement
  | takeLock
  | createStage (stage : String × Nat)
  /-- A snapshot or a file in a staging directory. -/
  | fillStage (stage : String × Nat)
  | makeOutput (taskId : String)
  /-- The rename of a staging directory into which these were written. -/
  | renameStage (stage : String × Nat) (start : TaskStart) (state : State)
  | removeStage (stage : String × Nat)
  /-- `sync_all` on a directory. -/
  | sync
  | launch (taskId : String)
  | writeState (state : State)
  | writeCancel (taskId text : String)
  | reply (request : Request) (outcome : Except Failure Reply)

@[reducible] def Statement.Answer (_ : Statement) : Type := Unit

def execute (statement : Statement) (world : World) : Except Failure (statement.Answer × World) :=
  match statement with
  | .takeLock => .ok ((),{ world with alive := [] })
  | .createStage stage => do
    ensure (stage ∉ world.stages) .io
    pure ((),{ world with stages := stage :: world.stages })
  | .fillStage stage => do
    ensure (stage ∈ world.stages) .notFound
    pure ((),world)
  | .makeOutput _ | .sync => .ok ((),world)
  | .renameStage stage start state => do
    ensure (stage ∈ world.stages) .notFound
    ensure (world.tasks.find start.taskId = none) .io
    pure ((),{ world with
      stages := world.stages.filter (· ≠ stage)
      tasks := world.tasks.insert ⟨start,state,none,none⟩
      observed := state :: world.observed })
  | .removeStage stage => .ok ((),{ world with stages := world.stages.filter (· ≠ stage) })
  | .launch taskId => .ok ((),{ world with alive := taskId :: world.alive, launched := taskId :: world.launched })
  | .writeState state => do
    ensure ((world.tasks.find state.taskId).isSome = true) .notFound
    pure ((),{ world with
      tasks := world.tasks.update (fun task => key task = state.taskId) (fun task => { task with state }) fun _ => rfl
      observed := state :: world.observed })
  | .writeCancel taskId text => do
    ensure ((world.tasks.find taskId).isSome = true) .notFound
    pure ((),{ world with
      tasks := world.tasks.update (fun task => key task = taskId) (fun task => { task with cancel := some text }) fun _ => rfl })
  | .reply request outcome => .ok ((),{ world with
      replies := (request,outcome) :: world.replies
      observed := ((outcome.toOption.map Reply.states).getD []) ++ world.observed })

abbrev Program := Fallible World Statement Failure Statement.Answer

def clock : Program Nat := query fun world => .ok world.now

/-- `read_json` of the state of a task. -/
def readState (id : String) : Program State := query fun world => require (stateOf id world) .notFound

/-- `receipt.json` is a file. -/
def hasReceipt (id : String) : Program Bool := query fun world => .ok (receiptOf id world).isSome

/-- `write_json` of the state of a task. -/
def writeState (state : State) : Program Unit := do
  submit (.writeState state)
  submit .sync

def writeCancel (id text : String) : Program Unit := do
  submit (.writeCancel id text)
  submit .sync

/-- `ids`. -/
def ids : Program (List String) :=
  query fun world => .ok ((world.tasks.rows.map key).insertionSort (· ≤ ·))

/-! ### Tasks -/

def maxTasks : Nat := 128
def maxActiveTasks : Nat := 16

/-- The phases of a task that has not ended. -/
def isOpen (phase : Phase) : Bool := phase = .starting ∨ phase = .running ∨ phase = .stopping

def Receipt.phase (receipt : Receipt) : Phase :=
  if receipt.cleanupVerified = false then .interrupted
  else if receipt.cancelled then .cancelled
  else if receipt.timedOut then .timedOut
  else if receipt.exitCode = some 0 then .succeeded
  else .failed

/-- `update_receipt`. -/
def updateReceipt (state : State) : Program State := do
  let receipt ← query fun world => require (receiptOf state.taskId world) .notFound
  if state.phase = receipt.phase then pure state
  else
    let now ← clock
    let ended := { state with
      phase := receipt.phase
      completedAtUnix := some now
      exitCode := receipt.exitCode
      exitSignal := receipt.exitSignal
      cleanupVerified := some receipt.cleanupVerified
      timedOut := some receipt.timedOut
      cancelled := some receipt.cancelled }
    writeState ended
    pure ended

def status (id : String) : Program State := do
  let state ← readState id
  if ← hasReceipt id then updateReceipt state else pure state

/-- The end of a task whose supervisor is gone without a receipt. -/
def interrupt (state : State) (reason : String) : Program Unit := do
  let now ← clock
  writeState { state with
    phase := .interrupted
    reason := some reason
    completedAtUnix := some now
    cleanupVerified := some false }

def recoverTask (id : String) : Program Unit := do
  let state ← readState id
  if isOpen state.phase then
    if ← hasReceipt id then discard (updateReceipt state)
    else interrupt state "workspace_restarted; task was not replayed; reconcile application effects before starting a new task"
  else pure ()

def recover : Program Unit := do
  let found ← ids
  found.forM recoverTask

def stop (id : String) : Program State := do
  let state ← status id
  if isOpen state.phase then
    writeCancel id "cancel"
    let stopping := { state with phase := .stopping }
    writeState stopping
    pure stopping
  else pure state

def list (after : Option String) : Program Reply := do
  let found ← ids
  let rest := found.filter fun id => after.all fun after => after < id
  let states ← (rest.take 8).mapM status
  pure (.tasks states (if rest.length > 8 then rest[7]? else none))

section
variable [Wire]

/-- The staging of a task, up to its rename. -/
def prepare (start : TaskStart) (owner : Option String) (stage : String × Nat) : Program State := do
  let sourceDigest ← query fun world => (world.snapshot start.source).mapError .refused
  submit (.fillStage stage)
  submit (.fillStage stage)
  submit (.fillStage stage)
  let image ← query fun world => .ok world.runtimeImage
  let now ← clock
  let state : State :=
    { taskId := start.taskId
      requestDigest := digestJson (.start start)
      sourceDigest
      runtimeImage := image
      phase := .starting
      createdAtUnix := now
      outputPath := s!"output/{start.taskId}"
      controlOwner := owner
      startedAtUnix := none
      completedAtUnix := none
      reason := none
      exitCode := none
      exitSignal := none
      cleanupVerified := none
      timedOut := none
      cancelled := none }
  submit (.fillStage stage)
  submit (.makeOutput start.taskId)
  submit (.renameStage stage start state)
  submit .sync
  pure state

/-- The launch of a supervisor: the state after it, and whether there is a child. -/
def launch (state : State) : Program (Bool × State) := do
  match ← attempt (submit (.launch state.taskId)) with
  | .ok _ =>
    let now ← clock
    pure (true,{ state with phase := .running, startedAtUnix := some now })
  | .error _ =>
    let now ← clock
    pure (false,{ state with phase := .failed, reason := some "supervisor_start_failed", completedAtUnix := some now })

/-- The part of `start` for a task that has no directory, with the children after it. -/
def startFresh (children : List String) (start : TaskStart) (owner : Option String) :
    Program (List String × Except Failure State) := do
  let found ← ids
  if found.length ≥ maxTasks then pure (children,.error (.refused "workspace task history limit reached (128)"))
  else if children.length ≥ maxActiveTasks then
    pure (children,.error (.refused "workspace concurrent task limit reached (16)"))
  else
    match ← attempt (query fun world => (world.located start.source).mapError Failure.refused) with
    | .error error => pure (children,.error error)
    | .ok false => pure (children,.error (.refused "task source must be a directory"))
    | .ok true =>
      let nanos ← query fun world => .ok world.nanos
      let stage := (start.taskId,nanos)
      match ← attempt (submit (.createStage stage)) with
      | .error error => pure (children,.error error)
      | .ok _ =>
        match ← attempt (prepare start owner stage) with
        | .error error =>
          let _ ← attempt (submit (.removeStage stage))
          pure (children,.error error)
        | .ok state =>
          -- The claim is durable before the launch, and recovery never replays it.
          let (child,state) ← launch state
          let children := if child then children.orderedInsert (· ≤ ·) start.taskId else children
          let outcome ← attempt (writeState state)
          pure (children,outcome.map fun _ => state)

/-- `start`, with the children after it. -/
def start (children : List String) (start : TaskStart) (owner : Option String) :
    Program (List String × Except Failure State) := do
  match start.validate with
  | .error message => pure (children,.error (.refused message))
  | .ok _ =>
    if ← query fun world => .ok (world.tasks.find start.taskId).isSome then
      let outcome ← attempt (status start.taskId)
      pure (children,outcome.bind fun state =>
        if state.requestDigest = digestJson (.start start) then .ok state
        else .error (.refused "task_id already belongs to a different request"))
    else startFresh children start owner

/-! ### Requests -/

/-- The checks before a request: of `decode`, and of who may start what. -/
def Request.check : Request → Except Failure Unit
  | .start request none => do
    request.validate.mapError .refused
    ensure (request.control = none) (.refused "controlled tasks must be started through the controller")
  | .start request (some owner) => do
    (Bridge.BridgeRequest.validate (.start request owner)).mapError .refused
    ensure (request.control.isSome = true) (.refused "control scope missing")
  | .status taskId | .stop taskId => (validateTaskId taskId).mapError .refused
  | .list _ => pure ()

/-- The outcome of a request and the children after it. -/
def answer (children : List String) (request : Request) : Program (List String × Except Failure Reply) :=
  match request.check with
  | .error error => pure (children,.error error)
  | .ok _ =>
    match request with
    | .start request owner => do
      let (children,outcome) ← start children request owner
      pure (children,outcome.map .task)
    | .status taskId => do
      let outcome ← attempt (status taskId)
      pure (children,outcome.map .task)
    | .stop taskId => do
      let outcome ← attempt (stop taskId)
      pure (children,outcome.map .task)
    | .list after => do
      let outcome ← attempt (list after)
      pure (children,outcome)

/-- The end of a child that has exited. -/
def reapTask (id : String) : Program Unit := do
  let state ← status id
  if ← hasReceipt id then pure ()
  else interrupt state "supervisor_exited_without_receipt; cleanup and application outcome are unknown"

/-- The children that have exited, `try_wait` by `try_wait`. -/
def exited : List String → Program (List String)
  | [] => pure []
  | id :: rest => do
    let gone ← query fun world => .ok (decide (id ∉ world.alive))
    let others ← exited rest
    pure (if gone then id :: others else others)

/-- `reap`, with the children after it. -/
def reap (children : List String) : Program (List String) := do
  let finished ← exited children
  finished.forM reapTask
  pure (children.filter (· ∉ finished))

/-- One turn of the loop, with a request if there is one. -/
def turn (children : List String) (request : Option Request) : Program (List String) := do
  let children ← reap children
  match request with
  | none => pure children
  | some request =>
    let (children,outcome) ← answer children request
    -- A lost client does not stop the manager.
    let _ ← attempt (submit (.reply request outcome))
    pure children

def turns (children : List String) : List (Option Request) → Program (List String)
  | [] => pure children
  | request :: rest => do
    let children ← turn children request
    turns children rest

/-- The rounds of `shutdown` before its deadline. -/
def awaitChildren (children : List String) : Nat → Program Unit
  | 0 => pure ()
  | rounds+1 =>
    if children = [] then pure ()
    else do
      let children ← reap children
      awaitChildren children rounds

def shutdown (children : List String) (rounds : Nat) : Program Unit := do
  children.forM fun id => writeCancel id "shutdown"
  awaitChildren children rounds

/-- One process of the manager: the requests that reach it, and how often it reaps
    at its end. -/
structure Session where
  requests : List (Option Request)
  rounds : Nat

def serve (session : Session) : Program Unit := do
  submit .takeLock
  recover
  let children ← turns [] session.requests
  shutdown children session.rounds

def code (session : Session) : Call World Statement Failure Statement.Answer (Except Failure Unit) := (serve session).run
end

/-- What happens beside the manager. -/
inductive Meanwhile : World → World → Prop
  | time (world : World) (now nanos : Nat) : Meanwhile world { world with now, nanos }
  /-- The files of the workspace change. -/
  | files (world : World) (located : String → Except String Bool) (snapshot : String → Except String String) :
    Meanwhile world { world with located, snapshot }
  /-- A supervisor writes its receipt, once. -/
  | receipt (world : World) (id : String) (receipt : Receipt) (alive : id ∈ world.alive) (first : receiptOf id world = none) :
    Meanwhile world { world with
      tasks := world.tasks.update (fun task => key task = id) (fun task => { task with receipt := some receipt }) fun _ => rfl }
  | exit (world : World) (id : String) : Meanwhile world { world with alive := world.alive.filter (· ≠ id) }

/-- A workspace without tasks. -/
structure Fresh (world : World) : Prop where
  tasks : world.tasks = .empty
  alive : world.alive = []
  launched : world.launched = []
  observed : world.observed = []
  replies : world.replies = []
end Proofstorm.Tasks
