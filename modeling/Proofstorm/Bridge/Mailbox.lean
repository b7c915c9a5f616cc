import Mathlib.Data.List.Sort
import Proofstorm.Bridge.Control
import Proofstorm.Table

/-!
The mailbox of a task: a directory of call records beside the state of the task,
which the manager of the workspace reads and writes, one request after another.
The manager also watches the supervisors of its tasks and finds out, when it is
started, which tasks it was not there to see the end of.
-/
namespace Proofstorm.Bridge
open Proofstorm.Core (Json)
open Proofstorm.Upload (byteLength)

inductive Phase
  | starting | running | stopping | succeeded | failed | cancelled | timedOut | interrupted
  deriving DecidableEq

/-- `receipt.json`, which the supervisor of a task leaves. -/
structure Exit where
  cleanupVerified : Bool
  cancelled : Bool
  timedOut : Bool
  /-- Whether the exit code is 0. -/
  success : Bool
  deriving DecidableEq

structure Cleanup where
  pendingFaults : Nat
  taskPhase : Phase
  deriving DecidableEq

/-- `state.json` -/
structure State where
  requestDigest : String
  controlOwner : Option String
  phase : Phase
  controlCleanup : Option Cleanup
  deriving DecidableEq

instance : Keyed Record String := ⟨fun record => record.call.callId⟩

/-- A directory under `.proofstorm/tasks`. -/
structure Task where
  start : TaskStart
  state : State
  exit : Option Exit
  records : Table Record
  deriving DecidableEq

instance : Keyed Task String := ⟨fun task => task.start.taskId⟩

/-- `children` are the supervisors that this manager started and has not reaped. -/
structure Manager where
  tasks : Table Task
  children : List String
  deriving DecidableEq

/-- A request about the mailbox of a task, by its owner. -/
inductive Ask
  | submit (call : ControlCall)
  | poll
  | close
  | claim (callId : String)
  | complete (callId : String) (receipt : Json)
  | result (callId : String)
  | cleanup (pendingFaults : Nat)
  deriving DecidableEq

inductive BridgeRequest
  | start (start : TaskStart) (owner : String)
  | ask (taskId owner : String) (ask : Ask)
  deriving DecidableEq

inductive Reply
  | absent
  | state (state : State)
  | record (record : Record)
  /-- `call_count` is missing in the reply to another owner. -/
  | poll (state : State) (pending : Option Record) (callCount : Option Nat)
  | closed
  | claim (fresh : Bool) (digest : String)
  | recorded
  deriving DecidableEq

/-! ### Checks of identifiers -/

def Ask.callId : Ask → Option String
  | .submit call => some call.callId
  | .claim callId | .complete callId _ | .result callId => some callId
  | .poll | .close | .cleanup _ => none

/-- The rest of `BridgeRequest::validate`. -/
def validateIds (taskId owner : String) (callId : Option String) : Except String Unit := do
  validateTaskId taskId
  ensure (¬ (owner = "" ∨ byteLength owner > 128 ∨ containsNul owner)) "invalid control owner"
  match callId with
  | some id => validateTaskId id
  | none => pure ()

def BridgeRequest.validate : BridgeRequest → Except String Unit
  | .start request owner => do
    request.validate
    validateIds request.taskId owner none
  | .ask taskId owner asked => validateIds taskId owner asked.callId

/-! ### The state of a task -/

def Exit.phase (exit : Exit) : Phase :=
  if ¬ exit.cleanupVerified then .interrupted
  else if exit.cancelled then .cancelled
  else if exit.timedOut then .timedOut
  else if exit.success then .succeeded
  else .failed

/-- `update_receipt`, where there is a receipt. -/
def Task.observed (task : Task) : Task :=
  match task.exit with
  | some exit => { task with state := { task.state with phase := exit.phase } }
  | none => task

@[simp] theorem Task.observed_start (task : Task) : task.observed.start = task.start := by
  unfold Task.observed
  split <;> rfl

@[simp] theorem Task.observed_records (task : Task) : task.observed.records = task.records := by
  unfold Task.observed
  split <;> rfl

/-! ### The mailbox -/

/-- `read_json` of a record, which is read up to 64 KiB. -/
def readRecord [Wire] (record : Record) : Except String Record := do
  ensure (Wire.recordBytes record ≤ 65536) "workspace data exceeds limit"
  pure record

def Task.read [Wire] (task : Task) (callId : String) : Except String Record := do
  let record ← require (task.records.find callId) "No such file or directory"
  readRecord record

/-- The order of the files of two records in the sorted directory. -/
def Record.before (a b : Record) : Prop := a.call.callId ++ ".json" ≤ b.call.callId ++ ".json"

instance : DecidableRel Record.before := fun _ _ => inferInstanceAs (Decidable (_ ≤ _))

/-- The record that a poll shows: the first that is claimed and has no receipt,
    or else the first that has none. -/
def nextPending [Wire] (next : Option Record) : List Record → Except String (Option Record)
  | [] => pure next
  | file :: rest => do
    let record ← readRecord file
    if record.receipt.isSome then nextPending next rest
    else if record.claimed then pure (some record)
    else nextPending (next <|> some record) rest

def Record.claim (record : Record) : Record := { record with claimed := true }

/-- The first receipt stays. -/
def Record.complete (receipt : Json) (record : Record) : Record :=
  { record with receipt := record.receipt <|> some receipt }

/-- The record of a call is rewritten. -/
def Task.rewrite (task : Task) (callId : String) (f : Record → Record)
    (keeps : ∀ record, key (f record) = key record) : Task :=
  { task with records := task.records.update (fun record => record.call.callId = callId) f keeps }

def Task.active (task : Task) : Prop := task.state.phase = .running

instance (task : Task) : Decidable task.active := inferInstanceAs (Decidable (_ = _))

def isPartition (call : ControlCall) : Bool :=
  match call.operation with
  | some (.networkPartition ..) => true
  | _ => false

/-- Cleanup responsibility is there before the controller may create a fault. -/
def Task.expectFault (task : Task) : Task :=
  { task with state := { task.state with
      controlCleanup := some ⟨(task.state.controlCleanup.map Cleanup.pendingFaults).getD 0 + 1,task.state.phase⟩ } }

section
variable [Wire]

def Task.submit (scope : ControlScope) (call : ControlCall) (task : Task) : Task × Except String Reply :=
  match scope.permits call with
  | .error error => (task,.error error)
  | .ok _ =>
    match task.records.find call.callId with
    | some file =>
      (task,do
        let previous ← readRecord file
        ensure (previous.digest = digestJson (.call call)) "call_id already belongs to a different request"
        pure (.record previous))
    | none =>
      if ¬ task.active then (task,.error "task is no longer running")
      else if task.records.rows.length ≥ scope.maxCalls then (task,.error "task control call limit reached")
      else
        let record := ⟨call,digestJson (.call call),false,none⟩
        ({ task with records := task.records.insert record },.ok (.record record))

def Task.claim (callId : String) (task : Task) : Task × Except String Reply :=
  if ¬ task.active then (task,.error "task is no longer running")
  else
    match task.read callId with
    | .error error => (task,.error error)
    | .ok record =>
      let fresh := ¬ record.claimed ∧ record.receipt.isNone
      let claimed := task.rewrite callId Record.claim fun _ => rfl
      (if fresh ∧ isPartition record.call then claimed.expectFault else claimed,.ok (.claim fresh record.digest))

def Task.complete (callId : String) (receipt : Json) (task : Task) : Task × Except String Reply :=
  match task.read callId with
  | .error error => (task,.error error)
  | .ok _ => (task.rewrite callId (Record.complete receipt) fun _ => rfl,.ok .recorded)

def Task.close (task : Task) : Task × Except String Reply :=
  (if task.active then { task with state := { task.state with phase := .stopping } } else task,.ok .closed)

def Task.poll (task : Task) : Except String Reply := do
  let pending ← nextPending none (task.records.rows.insertionSort Record.before)
  pure (.poll task.state pending (some task.records.rows.length))

/-- The part of `Manager::bridge` under the owner of a task. -/
def Task.handle (scope : ControlScope) (ask : Ask) (task : Task) : Task × Except String Reply :=
  match ask with
  | .cleanup pendingFaults =>
    ({ task with state := { task.state with controlCleanup := some ⟨pendingFaults,task.state.phase⟩ } },.ok .recorded)
  | .submit call => task.submit scope call
  | .poll => (task,task.poll)
  | .close => task.close
  | .claim callId => task.claim callId
  | .complete callId receipt => task.complete callId receipt
  | .result callId => (task,(task.read callId).map .record)

theorem Task.handle_start (scope : ControlScope) (ask : Ask) (task : Task) :
    (task.handle scope ask).1.start = task.start := by
  cases ask with
  | submit call =>
    simp only [Task.handle,Task.submit]
    repeat' split
    all_goals rfl
  | claim callId =>
    simp only [Task.handle,Task.claim]
    repeat' split
    all_goals rfl
  | complete callId receipt =>
    simp only [Task.handle,Task.complete]
    split <;> rfl
  | close =>
    simp only [Task.handle,Task.close]
    split <;> rfl
  | poll => rfl
  | result callId => rfl
  | cleanup pendingFaults => rfl

/-- What `Manager::bridge` does with a task that is there. -/
def Task.answer (owner : String) (ask : Ask) (task : Task) : Task × Except String Reply :=
  if task.state.controlOwner ≠ some owner then
    (task,if ask = .poll then .ok (.poll task.state none none) else .error "control owner mismatch")
  else
    match task.start.control with
    | none => (task,.error "control scope missing")
    | some scope => task.handle scope ask

theorem Task.answer_start (owner : String) (ask : Ask) (task : Task) :
    (task.answer owner ask).1.start = task.start := by
  unfold Task.answer
  split
  · rfl
  · split
    · rfl
    · exact Task.handle_start _ _ task
end

/-! ### The manager -/

/-- What the start of a task finds of its source and of the system. -/
structure Launch where
  prepared : Bool
  launched : Bool
  deriving DecidableEq

def maxTasks : Nat := 128
def maxActiveTasks : Nat := 16

/-- The task of an id is rewritten. -/
def Manager.alter (m : Manager) (taskId : String) (f : Task → Task) (keeps : ∀ task, (f task).start = task.start) :
    Manager :=
  { m with tasks := m.tasks.update (fun task => task.start.taskId = taskId) f fun task =>
      congrArg TaskStart.taskId (keeps task) }

section
variable [Wire]

/-- `Manager::start` -/
def Manager.start (launch : Launch) (start : TaskStart) (owner : Option String) (m : Manager) :
    Manager × Except String Reply :=
  match start.validate with
  | .error error => (m,.error error)
  | .ok _ =>
    match m.tasks.find start.taskId with
    | some task =>
      (m.alter start.taskId Task.observed Task.observed_start,do
        ensure (task.state.requestDigest = digestJson (.start start)) "task_id already belongs to a different request"
        pure (.state task.observed.state))
    | none =>
      if m.tasks.rows.length ≥ maxTasks then (m,.error "workspace task history limit reached (128)")
      else if m.children.length ≥ maxActiveTasks then (m,.error "workspace concurrent task limit reached (16)")
      else if ¬ launch.prepared then (m,.error "task source must be a directory")
      else
        let state := ⟨digestJson (.start start),owner,if launch.launched then .running else .failed,none⟩
        ({ tasks := m.tasks.insert ⟨start,state,none,.empty⟩
           children := if launch.launched then start.taskId :: m.children else m.children },.ok (.state state))

/-- `Manager::bridge`. What it wrote stays where it refuses the request. -/
def Manager.bridge (launch : Launch) (request : BridgeRequest) (m : Manager) : Manager × Except String Reply :=
  match request.validate with
  | .error error => (m,.error error)
  | .ok _ =>
    match request with
    | .start start owner =>
      if start.control.isNone then (m,.error "control scope missing") else m.start launch start (some owner)
    | .ask taskId owner ask =>
      match m.tasks.find taskId with
      | none => (m,if ask = .poll then .ok .absent else .error "No such file or directory")
      | some task =>
        (m.alter taskId (fun task => (task.observed.answer owner ask).1) fun task =>
            (Task.answer_start owner ask task.observed).trans (Task.observed_start task),
          (task.observed.answer owner ask).2)
end

/-! ### What else happens to tasks -/

def Phase.going : Phase → Bool
  | .starting | .running | .stopping => true
  | _ => false

def Task.interrupt (task : Task) : Task := { task with state := { task.state with phase := .interrupted } }

/-- `Manager::recover`, of one task. -/
def Task.recovered (task : Task) : Task :=
  if task.state.phase.going then if task.exit.isSome then task.observed else task.interrupt else task

theorem Task.recovered_start (task : Task) : task.recovered.start = task.start := by
  unfold Task.recovered
  split
  · split
    · exact task.observed_start
    · rfl
  · rfl

/-- `Manager::reap`, of one task. -/
def Task.reaped (task : Task) : Task := if task.exit.isNone then task.observed.interrupt else task.observed

theorem Task.reaped_start (task : Task) : task.reaped.start = task.start := by
  unfold Task.reaped
  split
  · exact task.observed_start
  · exact task.observed_start

/-- `TaskRequest::Stop` -/
def Task.stopped (task : Task) : Task :=
  if task.observed.state.phase.going then
    { task.observed with state := { task.observed.state with phase := .stopping } }
  else task.observed

theorem Task.stopped_start (task : Task) : task.stopped.start = task.start := by
  unfold Task.stopped
  split
  · exact task.observed_start
  · exact task.observed_start

inductive ManagerEvent
  /-- The supervisor of a task leaves its receipt. -/
  | exits (taskId : String) (exit : Exit)
  | reap (taskId : String)
  /-- The workspace is started again. -/
  | recover
  | stop (taskId : String)
  /-- A task without a grant is started. -/
  | start (launch : Launch) (start : TaskStart)

def Manager.happens [Wire] (event : ManagerEvent) (m : Manager) : Manager :=
  match event with
  | .exits taskId exit => m.alter taskId (fun task => { task with exit := some exit }) fun _ => rfl
  | .reap taskId => { m.alter taskId Task.reaped Task.reaped_start with
      children := m.children.filter fun child => child ≠ taskId }
  | .recover =>
    { tasks := m.tasks.update (fun _ => True) Task.recovered fun task => congrArg TaskStart.taskId task.recovered_start
      children := [] }
  | .stop taskId => m.alter taskId Task.stopped Task.stopped_start
  | .start launch start => if start.control.isSome then m else (m.start launch start none).1
end Proofstorm.Bridge
