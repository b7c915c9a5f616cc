import Proofstorm.Core.Digest
import Proofstorm.Upload.Files

/-!
The calls of a workspace task and the grant that permits them. A task that is
started through the controller has a grant, which is fixed for its lifetime and
names the components that it may call, those that it may start and stop, and the
pairs that it may partition. What `serde_json` and the digest make of a document
are parameters.
-/
namespace Proofstorm.Bridge
open Proofstorm.Core (Json)
open Proofstorm.Upload (byteLength)

inductive OutputMode
  | privately | publicly | jsonFields | bolt11 | lndInvoice
  deriving DecidableEq

structure NativeOutput where
  mode : OutputMode
  fields : List String
  deriving DecidableEq

inductive CaptureFormat
  | bytes | cashuToken
  deriving DecidableEq

inductive InputBinding
  | stdin
  | argv (index : Nat)
  deriving DecidableEq

inductive PrivateIo
  | capture (maximumBytes : Nat) (format : CaptureFormat)
  | consume (bytes : Nat) (sha256 : String) (input : InputBinding)
  deriving DecidableEq

structure NativeCommand where
  privateIo : Option PrivateIo
  script : String
  argv : List String
  timeoutSeconds : Nat
  output : NativeOutput
  deriving DecidableEq

def maxPrivateBytes : Nat := 1024 * 1024
def maxPrivateArgBytes : Nat := 64 * 1024
def privateArg : String := "@proofstorm-private-input"

/-- 64 lower-case hexadecimal digits. -/
def isLowerHexDigest (value : String) : Bool :=
  value.toList.length = 64 && value.toList.all fun c => c.isDigit || ('a' ≤ c && c ≤ 'f')

def PrivateIo.validate (binding : PrivateIo) (command : NativeCommand) : Except String Unit := do
  ensure (¬ (command.output.mode ≠ .privately ∨ command.output.fields ≠ [])) "private payload requires private output"
  match binding with
  | .capture maximumBytes _ =>
    ensure (1 ≤ maximumBytes ∧ maximumBytes ≤ maxPrivateBytes) "private payload bounds invalid"
  | .consume bytes sha256 input => do
    ensure (1 ≤ bytes ∧ bytes ≤ maxPrivateBytes ∧ isLowerHexDigest sha256) "private payload bounds invalid"
    match input with
    | .stdin => pure ()
    | .argv index =>
      ensure (¬ (bytes > maxPrivateArgBytes ∨ index = 0 ∨ command.argv[index]? ≠ some privateArg))
        "private argv binding invalid or too large"

/-- `receipt_fields`. -/
def receiptFields : List String :=
  ["status","state","failure_reason","settled","synced_to_chain","amount","amount_sat","fee_paid","fee_paid_sat",
    "value_sat","total_fees","total_fees_msat","num_active_channels","balance","confirmed_balance",
    "unconfirmed_balance","seedAccess.state","seedAccess.requiresPassphrase","cocoSession.state"]

def containsNul (text : String) : Bool := text.toList.contains (Char.ofNat 0)

def NativeCommand.validate (command : NativeCommand) : Except String Unit := do
  match command.privateIo with
  | some binding => binding.validate command
  | none => pure ()
  ensure (¬ (command.script = "" ↔ command.argv = [])) "provide exactly one of script or argv"
  ensure (¬ (byteLength command.script + (command.argv.map byteLength).sum > 16 * 1024 ∨ command.argv.length > 64 ∨
      command.argv.any containsNul ∨ containsNul command.script))
    "native command exceeds argument limits or contains NUL"
  ensure (1 ≤ command.timeoutSeconds ∧ command.timeoutSeconds ≤ 300) "timeout_seconds must be in 1..=300"
  if command.output.mode = .jsonFields then
    ensure (¬ (command.output.fields = [] ∨ command.output.fields.length > 16))
      "json_fields requires 1..=16 receipt fields"
    ensure (∀ field ∈ command.output.fields, field ∈ receiptFields) "output field is not an allowlisted receipt field"
  else ensure (command.output.fields = []) "fields requires json_fields output mode"

/-- A byte of a task id. -/
def isIdByte (c : Char) : Bool := c.isAlphanum || c = '_' || c = '-'

def validateTaskId (id : String) : Except String Unit :=
  ensure (¬ (id = "" ∨ byteLength id > 64 ∨ ¬ id.toList.all isIdByte))
    "task_id must contain 1..=64 ASCII letters, digits, '_' or '-'"

/-! ### Grants -/

structure NetworkPair where
  fromComponent : String
  toComponent : String
  deriving DecidableEq

structure ControlScope where
  components : List String
  lifecycle : List String
  network : List NetworkPair
  maxFaultSeconds : Nat
  maxCalls : Nat
  maxTimeoutSeconds : Nat
  deriving DecidableEq

inductive ControlOperation
  | componentStart (component : String)
  | componentStop (component : String)
  | componentRestart (component : String)
  | networkPartition (fromComponent toComponent : String) (durationSeconds : Nat)
  | networkHeal (partitionCallId : String)
  deriving DecidableEq

structure ControlCall where
  callId : String
  component : String
  command : Option NativeCommand
  operation : Option ControlOperation
  deriving DecidableEq

/-- Ids that are valid, none of them twice. -/
def uniqueIds (duplicate : String) (seen : List String) : List String → Except String Unit
  | [] => pure ()
  | id :: rest => do
    validateTaskId id
    ensure (id ∉ seen) duplicate
    uniqueIds duplicate (id :: seen) rest

def NetworkPair.ordered (pair : NetworkPair) : String × String :=
  if pair.fromComponent < pair.toComponent then (pair.fromComponent,pair.toComponent)
  else (pair.toComponent,pair.fromComponent)

def uniquePairs (seen : List (String × String)) : List NetworkPair → Except String Unit
  | [] => pure ()
  | pair :: rest => do
    validateTaskId pair.fromComponent
    validateTaskId pair.toComponent
    ensure (pair.fromComponent ≠ pair.toComponent) "partition endpoints must differ"
    ensure (pair.ordered ∉ seen) "duplicate network pair"
    uniquePairs (pair.ordered :: seen) rest

def ControlScope.validate (scope : ControlScope) : Except String Unit := do
  ensure (¬ ((scope.components = [] ∧ scope.lifecycle = [] ∧ scope.network = []) ∨ scope.components.length > 16 ∨
      scope.lifecycle.length > 16 ∨ scope.network.length > 16 ∨
      ¬ (1 ≤ scope.maxFaultSeconds ∧ scope.maxFaultSeconds ≤ 3600) ∨
      ¬ (1 ≤ scope.maxCalls ∧ scope.maxCalls ≤ 4096) ∨
      ¬ (1 ≤ scope.maxTimeoutSeconds ∧ scope.maxTimeoutSeconds ≤ 300)))
    ("control requires nonempty scopes (at most 16 each), 1..4096 calls, " ++
      "a 1..300 second command limit and a 1..3600 second fault limit")
  uniqueIds "duplicate control component" [] scope.components
  uniqueIds "duplicate lifecycle component" [] scope.lifecycle
  uniquePairs [] scope.network

def ControlScope.targets (scope : ControlScope) : List String :=
  scope.components ++ scope.lifecycle ++ scope.network.flatMap fun pair => [pair.fromComponent,pair.toComponent]

def ControlScope.capabilities (scope : ControlScope) : List Core.Capability :=
  (if scope.lifecycle ≠ [] then [.componentControl] else []) ++
    if scope.network ≠ [] then [.networkPartition,.networkHeal] else []

/-! ### Starts -/

structure TaskStart where
  control : Option ControlScope
  taskId : String
  source : String
  argv : List String
  script : String
  env : List (String × String)
  timeoutSeconds : Option Nat
  deriving DecidableEq

/-- A name of an environment variable. -/
def isEnvName (name : String) : Bool :=
  match name.toList with
  | [] => false
  | first :: rest => (first = '_' || first.isAlpha) && rest.all fun c => c = '_' || c.isAlphanum

def validateEnv (env : List (String × String)) : Except String Unit := do
  ensure (¬ env.length > 64) "environment has more than 64 variables"
  ensure (∀ entry ∈ env, byteLength entry.1 ≤ 128 ∧ isEnvName entry.1)
    "environment names must match [A-Za-z_][A-Za-z0-9_]* within 128 bytes"
  ensure (∀ entry ∈ env, ¬ "PROOFSTORM_".toList <+: entry.1.toList) "PROOFSTORM_ environment variables are reserved"
  ensure (∀ entry ∈ env, ¬ (containsNul entry.2 ∨ byteLength entry.2 > 4096))
    "environment values must be at most 4096 bytes without NUL"
  ensure (¬ (env.map fun entry => byteLength entry.1 + byteLength entry.2).sum > 8192) "environment exceeds 8192 bytes"

/-- The text of a refusal. -/
def refusal : Upload.Failure → String
  | .refused message => message
  | _ => ""

def TaskStart.validate (start : TaskStart) : Except String Unit := do
  match start.control with
  | some scope => scope.validate
  | none => pure ()
  validateTaskId start.taskId
  (Upload.validatePath start.source).mapError refusal
  NativeCommand.validate ⟨none,start.script,start.argv,300,⟨.privately,[]⟩⟩
  ensure (start.timeoutSeconds ≠ some 0) "task timeout must be positive or omitted"
  validateEnv start.env

/-! ### Documents -/

/-- A record of the mailbox: `{"call","digest","claimed"}` and, once there is one, `"receipt"`. -/
structure Record where
  call : ControlCall
  digest : String
  claimed : Bool
  receipt : Option Json
  deriving DecidableEq

/-- The documents that are digested. -/
inductive Document
  | call (call : ControlCall)
  | scope (scope : ControlScope)
  | start (start : TaskStart)
  /-- The uid and the operation of a parent. -/
  | owner (uid : Option String) (operationId : String)
  /-- The label of a parent and a call id. -/
  | name (label callId : String)
  deriving DecidableEq

class Wire where
  /-- `digest_json`: `sha256:` and 64 hexadecimal digits. -/
  digestJson : Document → String
  /-- `serde_json::to_string`. -/
  callText : ControlCall → String
  /-- `serde_json::from_str`. -/
  parseCall : String → Option ControlCall
  /-- The start of a task, where the text is that of such a request. -/
  parseStart : String → Option TaskStart
  /-- The length of the file of a record. -/
  recordBytes : Record → Nat

export Wire (digestJson)

section
variable [Wire]

def ControlScope.permits (scope : ControlScope) (call : ControlCall) : Except String Unit := do
  scope.validate
  validateTaskId call.callId
  match call.command, call.operation with
  | some command, none =>
    command.validate
    ensure (¬ (call.component ∉ scope.components ∨ command.timeoutSeconds > scope.maxTimeoutSeconds ∨
        command.privateIo.isSome)) "call is outside the task's control scope"
  | none, some operation =>
    ensure (call.component = "") "provide either component and command, or operation"
    match operation with
    | .componentStart component | .componentStop component | .componentRestart component =>
      ensure (component ∈ scope.lifecycle) "lifecycle component is outside task scope"
    | .networkPartition fromComponent toComponent durationSeconds =>
      ensure (¬ (durationSeconds = 0 ∨ durationSeconds > scope.maxFaultSeconds ∨
          ¬ scope.network.any fun pair => pair = ⟨fromComponent,toComponent⟩ ∨ pair = ⟨toComponent,fromComponent⟩))
        "partition is outside task scope or duration bound"
    | .networkHeal partitionCallId =>
      validateTaskId partitionCallId
      ensure (scope.network ≠ []) "network control is not granted"
  | _, _ => throw "provide either component and command, or operation"
  ensure (¬ byteLength (Wire.callText call) > 8192) "control call exceeds 8192 bytes"

def workspaceRunner : String := "/opt/proofstorm/workspace"

/-- `start_request`: the only form of a command that can establish a grant. -/
def startRequest (script : String) (argv : List String) : Option TaskStart :=
  match argv with
  | [runner,workspace,request,text] =>
    if script = "" ∧ runner = workspaceRunner ∧ workspace = "workspace" ∧ request = "request" then
      (Wire.parseStart text).filter fun start => start.validate.isOk && start.control.isSome
    else none
  | _ => none
end

end Proofstorm.Bridge
