import Proofstorm.Actions.Capped
import Proofstorm.Core.Values
import Proofstorm.Workspace.Disk
import Proofstorm.Workspace.Requests

/-!
The requests that a workspace answers in pages: the bytes of a file, the names in a
directory, and the tasks. A reply goes back through a control channel, which carries
it as a JSON string in another document; the manager replaces one that would not fit
(`deliver`).
-/
namespace Proofstorm.Workspace
open Proofstorm.Actions (encodedLength insertField)
open Proofstorm.Core (Json Fields)
open Proofstorm.Upload (Failure byteLength)

/-! ### Files -/

/-- `READ_BYTES` -/
def readBytes : Nat := 1024

/-- `u64::saturating_add` -/
def saturatingAdd (a b : Nat) : Nat := min (a + b) (2 ^ 64 - 1)

structure ReadReply where
  path : String
  offset : Nat
  bytes : Nat
  content : String
  nextOffset : Option Nat

def ReadReply.toJson (reply : ReadReply) : Json :=
  .object [("bytes",.nat reply.bytes),("content",.str reply.content),
    ("next_offset",nullable .nat reply.nextOffset),("offset",.nat reply.offset),("path",.str reply.path)]

/-- The bytes that are shown of those read: not those of a character that goes on behind them. -/
def wholeBytes (offset length : Nat) (bytes : List UInt8) : List UInt8 :=
  match Utf8.fromUtf8 bytes with
  | .error (validUpTo,none) => if saturatingAdd offset bytes.length < length then bytes.take validUpTo else bytes
  | _ => bytes

/-- `FileRequest::Read`. An offset that is no `i64` cannot be sought. -/
def readFile (root : Tree) (path : String) (offset : Nat) : Except Failure ReadReply := do
  let node ← localPath root path
  let node ← require node .notFound
  match node with
  | .file content _ => do
    ensure (offset < 2 ^ 63) .io
    let bytes := wholeBytes offset content.length ((content.drop offset).take readBytes)
    let next := saturatingAdd offset bytes.length
    pure ⟨path,offset,bytes.length,Utf8.fromUtf8Lossy bytes,if next < content.length then some next else none⟩
  | _ => .error (.refused "only regular files can be read")

/-! ### Directories -/

structure ListReply where
  path : String
  entries : List String
  nextAfter : Option String

def ListReply.toJson (reply : ListReply) : Json :=
  .object [("entries",.array (reply.entries.map .str)),("next_after",nullable .str reply.nextAfter),("path",.str reply.path)]

/-- The loop over the entries of a directory. -/
def collectNames (after : Option String) (names : List String) : List FileName → Except Failure (List String)
  | [] => pure names
  | name :: rest => do
    let name ← require (intoString name) (.refused "non-UTF-8 filename")
    let names := if name ≠ ".proofstorm" ∧ ∀ cursor ∈ after, cursor < name then names ++ [name] else names
    ensure (names.length ≤ 4096) (.refused "directory too large to list")
    collectNames after names rest

/-- The workspace itself, or what is at a path. -/
def listedPath (root : Tree) (path : String) : Except Failure (Option Tree) :=
  if path = "" then pure (some root) else localPath root path

/-- `FileRequest::List`. -/
def listDirectory (root : Tree) (path : String) (after : Option String) : Except Failure ListReply := do
  let node ← listedPath root path
  let node ← require node .notFound
  match node with
  | .directory entries => do
    let names ← collectNames after [] entries.names
    let names := names.insertionSort (· ≤ ·)
    pure ⟨path,names.take 16,if names.length > 16 then names[15]? else none⟩
  | _ => .error .io

/-! ### Tasks -/

/-- What the manager keeps of a task: its state, which is an object, and the receipt
    of its supervisor once there is one. A file that cannot be read holds nothing. -/
structure TaskFiles where
  state : Option Fields
  receipt : Option (Option Json)

/-- `value[key]`. -/
def index (value : Json) (key : String) : Json := (value.get key).getD .null

/-- `update_receipt`. -/
def updateReceipt (now : Nat) (receipt : Json) (state : List (String × Json)) : List (String × Json) :=
  let phase := if index receipt "cleanup_verified" ≠ .bool true then "interrupted"
    else if index receipt "cancelled" = .bool true then "cancelled"
    else if index receipt "timed_out" = .bool true then "timed_out"
    else if (index receipt "exit_code").asI64 = some 0 then "succeeded"
    else "failed"
  if index (.object state) "phase" ≠ .str phase then
    ["exit_code","exit_signal","cleanup_verified","timed_out","cancelled"].foldl
      (fun state field => insertField state field (index receipt field))
      (insertField (insertField state "phase" (.str phase)) "completed_at_unix" (.nat now))
  else state

/-- `Manager::status`. -/
def status (now : Nat) (task : TaskFiles) : Except Failure Json := do
  let state ← require task.state .io
  match task.receipt with
  | none => pure (.obj state)
  | some receipt => do
    let receipt ← require receipt .io
    pure (.object (updateReceipt now receipt state.toList))

/-- `Manager::ids`. -/
def ids (tasks : List (FileName × TaskFiles)) : Except Failure (List String) := do
  let names ← tasks.mapM fun task => require (intoString task.1) (.refused "invalid task directory")
  pure ((names.filter fun name => name.toList.head? ≠ some '.').insertionSort (· ≤ ·))

structure TasksReply where
  tasks : List (String × Json)
  nextAfter : Option String

def TasksReply.toJson (reply : TasksReply) : Json :=
  .object [("next_after",nullable .str reply.nextAfter),("tasks",.array (reply.tasks.map Prod.snd))]

/-- The files of a task. -/
def filesOf (tasks : List (FileName × TaskFiles)) (id : String) : Except Failure TaskFiles :=
  require ((tasks.find? fun task => task.1 == osName id).map Prod.snd) .notFound

/-- The state that is shown of a task. -/
def showTask (now : Nat) (tasks : List (FileName × TaskFiles)) (id : String) : Except Failure (String × Json) := do
  let files ← filesOf tasks id
  let state ← status now files
  pure (id,state)

/-- `TaskRequest::List`. -/
def listTasks (now : Nat) (tasks : List (FileName × TaskFiles)) (after : Option String) : Except Failure TasksReply := do
  let all ← ids tasks
  let retained := all.filter fun id => ∀ cursor ∈ after, cursor < id
  let shown ← (retained.take 8).mapM (showTask now tasks)
  pure ⟨shown,if retained.length > 8 then retained[7]? else none⟩

/-! ### Delivery -/

/-- `MAX_BRIDGE_BYTES` -/
def maxBridgeBytes : Nat := 65536

/-- `{"error":"workspace response exceeds control output budget"}` -/
def budgetError : String := String.ofList (Json.object [("error",.str "workspace response exceeds control output budget")]).write

/-- What `serve` writes back for a reply to a request that is not a bridge's. -/
def deliver (reply : Json) : String :=
  let text := String.ofList reply.write
  if byteLength text > maxBridgeBytes ∨ encodedLength text > 11000 then budgetError else text

end Proofstorm.Workspace
