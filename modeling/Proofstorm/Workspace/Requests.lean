import Proofstorm.Bridge.Control
import Proofstorm.Core.Values

/-!
The requests of a workspace and their documents. Each type has the document that it
is written as and the reader of one; the tag of an enumeration stands beside its
contents (`kind` and `request`) or among their fields (`action`).
-/
namespace Proofstorm.Workspace
open Proofstorm.Core (Json Items Fields)
open Proofstorm.Core.Json
open Proofstorm.Bridge
open Proofstorm.Upload (UploadRequest validatePath byteLength isHexDigit)

def maxFileWriteBytes : Nat := 8192

inductive LogStream
  | stdout | stderr
  deriving DecidableEq

inductive TaskRequest
  | start (start : TaskStart)
  | status (taskId : String)
  | stop (taskId : String)
  | list (after : Option String)
  | logs (taskId : String) (stream : LogStream)
  deriving DecidableEq

inductive FileRequest
  | write (path content : String)
  | read (path : String) (offset : Nat)
  | list (path : String) (after : Option String)
  | remove (path : String)
  deriving DecidableEq

structure CaptureSelection where
  taskId : String
  outputPaths : List String
  includeLogs : Bool
  deriving DecidableEq

structure CaptureRequest where
  captureId : String
  requestDigest : String
  selection : CaptureSelection
  deriving DecidableEq

inductive WorkspaceRequest
  | task (request : TaskRequest)
  | file (request : FileRequest)
  | upload (request : UploadRequest)
  | ping
  | capture (request : CaptureRequest)
  | releaseCapture (captureId : String)
  deriving DecidableEq

/-! ### Grants and starts -/

def NetworkPair.names : List String := ["from_component","to_component"]

def NetworkPair.toJson (pair : NetworkPair) : Json :=
  .object [("from_component",.str pair.fromComponent),("to_component",.str pair.toComponent)]

def NetworkPair.ofJson (value : Json) : Option NetworkPair := do
  guard (value.closed names)
  let fromComponent ← required asStr (value.part names "from_component")
  let toComponent ← required asStr (value.part names "to_component")
  some ⟨fromComponent,toComponent⟩

/-- `skip_serializing_if`. -/
def skipIf (skipped : Bool) (name : String) (value : Json) : List (String × Json) :=
  if skipped then [] else [(name,value)]

def ControlScope.names : List String := ["components","lifecycle","network","max_fault_seconds","max_calls","max_timeout_seconds"]

def ControlScope.toJson (scope : ControlScope) : Json :=
  .object (skipIf scope.components.isEmpty "components" (.array (scope.components.map .str)) ++
    skipIf scope.lifecycle.isEmpty "lifecycle" (.array (scope.lifecycle.map .str)) ++
    skipIf scope.network.isEmpty "network" (.array (scope.network.map NetworkPair.toJson)) ++
    skipIf (scope.maxFaultSeconds = 60) "max_fault_seconds" (.nat scope.maxFaultSeconds) ++
    [("max_calls",.nat scope.maxCalls),("max_timeout_seconds",.nat scope.maxTimeoutSeconds)])

def ControlScope.ofJson (value : Json) : Option ControlScope := do
  guard (value.closed names)
  let components ← defaulted (list asStr) [] (value.part names "components")
  let lifecycle ← defaulted (list asStr) [] (value.part names "lifecycle")
  let network ← defaulted (list NetworkPair.ofJson) [] (value.part names "network")
  let maxFaultSeconds ← defaulted asU32 60 (value.part names "max_fault_seconds")
  let maxCalls ← defaulted asU32 256 (value.part names "max_calls")
  let maxTimeoutSeconds ← defaulted asU32 30 (value.part names "max_timeout_seconds")
  some ⟨components,lifecycle,network,maxFaultSeconds,maxCalls,maxTimeoutSeconds⟩

/-- `null`, or the value. -/
def nullable {α : Type} (write : α → Json) : Option α → Json
  | none => .null
  | some a => write a

def TaskStart.names : List String := ["control","task_id","source","argv","script","env","timeout_seconds"]

def TaskStart.fields (start : TaskStart) : List (String × Json) :=
  skipIf start.control.isNone "control" (nullable ControlScope.toJson start.control) ++
    [("task_id",.str start.taskId),("source",.str start.source),("argv",.array (start.argv.map .str)),
      ("script",.str start.script),("env",.object (start.env.map fun entry => (entry.1,.str entry.2))),
      ("timeout_seconds",nullable .nat start.timeoutSeconds)]

def TaskStart.ofJson (value : Json) : Option TaskStart := do
  guard (value.closed names)
  let control ← defaulted (optional ControlScope.ofJson) none (value.part names "control")
  let taskId ← required asStr (value.part names "task_id")
  let source ← defaulted asStr "src" (value.part names "source")
  let argv ← defaulted (list asStr) [] (value.part names "argv")
  let script ← defaulted asStr "" (value.part names "script")
  let env ← defaulted asEnv [] (value.part names "env")
  let timeoutSeconds ← defaulted (optional asU32) none (value.part names "timeout_seconds")
  some ⟨control,taskId,source,argv,script,env,timeoutSeconds⟩

/-! ### Enumerations -/

/-- An internally tagged enumeration: the tag, and what is left without it. -/
def untag (tag : String) : Json → Option (String × Json)
  | .obj fields => (Json.get (.obj fields) tag).bind asStr |>.map fun name =>
    (name,.object (fields.toList.filter fun field => field.1 ≠ tag))
  | .arr (.cons (.str name) rest) => some (name,.arr rest)
  | _ => none

/-- An adjacently tagged enumeration: the tag, and the contents if there are any. -/
def envelope : Json → Option (String × Option Json)
  | .obj fields =>
    if Json.closed ["kind","request"] (.obj fields) then
      (Json.get (.obj fields) "kind").bind asStr |>.map fun name => (name,Json.get (.obj fields) "request")
    else none
  | .arr (.cons (.str name) (.cons request .nil)) => some (name,some request)
  | _ => none

def LogStream.name : LogStream → String
  | .stdout => "stdout"
  | .stderr => "stderr"

/-- A name, or an object with that name and no contents. -/
def LogStream.ofJson : Json → Option LogStream
  | .str "stdout" | .obj (.cons "stdout" .null .nil) => some .stdout
  | .str "stderr" | .obj (.cons "stderr" .null .nil) => some .stderr
  | _ => none

def TaskRequest.toJson : TaskRequest → Json
  | .start task => .object (("action",.str "start") :: TaskStart.fields task)
  | .status taskId => .object [("action",.str "status"),("task_id",.str taskId)]
  | .stop taskId => .object [("action",.str "stop"),("task_id",.str taskId)]
  | .list after => .object [("action",.str "list"),("after",nullable .str after)]
  | .logs taskId stream => .object [("action",.str "logs"),("task_id",.str taskId),("stream",.str stream.name)]

/-- A struct with one field. -/
def single (name : String) (value : Json) : Option String := do
  guard (value.closed [name])
  required asStr (value.part [name] name)

def TaskRequest.ofJson (value : Json) : Option TaskRequest :=
  (untag "action" value).bind fun (action,rest) =>
    if action = "start" then (TaskStart.ofJson rest).map .start
    else if action = "status" then (single "task_id" rest).map .status
    else if action = "stop" then (single "task_id" rest).map .stop
    else if action = "list" then do
      guard (rest.closed ["after"])
      let after ← defaulted (optional asStr) none (rest.part ["after"] "after")
      some (.list after)
    else if action = "logs" then do
      guard (rest.closed ["task_id","stream"])
      let taskId ← required asStr (rest.part ["task_id","stream"] "task_id")
      let stream ← defaulted LogStream.ofJson .stdout (rest.part ["task_id","stream"] "stream")
      some (.logs taskId stream)
    else none

def FileRequest.toJson : FileRequest → Json
  | .write path content => .object [("action",.str "write"),("path",.str path),("content",.str content)]
  | .read path offset => .object [("action",.str "read"),("path",.str path),("offset",.nat offset)]
  | .list path after => .object [("action",.str "list"),("path",.str path),("after",nullable .str after)]
  | .remove path => .object [("action",.str "remove"),("path",.str path)]

def FileRequest.ofJson (value : Json) : Option FileRequest :=
  (untag "action" value).bind fun (action,rest) =>
    if action = "write" then do
      guard (rest.closed ["path","content"])
      let path ← required asStr (rest.part ["path","content"] "path")
      let content ← required asStr (rest.part ["path","content"] "content")
      some (.write path content)
    else if action = "read" then do
      guard (rest.closed ["path","offset"])
      let path ← required asStr (rest.part ["path","offset"] "path")
      let offset ← defaulted asU64 0 (rest.part ["path","offset"] "offset")
      some (.read path offset)
    else if action = "list" then do
      guard (rest.closed ["path","after"])
      let path ← defaulted asStr "" (rest.part ["path","after"] "path")
      let after ← defaulted (optional asStr) none (rest.part ["path","after"] "after")
      some (.list path after)
    else if action = "remove" then (single "path" rest).map .remove
    else none

def uploadNames : List String := ["upload_id","path","bytes","sha256","executable"]

def uploadToJson (request : UploadRequest) : Json :=
  .object [("upload_id",.str request.uploadId),("path",.str request.path),("bytes",.nat request.bytes),
    ("sha256",.str request.sha256),("executable",.bool request.executable)]

def uploadOfJson (value : Json) : Option UploadRequest := do
  guard (value.closed uploadNames)
  let uploadId ← required asStr (value.part uploadNames "upload_id")
  let path ← required asStr (value.part uploadNames "path")
  let bytes ← required asU64 (value.part uploadNames "bytes")
  let sha256 ← required asStr (value.part uploadNames "sha256")
  let executable ← required asBool (value.part uploadNames "executable")
  some ⟨uploadId,path,bytes,sha256,executable⟩

def CaptureSelection.names : List String := ["task_id","output_paths","include_logs"]

def CaptureSelection.toJson (selection : CaptureSelection) : Json :=
  .object [("task_id",.str selection.taskId),("output_paths",.array (selection.outputPaths.map .str)),
    ("include_logs",.bool selection.includeLogs)]

def CaptureSelection.ofJson (value : Json) : Option CaptureSelection := do
  guard (value.closed names)
  let taskId ← required asStr (value.part names "task_id")
  let outputPaths ← defaulted (list asStr) [] (value.part names "output_paths")
  let includeLogs ← defaulted asBool false (value.part names "include_logs")
  some ⟨taskId,outputPaths,includeLogs⟩

def CaptureRequest.names : List String := ["capture_id","request_digest","selection"]

def CaptureRequest.toJson (request : CaptureRequest) : Json :=
  .object [("capture_id",.str request.captureId),("request_digest",.str request.requestDigest),
    ("selection",request.selection.toJson)]

def CaptureRequest.ofJson (value : Json) : Option CaptureRequest := do
  guard (value.closed names)
  let captureId ← required asStr (value.part names "capture_id")
  let requestDigest ← required asStr (value.part names "request_digest")
  let selection ← required CaptureSelection.ofJson (value.part names "selection")
  some ⟨captureId,requestDigest,selection⟩

/-- The contents beside their tag. -/
def tagged (kind : String) (request : Json) : Json := .object [("kind",.str kind),("request",request)]

def WorkspaceRequest.toJson : WorkspaceRequest → Json
  | .task request => tagged "task" request.toJson
  | .file request => tagged "file" request.toJson
  | .upload request => tagged "upload" (uploadToJson request)
  | .ping => .object [("kind",.str "ping")]
  | .capture request => tagged "capture" request.toJson
  | .releaseCapture captureId => tagged "release_capture" (.object [("capture_id",.str captureId)])

/-- A struct variant is read from an object only. -/
def isObject : Json → Bool
  | .obj _ => true
  | _ => false

def WorkspaceRequest.ofJson (value : Json) : Option WorkspaceRequest :=
  (envelope value).bind fun (kind,request) =>
    if kind = "task" then (required TaskRequest.ofJson request).map .task
    else if kind = "file" then (required FileRequest.ofJson request).map .file
    else if kind = "upload" then (required uploadOfJson request).map .upload
    else if kind = "ping" then (if request = none ∨ request = some .null then some .ping else none)
    else if kind = "capture" then (required CaptureRequest.ofJson request).map .capture
    else if kind = "release_capture" then
      ((request.filter isObject).bind (single "capture_id")).map .releaseCapture
    else none

/-! ### Validation -/

def validateDigest (digest : String) : Except String Unit :=
  ensure (byteLength digest = 71 ∧ "sha256:".toList <+: digest.toList ∧ (digest.toList.drop 7).all isHexDigit)
    "capture request digest must be SHA-256"

/-- The loop over the output paths; `unique` are those before. -/
def validateOutputs (taskId : String) (unique : List String) : List String → Except String Unit
  | [] => pure ()
  | path :: rest => do
    (validatePath path).mapError refusal
    (validatePath ("output/" ++ taskId ++ "/" ++ path)).mapError refusal
    ensure (¬ (path = "control" ∨ "control/".toList <+: path.toList ∨ path ∈ unique))
      "duplicate or reserved output path; control records are captured separately"
    validateOutputs taskId (path :: unique) rest

def CaptureSelection.validate (selection : CaptureSelection) : Except String Unit := do
  validateTaskId selection.taskId
  ensure (¬ selection.outputPaths.length > 64) "capture allows at most 64 selected output files"
  validateOutputs selection.taskId [] selection.outputPaths
  ensure (¬ byteLength selection.toJson.text > 8192) "capture selection exceeds 8192 bytes"

def CaptureRequest.validate (request : CaptureRequest) : Except String Unit := do
  validateTaskId request.captureId
  validateDigest request.requestDigest
  request.selection.validate

def WorkspaceRequest.validate : WorkspaceRequest → Except String Unit
  | .upload request => request.validate.mapError refusal
  | .capture request => request.validate
  | .releaseCapture captureId => validateTaskId captureId
  | .task (.start start) => start.validate
  | .task (.status taskId) | .task (.stop taskId) | .task (.logs taskId _) => validateTaskId taskId
  | .file (.write path content) => do
    (validatePath path).mapError refusal
    ensure (¬ byteLength content > maxFileWriteBytes) "file write exceeds 8192 bytes"
  | .file (.list path _) => if path = "" then pure () else (validatePath path).mapError refusal
  | .file (.read path _) | .file (.remove path) => (validatePath path).mapError refusal
  | .task (.list _) | .ping => pure ()
end Proofstorm.Workspace
