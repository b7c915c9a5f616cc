import Proofstorm.Base64
import Proofstorm.Workspace.Requests
import Mathlib.Data.Bool.AllAny

/-!
The text of a request on its way to a workspace. A request is written as it is; a
file write that is too long when it is escaped is written in Base64 instead. What is
read back is the request that was written, and a file write always fits
(`encode_decode`).
-/
namespace Proofstorm.Workspace
open Proofstorm.Core (Json Items Fields)
open Proofstorm.Core.Json
open Proofstorm.Bridge
open Proofstorm.Upload (UploadRequest validatePath byteLength isHexDigit)

def maxMessageBytes : Nat := 16 * 1024

def maxRequestArgumentBytes : Nat :=
  maxMessageBytes - byteLength workspaceRunner - byteLength "workspace" - byteLength "request"

/-- `EncodedRequest::FileWriteBase64`. -/
def fileWriteBase64 (path contentBase64 : String) : Json :=
  tagged "file_write_base64" (.object [("path",.str path),("content_base64",.str contentBase64)])

/-- `content.as_bytes()`. -/
def bytesOf (content : String) : List UInt8 := content.toByteArray.data.toList

/-- `String::from_utf8`. -/
def fromUtf8 (bytes : List UInt8) : Option String := String.fromUTF8? ⟨bytes.toArray⟩

/-- A write in Base64, with its contents encoded. -/
def compactWrite (path content : String) : Json := fileWriteBase64 path (String.ofList (Base64.encode (bytesOf content)))

/-- The document of a request: the plain one, but for a write that is too long so. -/
def document (request : WorkspaceRequest) : Json :=
  match request with
  | .file (.write path content) =>
    if byteLength request.toJson.text > maxRequestArgumentBytes then compactWrite path content else request.toJson
  | _ => request.toJson

def encode (request : WorkspaceRequest) : Except String String := do
  request.validate
  return (document request).text

/-- The path and the contents of a write in Base64. -/
def encodedOfJson (value : Json) : Option (String × String) :=
  (envelope value).bind fun (_,request) => (request.filter isObject).bind fun request => do
    guard (request.closed ["path","content_base64"])
    let path ← required asStr (request.part ["path","content_base64"] "path")
    let contentBase64 ← required asStr (request.part ["path","content_base64"] "content_base64")
    some (path,contentBase64)

/-- The branch of `decode` for a write in Base64. -/
def decodeBase64 (value : Json) : Except String WorkspaceRequest := do
  let (path,contentBase64) ← require (encodedOfJson value) "invalid encoded file write"
  ensure (¬ byteLength contentBase64 > (maxFileWriteBytes + 2) / 3 * 4) "file write exceeds 8192 bytes"
  let bytes ← require (Base64.decode contentBase64.toList) "invalid file write base64"
  let content ← require (fromUtf8 bytes) "file write must be UTF-8"
  return .file (.write path content)

/-- What `decode` reads before it validates. -/
def decodeRequest (value : Json) : Except String WorkspaceRequest :=
  if value.get "kind" = some (.str "file_write_base64") then decodeBase64 value
  else require (WorkspaceRequest.ofJson value) "invalid workspace request"

def decode (value : Json) : Except String WorkspaceRequest := do
  let request ← decodeRequest value
  request.validate
  return request

/-! ### Requests as the types of the source hold them -/

def ControlScope.Typed (scope : ControlScope) : Prop :=
  scope.maxFaultSeconds < 2 ^ 32 ∧ scope.maxCalls < 2 ^ 32 ∧ scope.maxTimeoutSeconds < 2 ^ 32

/-- Numbers of 32 bits, and an environment in the order of its map. -/
structure TaskStart.Typed (start : TaskStart) : Prop where
  control : ∀ scope, start.control = some scope → ControlScope.Typed scope
  env : start.env.Pairwise fun one other => one.1 < other.1
  timeout : ∀ seconds, start.timeoutSeconds = some seconds → seconds < 2 ^ 32

def WorkspaceRequest.Typed : WorkspaceRequest → Prop
  | .task (.start start) => TaskStart.Typed start
  | .file (.read _ offset) => offset < 2 ^ 64
  | .upload request => request.bytes < 2 ^ 64
  | _ => True

/-! ### Documents are read as what was written -/

theorem NetworkPair.ofJson_toJson (pair : NetworkPair) : NetworkPair.ofJson (NetworkPair.toJson pair) = some pair := by
  simp [ofJson,toJson,names,required,asStr]

theorem optional_nullable {α : Type} {read : Json → Option α} {write : α → Json} {value : Option α}
    (back : ∀ a, value = some a → read (write a) = some a) (full : ∀ a, write a ≠ .null) :
    optional read (nullable write value) = some value := by
  cases value with
  | none => rfl
  | some a =>
    rw [nullable,Json.optional,back a rfl,Option.map_some]
    exact full a

theorem optional_text (value : Option String) : optional asStr (nullable .str value) = some value :=
  optional_nullable (fun _ _ => rfl) fun _ => by simp

/-- A field that is left out where it has its default. -/
theorem defaulted_skip {α : Type} {read : Json → Option α} {default a : α} {skipped : Bool} {value : Json}
    (left : skipped = true → a = default) (back : read value = some a) :
    defaulted read default (if skipped then none else some value) = some a := by
  cases skipped with
  | true => exact congrArg some (left rfl).symm
  | false => exact back

/-- What an object has under a name, where its first field can be left out. -/
theorem part_skipIf (skipped : Bool) (name key : String) (value : Json) (rest : List (String × Json)) (names : List String) :
    (Json.object (skipIf skipped name value ++ rest)).part names key =
      if name = key then if skipped then (Json.object rest).part names key else some value
      else (Json.object rest).part names key := by
  rw [part_object,part_object]
  cases skipped with
  | true => simp [skipIf]
  | false => by_cases same : name = key <;> simp [skipIf,same]

theorem part_cons (name key : String) (value : Json) (rest : List (String × Json)) (names : List String) :
    (Json.object ((name,value) :: rest)).part names key = if name = key then some value else (Json.object rest).part names key := by
  rw [part_object,part_object]
  by_cases same : name = key <;> simp [same]

theorem part_nil (key : String) (names : List String) : (Json.object []).part names key = none := rfl

theorem all_skipIf (skipped : Bool) (name : String) (value : Json) (p : String × Json → Bool) (holds : p (name,value) = true) :
    (skipIf skipped name value).all p = true := by
  cases skipped <;> simp [skipIf,holds]

theorem ControlScope.ofJson_toJson {scope : ControlScope} (typed : ControlScope.Typed scope) :
    ControlScope.ofJson (ControlScope.toJson scope) = some scope := by
  obtain ⟨fault,calls,timeout⟩ := typed
  have closed : (ControlScope.toJson scope).closed names = true := by
    simp [toJson,names,all_skipIf]
  have components : defaulted (Json.list asStr) [] ((ControlScope.toJson scope).part names "components") =
      some scope.components := by
    simp only [toJson,List.append_assoc,part_skipIf,part_cons,part_nil,String.reduceEq,if_true,if_false]
    exact defaulted_skip List.isEmpty_iff.mp (list_texts _)
  have lifecycle : defaulted (Json.list asStr) [] ((ControlScope.toJson scope).part names "lifecycle") =
      some scope.lifecycle := by
    simp only [toJson,List.append_assoc,part_skipIf,part_cons,part_nil,String.reduceEq,if_true,if_false]
    exact defaulted_skip List.isEmpty_iff.mp (list_texts _)
  have network : defaulted (Json.list NetworkPair.ofJson) [] ((ControlScope.toJson scope).part names "network") =
      some scope.network := by
    simp only [toJson,List.append_assoc,part_skipIf,part_cons,part_nil,String.reduceEq,if_true,if_false]
    exact defaulted_skip List.isEmpty_iff.mp (by rw [list_array,mapM_some fun pair _ => NetworkPair.ofJson_toJson pair])
  have faults : defaulted asU32 60 ((ControlScope.toJson scope).part names "max_fault_seconds") = some scope.maxFaultSeconds := by
    simp only [toJson,List.append_assoc,part_skipIf,part_cons,part_nil,String.reduceEq,if_true,if_false]
    exact defaulted_skip of_decide_eq_true (asU32_nat fault)
  have limits : defaulted asU32 256 ((ControlScope.toJson scope).part names "max_calls") = some scope.maxCalls ∧
      defaulted asU32 30 ((ControlScope.toJson scope).part names "max_timeout_seconds") = some scope.maxTimeoutSeconds := by
    simp only [toJson,List.append_assoc,part_skipIf,part_cons,part_nil,String.reduceEq,if_true,if_false]
    exact ⟨asU32_nat calls,asU32_nat timeout⟩
  simp only [ofJson,closed,guard_true,components,lifecycle,network,faults,limits,Option.bind_eq_bind,Option.bind_some]
  rfl

theorem asEnv_object {env : List (String × String)} (sorted : env.Pairwise fun one other => one.1 < other.1) :
    asEnv (.object (env.map fun entry => (entry.1,.str entry.2))) = some env := by
  have ordered : env.Pairwise fun one other => one.1 ≤ other.1 := sorted.imp le_of_lt
  have read : (env.map fun entry => (entry.1,Json.str entry.2)).mapM
      (fun field : String × Json => field.2.asStr.map fun text => (field.1,text)) = some env := mapM_some fun _ _ => rfl
  rw [Json.object,asEnv,Core.Fields.toList_ofList,read,Option.map_some,ordered.insertionSort_eq]

theorem TaskStart.ofJson_fields {start : TaskStart} (typed : TaskStart.Typed start) :
    TaskStart.ofJson (.object (TaskStart.fields start)) = some start := by
  have closed : (Json.object (TaskStart.fields start)).closed names = true := by
    simp [fields,names,all_skipIf]
  have control : defaulted (Json.optional ControlScope.ofJson) none ((Json.object (TaskStart.fields start)).part names "control") =
      some start.control := by
    simp only [fields,part_skipIf,part_cons,part_nil,String.reduceEq,if_true,if_false]
    refine defaulted_skip Option.isNone_iff_eq_none.mp (optional_nullable (fun scope same => ?_) fun _ => object_full _)
    exact ControlScope.ofJson_toJson (typed.control scope same)
  have rest : (Json.object (TaskStart.fields start)).part names "task_id" = some (.str start.taskId) ∧
      (Json.object (TaskStart.fields start)).part names "source" = some (.str start.source) ∧
      (Json.object (TaskStart.fields start)).part names "argv" = some (.array (start.argv.map .str)) ∧
      (Json.object (TaskStart.fields start)).part names "script" = some (.str start.script) ∧
      (Json.object (TaskStart.fields start)).part names "env" = some (.object (start.env.map fun entry => (entry.1,.str entry.2))) ∧
      (Json.object (TaskStart.fields start)).part names "timeout_seconds" = some (nullable .nat start.timeoutSeconds) := by
    simp only [fields,part_skipIf,part_cons,part_nil,String.reduceEq,if_true,if_false,and_self]
  obtain ⟨taskId,source,argv,script,env,timeout⟩ := rest
  have seconds : Json.optional asU32 (nullable .nat start.timeoutSeconds) = some start.timeoutSeconds :=
    optional_nullable (fun _ same => asU32_nat (typed.timeout _ same)) fun _ => by simp [Json.nat]
  simp only [ofJson,closed,guard_true,control,taskId,source,argv,script,env,timeout,Option.bind_eq_bind,Option.bind_some,
    required_some,defaulted_some,asStr_str,list_texts,asEnv_object typed.env,seconds]
  rfl

/-- The tag and the rest of an object are taken apart. -/
theorem untag_object (tag name : String) {rest : List (String × Json)} (new : ∀ field ∈ rest, field.1 ≠ tag) :
    untag tag (.object ((tag,.str name) :: rest)) = some (name,.object rest) := by
  have kept : rest.filter (fun field => field.1 ≠ tag) = rest := List.filter_eq_self.mpr fun field member => by
    simpa using new field member
  have dropped : ((tag,Json.str name) :: rest).filter (fun field => field.1 ≠ tag) = rest := by
    rw [List.filter_cons_of_neg (by simp),kept]
  rw [Json.object,untag,Core.Fields.toList_ofList,dropped,Json.get,Core.Fields.toList_ofList,
    List.find?_cons_of_pos (by simp)]
  rfl

theorem TaskStart.fields_new (start : TaskStart) : ∀ field ∈ TaskStart.fields start, field.1 ≠ "action" := by
  intro field member
  simp only [fields,List.mem_append,List.mem_cons,List.not_mem_nil,or_false] at member
  rcases member with control | rfl | rfl | rfl | rfl | rfl | rfl
  · unfold skipIf at control
    split_ifs at control with skipped
    · cases control
    · cases List.mem_singleton.mp control
      simp
  all_goals simp

theorem single_object (name text : String) : single name (.object [(name,.str text)]) = some text := by
  simp [single]

theorem LogStream.ofJson_name (stream : LogStream) : LogStream.ofJson (.str stream.name) = some stream := by
  cases stream <;> rfl

theorem TaskRequest.ofJson_toJson {request : TaskRequest} (typed : (WorkspaceRequest.task request).Typed) :
    TaskRequest.ofJson request.toJson = some request := by
  cases request with
  | start task =>
    rw [toJson,ofJson,untag_object _ _ (TaskStart.fields_new task),Option.bind_some]
    simp [TaskStart.ofJson_fields typed]
  | status taskId =>
    rw [toJson,ofJson,untag_object _ _ (by simp),Option.bind_some]
    simp [single_object]
  | stop taskId =>
    rw [toJson,ofJson,untag_object _ _ (by simp),Option.bind_some]
    simp [single_object]
  | list after =>
    rw [toJson,ofJson,untag_object _ _ (by simp),Option.bind_some]
    simp [optional_text]
  | logs taskId stream =>
    rw [toJson,ofJson,untag_object _ _ (by simp),Option.bind_some]
    simp [LogStream.ofJson_name]

theorem FileRequest.ofJson_toJson {request : FileRequest} (typed : (WorkspaceRequest.file request).Typed) :
    FileRequest.ofJson request.toJson = some request := by
  cases request with
  | write path content =>
    rw [toJson,ofJson,untag_object _ _ (by simp),Option.bind_some]
    simp
  | read path offset =>
    rw [toJson,ofJson,untag_object _ _ (by simp),Option.bind_some]
    simp [asU64_nat typed]
  | list path after =>
    rw [toJson,ofJson,untag_object _ _ (by simp),Option.bind_some]
    simp [optional_text]
  | remove path =>
    rw [toJson,ofJson,untag_object _ _ (by simp),Option.bind_some]
    simp [single_object]

theorem uploadOfJson_toJson {request : UploadRequest} (typed : (WorkspaceRequest.upload request).Typed) :
    uploadOfJson (uploadToJson request) = some request := by
  simp [uploadOfJson,uploadToJson,uploadNames,asU64_nat typed]

theorem CaptureSelection.ofJson_toJson (selection : CaptureSelection) :
    CaptureSelection.ofJson selection.toJson = some selection := by
  have paths := list_texts selection.outputPaths
  simp [ofJson,toJson,names,-list_array,paths]

theorem CaptureRequest.ofJson_toJson (request : CaptureRequest) : CaptureRequest.ofJson request.toJson = some request := by
  simp [ofJson,toJson,names,CaptureSelection.ofJson_toJson]

theorem envelope_tagged (kind : String) (request : Json) : envelope (tagged kind request) = some (kind,some request) := by
  simp [envelope,tagged,Json.object,Core.Fields.ofList,Json.closed,Core.Fields.toList,Json.get]

variable {request : WorkspaceRequest}

theorem WorkspaceRequest.ofJson_toJson (typed : request.Typed) :
    WorkspaceRequest.ofJson request.toJson = some request := by
  cases request with
  | task task =>
    rw [toJson,ofJson,envelope_tagged,Option.bind_some]
    simp [TaskRequest.ofJson_toJson typed]
  | file file =>
    rw [toJson,ofJson,envelope_tagged,Option.bind_some]
    simp [FileRequest.ofJson_toJson typed]
  | upload upload =>
    rw [toJson,ofJson,envelope_tagged,Option.bind_some]
    simp [uploadOfJson_toJson typed]
  | ping => rfl
  | capture capture =>
    rw [toJson,ofJson,envelope_tagged,Option.bind_some]
    simp [CaptureRequest.ofJson_toJson]
  | releaseCapture captureId =>
    rw [toJson,ofJson,envelope_tagged,Option.bind_some]
    have named : ((some (Json.object [("capture_id",.str captureId)])).filter isObject).bind (single "capture_id") =
        some captureId := single_object "capture_id" captureId
    simp [named]

/-! ### Documents are proper -/

theorem skipIf_names (skipped : Bool) (name : String) (value : Json) :
    (skipIf skipped name value).map Prod.fst = if skipped then [] else [name] := by
  cases skipped <;> rfl

theorem skipIf_proper {skipped : Bool} {name : String} {value : Json} (proper : value.Proper) :
    ∀ field ∈ skipIf skipped name value, field.2.Proper := by
  cases skipped with
  | true => exact List.forall_mem_nil _
  | false => exact List.forall_mem_singleton.mpr proper

theorem NetworkPair.toJson_proper (pair : NetworkPair) : (NetworkPair.toJson pair).Proper :=
  object_proper (by simp) (by simp [Json.Proper])

theorem ControlScope.toJson_proper (scope : ControlScope) : (ControlScope.toJson scope).Proper := by
  refine object_proper ?_ ?_
  · simp only [List.map_append,skipIf_names,List.map_cons,List.map_nil]
    split_ifs <;> decide
  · simp only [List.forall_mem_append,List.forall_mem_cons]
    have pairs : (Json.array (scope.network.map NetworkPair.toJson)).Proper := array_proper fun item member => by
      obtain ⟨pair,_,rfl⟩ := List.mem_map.mp member
      exact NetworkPair.toJson_proper pair
    exact ⟨⟨⟨⟨skipIf_proper (texts_proper _),skipIf_proper (texts_proper _)⟩,skipIf_proper pairs⟩,skipIf_proper (nat_proper _)⟩,
      nat_proper _,nat_proper _,List.forall_mem_nil _⟩

theorem nullable_proper {α : Type} {write : α → Json} (each : ∀ a, (write a).Proper) (value : Option α) :
    (nullable write value).Proper := by
  cases value with
  | none => trivial
  | some a => exact each a

theorem TaskStart.fields_proper {start : TaskStart} (typed : TaskStart.Typed start) :
    ∀ field ∈ TaskStart.fields start, field.2.Proper := by
  have names : ((start.env.map fun entry => (entry.1,Json.str entry.2)).map Prod.fst).Nodup := by
    rw [List.map_map]
    exact List.pairwise_map.mpr (typed.env.imp ne_of_lt)
  have env : (Json.object (start.env.map fun entry => (entry.1,.str entry.2))).Proper := object_proper names fun field member => by
    obtain ⟨entry,_,rfl⟩ := List.mem_map.mp member
    trivial
  simp only [fields,List.forall_mem_append,List.forall_mem_cons]
  exact ⟨skipIf_proper (nullable_proper ControlScope.toJson_proper _),trivial,trivial,texts_proper _,trivial,env,
    nullable_proper nat_proper _,List.forall_mem_nil _⟩

theorem TaskRequest.toJson_proper {request : TaskRequest} (typed : (WorkspaceRequest.task request).Typed) :
    request.toJson.Proper := by
  have text : ∀ value : String, (Json.str value).Proper := fun _ => trivial
  cases request with
  | start task =>
    refine object_proper ?_ (List.forall_mem_cons.mpr ⟨trivial,TaskStart.fields_proper typed⟩)
    simp only [TaskStart.fields,List.map_cons,List.map_append,skipIf_names,List.map_nil]
    split_ifs <;> decide
  | status taskId => exact object_proper (by simp) (by simp [Json.Proper])
  | stop taskId => exact object_proper (by simp) (by simp [Json.Proper])
  | list after => exact object_proper (by simp) (by simp [text,nullable_proper text])
  | logs taskId stream => exact object_proper (by simp) (by simp [Json.Proper])

theorem FileRequest.toJson_proper (request : FileRequest) : request.toJson.Proper := by
  have text : ∀ value : String, (Json.str value).Proper := fun _ => trivial
  cases request with
  | write path content => exact object_proper (by simp) (by simp [Json.Proper])
  | read path offset => exact object_proper (by simp) (by simp [text,nat_proper])
  | list path after => exact object_proper (by simp) (by simp [text,nullable_proper text])
  | remove path => exact object_proper (by simp) (by simp [Json.Proper])

theorem CaptureRequest.toJson_proper (request : CaptureRequest) : request.toJson.Proper := by
  have text : ∀ value : String, (Json.str value).Proper := fun _ => trivial
  have selection : request.selection.toJson.Proper := by
    refine object_proper (by simp) ?_
    simp only [List.forall_mem_cons]
    exact ⟨trivial,texts_proper _,trivial,List.forall_mem_nil _⟩
  exact object_proper (by simp) (by simp [text,selection])

theorem tagged_proper {kind : String} {request : Json} (proper : request.Proper) : (tagged kind request).Proper := by
  refine object_proper (by simp) ?_
  simp only [List.forall_mem_cons]
  exact ⟨trivial,proper,List.forall_mem_nil _⟩

theorem WorkspaceRequest.toJson_proper (typed : request.Typed) : request.toJson.Proper := by
  have text : ∀ value : String, (Json.str value).Proper := fun _ => trivial
  cases request with
  | task task => exact tagged_proper (TaskRequest.toJson_proper typed)
  | file file => exact tagged_proper file.toJson_proper
  | upload upload =>
    refine tagged_proper (object_proper (by simp) ?_)
    simp only [List.forall_mem_cons]
    exact ⟨trivial,trivial,nat_proper _,trivial,trivial,List.forall_mem_nil _⟩
  | ping => exact object_proper (by simp) (by simp [Json.Proper])
  | capture capture => exact tagged_proper capture.toJson_proper
  | releaseCapture captureId => exact tagged_proper (object_proper (by simp) (by simp [Json.Proper]))

/-! ### The length of a file write -/

/-- The bytes of characters. -/
def sizeOf (text : List Char) : Nat := (text.map Char.utf8Size).sum

theorem sizeOf_append (one other : List Char) : sizeOf (one ++ other) = sizeOf one + sizeOf other := by
  simp [sizeOf]

theorem length_text (value : Json) : byteLength value.text = sizeOf value.write := by
  rw [Upload.byteLength,Json.text,String.toList_ofList,sizeOf]

theorem utf8Size_digitChar : ∀ n < 16, (Nat.digitChar n).utf8Size = 1 := by decide

theorem sizeOf_pair : ∀ d ∈ ['"','\\','n','r','t','b','f'], sizeOf ['\\',d] = 2 :=
  List.all_iff_forall_prop.mp (by decide)

/-- A character takes at most six times its bytes when it is escaped. -/
theorem sizeOf_escape (c : Char) : sizeOf (Core.escape c) ≤ 6 * c.utf8Size := by
  have one := c.utf8Size_pos
  have pair : ∀ d ∈ ['"','\\','n','r','t','b','f'], sizeOf ['\\',d] ≤ 6 * c.utf8Size := fun d member => by
    rw [sizeOf_pair d member]
    omega
  unfold Core.escape
  split_ifs
  · exact pair _ (by decide)
  · exact pair _ (by decide)
  · exact pair _ (by decide)
  · exact pair _ (by decide)
  · exact pair _ (by decide)
  · exact pair _ (by decide)
  · exact pair _ (by decide)
  · have high := utf8Size_digitChar (c.toNat / 16) (by omega)
    have unit := utf8Size_digitChar (c.toNat % 16) (by omega)
    have rest : '\\'.utf8Size = 1 ∧ 'u'.utf8Size = 1 ∧ '0'.utf8Size = 1 := by decide
    simp only [sizeOf,List.map_cons,List.map_nil,List.sum_cons,List.sum_nil,high,unit,rest]
    omega
  · simp only [sizeOf,List.map_cons,List.map_nil,List.sum_cons,List.sum_nil]
    omega

theorem sizeOf_escaped (text : List Char) : sizeOf (text.flatMap Core.escape) ≤ 6 * sizeOf text := by
  induction text with
  | nil => exact Nat.le_refl _
  | cons c rest ih =>
    have first := sizeOf_escape c
    rw [List.flatMap_cons,sizeOf_append]
    simp only [sizeOf,List.map_cons,List.sum_cons] at ih ⊢
    simp only [sizeOf] at first
    omega

theorem base64_plain : ∀ c ∈ '=' :: Base64.alphabet, Core.escape c = [c] ∧ c.utf8Size = 1 :=
  List.all_iff_forall_prop.mp (by decide +kernel)

/-- Base64 is not escaped. -/
theorem sizeOf_base64 {text : List Char} (plain : ∀ c ∈ text, c ∈ '=' :: Base64.alphabet) :
    sizeOf (text.flatMap Core.escape) = text.length := by
  induction text with
  | nil => rfl
  | cons c rest ih =>
    obtain ⟨first,others⟩ := List.forall_mem_cons.mp plain
    obtain ⟨same,size⟩ := base64_plain c first
    rw [List.flatMap_cons,same,sizeOf_append,ih others,sizeOf,List.map_singleton,List.sum_singleton,size,List.length_cons,
      Nat.add_comm]

theorem sizeOf_cons (c : Char) (text : List Char) : sizeOf (c :: text) = c.utf8Size + sizeOf text := rfl

theorem sizeOf_nil : sizeOf [] = 0 := rfl

theorem sizeOf_writeStr (text : String) : sizeOf (Core.writeStr text) = sizeOf (text.toList.flatMap Core.escape) + 2 := by
  have quote : '"'.utf8Size = 1 := rfl
  rw [Core.writeStr,List.cons_append,sizeOf_cons,sizeOf_append,sizeOf_cons,sizeOf_nil,quote]
  omega

/-- The tags and names of a write in Base64 take 70 bytes. -/
theorem sizeOf_fileWriteBase64 (path contentBase64 : String) : sizeOf (fileWriteBase64 path contentBase64).write =
    70 + sizeOf (path.toList.flatMap Core.escape) + sizeOf (contentBase64.toList.flatMap Core.escape) := by
  have names : sizeOf (Core.writeStr "kind") = 6 ∧ sizeOf (Core.writeStr "request") = 9 ∧ sizeOf (Core.writeStr "path") = 6 ∧
      sizeOf (Core.writeStr "content_base64") = 16 ∧ sizeOf (Core.writeStr "file_write_base64") = 19 := by decide +kernel
  have marks : '\x7b'.utf8Size = 1 ∧ '\x7d'.utf8Size = 1 ∧ ':'.utf8Size = 1 ∧ ','.utf8Size = 1 := by decide
  simp only [fileWriteBase64,tagged,Json.object,Core.Fields.ofList,Json.write,Core.Fields.write,List.cons_append,sizeOf_cons,
    sizeOf_append,sizeOf_nil,sizeOf_writeStr path,sizeOf_writeStr contentBase64,names,marks]
  omega

theorem length_bytesOf (content : String) : (bytesOf content).length = byteLength content := by
  have bytes : content.toByteArray = content.toList.utf8Encode := by
    rw [← String.toByteArray_ofList,String.ofList_toList]
  rw [bytesOf,bytes,List.utf8Encode,Upload.byteLength]
  simp [List.length_flatMap]

theorem fromUtf8_bytesOf (content : String) : fromUtf8 (bytesOf content) = some content := by
  show String.fromUTF8? content.toByteArray = some content
  rw [String.fromUTF8?,dif_pos content.isValidUTF8]
  rfl

theorem compactWrite_fits {path content : String} (short : byteLength path ≤ 512) (small : byteLength content ≤ maxFileWriteBytes) :
    byteLength (compactWrite path content).text ≤ maxRequestArgumentBytes := by
  have escaped : sizeOf (path.toList.flatMap Core.escape) ≤ 6 * byteLength path := sizeOf_escaped path.toList
  have base64 := sizeOf_base64 (Base64.encode_chars (bytesOf content))
  rw [Base64.length_encode,length_bytesOf] at base64
  have budget : maxRequestArgumentBytes = 16343 := by decide
  rw [length_text,compactWrite,sizeOf_fileWriteBase64,String.toList_ofList,base64]
  rw [maxFileWriteBytes] at small
  omega

theorem byteLength_base64 {text : List Char} (plain : ∀ c ∈ text, c ∈ '=' :: Base64.alphabet) :
    byteLength (String.ofList text) = text.length := by
  rw [Upload.byteLength,String.toList_ofList]
  induction text with
  | nil => rfl
  | cons c rest ih =>
    obtain ⟨first,others⟩ := List.forall_mem_cons.mp plain
    rw [List.map_cons,List.sum_cons,ih others,(base64_plain c first).2,List.length_cons,Nat.add_comm]

/-! ### There and back -/

theorem encodedOfJson_fileWriteBase64 (path contentBase64 : String) :
    encodedOfJson (fileWriteBase64 path contentBase64) = some (path,contentBase64) := by
  rw [encodedOfJson,fileWriteBase64,envelope_tagged,Option.bind_some]
  dsimp only
  rw [Option.filter_some,if_pos (by rfl),Option.bind_some]
  simp

theorem write_ok {path content : String} (valid : (WorkspaceRequest.file (.write path content)).validate = .ok ()) :
    byteLength path ≤ 512 ∧ byteLength content ≤ maxFileWriteBytes := by
  simp only [WorkspaceRequest.validate,bind_ok,mapError_ok,ensure_ok] at valid
  obtain ⟨_,named,small⟩ := valid
  simp only [validatePath,ensure_ok,not_or] at named
  exact ⟨Nat.not_lt.mp named.2.1,Nat.not_lt.mp small⟩

theorem document_eq (request : WorkspaceRequest) : document request = request.toJson ∨
    ∃ path content, request = .file (.write path content) ∧ document request = compactWrite path content ∧
      maxRequestArgumentBytes < byteLength request.toJson.text := by
  unfold document
  split
  · split_ifs with long
    · exact .inr ⟨_,_,rfl,rfl,long⟩
    · exact .inl rfl
  · exact .inl rfl

theorem decode_ok {value : Json} (decoded : decode value = .ok request) :
    request.validate = .ok () := by
  simp only [decode,bind_ok,pure_ok] at decoded
  obtain ⟨_,_,_,valid,rfl⟩ := decoded
  exact valid

theorem kind_toJson (request : WorkspaceRequest) : request.toJson.get "kind" ≠ some (.str "file_write_base64") := by
  cases request <;> simp [WorkspaceRequest.toJson,tagged,Json.object,Json.get,Core.Fields.ofList,Core.Fields.toList]

theorem decode_of {value : Json} (read : decodeRequest value = .ok request)
    (valid : request.validate = .ok ()) : decode value = .ok request := by
  rw [decode,read,ok_bind,valid]
  rfl

theorem decodeRequest_toJson (typed : request.Typed) :
    decodeRequest request.toJson = .ok request := by
  rw [decodeRequest,if_neg (kind_toJson request),WorkspaceRequest.ofJson_toJson typed,require_some]

theorem decodeRequest_compactWrite {path content : String} (small : byteLength content ≤ maxFileWriteBytes) :
    decodeRequest (compactWrite path content) = .ok (.file (.write path content)) := by
  have fits : ¬ byteLength (String.ofList (Base64.encode (bytesOf content))) > (maxFileWriteBytes + 2) / 3 * 4 := by
    rw [byteLength_base64 (Base64.encode_chars _),Base64.length_encode,length_bytesOf]
    omega
  rw [decodeRequest,if_pos (by rfl),decodeBase64,compactWrite,encodedOfJson_fileWriteBase64,require_some,ok_bind]
  dsimp only
  rw [ensure_of fits,ok_bind,String.toList_ofList,Base64.decode_encode,require_some,ok_bind,fromUtf8_bytesOf,require_some]
  rfl

theorem document_proper (typed : request.Typed) : (document request).Proper := by
  rcases document_eq request with plain | ⟨path,content,_,compact,_⟩
  · rw [plain]
    exact WorkspaceRequest.toJson_proper typed
  · rw [compact]
    exact tagged_proper (object_proper (by simp) (by simp [Json.Proper]))

theorem decode_document (typed : request.Typed) (valid : request.validate = .ok ()) :
    decode (document request) = .ok request := by
  refine decode_of ?_ valid
  rcases document_eq request with plain | ⟨path,content,rfl,compact,_⟩
  · rw [plain,decodeRequest_toJson typed]
  · rw [compact,decodeRequest_compactWrite (write_ok valid).2]

theorem encode_eq (valid : request.validate = .ok ()) :
    encode request = .ok (document request).text := by
  rw [encode,valid,ok_bind]
  rfl

/-- A request comes through its text: what is decoded is what was encoded. A file write
    fits the budget, as plain JSON where that does, and nothing is decoded that is not valid. -/
theorem encode_decode :
    (∀ request : WorkspaceRequest, request.Typed → request.validate = .ok () →
      ∃ text value, encode request = .ok text ∧ Json.ofText text = some value ∧ decode value = .ok request) ∧
    (∀ path content, (WorkspaceRequest.file (.write path content)).validate = .ok () →
      ∃ text, encode (.file (.write path content)) = .ok text ∧ byteLength text ≤ maxRequestArgumentBytes ∧
        (byteLength (WorkspaceRequest.file (.write path content)).toJson.text ≤ maxRequestArgumentBytes →
          text = (WorkspaceRequest.file (.write path content)).toJson.text)) ∧
    ∀ value request, decode value = .ok request → request.validate = .ok () := by
  refine ⟨fun request typed valid => ?_,fun path content valid => ?_,fun _ _ => decode_ok⟩
  · exact ⟨_,_,encode_eq valid,ofText_text (document_proper typed),decode_document typed valid⟩
  · obtain ⟨short,small⟩ := write_ok valid
    refine ⟨_,encode_eq valid,?_⟩
    rw [document]
    split_ifs with long
    · exact ⟨compactWrite_fits short small,fun fits => absurd fits (Nat.not_le.mpr long)⟩
    · exact ⟨Nat.not_lt.mp long,fun _ => rfl⟩

theorem encode_decode_newline : ∃ text value, encode (.file (.write "src/run.sh" "exit 0\n")) = .ok text ∧
    Json.ofText text = some value ∧ decode value = .ok (.file (.write "src/run.sh" "exit 0\n")) ∧
    byteLength text ≤ maxRequestArgumentBytes := by
  have valid : (WorkspaceRequest.file (.write "src/run.sh" "exit 0\n")).validate = .ok () := by decide +kernel
  obtain ⟨text,value,written,read,back⟩ := encode_decode.1 (.file (.write "src/run.sh" "exit 0\n")) trivial valid
  obtain ⟨same,again,fits,_⟩ := encode_decode.2.1 _ _ valid
  cases written.symm.trans again
  exact ⟨_,_,written,read,back,fits⟩
end Proofstorm.Workspace
