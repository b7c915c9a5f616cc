import Proofstorm.Upload.Files

/-!
The calls on uploads: `stage`, `commit` and `finish`, each under the lock of the
workspace. What a call finds out of the clock and of the order of a directory are
its arguments: which transfers are older than an hour, and whether the manifest
of a directory is removed before its payload.
-/
namespace Proofstorm.Upload
open Proofstorm.Interleaving (Call Fallible query submit settle attempt)

abbrev Program := Fallible Workspace Operation Failure Operation.Answer

abbrev exec (operation : Operation) : Program Unit := submit operation

/-- What a call finds of the clock and of the order of directories. -/
structure Surroundings where
  abandoned : List String
  manifestFirst : List String
  deriving DecidableEq

/-- `fs::remove_dir_all` of a staging directory. -/
def removeDirAll (around : Surroundings) (uploadId : String) : Program Unit := do
  let _ ← query fun w => require (w.uploads.find uploadId) .notFound
  exec (.removePart uploadId (if uploadId ∈ around.manifestFirst then .manifest else .payload))
  exec (.removePart uploadId (if uploadId ∈ around.manifestFirst then .payload else .manifest))
  exec (.removeStaging uploadId)

/-- `finished`. -/
def finished (request : UploadRequest) (w : Workspace) : Except Failure Bool :=
  match w.finished.find request.uploadId with
  | none => .ok false
  | some receipt => do
    ensure (receipt = request) identityConflict
    pure true

/-- The part of `finish_locked` that removes the staging. -/
def release (around : Surroundings) (request : UploadRequest) : Program UploadRequest := do
  match ← attempt (removeDirAll around request.uploadId) with
  | .ok _ | .error .notFound => pure request
  | .error error => throw error

/-- `finish_locked`. -/
def finishLocked (around : Surroundings) (request : UploadRequest) : Program UploadRequest := do
  exec .makeReceipts
  if (← query (finished request)) = false then
    exec (.writeReceipt request)
    exec .syncParent
  release around request

def finish (around : Surroundings) (request : UploadRequest) : Program UploadRequest := do
  settle request.validate
  exec .openLock
  finishLocked around request

/-- The directories of other uploads, with the bytes of their payloads, while
    those that are abandoned are removed. -/
def scan (around : Surroundings) (own : String) : List String → Nat → Nat → Program (Nat × Nat)
  | [], count, retained => pure (count,retained)
  | entry :: rest, count, retained => do
    if entry ∈ around.abandoned then
      removeDirAll around entry
      scan around own rest count retained
    else if entry ≠ own then
      let held ← query fun w => .ok (((payloadOf entry w).map List.length).getD 0)
      scan around own rest (count + 1) (retained + held)
    else scan around own rest count retained

/-- `stage`, after the transfer is known not to be finished. -/
def stageFresh (around : Surroundings) (request : UploadRequest) (content : Bytes) : Program UploadRequest := do
  exec .makeUploads
  let entries ← query fun w => .ok (w.uploads.rows.map Staged.uploadId)
  let (count,retained) ← scan around request.uploadId entries 0 0
  settle (ensure (¬ (count ≥ maxStagedUploads ∨ retained + request.bytes > maxStagedBytes)) stagingCapacityError)
  exec (.makeStaging request.uploadId)
  query fun w => ensure (∀ manifest ∈ manifestOf request.uploadId w, manifest = request) identityConflict
  exec (.writeManifest request)
  exec .syncParent
  exec (.writePayload request.uploadId content)
  exec .syncParent
  pure request

/-- `local_path`, with the parents that it creates: what is left of the path below `above`. -/
def localPath (above : List String) : List String → Program Unit
  | [] => pure ()
  | part :: rest => do
    let here := above ++ [part]
    match ← query fun w => .ok (nodeAt w here) with
    | some node =>
      settle (ensure (¬ (node = .symlink ∨ (rest ≠ [] ∧ node ≠ .directory)))
        (.refused "workspace path contains a symlink or non-directory parent"))
    | none => if rest ≠ [] then exec (.makeParent here)
    localPath here rest

section
variable [Hash]

def stage (around : Surroundings) (request : UploadRequest) (input : Bytes) : Program UploadRequest := do
  settle request.validate
  let content ← settle (boundedRead input request.bytes)
  settle (verify request content)
  exec .openLock
  if (← query (finished request)) = true then
    -- Consume and verify the transfer, but never reserve space again.
    finishLocked around request
  else stageFresh around request content

/-- The part of `commit` that replaces the target. -/
def replace (request : UploadRequest) : Program Unit := do
  let content ← query fun w => do
    let payload ← require (payloadOf request.uploadId w) .notFound
    boundedRead payload request.bytes
  settle (verify request content)
  settle (validatePath request.path)
  localPath [] (segments request.path)
  exec (.replaceTarget request content)
  exec .syncParent

/-- `commit`, after the transfer is known not to be finished. -/
def commitStaged (around : Surroundings) (request : UploadRequest) : Program Unit := do
  query fun w => do
    let manifest ← require (manifestOf request.uploadId w) .notFound
    ensure (manifest = request) identityConflict
  let result ← attempt (replace request)
  -- Failed commits also release staging.
  let _ ← attempt (finishLocked around request)
  settle result

def commit (around : Surroundings) (request : UploadRequest) : Program Unit := do
  settle request.validate
  exec .openLock
  if (← query (finished request)) = true then throw (.refused "workspace upload already finalized")
  else commitStaged around request

inductive Command
  | stage (around : Surroundings) (request : UploadRequest) (input : Bytes)
  | commit (around : Surroundings) (request : UploadRequest)
  | finish (around : Surroundings) (request : UploadRequest)
  deriving DecidableEq

inductive Receipt
  | upload (request : UploadRequest)
  | file (path : String) (bytes : Nat) (sha256 : String) (executable : Bool)
  deriving DecidableEq

def program : Command → Program Receipt
  | .stage around request input => do return .upload (← stage around request input)
  | .commit around request => do
    commit around request
    return .file request.path request.bytes request.sha256 request.executable
  | .finish around request => do return .upload (← finish around request)

def code (command : Command) : Call Workspace Operation Failure Operation.Answer (Except Failure Receipt) :=
  (program command).run
end

end Proofstorm.Upload
