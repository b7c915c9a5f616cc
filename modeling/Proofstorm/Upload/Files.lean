import Proofstorm.Outcome
import Proofstorm.Sequenced
import Proofstorm.Table

/-!
The files of a workspace that an upload touches, and the operations on them. An
upload is staged in a directory of its own under `.proofstorm/uploads`, and its
receipt is a file under `.proofstorm/upload-finished`; a file that holds JSON
holds the decoded request here. Files are written beside their place and renamed
into it, so they are there whole or not at all, and what a cut-off write leaves
beside them is never read.
-/
namespace Proofstorm.Upload

abbrev Bytes := List UInt8

/-- `Sha256::digest`, in lower-case hexadecimal. -/
class Hash where
  sha256 : Bytes → String

structure UploadRequest where
  uploadId : String
  path : String
  bytes : Nat
  sha256 : String
  executable : Bool
  deriving DecidableEq

inductive Failure
  | refused (message : String)
  | notFound
  | io
  deriving DecidableEq

def maxUploadBytes : Nat := 16 * 1024 * 1024
def maxStagedBytes : Nat := 2 * maxUploadBytes
def maxStagedUploads : Nat := 16

def stagingCapacityError : Failure :=
  .refused "workspace upload staging capacity exceeded; retry after pending uploads finish or expire"

def identityConflict : Failure := .refused "workspace upload identity conflict"

/-! ### Requests -/

/-- `path.split('/')`. -/
def segments (path : String) : List String := (path.toList.splitOn '/').map String.ofList

/-- `str::len`. -/
def byteLength (text : String) : Nat := (text.toList.map Char.utf8Size).sum

/-- `validate_path`. -/
def validatePath (path : String) : Except Failure Unit :=
  ensure (¬ (path = "" ∨ 512 < byteLength path ∨ Char.ofNat 0 ∈ path.toList ∨
      ∃ segment ∈ segments path, segment = "" ∨ segment = "." ∨ segment = ".." ∨ segment = ".proofstorm"))
    (.refused "path must be relative, without empty, '.', '..' or '.proofstorm' segments")

/-- `is_ascii_hexdigit`. -/
def isHexDigit (c : Char) : Bool := c.isDigit || ('a' ≤ c && c ≤ 'f') || ('A' ≤ c && c ≤ 'F')

/-- 64 bytes, all of them hexadecimal digits. -/
def isHexDigest (value : String) : Bool := value.toList.length = 64 && value.toList.all isHexDigit

def UploadRequest.validate (request : UploadRequest) : Except Failure Unit := do
  validatePath request.path
  ensure (request.bytes ≤ maxUploadBytes) (.refused "workspace upload exceeds 16 MiB")
  ensure (isHexDigest request.uploadId = true ∧ isHexDigest request.sha256 = true)
    (.refused "invalid workspace upload identity or checksum")

/-- `bounded_read` of all that there is to read. -/
def boundedRead (content : Bytes) (max : Nat) : Except Failure Bytes :=
  if content.length > max then .error (.refused "workspace data exceeds limit") else .ok content

def verify [Hash] (request : UploadRequest) (content : Bytes) : Except Failure Unit :=
  ensure (¬ (content.length ≠ request.bytes ∨ Hash.sha256 content ≠ request.sha256))
    (.refused "workspace upload size or checksum mismatch")

/-! ### Files -/

/-- A directory under `.proofstorm/uploads`. -/
structure Staged where
  uploadId : String
  manifest : Option UploadRequest
  payload : Option Bytes
  deriving DecidableEq

instance : Keyed Staged String := ⟨Staged.uploadId⟩
instance : Keyed UploadRequest String := ⟨UploadRequest.uploadId⟩

inductive Node
  | directory
  | file (content : Bytes) (executable : Bool)
  | symlink
  | special
  deriving DecidableEq

/-- The workspace. `replaced` is not a file: it records which uploads replaced
    their target, with what, newest first. -/
structure Workspace where
  uploads : Table Staged
  finished : Table UploadRequest
  nodes : List String → Option Node
  replaced : List (UploadRequest × Bytes)

def manifestOf (uploadId : String) (w : Workspace) : Option UploadRequest :=
  (w.uploads.find uploadId).bind Staged.manifest

def payloadOf (uploadId : String) (w : Workspace) : Option Bytes :=
  (w.uploads.find uploadId).bind Staged.payload

def Staged.size (row : Staged) : Nat := (row.payload.map List.length).getD 0

/-- The bytes of all staged payloads. -/
def stagedBytes (rows : List Staged) : Nat := (rows.map Staged.size).sum

/-! ### Operations -/

inductive Part
  | manifest | payload
  deriving DecidableEq

inductive Operation
  | openLock
  | makeReceipts
  | makeUploads
  /-- `sync_all` on the directory of a file that was renamed into place. -/
  | syncParent
  | writeReceipt (request : UploadRequest)
  | removePart (uploadId : String) (part : Part)
  | removeStaging (uploadId : String)
  | makeStaging (uploadId : String)
  | writeManifest (request : UploadRequest)
  | writePayload (uploadId : String) (content : Bytes)
  | makeParent (path : List String)
  | replaceTarget (request : UploadRequest) (content : Bytes)

@[reducible] def Operation.Answer (_ : Operation) : Type := Unit

def Staged.without (part : Part) (row : Staged) : Staged :=
  match part with
  | .manifest => { row with manifest := none }
  | .payload => { row with payload := none }

theorem Staged.without_uploadId (part : Part) (row : Staged) : (row.without part).uploadId = row.uploadId := by
  cases part <;> rfl

/-- What is at a path; the workspace itself is a directory. -/
def nodeAt (w : Workspace) (path : List String) : Option Node :=
  if path = [] then some .directory else w.nodes path

def Workspace.put (w : Workspace) (path : List String) (node : Node) : Workspace :=
  { w with nodes := fun other => if other = path then some node else w.nodes other }

def execute (operation : Operation) (w : Workspace) : Except Failure (operation.Answer × Workspace) :=
  match operation with
  | .openLock | .makeReceipts | .makeUploads | .syncParent => .ok ((),w)
  | .writeReceipt request => .ok ((),{ w with
      finished := (w.finished.delete fun old => old.uploadId = request.uploadId).insert request })
  | .removePart uploadId part => .ok ((),{ w with
      uploads := w.uploads.update (fun row => row.uploadId = uploadId) (Staged.without part)
        (Staged.without_uploadId part) })
  | .removeStaging uploadId => do
    let row ← require (w.uploads.find uploadId) .notFound
    ensure (row.manifest = none ∧ row.payload = none) .io
    pure ((),{ w with uploads := w.uploads.delete fun row => row.uploadId = uploadId })
  | .makeStaging uploadId => .ok ((),{ w with uploads := w.uploads.insert ⟨uploadId,none,none⟩ })
  | .writeManifest request => do
    ensure (w.uploads.has request.uploadId) .notFound
    pure ((),{ w with
      uploads := w.uploads.update (fun row => row.uploadId = request.uploadId)
        (fun row => { row with manifest := some request }) fun _ => rfl })
  | .writePayload uploadId content => do
    ensure (w.uploads.has uploadId) .notFound
    pure ((),{ w with
      uploads := w.uploads.update (fun row => row.uploadId = uploadId)
        (fun row => { row with payload := some content }) fun _ => rfl })
  | .makeParent path => do
    ensure (nodeAt w path.dropLast = some .directory) .notFound
    ensure (nodeAt w path = none) .io
    pure ((),w.put path .directory)
  | .replaceTarget request content => do
    ensure (nodeAt w (segments request.path).dropLast = some .directory) .notFound
    ensure (nodeAt w (segments request.path) ≠ some .directory) .io
    pure ((),{ w.put (segments request.path) (.file content request.executable) with
      replaced := (request,content) :: w.replaced })
end Proofstorm.Upload
