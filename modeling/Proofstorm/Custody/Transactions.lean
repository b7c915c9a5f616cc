import Proofstorm.Custody.Model

/-!
The statements of the vault: its transactions and the updates outside of one. Each
is atomic. A transaction works on the record that its call has read before, as it
was then or with the call's change, and `save` lets it through where the revision
of the row is still that of the record.
-/
namespace Proofstorm.Custody

/-- A transaction: its answer and the database after it. It has no effect where it fails. -/
abbrev Txn (α : Type) := Db → Except Error (α × Db)

/-! ### Reads -/

/-- `row`: the row of a handle. -/
def rowOf (id : String) (db : Db) : Except Error TransferRow := require (db.transfers.find id) .access

/-- `now`. -/
def now (db : Db) : Except Error Nat := require db.clock .storage

def usable (t : Transfer) (db : Db) : Except Error Unit := do
  let timestamp ← now db
  ensure (¬ (t.expiresAtUnix ≤ timestamp ∨ t.capture.retired = true)) .access

def admission (grant : Grant) (t : Transfer) (db : Db) : Except Error Unit := do
  ensure (db.closed = false) .access
  -- Recheck identity after acquiring the write lock: a handoff may have replaced
  -- the recipient since the caller's optimistic authorization read.
  let current ← rowOf t.id db
  ensure (¬ (grant ≠ current.source ∧ grant ≠ current.destination)) .access
  usable current.metadata db

/-- The operation is that of a stage of the transfer. -/
def Transfer.runs (t : Transfer) (operation : String) : Prop :=
  t.source.operationId = some operation ∨ t.receiver.operationId = some operation

instance (t : Transfer) (operation : String) : Decidable (t.runs operation) := by
  unfold Transfer.runs
  infer_instance

def claimOperation (operation : String) (db : Db) : Except Error Unit :=
  ensure ((db.transfers.rows.filter fun row => row.metadata.runs operation).length = 0) .conflict

/-- The metadata of a handle is replaced. -/
def setMetadata (t : Transfer) (db : Db) : Db :=
  { db with
    transfers := db.transfers.update (fun row => row.handle = t.id) (fun row => { row with metadata := t }) (fun _ => rfl) }

/-- `save`: the record with the next revision, where the row has the one before it. -/
def save (t : Transfer) : Txn Transfer := fun db => do
  ensure (t.revision < 2^63) .storage
  let next := { t with revision := t.revision + 1 }
  ensure (∃ row ∈ db.transfers.rows, row.handle = t.id ∧ row.metadata.revision = t.revision) .conflict
  pure (next,setMetadata next db)

def bodyOf (place : Nat) (db : Db) : Except Error (List UInt8) :=
  (require (db.payloads.find place) .storage).map PayloadRow.body

def setBody (place : Nat) (body : List UInt8) (db : Db) : Db :=
  { db with
    payloads := db.payloads.update (fun row => row.id = place) (fun row => { row with body := body }) (fun _ => rfl) }

/-- `INSERT INTO payloads`. -/
def insertBody (place : Nat) (body : List UInt8) (db : Db) : Except Error Db := do
  ensure (¬ db.payloads.has place) .storage
  pure { db with payloads := db.payloads.insert ⟨place,body⟩ }

/-! ### Transactions -/

section
variable [Sha256]

/-- `verify_blob`. -/
def verifyBlob (place : Nat) (t : Transfer) (db : Db) : Except Error Unit := do
  let size ← require t.bytes .integrity
  let body ← bodyOf place db
  let read ← copyBounded (.ofBody (body.take size)) none size
  ensure (read.length = size ∧ t.sha256 = some (Sha256.digest read)) .integrity

/-- The transaction of `prepare`. -/
def prepareTx (limits : Limits) (source destination : Grant) (key : String) (maximumBytes : Nat) (random : List UInt8) :
    Txn Transfer := fun db => do
  ensure (db.closed = false) .phase
  match db.transfers.rows.find? fun row => row.requestKey = key with
  | some previous =>
    ensure (previous.request = ⟨source,destination,maximumBytes⟩) .conflict
    pure (previous.metadata,db)
  | none =>
    let reserved := db.transfers.rows.filter fun row => 0 < row.capacity
    let used := (reserved.map TransferRow.capacity).sum
    ensure (used < 2^32) .storage
    let capacity := maximumBytes * 2
    ensure (¬ (4096 ≤ db.transfers.rows.length ∨ limits.activeTransfers ≤ reserved.length ∨
      limits.cellBytes < used + capacity)) .capacity
    let id := "payload-" ++ Sha256.digest random
    let timestamp ← now db
    let metadata : Transfer :=
      { recipient := none
        revision := 0
        id := id
        workspace := db.workspace
        cell := db.cell
        sourceWallet := source.wallet
        destinationWallet := destination.wallet
        maximumBytes := maximumBytes
        expiresAtUnix := timestamp + limits.retentionSeconds
        capture := .reserved
        bytes := none
        sha256 := none
        sourceManifest := none
        delivered := false
        source := .default
        receiver := .default
        observations := [] }
    ensure (¬ db.transfers.has id) .storage
    -- `INTEGER PRIMARY KEY`: one more than the largest.
    let index := (db.transfers.rows.map TransferRow.id).foldr max 0 + 1
    let db := { db with
      transfers := db.transfers.insert ⟨index,id,key,⟨source,destination,maximumBytes⟩,source,destination,metadata,capacity⟩ }
    let db ← insertBody (sourceBody index) (.replicate maximumBytes 0) db
    let db ← insertBody (inboxBody index) (.replicate maximumBytes 0) db
    pure (metadata,db)

omit [Sha256] in
/-- The transaction of `handoff`. -/
def handoffTx (source destination : Grant) (id : String) : Txn Transfer := fun db => do
  let row ← rowOf id db
  let t := row.metadata
  ensure (¬ (source ≠ row.source ∨ destination.wallet ≠ t.destinationWallet)) .access
  admission source t db
  if t.recipient.isSome then
    ensure (row.destination = destination) .conflict
    pure (t,db)
  else
    ensure (¬ (t.capture ≠ .ready ∨ t.delivered = true ∨ t.receiver.operationId.isSome)) .phase
    let t := { t with recipient := some ⟨destination.principal,destination.authority⟩ }
    let db := { db with
      transfers := db.transfers.update (fun row => row.handle = id) (fun row => { row with destination := destination })
        (fun _ => rfl) }
    save t db

omit [Sha256] in
/-- The transaction of `begin_capture`, on the record with its change. -/
def beginCaptureTx (grant : Grant) (t : Transfer) (operation : String) : Txn Transfer := fun db => do
  admission grant t db
  claimOperation operation db
  save t db

/-- How the transaction of `capture_staged` ends once it has begun to read. -/
inductive Staged
  | ready (t : Transfer)
  | aborted
  deriving DecidableEq

/-- The transaction of `capture_staged`. -/
def stageTx (grant : Grant) (index : Nat) (t : Transfer) (reader : Reader) : Txn Staged := fun db => do
  let row ← rowOf t.id db
  let current := row.metadata
  ensure (¬ (row.id ≠ index ∨ current.capture ≠ .started ∨ current.source.operationId ≠ t.source.operationId ∨
    current.source.receipt ≠ t.source.receipt ∨ current.sourceManifest ≠ t.sourceManifest)) .phase
  admission grant current db
  let body ← bodyOf (sourceBody index) db
  let copied : Except Error (Transfer × Db) := do
    let read ← copyBounded reader (some body.length) current.maximumBytes
    ensure (current.sourceManifest = some ⟨read.length,Sha256.digest read⟩) .integrity
    save { current with bytes := some read.length, sha256 := some (Sha256.digest read), capture := .ready }
      (setBody (sourceBody index) (overwrite body read) db)
  match copied with
  | .ok (next,after) => pure (.ready next,after)
  -- The transaction is rolled back.
  | .error _ => pure (.aborted,db)

/-- The transaction of `deliver`. -/
def deliverTx (grant : Grant) (index : Nat) (t : Transfer) : Txn Transfer := fun db => do
  admission grant t db
  if t.delivered = true then
    verifyBlob (inboxBody index) t db
    pure (t,db)
  else
    verifyBlob (sourceBody index) t db
    let source ← bodyOf (sourceBody index) db
    let inbox ← bodyOf (inboxBody index) db
    let size ← require t.bytes .integrity
    let read ← copyBounded (.ofBody (source.take size)) (some inbox.length) t.maximumBytes
    ensure (some (Sha256.digest read) = t.sha256) .integrity
    save { t with delivered := true } (setBody (inboxBody index) (overwrite inbox read) db)

/-- The transaction of `begin_receive`. -/
def beginReceiveTx (grant : Grant) (index : Nat) (t : Transfer) (operation : String) : Txn Transfer := fun db => do
  admission grant t db
  verifyBlob (inboxBody index) t db
  claimOperation operation db
  -- Recheck the receive fence inside the write transaction.
  let row ← rowOf t.id db
  ensure (¬ row.metadata.receiver.operationId.isSome) .phase
  save { t with receiver := { t.receiver with operationId := some operation } } db

/-- The transaction of `consume`, after which the bytes are streamed. -/
def consumeTx (grant : Grant) (index : Nat) (t : Transfer) : Txn Transfer := fun db => do
  admission grant t db
  verifyBlob (inboxBody index) t db
  save { t with receiver := { t.receiver with inputStarted := true } } db
end

/-- A capture, or a native receive without receipt and interruption, is in progress. -/
def Transfer.busy (t : Transfer) : Prop :=
  t.capture = .started ∨ t.receiver.operationId.isSome ∧ t.receiver.receipt = none ∧ t.receiver.interrupted = false

instance (t : Transfer) : Decidable t.busy := by
  unfold Transfer.busy
  infer_instance

/-- The transaction of `erase`. -/
def eraseTx (id : String) (phase : CapturePhase) (grant : Option Grant) : Txn Transfer := fun db => do
  let row ← rowOf id db
  ensure (∀ g ∈ grant, g = row.source) .access
  ensure (grant.isSome → ¬ row.metadata.busy) .phase
  let (t,db) ← save { row.metadata with capture := phase } db
  pure (t,{ db with
    payloads := db.payloads.delete fun body => body.id = sourceBody row.id ∨ body.id = inboxBody row.id
    transfers := db.transfers.update (fun row => row.handle = id) (fun row => { row with capacity := 0 }) (fun _ => rfl) })

/-! ### Statements -/

inductive Statement
  /-- The time of day changes. -/
  | setClock (clock : Option Nat)
  | prepare (limits : Limits) (source destination : Grant) (key : String) (maximumBytes : Nat) (random : List UInt8)
  | handoff (source destination : Grant) (id : String)
  | beginCapture (grant : Grant) (t : Transfer) (operation : String)
  | save (t : Transfer)
  | stage (grant : Grant) (index : Nat) (t : Transfer) (reader : Reader)
  | deliver (grant : Grant) (index : Nat) (t : Transfer)
  | beginReceive (grant : Grant) (index : Nat) (t : Transfer) (operation : String)
  | consume (grant : Grant) (index : Nat) (t : Transfer)
  | erase (id : String) (phase : CapturePhase) (grant : Option Grant)
  | close
  deriving DecidableEq

/-- What a statement returns. -/
abbrev Statement.Answer : Statement → Type
  | .setClock _ | .close => Unit
  | .stage .. => Staged
  | _ => Transfer

def execute [Sha256] : (statement : Statement) → Txn statement.Answer
  | .setClock clock => fun db => .ok ((),{ db with clock := clock })
  | .prepare limits source destination key maximumBytes random =>
    prepareTx limits source destination key maximumBytes random
  | .handoff source destination id => handoffTx source destination id
  | .beginCapture grant t operation => beginCaptureTx grant t operation
  | .save t => Custody.save t
  | .stage grant index t reader => stageTx grant index t reader
  | .deliver grant index t => deliverTx grant index t
  | .beginReceive grant index t operation => beginReceiveTx grant index t operation
  | .consume grant index t => consumeTx grant index t
  | .erase id phase grant => eraseTx id phase grant
  | .close => fun db => .ok ((),{ db with closed := true })
end Proofstorm.Custody
