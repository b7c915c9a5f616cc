import Proofstorm.Interleaving
import Proofstorm.Custody.Transactions

/-!
The methods of `Vault`, each with its reads and statements in the order of the
source. A vault is opened for each call: `open` writes nothing that an earlier one
has not written, and what it checks never changes. Readers, writers and random
bytes are arguments; the time of day moves by itself (`tick`), in any direction.
-/
namespace Proofstorm.Custody
open Proofstorm.Interleaving (Fallible Call query submit settle attempt)

/-- A call on the vault: reads and statements that may be interleaved with those of others. -/
abbrev Program := Fallible Db Statement Error Statement.Answer

abbrev exec (statement : Statement) : Program statement.Answer := submit statement

/-- An open vault. -/
structure Vault where
  workspace : String
  cell : String
  limits : Limits
  deriving DecidableEq

/-- `Vault::open`. -/
def openVault (workspace cell : String) (limits : Limits) : Program Vault := do
  settle (ensure (ident workspace = true ∧ ident cell = true ∧ limits.accepted = true) .invalid)
  query fun db => ensure (db.workspace = workspace ∧ db.cell = cell) .access
  pure ⟨workspace,cell,limits⟩

namespace Vault

/-- `grant`: the grant is of this vault. -/
def grant (vault : Vault) (grant : Grant) : Program Unit :=
  settle (ensure (grant.belongs vault.workspace vault.cell = true) .access)

/-- Whose identity a call asks for: that of the destination, of the source, or either. -/
inductive Side
  | destination | source | either
  deriving DecidableEq

def Side.allows (side : Side) (grant : Grant) (row : TransferRow) : Prop :=
  match side with
  | .destination => row.destination = grant
  | .source => row.source = grant
  | .either => row.source = grant ∨ row.destination = grant

instance (side : Side) (grant : Grant) (row : TransferRow) : Decidable (side.allows grant row) := by
  cases side <;> unfold Side.allows <;> infer_instance

/-- `authorized`: the place and the record of a transfer, for the grant of a side. -/
def authorized (vault : Vault) (grant : Grant) (id : String) (side : Side) : Program (Nat × Transfer) := do
  vault.grant grant
  query fun db => do
    let row ← rowOf id db
    ensure (side.allows grant row) .access
    pure (row.id,row.metadata)

def prepare [Sha256] (vault : Vault) (source destination : Grant) (key : String) (maximumBytes : Nat)
    (random : List UInt8) : Program Transfer := do
  vault.grant source
  vault.grant destination
  settle (ensure (¬ (ident key = false ∨ maximumBytes = 0 ∨ vault.limits.payloadBytes < maximumBytes ∨
    source.wallet = destination.wallet)) .invalid)
  -- Scope deduplication to the authorized source principal and authority.
  let key := s!"{source.principal}/{source.authority}/{key}"
  exec (.prepare vault.limits source destination key maximumBytes random)

def handoff (vault : Vault) (source destination : Grant) (id : String) : Program Transfer := do
  vault.grant source
  vault.grant destination
  settle (ensure (source.principal ≠ destination.principal) .invalid)
  exec (.handoff source destination id)

def status (vault : Vault) (grant : Grant) (id : String) : Program Transfer := do
  let (_,t) ← vault.authorized grant id .either
  pure t

def beginCapture (vault : Vault) (grant : Grant) (id operation : String) : Program Transfer := do
  let (_,t) ← vault.authorized grant id .source
  query (usable t)
  settle (ensure (ident operation = true) .invalid)
  settle (ensure (t.capture = .reserved) .phase)
  exec (.beginCapture grant
    { t with capture := .started, source := { t.source with operationId := some operation } } operation)

/-- The row of a handle, with its record. -/
def readRow (id : String) : Program (Nat × Transfer) :=
  query fun db => do
    let row ← rowOf id db
    pure (row.id,row.metadata)

def finishSource (id operation : String) (receipt : NativeReceipt) : Program Transfer := do
  let (_,t) ← readRow id
  settle (ensure (t.source.operationId = some operation) .conflict)
  match t.source.receipt with
  | some previous =>
    settle (ensure (previous = receipt) .conflict)
    pure t
  | none =>
    let t := { t with
      source := { t.source with receipt := some receipt }
      capture := if receipt.cleanSuccess = false ∧ t.capture = .started then .unknown else t.capture }
    exec (.save t)

/-- The manifest can be that of a payload of so many bytes at most. -/
def manifestValid (manifest : PayloadManifest) (maximumBytes : Nat) : Bool :=
  0 < manifest.bytes && manifest.bytes ≤ maximumBytes && manifest.sha256.utf8ByteSize = 64 &&
    manifest.sha256.toList.all fun c => c.isDigit || ('a' ≤ c && c ≤ 'f')

/-- Custody of a failed capture is unknown. -/
def failCapture (t : Transfer) : Program Transfer := do
  let _ ← exec (.save { t with capture := .unknown })
  throw .capture

def captureStaged (grant : Grant) (index : Nat) (t : Transfer) (reader : Reader) : Program Transfer := do
  match ← exec (.stage grant index t reader) with
  | .ready t => pure t
  | .aborted =>
    let (_,current) ← readRow t.id
    if current.capture = .started then
      let _ ← exec (.save { current with capture := .unknown })
    throw .capture

def capture (vault : Vault) (grant : Grant) (id operation : String) (reader : Reader) (produced : ProducedPayload) :
    Program Transfer := do
  let (index,t) ← vault.authorized grant id .source
  query (usable t)
  settle (ensure (¬ (t.capture ≠ .started ∨ t.source.operationId ≠ some operation)) .phase)
  settle (ensure (∀ old ∈ t.source.receipt, old = produced.native) .conflict)
  let t ← exec (.save { t with source := { t.source with receipt := some produced.native } })
  if produced.native.cleanSuccess = false then failCapture t
  else if produced.manifest.all (fun manifest => !manifestValid manifest t.maximumBytes) = true then failCapture t
  else
    settle (ensure (¬ (t.sourceManifest.isSome ∧ t.sourceManifest ≠ produced.manifest)) .conflict)
    let t ← exec (.save { t with sourceManifest := produced.manifest })
    captureStaged grant index t reader

def deliver (vault : Vault) (grant : Grant) (id : String) : Program Transfer := do
  let (index,t) ← vault.authorized grant id .destination
  query (usable t)
  settle (ensure (t.capture = .ready) .phase)
  exec (.deliver grant index t)

def beginReceive (vault : Vault) (grant : Grant) (id operation : String) : Program Transfer := do
  let (index,t) ← vault.authorized grant id .destination
  query (usable t)
  settle (ensure (ident operation = true) .invalid)
  settle (ensure (¬ (t.delivered = false ∨ t.receiver.operationId.isSome)) .phase)
  exec (.beginReceive grant index t operation)

def interrupt (id : String) : Program Transfer := do
  let (_,t) ← readRow id
  let unresolved := fun stage : NativeStage => stage.operationId.isSome ∧ stage.receipt = none
  exec (.save { t with
    source := if unresolved t.source then { t.source with interrupted := true } else t.source
    capture := if t.capture = .started then .unknown else t.capture
    receiver := if unresolved t.receiver then { t.receiver with interrupted := true } else t.receiver })

/-- What `consume` writes of an inbox, and whether all of it was written and flushed. -/
def stream (index : Nat) (t : Transfer) (writer : Writer) (db : Db) : List UInt8 × Bool :=
  match bodyOf (inboxBody index) db,t.bytes with
  | .ok body,some expected =>
    let reader := body.take expected
    match writer.room with
    | some room =>
      if room < reader.length then (reader.take room,false)
      else (reader,reader.length = expected && writer.flushes)
    | none => (reader,reader.length = expected && writer.flushes)
  | _,_ => ([],false)

/-- What the writer was given, and how the call ended after it began to write. -/
structure Streamed where
  written : List UInt8
  outcome : Except Error Unit
  deriving DecidableEq

def consume (vault : Vault) (grant : Grant) (id operation : String) (writer : Writer) : Program Streamed := do
  let (index,t) ← vault.authorized grant id .destination
  query (usable t)
  settle (ensure (¬ (t.receiver.operationId ≠ some operation ∨ t.receiver.receipt.isSome ∨
    t.receiver.interrupted = true ∨ t.receiver.inputStarted = true)) .phase)
  let t ← exec (.consume grant index t)
  let (written,copied) ← query fun db => .ok (stream index t writer db)
  if copied = true then pure ⟨written,.ok ()⟩
  else
    match ← attempt (interrupt id) with
    | .ok _ => pure ⟨written,.error .delivery⟩
    | .error error => pure ⟨written,.error error⟩

def finishReceive (id operation : String) (receipt : NativeReceipt) : Program Transfer := do
  let (_,t) ← readRow id
  settle (ensure (t.receiver.operationId = some operation) .conflict)
  match t.receiver.receipt with
  | some previous =>
    settle (ensure (previous = receipt) .conflict)
    pure t
  | none => exec (.save { t with receiver := { t.receiver with receipt := some receipt } })

def observe (vault : Vault) (grant : Grant) (id operation : String) : Program Transfer := do
  let (_,t) ← vault.authorized grant id .either
  settle (ensure (ident operation = true) .invalid)
  if operation ∈ t.observations then pure t
  else
    settle (ensure (t.observations.length < 32) .capacity)
    exec (.save { t with observations := t.observations ++ [operation] })

def release (vault : Vault) (grant : Grant) (id : String) : Program Transfer := do
  let (_,t) ← vault.authorized grant id .source
  settle (ensure (¬ t.busy) .phase)
  exec (.erase id .released (some grant))

/-- `all_metadata`. -/
def allMetadata : Program (List Transfer) := query fun db => .ok (db.transfers.rows.map TransferRow.metadata)

/-- The loop of `expire`, with the number of transfers that it erased. -/
def expireAll (timestamp : Nat) : List Transfer → Nat → Program Nat
  | [], count => pure count
  | t :: rest, count =>
    if t.expiresAtUnix ≤ timestamp ∧ t.capture.retired = false then do
      let _ ← interrupt t.id
      let _ ← exec (.erase t.id .expired none)
      expireAll timestamp rest (count + 1)
    else expireAll timestamp rest count

def expire : Program Nat := do
  let ids ← allMetadata
  let timestamp ← query now
  expireAll timestamp ids 0

/-- The loop of `close`. -/
def eraseAll : List Transfer → Program Unit
  | [] => pure ()
  | t :: rest => do
    let _ ← interrupt t.id
    let _ ← exec (.erase t.id .released none)
    eraseAll rest

def close : Program StorageCleanupReceipt := do
  exec .close
  let ids ← allMetadata
  eraseAll ids
  let remaining ← query fun db => .ok (db.payloads.rows.map fun row => row.body.length).sum
  let capacity ← query fun db => .ok (db.transfers.rows.map TransferRow.capacity).sum
  let current ← allMetadata
  let unresolved := (current.flatMap fun t => [t.source,t.receiver]).filter fun stage =>
    stage.operationId.isSome ∧ stage.receipt = none
  pure ⟨true,current.length,remaining,unresolved.length,remaining = 0 && capacity = 0⟩
end Vault

/-! ### Requests -/

inductive Method
  | prepare (source destination : Grant) (key : String) (maximumBytes : Nat) (random : List UInt8)
  | handoff (source destination : Grant) (id : String)
  | status (grant : Grant) (id : String)
  | beginCapture (grant : Grant) (id operation : String)
  | finishSource (id operation : String) (receipt : NativeReceipt)
  | capture (grant : Grant) (id operation : String) (reader : Reader) (produced : ProducedPayload)
  | deliver (grant : Grant) (id : String)
  | beginReceive (grant : Grant) (id operation : String)
  | consume (grant : Grant) (id operation : String) (writer : Writer)
  | finishReceive (id operation : String) (receipt : NativeReceipt)
  | observe (grant : Grant) (id operation : String)
  | interrupt (id : String)
  | release (grant : Grant) (id : String)
  | expire
  | close
  deriving DecidableEq

inductive Request
  | tick (clock : Option Nat)
  | call (workspace cell : String) (limits : Limits) (method : Method)
  deriving DecidableEq

inductive Reply
  | done
  | transfer (t : Transfer)
  | streamed (streamed : Vault.Streamed)
  | expired (count : Nat)
  | closed (receipt : StorageCleanupReceipt)
  deriving DecidableEq

section
variable [Sha256]

def Method.program (vault : Vault) : Method → Program Reply
  | .prepare source destination key maximumBytes random => do
    return .transfer (← vault.prepare source destination key maximumBytes random)
  | .handoff source destination id => do return .transfer (← vault.handoff source destination id)
  | .status grant id => do return .transfer (← vault.status grant id)
  | .beginCapture grant id operation => do return .transfer (← vault.beginCapture grant id operation)
  | .finishSource id operation receipt => do return .transfer (← Vault.finishSource id operation receipt)
  | .capture grant id operation reader produced => do
    return .transfer (← vault.capture grant id operation reader produced)
  | .deliver grant id => do return .transfer (← vault.deliver grant id)
  | .beginReceive grant id operation => do return .transfer (← vault.beginReceive grant id operation)
  | .consume grant id operation writer => do return .streamed (← vault.consume grant id operation writer)
  | .finishReceive id operation receipt => do return .transfer (← Vault.finishReceive id operation receipt)
  | .observe grant id operation => do return .transfer (← vault.observe grant id operation)
  | .interrupt id => do return .transfer (← Vault.interrupt id)
  | .release grant id => do return .transfer (← vault.release grant id)
  | .expire => do return .expired (← Vault.expire)
  | .close => do return .closed (← Vault.close)

def program : Request → Program Reply
  | .tick clock => do
    exec (.setClock clock)
    return .done
  | .call workspace cell limits method => do
    let vault ← openVault workspace cell limits
    method.program vault

def code (request : Request) : Call Db Statement Error Statement.Answer (Except Error Reply) :=
  (program request).run

/-- What the engine answers where another connection holds the lock for too long. -/
def busy : Error := .storage

abbrev Config := Interleaving.Config Request Db Statement Error Statement.Answer (Except Error Reply)
abbrev Event := Interleaving.Event Request Db Statement (Except Error Reply)

/-- The configurations of the runs of the vault of a cell. -/
abbrev Reached (workspace cell : String) (config : Config) : Prop :=
  Interleaving.Reachable execute busy code (Db.empty workspace cell) config
end

end Proofstorm.Custody
