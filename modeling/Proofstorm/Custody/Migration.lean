import Proofstorm.Custody.Records
import Proofstorm.Custody.Transactions

/-!
The upgrade of a vault whose transfers are owned by sessions. Its rows are those of
the file, with the texts of their columns: the upgrade takes the session out of
them, and `prepare` compares and reads them. The rows come in any order.
-/
namespace Proofstorm.Custody.Migration
open Proofstorm.Core (Json Items Fields)
open Proofstorm.Core.Json

/-- A row of `transfers`. -/
structure Row where
  id : Nat
  handle : String
  requestKey : String
  requestJson : String
  sourceJson : String
  destinationJson : String
  metadata : String
  capacity : Nat
  deriving DecidableEq

instance : Keyed Row Nat := ⟨Row.id⟩

/-- The file of a vault; `version` is its `user_version`. -/
structure File where
  version : Int
  workspace : String
  cell : String
  closed : Bool
  transfers : Table Row
  payloads : Table PayloadRow
  clock : Option Nat

/-! ### Texts -/

/-- The JSON array of texts. -/
def texts (list : List String) : Json := .array (list.map .str)

/-- `grant_identity`. -/
def grantIdentity (grant : Grant) : String :=
  (texts [grant.workspace,grant.cell,grant.principal,grant.wallet,grant.authority]).text

/-- The text of the two identities and the maximum. -/
def requestText (source destination : Grant) (maximumBytes : Nat) : String :=
  (Json.array [.str (grantIdentity source),.str (grantIdentity destination),.nat maximumBytes]).text

/-- `owner`: the identity with `owner` in place of the session. -/
def owner (encoded : String) : Except Error String := do
  let identity ← require ((Json.ofText encoded).bind (Json.list asStr)) .storage
  match identity with
  | [workspace,cell,principal,wallet,_] => pure (texts [workspace,cell,principal,wallet,"owner"]).text
  | _ => throw .storage

/-- The text before the first slash, and the text after it. -/
def splitSlash : List Char → Option (List Char × List Char)
  | [] => none
  | c :: rest => if c = '/' then some ([],rest) else (splitSlash rest).map fun (before,after) => (c :: before,after)

/-- `key.splitn(3, '/')`, where it gives three parts. -/
def splitn3 (key : String) : Option (String × String × String) :=
  (splitSlash key.toList).bind fun (first,rest) => (splitSlash rest).map fun (second,third) =>
    (String.ofList first,String.ofList second,String.ofList third)

/-- `Map::insert`. -/
def insertEntry (entries : List (String × Json)) (name : String) (value : Json) : List (String × Json) :=
  if entries.any fun entry => entry.1 == name then entries.map fun entry => if entry.1 = name then (name,value) else entry
  else entries ++ [(name,value)]

/-- The value of a name, and the entries without it. -/
def removeEntry (entries : List (String × Json)) (name : String) : Option (Json × List (String × Json)) :=
  (entries.find? fun entry => entry.1 == name).map fun entry => (entry.2,entries.filter fun entry => entry.1 ≠ name)

/-- A recipient: its lease or its session becomes its authority, which does not expire. -/
def migrateRecipient : Json → Json
  | .obj fields =>
    let entries := match (removeEntry fields.toList "lease").or (removeEntry fields.toList "session") with
      | some (authority,rest) => insertEntry rest "authority" authority
      | none => fields.toList
    .object (entries.filter fun entry => entry.1 ≠ "expires_at_unix")
  | value => value

def migrateMetadata : Json → Json
  | .obj fields => .object (fields.toList.map fun entry =>
    if entry.1 = "recipient" then (entry.1,migrateRecipient entry.2) else entry)
  | value => value

/-- `metadata.get("recipient").is_none_or(Value::is_null)`. -/
def unassigned (metadata : Json) : Bool :=
  match metadata.get "recipient" with
  | none | some .null => true
  | _ => false

/-- The two identities of a request, in the name of their owners. -/
def migrateRequest (request : String) : Except Error String := do
  match (Json.ofText request).bind (Json.list some) with
  | some [.str source,.str destination,maximum] => do
    let source ← owner source
    let destination ← owner destination
    pure (Json.array [.str source,.str destination,maximum]).text
  | _ => throw .storage

/-! ### The upgrade -/

/-- `UPDATE transfers … WHERE id=?`: `request_key` is unique. -/
def assign (rows : Table Row) (next : Row) : Except Error (Table Row) := do
  ensure (∀ row ∈ rows.rows, row.id ≠ next.id → row.requestKey ≠ next.requestKey) .storage
  pure (rows.update (fun row => row.id = next.id)
    (fun row => { next with id := row.id, handle := row.handle, capacity := row.capacity }) fun _ => rfl)

/-- The place where an old key is out of the way. -/
def parkedKey (id : Nat) : String := "migration:" ++ toString id

/-- `UPDATE transfers SET request_key='migration:' || id`, one row after the other. -/
def park (rows : Table Row) : Except Error (Table Row) :=
  rows.rows.foldlM (fun rows row => assign rows { row with requestKey := parkedKey row.id }) rows

def legacyKey (id : Nat) (key : String) : String := "legacy/" ++ toString id ++ "/" ++ key

/-- `UPDATE transfers SET request_json='legacy-ambiguous' WHERE request_key=?`. -/
def spoil (rows : Table Row) (key : String) : Table Row :=
  rows.update (fun row => row.requestKey = key) (fun row => { row with requestJson := "legacy-ambiguous" }) fun _ => rfl

/-- The columns of a row without its session, under the key that the owner has for it. -/
def translate (row : Row) : Except Error Row := do
  let source ← owner row.sourceJson
  let metadata ← require (Json.ofText row.metadata) .storage
  let destination ← if unassigned metadata then owner row.destinationJson else pure row.destinationJson
  let request ← migrateRequest row.requestJson
  let (principal,_,key) ← require (splitn3 row.requestKey) .storage
  pure { row with
    requestKey := principal ++ "/owner/" ++ key
    requestJson := request
    sourceJson := source
    destinationJson := destination
    metadata := (migrateMetadata metadata).text }

/-- One round of the loop; `keys` are those assigned so far. -/
def migrateRow (state : Table Row × List String) (row : Row) : Except Error (Table Row × List String) := do
  let next ← translate row
  if next.requestKey ∉ state.2 then
    let rows ← assign state.1 next
    pure (rows,next.requestKey :: state.2)
  else
    -- Formerly different sessions could reuse one key. Preserve both handles,
    -- and reject that now-ambiguous key instead of silently replaying either.
    let rows ← assign (spoil state.1 next.requestKey) { next with requestKey := legacyKey row.id row.requestKey }
    pure (rows,state.2)

/-- `upgrade`, where the rows are read as `scan`. -/
def upgrade (scan : List Row) (file : File) : Except Error File :=
  if 1 ≤ file.version then .ok file
  else do
    let parked ← park file.transfers
    let (rows,_) ← scan.foldlM migrateRow (parked,[])
    pure { file with transfers := rows, version := 1 }

/-! ### Preparing a transfer -/

/-- The transaction of `prepare`, on the texts of the columns. -/
def prepareTx [Sha256] (limits : Limits) (source destination : Grant) (key : String) (maximumBytes : Nat) (random : List UInt8)
    (file : File) : Except Error (Transfer × File) := do
  ensure (file.closed = false) .phase
  match file.transfers.rows.find? fun row => row.requestKey = key with
  | some previous =>
    ensure (previous.requestJson = requestText source destination maximumBytes) .conflict
    let t ← require ((Json.ofText previous.metadata).bind Transfer.ofJson) .storage
    pure (t,file)
  | none =>
    let reserved := file.transfers.rows.filter fun row => 0 < row.capacity
    let used := (reserved.map Row.capacity).sum
    ensure (used < 2^32) .storage
    let capacity := maximumBytes * 2
    ensure (¬ (4096 ≤ file.transfers.rows.length ∨ limits.activeTransfers ≤ reserved.length ∨
      limits.cellBytes < used + capacity)) .capacity
    let id := "payload-" ++ Sha256.digest random
    let timestamp ← require file.clock .storage
    let t : Transfer :=
      { recipient := none
        revision := 0
        id := id
        workspace := file.workspace
        cell := file.cell
        sourceWallet := source.wallet
        destinationWallet := destination.wallet
        maximumBytes := maximumBytes
        expiresAtUnix := timestamp + limits.retentionSeconds
        capture := .reserved
        bytes := none
        sha256 := none
        sourceManifest := none
        delivered := false
        source := .default
        receiver := .default
        observations := [] }
    ensure (∀ row ∈ file.transfers.rows, row.handle ≠ id) .storage
    let index := (file.transfers.rows.map Row.id).foldr max 0 + 1
    ensure (¬ file.payloads.has (sourceBody index) ∧ ¬ file.payloads.has (inboxBody index)) .storage
    pure (t,{ file with
      transfers := file.transfers.insert
        ⟨index,id,key,requestText source destination maximumBytes,grantIdentity source,grantIdentity destination,t.toJson.text,
          capacity⟩
      payloads := (file.payloads.insert ⟨sourceBody index,.replicate maximumBytes 0⟩).insert
        ⟨inboxBody index,.replicate maximumBytes 0⟩ })

def prepare [Sha256] (limits : Limits) (source destination : Grant) (key : String) (maximumBytes : Nat) (random : List UInt8)
    (file : File) : Except Error (Transfer × File) := do
  ensure (source.belongs file.workspace file.cell = true) .access
  ensure (destination.belongs file.workspace file.cell = true) .access
  ensure (¬ (ident key = false ∨ maximumBytes = 0 ∨ limits.payloadBytes < maximumBytes ∨ source.wallet = destination.wallet))
    .invalid
  prepareTx limits source destination (source.principal ++ "/" ++ source.authority ++ "/" ++ key) maximumBytes random file
end Proofstorm.Custody.Migration
