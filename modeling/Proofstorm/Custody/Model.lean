import Proofstorm.Outcome
import Proofstorm.Table
import Mathlib.Data.List.TakeDrop

/-!
The data of a vault: grants, limits, the record of a transfer, the tables of its
database and the bytes they hold. A payload is copied in pieces, as they are read,
and digested on the way (`copyBounded`).
-/
namespace Proofstorm.Custody

inductive Error
  | storage | invalid | access | capacity | conflict | phase | capture | integrity | delivery
  deriving DecidableEq

/-- A grant. The text of its fields as JSON is its identity (`grant_identity`):
    two identities are equal where the grants are. -/
structure Grant where
  workspace : String
  cell : String
  principal : String
  wallet : String
  authority : String
  deriving DecidableEq

structure Limits where
  payloadBytes : Nat
  cellBytes : Nat
  activeTransfers : Nat
  retentionSeconds : Nat
  deriving DecidableEq

/-- `Limits::default()`. -/
def Limits.default : Limits := ⟨1024 * 1024,32 * 1024 * 1024,8,3600⟩

inductive CapturePhase
  | reserved | started | ready | unknown | released | expired
  deriving DecidableEq

/-- `CapturePhase::Released | CapturePhase::Expired`. -/
def CapturePhase.retired : CapturePhase → Bool
  | .released | .expired => true
  | _ => false

structure PayloadManifest where
  bytes : Nat
  sha256 : String
  deriving DecidableEq

structure NativeReceipt where
  exitCode : Option Int
  exitSignal : Option Int
  timedOut : Bool
  cancelled : Bool
  cleanupVerified : Bool
  streamsComplete : Bool
  outputTruncated : Bool
  deriving DecidableEq

def NativeReceipt.cleanSuccess (receipt : NativeReceipt) : Bool :=
  receipt.exitCode = some 0 && receipt.exitSignal = none && !receipt.timedOut && !receipt.cancelled &&
    receipt.cleanupVerified && receipt.streamsComplete && !receipt.outputTruncated

structure NativeStage where
  inputStarted : Bool
  operationId : Option String
  receipt : Option NativeReceipt
  interrupted : Bool
  deriving DecidableEq

/-- `NativeStage::default()`. -/
def NativeStage.default : NativeStage := ⟨false,none,none,false⟩

structure RecipientAuthority where
  principal : String
  authority : String
  deriving DecidableEq

/-- The record of a transfer. The transport is left out: it has one path. -/
structure Transfer where
  recipient : Option RecipientAuthority
  revision : Nat
  id : String
  workspace : String
  cell : String
  sourceWallet : String
  destinationWallet : String
  maximumBytes : Nat
  expiresAtUnix : Nat
  capture : CapturePhase
  bytes : Option Nat
  sha256 : Option String
  sourceManifest : Option PayloadManifest
  delivered : Bool
  source : NativeStage
  receiver : NativeStage
  observations : List String
  deriving DecidableEq

structure ProducedPayload where
  native : NativeReceipt
  manifest : Option PayloadManifest
  deriving DecidableEq

structure StorageCleanupReceipt where
  admissionClosed : Bool
  retainedTransferRecords : Nat
  remainingPayloadBytes : Nat
  nativeOperationsWithoutReceipts : Nat
  storageCleanupVerified : Bool
  deriving DecidableEq

/-- `ident`. -/
def ident (text : String) : Bool :=
  text ≠ "" && text.utf8ByteSize ≤ 128 && text.toList.all fun c => c.isAlphanum || c = '.' || c = '_' || c = '-'

/-- The grant is of this cell, and all of its fields are identifiers. -/
def Grant.belongs (grant : Grant) (workspace cell : String) : Bool :=
  grant.workspace = workspace && grant.cell = cell &&
    [grant.workspace,grant.cell,grant.principal,grant.wallet,grant.authority].all ident

/-- What `open` asks of the limits. -/
def Limits.accepted (limits : Limits) : Bool :=
  limits.payloadBytes ≠ 0 && limits.payloadBytes ≤ 16 * 1024 * 1024 && limits.cellBytes ≤ 256 * 1024 * 1024 &&
    limits.payloadBytes * 2 ≤ limits.cellBytes && 1 ≤ limits.activeTransfers && limits.activeTransfers ≤ 32 &&
    1 ≤ limits.retentionSeconds && limits.retentionSeconds ≤ 86400

/-! ### The database -/

/-- The JSON of the two identities and the maximum that a transfer was prepared with. -/
structure PrepareRequest where
  source : Grant
  destination : Grant
  maximumBytes : Nat
  deriving DecidableEq

structure TransferRow where
  id : Nat
  handle : String
  requestKey : String
  request : PrepareRequest
  source : Grant
  destination : Grant
  metadata : Transfer
  capacity : Nat
  deriving DecidableEq

structure PayloadRow where
  id : Nat
  body : List UInt8
  deriving DecidableEq

instance : Keyed TransferRow String := ⟨TransferRow.handle⟩
instance : Keyed PayloadRow Nat := ⟨PayloadRow.id⟩

/-- The tables of a vault, with the time of day that every process reads, if it
    can be read. -/
structure Db where
  workspace : String
  cell : String
  closed : Bool
  transfers : Table TransferRow
  payloads : Table PayloadRow
  clock : Option Nat
  deriving DecidableEq

/-- The database as the first `open` leaves it. -/
def Db.empty (workspace cell : String) : Db := ⟨workspace,cell,false,.empty,.empty,none⟩

/-- The places of the two bodies of a transfer. -/
def sourceBody (index : Nat) : Nat := index * 2
def inboxBody (index : Nat) : Nat := index * 2 + 1

/-! ### Streams -/

/-- The digest that `sha2` computes, as hexadecimal digits. -/
class Sha256 where
  digest : List UInt8 → String

/-- What a reader gives: pieces up to its end, or up to a failure. -/
inductive Reader
  | ended
  | failed
  | piece (bytes : List UInt8) (rest : Reader)
  deriving DecidableEq

/-- All that is read before the end or the failure. -/
def Reader.content : Reader → List UInt8
  | .ended | .failed => []
  | .piece bytes rest => bytes ++ rest.content

/-- Whether the reader comes to its end. -/
def Reader.ends : Reader → Bool
  | .ended => true
  | .failed => false
  | .piece _ rest => rest.ends

/-- A body read in pieces of at most 8192 bytes. -/
def Reader.pieces : (fuel : Nat) → List UInt8 → Reader
  | 0, _ => .ended
  | fuel+1, body => if body = [] then .ended else .piece (body.take 8192) (pieces fuel (body.drop 8192))

def Reader.ofBody (body : List UInt8) : Reader := .pieces body.length body

/-- What a writer takes: all, or so many bytes before it fails, and then a flush. -/
structure Writer where
  room : Option Nat
  flushes : Bool
  deriving DecidableEq

/-- The loop of `copy_bounded`. What was copied so far stands for the count and for
    the state of the digest; a body that is written to has a size. -/
def copyLoop (size : Option Nat) (limit : Nat) : Reader → List UInt8 → Except Error (List UInt8)
  | .ended, copied => .ok copied
  | .failed, _ => .error .capture
  | .piece bytes rest, copied =>
    -- A read of no bytes is the end.
    if bytes = [] then .ok copied
    else if limit - copied.length < bytes.length then .error .capacity
    else if ∃ room ∈ size, room < copied.length + bytes.length then .error .capture
    else copyLoop size limit rest (copied ++ bytes)

/-- `copy_bounded`: the bytes that were copied, with their number and their digest. -/
def copyBounded (reader : Reader) (size : Option Nat) (limit : Nat) : Except Error (List UInt8) :=
  copyLoop size limit reader []

/-- A body after bytes were written from its start. -/
def overwrite (body bytes : List UInt8) : List UInt8 := bytes ++ body.drop bytes.length

/-! ### What is copied -/

variable {size : Option Nat} {limit : Nat} {reader : Reader} {copied out : List UInt8}

theorem copyLoop_length (ran : copyLoop size limit reader copied = .ok out) (fits : copied.length ≤ limit)
    (room : ∀ n ∈ size, copied.length ≤ n) : out.length ≤ limit ∧ ∀ n ∈ size, out.length ≤ n := by
  induction reader generalizing copied with
  | ended => cases ran; exact ⟨fits,room⟩
  | failed => cases ran
  | piece bytes rest ih =>
    rw [copyLoop] at ran
    split at ran
    · cases ran; exact ⟨fits,room⟩
    · split at ran
      · cases ran
      · rename_i small
        split at ran
        · cases ran
        · rename_i held
          refine ih ran ?_ fun n member => ?_
          · rw [List.length_append]
            omega
          · have enough : ¬ n < copied.length + bytes.length := fun less => held ⟨n,member,less⟩
            rw [List.length_append]
            omega

/-- No more is copied than the limit and the body allow. -/
theorem copyBounded_length
    (ran : copyBounded reader size limit = .ok out) : out.length ≤ limit ∧ ∀ n ∈ size, out.length ≤ n :=
  copyLoop_length ran (Nat.zero_le _) fun _ _ => Nat.zero_le _

theorem copyLoop_pieces {fuel : Nat} {body : List UInt8} (enough : body.length ≤ fuel)
    (ran : copyLoop size limit (.pieces fuel body) copied = .ok out) : out = copied ++ body := by
  induction fuel generalizing body copied with
  | zero =>
    have none_ : body = [] := List.length_eq_zero_iff.mp (Nat.le_zero.mp enough)
    cases ran
    simp [none_]
  | succ fuel ih =>
    rw [Reader.pieces] at ran
    split at ran
    · rename_i none_
      cases ran
      simp [none_]
    · rw [copyLoop] at ran
      split at ran
      · rename_i some_ none_
        have short : min 8192 body.length = 0 := by rw [← List.length_take,none_]; rfl
        have long : body.length ≠ 0 := fun zero => some_ (List.length_eq_zero_iff.mp zero)
        omega
      · split at ran
        · cases ran
        · split at ran
          · cases ran
          · have rest : (body.drop 8192).length ≤ fuel := by rw [List.length_drop]; omega
            rw [ih rest ran,List.append_assoc,List.take_append_drop]

/-- A body is copied whole or not at all. -/
theorem copyBounded_ofBody {body : List UInt8}
    (ran : copyBounded (.ofBody body) size limit = .ok out) : out = body := by
  simpa using copyLoop_pieces (Nat.le_refl _) ran

theorem length_overwrite {body bytes : List UInt8} (fits : bytes.length ≤ body.length) :
    (overwrite body bytes).length = body.length := by
  rw [overwrite,List.length_append,List.length_drop]
  omega

theorem take_overwrite (body bytes : List UInt8) : (overwrite body bytes).take bytes.length = bytes := by
  rw [overwrite,List.take_left]
end Proofstorm.Custody
