import Proofstorm.Core.Values
import Proofstorm.Custody.Model

/-!
The record of a transfer as the JSON of its column, and back (`ofJson_toJson`). A
record is an object; of a name that it does not know, it takes no notice.
-/
namespace Proofstorm.Custody
open Proofstorm.Core (Json Items Fields)
open Proofstorm.Core.Json

/-- A number of 32 bits with a sign. -/
def intToJson : Int → Json
  | .ofNat n => .nat n
  | .negSucc n => .num ("-" ++ toString (n + 1))

def asI32 (value : Json) : Option Int := value.asI64.filter fun n => -2 ^ 31 ≤ n ∧ n < 2 ^ 31

/-- `null`, or the value. -/
def orNull {α : Type} (write : α → Json) : Option α → Json
  | none => .null
  | some a => write a

/-- A field of an object. -/
def field (value : Json) (name : String) : Option Json :=
  match value with
  | .obj fields => Json.get (.obj fields) name
  | _ => none

def CapturePhase.name : CapturePhase → String
  | .reserved => "reserved"
  | .started => "started"
  | .ready => "ready"
  | .unknown => "unknown"
  | .released => "released"
  | .expired => "expired"

def CapturePhase.all : List CapturePhase := [.reserved,.started,.ready,.unknown,.released,.expired]

def CapturePhase.ofJson (value : Json) : Option CapturePhase :=
  value.asStr.bind fun text => all.find? fun phase => phase.name = text

def PayloadManifest.toJson (manifest : PayloadManifest) : Json :=
  .object [("bytes",.nat manifest.bytes),("sha256",.str manifest.sha256)]

def PayloadManifest.ofJson (value : Json) : Option PayloadManifest := do
  let bytes ← required asU32 (field value "bytes")
  let sha256 ← required asStr (field value "sha256")
  some ⟨bytes,sha256⟩

def NativeReceipt.toJson (receipt : NativeReceipt) : Json :=
  .object [("exit_code",orNull intToJson receipt.exitCode),("exit_signal",orNull intToJson receipt.exitSignal),
    ("timed_out",.bool receipt.timedOut),("cancelled",.bool receipt.cancelled),
    ("cleanup_verified",.bool receipt.cleanupVerified),("streams_complete",.bool receipt.streamsComplete),
    ("output_truncated",.bool receipt.outputTruncated)]

def NativeReceipt.ofJson (value : Json) : Option NativeReceipt := do
  let exitCode ← defaulted (optional asI32) none (field value "exit_code")
  let exitSignal ← defaulted (optional asI32) none (field value "exit_signal")
  let timedOut ← required asBool (field value "timed_out")
  let cancelled ← required asBool (field value "cancelled")
  let cleanupVerified ← required asBool (field value "cleanup_verified")
  let streamsComplete ← required asBool (field value "streams_complete")
  let outputTruncated ← required asBool (field value "output_truncated")
  some ⟨exitCode,exitSignal,timedOut,cancelled,cleanupVerified,streamsComplete,outputTruncated⟩

def NativeStage.toJson (stage : NativeStage) : Json :=
  .object [("input_started",.bool stage.inputStarted),("operation_id",orNull .str stage.operationId),
    ("receipt",orNull NativeReceipt.toJson stage.receipt),("interrupted",.bool stage.interrupted)]

def NativeStage.ofJson (value : Json) : Option NativeStage := do
  let inputStarted ← required asBool (field value "input_started")
  let operationId ← defaulted (optional asStr) none (field value "operation_id")
  let receipt ← defaulted (optional NativeReceipt.ofJson) none (field value "receipt")
  let interrupted ← required asBool (field value "interrupted")
  some ⟨inputStarted,operationId,receipt,interrupted⟩

def RecipientAuthority.toJson (recipient : RecipientAuthority) : Json :=
  .object [("principal",.str recipient.principal),("authority",.str recipient.authority)]

def RecipientAuthority.ofJson (value : Json) : Option RecipientAuthority := do
  let principal ← required asStr (field value "principal")
  let authority ← required asStr (field value "authority")
  some ⟨principal,authority⟩

/-- The fields of a record but for the recipient, which is left out where there is none. -/
def Transfer.fields (t : Transfer) : List (String × Json) :=
  [("revision",.nat t.revision),("transport",.str "infrastructure_relay"),("id",.str t.id),("workspace",.str t.workspace),
    ("cell",.str t.cell),("source_wallet",.str t.sourceWallet),("destination_wallet",.str t.destinationWallet),
    ("maximum_bytes",.nat t.maximumBytes),("expires_at_unix",.nat t.expiresAtUnix),("capture",.str t.capture.name),
    ("bytes",orNull .nat t.bytes),("sha256",orNull .str t.sha256),
    ("source_manifest",orNull PayloadManifest.toJson t.sourceManifest),("delivered",.bool t.delivered),
    ("source",t.source.toJson),("receiver",t.receiver.toJson),("observations",.array (t.observations.map .str))]

/-- The record with its recipient written in some way. -/
def Transfer.toJsonWith (t : Transfer) (recipient : Option Json) : Json :=
  .object ((recipient.map fun value => ("recipient",value)).toList ++ t.fields)

/-- `encode`: the text of a record is that of this document. -/
def Transfer.toJson (t : Transfer) : Json := t.toJsonWith (t.recipient.map RecipientAuthority.toJson)

def Transfer.ofJson (value : Json) : Option Transfer := do
  let recipient ← defaulted (optional RecipientAuthority.ofJson) none (field value "recipient")
  let revision ← required asU64 (field value "revision")
  guard (field value "transport" = some (.str "infrastructure_relay"))
  let id ← required asStr (field value "id")
  let workspace ← required asStr (field value "workspace")
  let cell ← required asStr (field value "cell")
  let sourceWallet ← required asStr (field value "source_wallet")
  let destinationWallet ← required asStr (field value "destination_wallet")
  let maximumBytes ← required asU32 (field value "maximum_bytes")
  let expiresAtUnix ← required asU64 (field value "expires_at_unix")
  let capture ← required CapturePhase.ofJson (field value "capture")
  let bytes ← defaulted (optional asU32) none (field value "bytes")
  let sha256 ← defaulted (optional asStr) none (field value "sha256")
  let sourceManifest ← defaulted (optional PayloadManifest.ofJson) none (field value "source_manifest")
  let delivered ← required asBool (field value "delivered")
  let source ← required NativeStage.ofJson (field value "source")
  let receiver ← required NativeStage.ofJson (field value "receiver")
  let observations ← required (list asStr) (field value "observations")
  some ⟨recipient,revision,id,workspace,cell,sourceWallet,destinationWallet,maximumBytes,expiresAtUnix,capture,bytes,sha256,
    sourceManifest,delivered,source,receiver,observations⟩

/-! ### Numbers that fit -/

/-- The numbers fit the types of the source. -/
def NativeReceipt.Typed (receipt : NativeReceipt) : Prop :=
  ∀ n, receipt.exitCode = some n ∨ receipt.exitSignal = some n → -2 ^ 31 ≤ n ∧ n < 2 ^ 31

def NativeStage.Typed (stage : NativeStage) : Prop := ∀ receipt, stage.receipt = some receipt → receipt.Typed

structure Transfer.Typed (t : Transfer) : Prop where
  revision : t.revision < 2 ^ 64
  maximumBytes : t.maximumBytes < 2 ^ 32
  expires : t.expiresAtUnix < 2 ^ 64
  bytes : ∀ n, t.bytes = some n → n < 2 ^ 32
  manifest : ∀ manifest, t.sourceManifest = some manifest → manifest.bytes < 2 ^ 32
  source : t.source.Typed
  receiver : t.receiver.Typed

/-! ### Records are read as they were written -/

theorem field_object (pairs : List (String × Json)) (name : String) :
    field (.object pairs) name = (pairs.find? fun entry => entry.1 == name).map Prod.snd := by
  rw [Json.object,field,Json.get,Core.Fields.toList_ofList]

@[simp] theorem field_cons (key name : String) (value : Json) (rest : List (String × Json)) :
    field (.object ((key,value) :: rest)) name = if key = name then some value else field (.object rest) name := by
  rw [field_object,field_object]
  by_cases same : key = name <;> simp [same]

theorem optional_orNull {α : Type} {read : Json → Option α} {write : α → Json} {value : Option α}
    (back : ∀ a, value = some a → read (write a) = some a) (full : ∀ a, write a ≠ .null) :
    optional read (orNull write value) = some value := by
  cases value with
  | none => rfl
  | some a =>
    rw [orNull,Json.optional,back a rfl,Option.map_some]
    exact full a

theorem intToJson_negSucc (n : Nat) : ("-" ++ toString (n + 1)).toList = '-' :: Nat.toDigits 10 (n + 1) := by
  rw [String.toList_append,Nat.toString_eq_repr,Nat.toList_repr]
  rfl

theorem asI64_intToJson {n : Int} (low : -2 ^ 63 ≤ n) (high : n < 2 ^ 63) : (intToJson n).asI64 = some n := by
  cases n with
  | ofNat n =>
    rw [intToJson,Json.nat,Json.asI64,Nat.toString_eq_repr,Nat.toList_repr]
    have fits : n < 2 ^ 63 := Int.ofNat_lt.mp high
    split
    · rename_i rest same
      have minus := toDigits_digits n '-' (same ▸ List.mem_cons_self)
      cases minus
    · rw [digits_toDigits,Option.filter_some,if_pos (by simpa using fits)]
      rfl
  | negSucc n =>
    have fits : n + 1 ≤ 2 ^ 63 := by omega
    rw [intToJson,Json.asI64,intToJson_negSucc]
    simp only [digits_toDigits,Option.filter_some,decide_eq_true_eq,if_pos fits]
    rfl

theorem asI32_intToJson {n : Int} (low : -2 ^ 31 ≤ n) (high : n < 2 ^ 31) : asI32 (intToJson n) = some n := by
  rw [asI32,asI64_intToJson (by omega) (by omega),Option.filter_some,if_pos (by simpa using ⟨low,high⟩)]

theorem intToJson_proper (n : Int) : (intToJson n).Proper := by
  cases n with
  | ofNat n => exact nat_proper n
  | negSucc n =>
    show Core.isNumber ("-" ++ toString (n + 1)).toList = true
    rw [intToJson_negSucc]
    exact isUnsigned_toDigits (n + 1)

theorem intToJson_full (n : Int) : intToJson n ≠ .null := by
  cases n <;> simp [intToJson,Json.nat]

theorem NativeReceipt.ofJson_toJson {receipt : NativeReceipt} (typed : receipt.Typed) :
    NativeReceipt.ofJson receipt.toJson = some receipt := by
  have code : optional asI32 (orNull intToJson receipt.exitCode) = some receipt.exitCode :=
    optional_orNull (fun n same => asI32_intToJson (typed n (.inl same)).1 (typed n (.inl same)).2) intToJson_full
  have signal : optional asI32 (orNull intToJson receipt.exitSignal) = some receipt.exitSignal :=
    optional_orNull (fun n same => asI32_intToJson (typed n (.inr same)).1 (typed n (.inr same)).2) intToJson_full
  simp [ofJson,toJson,code,signal]

theorem NativeStage.ofJson_toJson {stage : NativeStage} (typed : stage.Typed) : NativeStage.ofJson stage.toJson = some stage := by
  have operation : optional asStr (orNull .str stage.operationId) = some stage.operationId :=
    optional_orNull (fun _ _ => rfl) fun _ => by simp
  have receipt : optional NativeReceipt.ofJson (orNull NativeReceipt.toJson stage.receipt) = some stage.receipt :=
    optional_orNull (fun receipt same => NativeReceipt.ofJson_toJson (typed receipt same)) fun _ => object_full _
  simp [ofJson,toJson,operation,receipt]

theorem CapturePhase.ofJson_name (phase : CapturePhase) : CapturePhase.ofJson (.str phase.name) = some phase := by
  cases phase <;> rfl

theorem PayloadManifest.ofJson_toJson {manifest : PayloadManifest} (fits : manifest.bytes < 2 ^ 32) :
    PayloadManifest.ofJson manifest.toJson = some manifest := by
  simp [ofJson,toJson,asU32_nat fits]

theorem RecipientAuthority.ofJson_toJson (recipient : RecipientAuthority) :
    RecipientAuthority.ofJson recipient.toJson = some recipient := by
  simp [ofJson,toJson]

theorem field_toJsonWith (t : Transfer) (recipient : Option Json) (name : String) :
    field (t.toJsonWith recipient) name =
      if "recipient" = name then recipient.or (field (.object t.fields) name) else field (.object t.fields) name := by
  cases recipient with
  | none => simp [Transfer.toJsonWith]
  | some value =>
    simp only [Transfer.toJsonWith,Option.map_some,Option.toList_some,List.singleton_append,field_cons,Option.some_or]

theorem field_nil (name : String) : field (.object []) name = none := rfl

theorem Transfer.ofJson_toJsonWith {t : Transfer} (typed : t.Typed) {recipient : Option Json} {read : Option RecipientAuthority}
    (back : defaulted (optional RecipientAuthority.ofJson) none recipient = some read) :
    Transfer.ofJson (t.toJsonWith recipient) = some { t with recipient := read } := by
  have bytes : optional asU32 (orNull .nat t.bytes) = some t.bytes :=
    optional_orNull (fun n same => asU32_nat (typed.bytes n same)) fun _ => by simp [Json.nat]
  have sha256 : optional asStr (orNull .str t.sha256) = some t.sha256 := optional_orNull (fun _ _ => rfl) fun _ => by simp
  have manifest : optional PayloadManifest.ofJson (orNull PayloadManifest.toJson t.sourceManifest) = some t.sourceManifest :=
    optional_orNull (fun manifest same => PayloadManifest.ofJson_toJson (typed.manifest manifest same)) fun _ => object_full _
  simp only [ofJson,field_toJsonWith,String.reduceEq,if_true,if_false,fields,field_cons,field_nil,Option.or_none,back,
    required_some,defaulted_some,asStr_str,asBool_bool,asU64_nat typed.revision,asU32_nat typed.maximumBytes,
    asU64_nat typed.expires,CapturePhase.ofJson_name,bytes,sha256,manifest,NativeStage.ofJson_toJson typed.source,
    NativeStage.ofJson_toJson typed.receiver,list_texts,Option.bind_eq_bind,Option.bind_some,guard_true]
  rfl

/-! ### Records are proper documents -/

theorem orNull_proper {α : Type} {write : α → Json} (each : ∀ a, (write a).Proper) (value : Option α) :
    (orNull write value).Proper := by
  cases value with
  | none => trivial
  | some a => exact each a

theorem PayloadManifest.toJson_proper (manifest : PayloadManifest) : manifest.toJson.Proper := by
  refine object_proper (by simp) ?_
  simp only [List.forall_mem_cons]
  exact ⟨nat_proper _,trivial,List.forall_mem_nil _⟩

theorem NativeReceipt.toJson_proper (receipt : NativeReceipt) : receipt.toJson.Proper := by
  refine object_proper (by simp) ?_
  simp only [List.forall_mem_cons]
  exact ⟨orNull_proper intToJson_proper _,orNull_proper intToJson_proper _,trivial,trivial,trivial,trivial,trivial,
    List.forall_mem_nil _⟩

theorem NativeStage.toJson_proper (stage : NativeStage) : stage.toJson.Proper := by
  refine object_proper (by simp) ?_
  simp only [List.forall_mem_cons]
  exact ⟨trivial,orNull_proper str_proper _,orNull_proper NativeReceipt.toJson_proper _,trivial,List.forall_mem_nil _⟩

theorem Transfer.toJsonWith_proper (t : Transfer) {recipient : Option Json} (proper : ∀ value ∈ recipient, value.Proper) :
    (t.toJsonWith recipient).Proper := by
  have fields : ∀ entry ∈ t.fields, entry.2.Proper := by
    simp only [Transfer.fields,List.forall_mem_cons]
    exact ⟨nat_proper _,trivial,trivial,trivial,trivial,trivial,trivial,nat_proper _,nat_proper _,trivial,
      orNull_proper nat_proper _,orNull_proper str_proper _,orNull_proper PayloadManifest.toJson_proper _,trivial,
      t.source.toJson_proper,t.receiver.toJson_proper,texts_proper _,List.forall_mem_nil _⟩
  cases recipient with
  | none => exact object_proper (by simp [Transfer.fields]) fields
  | some value =>
    exact object_proper (by simp [Transfer.fields]) (List.forall_mem_cons.mpr ⟨proper value rfl,fields⟩)
end Proofstorm.Custody
