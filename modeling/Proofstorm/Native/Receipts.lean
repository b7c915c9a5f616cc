import Proofstorm.Bridge.Control
import Proofstorm.Lifecycle.Workload
import Proofstorm.Ordered
import Proofstorm.Publication.Contract

/-!
The receipts of native commands. A command in `json_fields` mode prints documents,
and of the last of them the receipt shows the leaves that the command selects, when
each is of the type that its field has. What `serde_json` reads in a stream of bytes
is a parameter.
-/
namespace Proofstorm.Native
open Proofstorm.Core (Json)
open Proofstorm.Bridge (NativeCommand receiptFields)
open Proofstorm.Lifecycle (parseU64 unsigned)
open Proofstorm.Publication (splitOnce)

/-- `serde_json::Deserializer::from_slice(bytes).into_iter`: the documents of a
    stream, and `none` in the place of what cannot be read. -/
class JsonStream where
  items : List UInt8 → List (Option Json)

def statusFields : List String := ["status","state","failure_reason"]
def booleanFields : List String := ["settled","synced_to_chain"]
def lifecycleFields : List String := ["seedAccess.state","seedAccess.requiresPassphrase","cocoSession.state"]
def numberFields : List String :=
  ["amount","amount_sat","fee_paid","fee_paid_sat","value_sat","total_fees","total_fees_msat","num_active_channels",
    "balance","confirmed_balance","unconfirmed_balance"]

/-- The words that a status may be. -/
def statusWords : List String :=
  ["PAID","ok","UNPAID","PENDING","ISSUED","SETTLED","SUCCEEDED","FAILED","IN_FLIGHT","OPEN","ACCEPTED","CANCELED",
    "FAILURE_REASON_NONE","FAILURE_REASON_TIMEOUT","FAILURE_REASON_NO_ROUTE","FAILURE_REASON_ERROR",
    "FAILURE_REASON_INCORRECT_PAYMENT_DETAILS","FAILURE_REASON_INSUFFICIENT_BALANCE","FAILURE_REASON_CANCELED"]

def seedStates : List String := ["locked","available"]
def sessionStates : List String := ["stopped","starting","running","stopping","failed"]

def formatInvalid : String := "output_format_invalid"
def fieldMissing : String := "output_field_missing"
def fieldTypeInvalid : String := "output_field_type_invalid"

/-- The type check of `lifecycle_value`. -/
def safeLifecycle (field : String) (item : Json) : Bool :=
  if field = "seedAccess.state" then item.asStr.any (· ∈ seedStates)
  else if field = "seedAccess.requiresPassphrase" then item.asBool.isSome
  else if field = "cocoSession.state" then item.asStr.any (· ∈ sessionStates)
  else false

/-- `lifecycle_value`. -/
def lifecycleValue (value : Json) (field : String) : Except String Json := do
  let (parent,leaf) ← require (splitOnce ['.'] field.toList) fieldMissing
  let node ← require (value.get (.ofList parent)) fieldMissing
  if String.ofList parent = "seedAccess" ∧ node = .null then pure node
  else do
    let item ← require (node.get (.ofList leaf)) fieldMissing
    ensure (safeLifecycle field item) fieldTypeInvalid
    pure item

/-- The type check of `project_receipt`. -/
def safeValue (field : String) (item : Json) : Bool :=
  if field ∈ statusFields then item.asStr.any (· ∈ statusWords)
  else if field ∈ booleanFields then item.asBool.isSome
  else if field ∈ numberFields then item.asU64.isSome || item.asStr.any fun text => (parseU64 text).isSome
  else false

/-- What one field selects. -/
def selectField (value : Json) (field : String) : Except String Json :=
  if field ∈ lifecycleFields then lifecycleValue value field
  else do
    let item ← require (value.get field) fieldMissing
    ensure (safeValue field item) fieldTypeInvalid
    pure item

/-- The loop over the fields. -/
def selectFields (value : Json) (selected : BTreeMap String Json) : List String → Except String (BTreeMap String Json)
  | [] => pure selected
  | field :: rest => do
    let item ← selectField value field
    selectFields value (selected.insert field item) rest

/-- The loop over the stream: the last of its documents, if it is read to its end. -/
def lastDocument (last : Option Json) : List (Option Json) → Except String (Option Json)
  | [] => pure last
  | item :: rest => do
    let value ← require item formatInvalid
    lastDocument (some value) rest

/-- `project_receipt`. -/
def projectReceipt [JsonStream] (bytes : List UInt8) (fields : List String) : Except String Json := do
  let last ← lastDocument none (JsonStream.items bytes)
  let value ← require last formatInvalid
  let selected ← selectFields value ∅ fields
  pure (.object selected.toList)

/-! ### What a receipt may show -/

/-- A text of an unsigned integer of 64 bits: digits, and a plus that may stand before them. -/
def IsDecimal (text : String) : Prop :=
  ∃ digits : List Char, (text.toList = digits ∨ text.toList = '+' :: digits) ∧ digits ≠ [] ∧
    (∀ c ∈ digits, c.isDigit) ∧ Nat.ofDigitChars 10 digits 0 < 2 ^ 64

/-- A number that is an unsigned integer of 64 bits. -/
def IsUnsigned (number : String) : Prop :=
  number.toList ≠ [] ∧ (∀ c ∈ number.toList, c.isDigit) ∧ Nat.ofDigitChars 10 number.toList 0 < 2 ^ 64

/-- The leaves that a field may have. -/
inductive Permitted : String → Json → Prop
  | status {field word : String} (here : field ∈ statusFields) (allowed : word ∈ statusWords) :
      Permitted field (.str word)
  | boolean {field : String} (here : field ∈ booleanFields) (value : Bool) : Permitted field (.bool value)
  | number {field number : String} (here : field ∈ numberFields) (unsigned : IsUnsigned number) :
      Permitted field (.num number)
  | decimal {field text : String} (here : field ∈ numberFields) (decimal : IsDecimal text) :
      Permitted field (.str text)
  | seedState {word : String} (allowed : word ∈ seedStates) : Permitted "seedAccess.state" (.str word)
  | requiresPassphrase (value : Bool) : Permitted "seedAccess.requiresPassphrase" (.bool value)
  | sessionState {word : String} (allowed : word ∈ sessionStates) : Permitted "cocoSession.state" (.str word)

/-- The keys that lead to a field: its own name, or the two names around its dot. -/
def path (field : String) : List String :=
  match splitOnce ['.'] field.toList with
  | some (parent,leaf) => [.ofList parent,.ofList leaf]
  | none => [field]

/-- The leaf that a field selects. -/
def leafAt (value : Json) (field : String) : Option Json := (path field).foldlM Json.get value

/-- The wallet has no seed yet: null stands where its object would be. -/
def Uninitialized (value : Json) (field : String) : Prop :=
  field ∈ ["seedAccess.state","seedAccess.requiresPassphrase"] ∧ value.get "seedAccess" = some .null

def Missing (value : Json) (field : String) : Prop := leafAt value field = none ∧ ¬ Uninitialized value field

def Mistyped (value : Json) (field : String) : Prop :=
  ∃ leaf, leafAt value field = some leaf ∧ ¬ Permitted field leaf

/-- The stream is of documents only, and this is the last of them. -/
def EndsWith [JsonStream] (bytes : List UInt8) (value : Json) : Prop :=
  ∃ earlier : List Json, JsonStream.items bytes = (earlier ++ [value]).map some

end Proofstorm.Native
