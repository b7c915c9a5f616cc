import Proofstorm.Outcome
import Mathlib.Data.List.Dedup

/-!
The probe protocol: batches of targets that a worker checks in one request, and
the responses it gives. `Request.validate` is what a worker and the scheduler ask
of a batch before anything is probed.
-/
namespace Proofstorm.Prober

def protocolVersion : UInt32 := 2
def maxBatchTargets : Nat := 32
def maxBatchesPerWorker : Nat := 4

/-- `httpPath` is `none` for a TCP check. -/
structure Target where
  component : String
  rolloutDigest : String
  port : UInt16
  httpPath : Option String
  deriving DecidableEq

structure Request where
  protocolVersion : UInt32
  instanceKey : String
  revisionDigest : String
  batchId : String
  keepAlive : Bool
  targets : List Target
  deriving DecidableEq

/-- The names of the components a batch checks. -/
def Request.components (request : Request) : List String := request.targets.map Target.component

inductive Outcome
  | reachable | connectionRefused | dnsFailed | timedOut | httpError | transportError | busy
  deriving DecidableEq

structure Observation where
  component : String
  rolloutDigest : String
  outcome : Outcome
  elapsedMicros : UInt64
  ageMillis : UInt64
  httpStatus : Option UInt16
  deriving DecidableEq

inductive Response
  | complete (protocolVersion : UInt32) (instanceKey revisionDigest batchId : String) (observations : List Observation)
  | rejected (code : String)
  deriving DecidableEq

/-- The bytes of a string, in UTF-8. -/
def bytes (value : String) : List UInt8 := value.toUTF8.data.toList

def dnsLabel (value : String) : Prop :=
  value ≠ "" ∧ value.utf8ByteSize ≤ 63 ∧
    (∀ b ∈ bytes value, (97 ≤ b ∧ b ≤ 122) ∨ (48 ≤ b ∧ b ≤ 57) ∨ b = 45) ∧
    value.toList.head? ≠ some '-' ∧ value.toList.getLast? ≠ some '-'

instance (value : String) : Decidable (dnsLabel value) := inferInstanceAs (Decidable (_ ∧ _))

/-- A path the HTTP check sends as it stands. -/
def plainPath (path : String) : Prop :=
  path.toList.head? = some '/' ∧ path.utf8ByteSize ≤ 2048 ∧ ∀ c ∈ bytes path, ¬ (c < 32 ∨ c = 127)

instance (path : String) : Decidable (plainPath path) := inferInstanceAs (Decidable (_ ∧ _))

/-- A digest or an id of a batch: not empty and at most 128 bytes. -/
def bounded (value : String) : Prop := value ≠ "" ∧ value.utf8ByteSize ≤ 128

instance (value : String) : Decidable (bounded value) := inferInstanceAs (Decidable (_ ∧ _))

/-- What the check of one target asks, apart from its name being new in the batch. -/
def Target.valid (target : Target) : Prop :=
  dnsLabel target.component ∧ target.port ≠ 0 ∧ bounded target.rolloutDigest ∧
    ∀ path ∈ target.httpPath, plainPath path

instance (target : Target) : Decidable target.valid := inferInstanceAs (Decidable (_ ∧ _))

/-- The loop over the targets of a batch; `ids` are the names seen so far. -/
def validateTargets (ids : List String) : List Target → Except String Unit
  | [] => .ok ()
  | target :: rest => do
    ensure (target.valid ∧ target.component ∉ ids) "invalid_probe_target"
    validateTargets (target.component :: ids) rest

def Request.validate (request : Request) (instanceKey : String) : Except String Unit := do
  ensure (request.protocolVersion = Prober.protocolVersion) "protocol_version_mismatch"
  ensure (request.instanceKey = instanceKey) "instance_mismatch"
  ensure (bounded request.batchId ∧ bounded request.revisionDigest) "invalid_batch_identity"
  ensure (request.targets ≠ [] ∧ request.targets.length ≤ maxBatchTargets) "invalid_batch_size"
  validateTargets [] request.targets

example : (Request.mk 2 "itest" "revision" "batch" false [⟨"chain","rollout",18443,none⟩]).validate "itest" = .ok () := by
  decide +kernel
end Proofstorm.Prober
