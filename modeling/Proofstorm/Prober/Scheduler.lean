import Proofstorm.Ordered
import Proofstorm.Prober.Protocol
import Mathlib.Data.Prod.Lex
import Mathlib.Data.String.Basic

/-!
The scheduler of probe batches. Each cell keeps a heap of due times for its
targets; `dispatch` gives one cell after the other a turn and takes a batch out
of the heap, and `complete` hands the batch back with the next due times. A
counter numbers jobs, cells and targets alike: a job remembers the number of its
cell and of each of its targets, and a late reply counts for the targets whose
number is still the same.
-/
namespace Proofstorm.Prober

def maxInflightBatches : Nat := 8
def checkIntervalMillis : Nat := 5000
def observationTtlMillis : Nat := 30000

/-- The worker's uid is part of it, not only its name. -/
structure Identity where
  instanceKey : String
  incarnation : String
  revisionDigest : String
  workerUid : String
  deriving DecidableEq

structure ScheduledTarget where
  probe : Target
  runtimeDigest : String
  deriving DecidableEq

structure Job where
  identity : Identity
  request : Request
  startedAtMillis : Nat
  id : Nat
  generation : Nat
  targetGenerations : BTreeMap String Nat
  deriving DecidableEq

structure CachedObservation where
  observation : Observation
  runtimeDigest : String
  observedAtMillis : Nat
  deriving DecidableEq

def CachedObservation.isFresh (cached : CachedObservation) (nowMillis : Nat) : Prop :=
  cached.observedAtMillis ≤ nowMillis ∧ nowMillis - cached.observedAtMillis < observationTtlMillis

instance (cached : CachedObservation) (nowMillis : Nat) : Decidable (cached.isFresh nowMillis) :=
  inferInstanceAs (Decidable (_ ∧ _))

/-- When a component is due, and its name; the earlier comes first. -/
@[ext] structure Due where
  millis : Nat
  component : String

instance : LinearOrder Due :=
  LinearOrder.lift' (fun due => toLex (due.millis,due.component)) fun _ _ same =>
    Due.ext (congrArg (·.1) (toLex_inj.mp same)) (congrArg (·.2) (toLex_inj.mp same))

structure Cell where
  identity : Identity
  generation : Nat
  targets : BTreeMap String ScheduledTarget
  targetGenerations : BTreeMap String Nat
  due : Heap Due
  observations : BTreeMap String CachedObservation

structure Scheduler where
  cells : BTreeMap String Cell
  order : List String
  inflight : BTreeMap Nat String
  sequence : Nat

/-- `Scheduler::default()`. -/
def Scheduler.default : Scheduler := ⟨∅,[],∅,0⟩

/-- `map[key]` where the map has no such key. -/
inductive Panic
  | missingKey
  deriving DecidableEq

/-- `map[key]`. -/
def index {ν : Type} (map : BTreeMap String ν) (key : String) : Except Panic ν := require map[key]? .missingKey

/-- `sequence.checked_add(1)`. -/
def nextSequence (sequence : Nat) : Option Nat := if sequence + 1 < 2 ^ 64 then some (sequence + 1) else none

/-! ### Registration -/

/-- The loop over the targets of a chunk; `ids` are the names seen so far. -/
def admitTargets (ids : List String) : List ScheduledTarget → Except String (List String)
  | [] => .ok ids
  | target :: rest => do
    ensure (target.probe.component ∉ ids ∧ bounded target.runtimeDigest) "duplicate_probe_target"
    admitTargets (target.probe.component :: ids) rest

/-- The loop over the chunks of the desired targets. -/
def admitChunks (identity : Identity) (ids : List String) : List (List ScheduledTarget) → Except String Unit
  | [] => .ok ()
  | chunk :: rest => do
    Request.validate
      { protocolVersion := Prober.protocolVersion
        instanceKey := identity.instanceKey
        revisionDigest := identity.revisionDigest
        batchId := "validation"
        keepAlive := false
        targets := chunk.map ScheduledTarget.probe } identity.instanceKey
    let ids ← admitTargets ids chunk
    admitChunks identity ids rest

/-- The desired targets by name. -/
def byName (targets : List ScheduledTarget) : BTreeMap String ScheduledTarget :=
  .collect (targets.map fun target => (target.probe.component,target))

/-- A cell as first registered: every target is due now. -/
def Cell.fresh (identity : Identity) (targets : BTreeMap String ScheduledTarget) (sequence nowMillis : Nat) : Cell where
  identity := identity
  generation := sequence
  targets := targets
  targetGenerations := .collect (targets.keys.map fun key => (key,sequence))
  due := .collect (targets.keys.map fun key => ⟨nowMillis,key⟩)
  observations := ∅

/-- Whether an edit adds, drops or rewrites the target. -/
def Cell.changed (cell : Cell) (targets : BTreeMap String ScheduledTarget) (key : String) : Prop :=
  cell.targets[key]? ≠ targets[key]?

instance (cell : Cell) (targets : BTreeMap String ScheduledTarget) (key : String) : Decidable (cell.changed targets key) :=
  inferInstanceAs (Decidable (_ ≠ _))

/-- A new number for the target, which is due now. -/
def Cell.renew (cell : Cell) (sequence nowMillis : Nat) (key : String) : Cell :=
  { cell with
    targetGenerations := cell.targetGenerations.insert key sequence
    due := cell.due.push (⟨nowMillis,key⟩) }

/-- A cell that keeps its identity under new targets: what did not change stays. -/
def Cell.edit (cell : Cell) (targets : BTreeMap String ScheduledTarget) (sequence nowMillis : Nat) : Cell :=
  let kept :=
    { cell with
      observations := cell.observations.filter fun key _ => ¬ cell.changed targets key
      due := cell.due.retain fun entry => ¬ cell.changed targets entry.component
      targetGenerations := cell.targetGenerations.filter fun key _ => ¬ cell.changed targets key }
  { (targets.keys.filter fun key => cell.changed targets key).foldl (fun cell key => cell.renew sequence nowMillis key) kept with
    targets := targets }

def Scheduler.register (scheduler : Scheduler) (identity : Identity) (targets : List ScheduledTarget) (nowMillis : Nat) :
    Except String (Bool × Scheduler) := do
  ensure (dnsLabel identity.instanceKey ∧ bounded identity.incarnation ∧ bounded identity.revisionDigest ∧
    bounded identity.workerUid) "invalid_probe_identity"
  admitChunks identity [] (targets.toChunks maxBatchTargets)
  let targets := byName targets
  let key := identity.instanceKey
  if ∃ cell ∈ scheduler.cells[key]?, cell.identity = identity ∧ cell.targets = targets then
    return (false,scheduler)
  let sequence ← require (nextSequence scheduler.sequence) "probe_identity_exhausted"
  let order := if key ∈ scheduler.cells then scheduler.order else scheduler.order ++ [key]
  match scheduler.cells[key]?.filter fun cell => cell.identity = identity with
  | some cell =>
    return (true,{ scheduler with sequence, order, cells := scheduler.cells.insert key (cell.edit targets sequence nowMillis) })
  | none =>
    return (true,{ scheduler with sequence, order, cells := scheduler.cells.insert key (.fresh identity targets sequence nowMillis) })

def Scheduler.remove (scheduler : Scheduler) (instanceKey : String) : Scheduler :=
  { scheduler with
    cells := scheduler.cells.erase instanceKey
    order := scheduler.order.filter fun key => key ≠ instanceKey }

/-! ### Dispatch -/

/-- The loop that takes what is due: the batch, and the heap that is left. There
    is no batch where a due name is no target's. -/
def Cell.drain (cell : Cell) (nowMillis : Nat) : Nat → Heap Due → Option (List Target) × Heap Due
  | 0, due => (some [],due)
  | room + 1, due =>
    match due.pop with
    | none => (some [],due)
    | some (entry,rest) =>
      if entry.millis ≤ nowMillis then
        match cell.targets[entry.component]? with
        | none => (none,rest)
        | some target =>
          let (batch,left) := cell.drain nowMillis room rest
          (batch.map (target.probe :: ·),left)
      else (some [],due)

/-- How many jobs of the cell are in flight. -/
def Scheduler.busy (scheduler : Scheduler) (key : String) : Nat := scheduler.inflight.values.countP (· = key)

/-- The numbers of the targets of a batch. -/
def Cell.generationsOf (cell : Cell) (batch : List Target) : Except Panic (BTreeMap String Nat) := do
  let pairs ← batch.mapM fun target => do
    let generation ← index cell.targetGenerations target.component
    return (target.component,generation)
  return .collect pairs

/-- The job of a batch that the cell gives up. -/
def Cell.job (cell : Cell) (key : String) (batch : List Target) (targetGenerations : BTreeMap String Nat)
    (nowMillis id : Nat) : Job where
  identity := cell.identity
  generation := cell.generation
  targetGenerations := targetGenerations
  request :=
    { protocolVersion := Prober.protocolVersion
      instanceKey := key
      revisionDigest := cell.identity.revisionDigest
      batchId := toString id
      keepAlive := false
      targets := batch }
  startedAtMillis := nowMillis
  id := id

/-- The turns of one call, at most one for each entry of the queue. -/
def Scheduler.turns (nowMillis nextId : Nat) : Nat → Scheduler → Except Panic (Option Job × Scheduler)
  | 0, scheduler => .ok (none,scheduler)
  | turns + 1, scheduler =>
    match scheduler.order with
    | [] => .ok (none,scheduler)
    | key :: rest =>
      let scheduler := { scheduler with order := rest ++ [key] }
      if scheduler.busy key ≥ maxBatchesPerWorker then scheduler.turns nowMillis nextId turns
      else
        match scheduler.cells[key]? with
        | none => .ok (none,scheduler)
        | some cell =>
          let (batch,due) := cell.drain nowMillis maxBatchTargets cell.due
          let scheduler := { scheduler with cells := scheduler.cells.insert key { cell with due } }
          match batch with
          | none => .ok (none,scheduler)
          | some [] => scheduler.turns nowMillis nextId turns
          | some batch => do
            let targetGenerations ← cell.generationsOf batch
            return (some (cell.job key batch targetGenerations nowMillis nextId),
              { scheduler with sequence := nextId, inflight := scheduler.inflight.insert nextId key })

def Scheduler.dispatch (scheduler : Scheduler) (nowMillis : Nat) : Except Panic (Option Job × Scheduler) :=
  if scheduler.inflight.size ≥ maxInflightBatches then .ok (none,scheduler)
  else
    match nextSequence scheduler.sequence with
    | none => .ok (none,scheduler)
    | some nextId => scheduler.turns nowMillis nextId scheduler.order.length

/-! ### Completion -/

/-- Whether the cell still has the target under the number the job took it with. -/
def Cell.holds (cell : Cell) (job : Job) (key : String) : Prop :=
  key ∈ job.targetGenerations ∧ cell.targetGenerations[key]? = job.targetGenerations[key]?

instance (cell : Cell) (job : Job) (key : String) : Decidable (cell.holds job key) := inferInstanceAs (Decidable (_ ∧ _))

def Scheduler.jobIsCurrent (scheduler : Scheduler) (job : Job) : Prop :=
  ∃ cell ∈ scheduler.cells[job.identity.instanceKey]?,
    cell.generation = job.generation ∧ ∃ key ∈ job.targetGenerations.keys, cell.holds job key

instance (scheduler : Scheduler) (job : Job) : Decidable (scheduler.jobIsCurrent job) :=
  inferInstanceAs (Decidable (∃ cell ∈ _, _))

/-- Every observation is of another target of the batch, under its rollout digest. -/
def answers (targets : List Target) (seen : List String) : List Observation → Prop
  | [] => True
  | observation :: rest =>
    observation.component ∉ seen ∧
      (∃ target ∈ targets,
        target.component = observation.component ∧ target.rolloutDigest = observation.rolloutDigest) ∧
      answers targets (observation.component :: seen) rest

instance decidableAnswers (targets : List Target) (seen : List String) (observations : List Observation) :
    Decidable (answers targets seen observations) :=
  match observations with
  | [] => .isTrue trivial
  | observation :: rest =>
    have := decidableAnswers targets (observation.component :: seen) rest
    inferInstanceAs (Decidable (_ ∧ _ ∧ _))

def validateResponse (job : Job) : Response → Option (List Observation)
  | .rejected _ => none
  | .complete protocolVersion instanceKey revisionDigest batchId observations =>
    if protocolVersion = Prober.protocolVersion ∧ instanceKey = job.identity.instanceKey ∧
        revisionDigest = job.identity.revisionDigest ∧ batchId = job.request.batchId ∧
        observations.length = job.request.targets.length ∧ answers job.request.targets [] observations then
      some observations
    else none

/-- Deterministic jitter that spreads the due times. -/
def jitter (component : String) : Nat :=
  ((bytes component).foldl (fun hash byte => (hash * 31 + byte.toNat) % 2 ^ 64) 0) % 501

/-- The target is due again, and what was known of it is dropped. -/
def Cell.requeue (cell : Cell) (nowMillis : Nat) (component : String) : Cell :=
  { cell with
    observations := cell.observations.erase component
    due := cell.due.push ⟨min (nowMillis + (checkIntervalMillis + jitter component)) (2 ^ 64 - 1),component⟩ }

def Cell.record (cell : Cell) (job : Job) (observation : Observation) : Except Panic Cell := do
  let target ← index cell.targets observation.component
  return { cell with
    observations := cell.observations.insert observation.component
      { observation, runtimeDigest := target.runtimeDigest, observedAtMillis := job.startedAtMillis } }

/-- A current job's targets come back; `reported` is what a valid response says. -/
def Cell.conclude (cell : Cell) (job : Job) (reported : Option (List Observation)) (nowMillis : Nat) : Except Panic Cell :=
  let current := fun key => cell.holds job key
  let requeued := (job.request.components.filter fun key => current key).foldl (fun cell key => cell.requeue nowMillis key) cell
  ((reported.getD []).filter fun observation => current observation.component).foldlM
    (fun cell observation => cell.record job observation) requeued

def Scheduler.complete (scheduler : Scheduler) (job : Job) (response : Option Response) (nowMillis : Nat) :
    Except Panic (Bool × Scheduler) :=
  let released := { scheduler with inflight := scheduler.inflight.erase job.id }
  if job.id ∉ scheduler.inflight ∨ ¬ released.jobIsCurrent job then .ok (false,released)
  else
    match released.cells[job.identity.instanceKey]? with
    | none => .ok (false,released)
    | some cell => do
      let concluded ← cell.conclude job (response.bind (validateResponse job)) nowMillis
      return (true,{ released with cells := released.cells.insert job.identity.instanceKey concluded })

def Scheduler.observations (scheduler : Scheduler) (identity : Identity) (nowMillis : Nat) :
    BTreeMap String CachedObservation :=
  match scheduler.cells[identity.instanceKey]?.filter fun cell => cell.identity = identity with
  | some cell => cell.observations.filter fun _ cached => cached.isFresh nowMillis
  | none => ∅
end Proofstorm.Prober
